import Athenz.DataModel
import Athenz.JavaToken

namespace Athenz.Zts.Workloads
open Lib Lib.Text Lib.Decimal Lib.Result
set_option autoImplicit true

instance : DecidableEq Java.Long := inferInstanceAs (DecidableEq { n : Int // Java.long n = n })

section Grouping

/-- A record of the workload store; the times are in milliseconds. -/
structure WorkloadRecord where
  instanceId : Str
  provider : Str
  updateTime : Java.Long
  certExpiryTime : Java.Long
  hostname : Option Str
  ip : Str

structure Workload where
  uuid : Str
  provider : Str
  updateTime : Int
  certExpiryTime : Int
  hostname : Option Str
  ipAddresses : List Str
deriving DecidableEq

inductive WorkloadFailure where
  | arrayIndexOutOfBounds
  | numberFormat (message : Str)
deriving DecidableEq

/-- The fields of a record that are joined, a missing hostname as the text for null. -/
def WorkloadRecord.fields (record : WorkloadRecord) : List Str :=
  [record.instanceId, record.provider, Java.showLong record.updateTime.1,
    Java.showLong record.certExpiryTime.1, Java.orNull record.hostname]

def WorkloadRecord.mapKey (record : WorkloadRecord) : Str := [':'].intercalate record.fields

def flattenedIpAddresses (workloadRecords : List WorkloadRecord) : Map Str (List Str) :=
  workloadRecords.foldl (fun addresses record => addresses.appendTo record.mapKey record.ip) ∅

/-- The workload of an entry, its key split again. -/
def toWorkload [DigitRules] (entry : Sigma fun _ : Str => List Str) :
    Except WorkloadFailure Workload := do
  let tempArr := splitTrim ':' entry.1
  let uuid ← require tempArr[0]? .arrayIndexOutOfBounds
  let provider ← require tempArr[1]? .arrayIndexOutOfBounds
  let updateText ← require tempArr[2]? .arrayIndexOutOfBounds
  let updateTime ← (Java.parseLong updateText).mapError .numberFormat
  let expiryText ← require tempArr[3]? .arrayIndexOutOfBounds
  let certExpiryTime ← (Java.parseLong expiryText).mapError .numberFormat
  let hostname ← require tempArr[4]? .arrayIndexOutOfBounds
  return {
    uuid := uuid
    provider := provider
    updateTime := updateTime
    certExpiryTime := certExpiryTime
    hostname := some hostname
    ipAddresses := entry.2 }

def getWorkloadsByService [DigitRules] (workloadStore : Option (Str → Str → List WorkloadRecord))
    (domain service : Str) : Except WorkloadFailure (List Workload) :=
  match workloadStore with
  | none => .ok []
  | some getWorkloadRecordsByService =>
    (flattenedIpAddresses (getWorkloadRecordsByService domain service)).entries.mapM toWorkload

end Grouping

section Fields

/-- What workloads are told apart by. -/
structure Identity where
  instanceId : Str
  provider : Str
  updateTime : Int
  certExpiryTime : Int
  hostname : Option Str
deriving DecidableEq

def WorkloadRecord.identity (record : WorkloadRecord) : Identity where
  instanceId := record.instanceId
  provider := record.provider
  updateTime := record.updateTime.1
  certExpiryTime := record.certExpiryTime.1
  hostname := record.hostname

def Workload.identity (workload : Workload) : Identity where
  instanceId := workload.uuid
  provider := workload.provider
  updateTime := workload.updateTime
  certExpiryTime := workload.certExpiryTime
  hostname := workload.hostname

/-- One workload for each identity, with the addresses of the records that share it. -/
structure Grouped (records : List WorkloadRecord) (workloads : List Workload) : Prop where
  once : (workloads.map Workload.identity).Nodup
  complete : ∀ identity, identity ∈ workloads.map Workload.identity ↔
    identity ∈ records.map WorkloadRecord.identity
  addresses : ∀ workload ∈ workloads, workload.ipAddresses =
    (records.filter fun record => record.identity = workload.identity).map WorkloadRecord.ip

/-- A record whose fields are found again in its key. -/
def WorkloadRecord.Splittable (record : WorkloadRecord) : Prop :=
  ':' ∉ record.instanceId ∧ ':' ∉ record.provider ∧
    ∃ hostname, record.hostname = some hostname ∧ hostname ≠ [] ∧ ':' ∉ hostname

theorem colon_notMem_showLong (n : Int) : ':' ∉ Java.showLong n := by
  intro h
  rw [Java.showLong, Int.toString_eq_repr] at h
  rcases isDigit_or_sign h with h | h
  · exact absurd h (by decide)
  · exact absurd h (by decide)

theorem WorkloadRecord.colon_notMem_fields {record : WorkloadRecord} (hid : ':' ∉ record.instanceId)
    (hprovider : ':' ∉ record.provider) (hhostname : ':' ∉ Java.orNull record.hostname) :
    ∀ field ∈ record.fields, ':' ∉ field := by
  intro field hfield
  simp only [fields, List.mem_cons, List.not_mem_nil, or_false] at hfield
  rcases hfield with rfl | rfl | rfl | rfl | rfl
  · exact hid
  · exact hprovider
  · exact colon_notMem_showLong _
  · exact colon_notMem_showLong _
  · exact hhostname

theorem colon_mem_mapKey (record : WorkloadRecord) : ':' ∈ record.mapKey := by
  unfold WorkloadRecord.mapKey WorkloadRecord.fields
  rw [List.intercalate_cons_of_ne_nil (List.cons_ne_nil _ _)]
  exact List.mem_append_left _ (List.mem_append_right _ List.mem_cons_self)

/-- The pieces of the key of a record without colons; an empty hostname is cut off. -/
theorem WorkloadRecord.splitTrim_mapKey {record : WorkloadRecord} (hid : ':' ∉ record.instanceId)
    (hprovider : ':' ∉ record.provider) (hhostname : ':' ∉ Java.orNull record.hostname) :
    splitTrim ':' record.mapKey = record.fields.rdropWhile (· = []) := by
  rw [splitTrim, if_pos (colon_mem_mapKey record), mapKey,
    List.splitOn_intercalate ':' (colon_notMem_fields hid hprovider hhostname)
      (List.cons_ne_nil _ _)]

theorem WorkloadRecord.Splittable.splitTrim_mapKey {record : WorkloadRecord}
    (h : record.Splittable) : splitTrim ':' record.mapKey = record.fields := by
  obtain ⟨hid, hprovider, hostname, hhostname, hne, hcolon⟩ := h
  rw [WorkloadRecord.splitTrim_mapKey hid hprovider (by rw [hhostname]; exact hcolon),
    List.rdropWhile_eq_self_iff]
  intro _ hlast
  have hlast : Java.orNull record.hostname = [] := of_decide_eq_true hlast
  rw [hhostname] at hlast
  exact hne hlast

end Fields

section Entries

variable {records : List WorkloadRecord}

theorem mem_flattenedIpAddresses :
    ⟨key, addresses⟩ ∈ (flattenedIpAddresses records).entries ↔
      key ∈ records.map WorkloadRecord.mapKey ∧
        addresses = (records.filter fun record => record.mapKey = key).map WorkloadRecord.ip := by
  have hlist : (flattenedIpAddresses records).listAt key =
      (records.filter fun record => record.mapKey = key).map WorkloadRecord.ip := by
    rw [flattenedIpAddresses, Map.listAt_foldl_appendTo, Map.listAt_empty, List.nil_append]
  have hsome : ((flattenedIpAddresses records).lookup key).isSome ↔
      key ∈ records.map WorkloadRecord.mapKey := by
    rw [flattenedIpAddresses, Map.isSome_lookup_foldl_appendTo]
    exact or_iff_left Bool.false_ne_true
  rw [Map.mem_entries_iff, ← hsome, ← hlist]
  constructor
  · intro h
    rw [h]
    exact ⟨rfl, (Map.listAt_of_lookup h).symm⟩
  · rintro ⟨h, rfl⟩
    obtain ⟨list, hlookup⟩ := Option.isSome_iff_exists.1 h
    rw [hlookup, Map.listAt_of_lookup hlookup]

theorem mapKey_congr {record other : WorkloadRecord} (h : record.identity = other.identity) :
    record.mapKey = other.mapKey := by
  simp only [WorkloadRecord.identity, Identity.mk.injEq] at h
  obtain ⟨hid, hprovider, hupdate, hexpiry, hhostname⟩ := h
  simp only [WorkloadRecord.mapKey, WorkloadRecord.fields, hid, hprovider, hupdate, hexpiry,
    hhostname]

theorem colon_notMem_of_piece {key piece : Str} (h : piece ∈ splitTrim ':' key) : ':' ∉ piece :=
  notMem_of_mem_splitOn ((splitTrim_startsWith ':' key).subset h)

variable [DigitRules]

/-- The workload of a key that is split into the fields of a record. -/
theorem toWorkload_of_splittable (addresses : List Str) (hlawful : DigitRules.Lawful) {record : WorkloadRecord}
    (h : record.Splittable) :
    ∃ workload, toWorkload ⟨record.mapKey, addresses⟩ = .ok workload ∧
      workload.identity = record.identity ∧ workload.ipAddresses = addresses := by
  have hsplit := h.splitTrim_mapKey
  obtain ⟨_, _, hostname, hhostname, _⟩ := h
  refine ⟨{
    uuid := record.instanceId
    provider := record.provider
    updateTime := record.updateTime.1
    certExpiryTime := record.certExpiryTime.1
    hostname := some hostname
    ipAddresses := addresses }, ?_, ?_, rfl⟩
  · unfold toWorkload
    dsimp only
    rw [hsplit]
    simp only [WorkloadRecord.fields, List.getElem?_cons_zero, List.getElem?_cons_succ, require,
      bind, Except.bind, Java.parseLong_showLong hlawful, Except.mapError, hhostname, Java.orNull,
      Option.getD_some]
    rfl
  · rw [WorkloadRecord.identity, hhostname]
    rfl

/-- The fields of a workload are pieces of its key. -/
theorem toWorkload_ok {entry : Sigma fun _ : Str => List Str} (h : toWorkload entry = .ok workload) :
    workload.uuid ∈ splitTrim ':' entry.1 ∧ workload.provider ∈ splitTrim ':' entry.1 ∧
      ∃ hostname, (splitTrim ':' entry.1)[4]? = some hostname ∧
        workload.hostname = some hostname := by
  unfold toWorkload at h
  dsimp only at h
  obtain ⟨uuid, huuid, h⟩ := bind_eq_ok.1 h
  obtain ⟨provider, hprovider, h⟩ := bind_eq_ok.1 h
  obtain ⟨_, _, h⟩ := bind_eq_ok.1 h
  obtain ⟨_, _, h⟩ := bind_eq_ok.1 h
  obtain ⟨_, _, h⟩ := bind_eq_ok.1 h
  obtain ⟨_, _, h⟩ := bind_eq_ok.1 h
  obtain ⟨hostname, hhostname, h⟩ := bind_eq_ok.1 h
  cases h
  exact ⟨List.mem_of_getElem? (require_eq_ok.1 huuid),
    List.mem_of_getElem? (require_eq_ok.1 hprovider), hostname, require_eq_ok.1 hhostname, rfl⟩

/-- The records whose fields are found again have the same key exactly when they are alike. -/
theorem mapKey_eq_iff (hlawful : DigitRules.Lawful) {record other : WorkloadRecord}
    (h : record.Splittable) (h' : other.Splittable) :
    record.mapKey = other.mapKey ↔ record.identity = other.identity := by
  refine ⟨fun hkey => ?_, mapKey_congr⟩
  obtain ⟨workload, hworkload, hidentity, _⟩ := toWorkload_of_splittable [] hlawful h
  obtain ⟨workload', hworkload', hidentity', _⟩ :=
    toWorkload_of_splittable [] hlawful h'
  rw [hkey, hworkload'] at hworkload
  cases hworkload
  exact hidentity.symm.trans hidentity'

end Entries

section Service

variable [DigitRules] {records : List WorkloadRecord}

theorem grouped_of_splittable (hlawful : DigitRules.Lawful)
    (h : ∀ record ∈ records, record.Splittable) :
    ∃ workloads, (flattenedIpAddresses records).entries.mapM toWorkload = .ok workloads ∧
      Grouped records workloads := by
  have hentry : ∀ entry ∈ (flattenedIpAddresses records).entries, ∃ record ∈ records,
      entry = ⟨record.mapKey, (records.filter fun other => other.mapKey = record.mapKey).map
        WorkloadRecord.ip⟩ := by
    rintro ⟨key, addresses⟩ hmem
    obtain ⟨hkey, rfl⟩ := mem_flattenedIpAddresses.1 hmem
    obtain ⟨record, hrecord, rfl⟩ := List.mem_map.1 hkey
    exact ⟨record, hrecord, rfl⟩
  have hworkload {entry workload} (hmem : entry ∈ (flattenedIpAddresses records).entries)
      (hok : toWorkload entry = .ok workload) : ∃ record ∈ records,
        entry.1 = record.mapKey ∧ workload.identity = record.identity ∧
          workload.ipAddresses = (records.filter fun other => other.mapKey = record.mapKey).map
            WorkloadRecord.ip := by
    obtain ⟨record, hrecord, rfl⟩ := hentry entry hmem
    obtain ⟨workload', hok', hidentity, haddresses⟩ :=
      toWorkload_of_splittable _ hlawful (h record hrecord)
    rw [hok'] at hok
    cases hok
    exact ⟨record, hrecord, rfl, hidentity, haddresses⟩
  obtain ⟨workloads, hworkloads⟩ : ∃ workloads,
      (flattenedIpAddresses records).entries.mapM toWorkload = .ok workloads := by
    refine mapM_terminates fun entry hmem => ?_
    obtain ⟨record, hrecord, rfl⟩ := hentry entry hmem
    obtain ⟨workload, hok, _⟩ := toWorkload_of_splittable _ hlawful (h record hrecord)
    exact ⟨workload, hok⟩
  refine ⟨workloads, hworkloads, ?_, ?_, ?_⟩
  · refine nodup_mapM hworkloads (flattenedIpAddresses records).nodupKeys.nodup ?_
    intro entry hmem entry' hmem' workload workload' hok hok' hsame
    obtain ⟨record, hrecord, hkey, hidentity, _⟩ := hworkload hmem hok
    obtain ⟨record', hrecord', hkey', hidentity', _⟩ := hworkload hmem' hok'
    have hkeys : record.mapKey = record'.mapKey :=
      mapKey_congr (hidentity.symm.trans (hsame.trans hidentity'))
    rw [← hkey, ← hkey'] at hkeys
    obtain ⟨key, addresses⟩ := entry
    obtain ⟨key', addresses'⟩ := entry'
    obtain rfl : key = key' := hkeys
    rw [(mem_flattenedIpAddresses.1 hmem).2, (mem_flattenedIpAddresses.1 hmem').2]
  · intro identity
    constructor
    · intro hidentity
      obtain ⟨workload, hmem, rfl⟩ := List.mem_map.1 hidentity
      obtain ⟨entry, hentryMem, hok⟩ := (mem_mapM hworkloads).1 hmem
      obtain ⟨record, hrecord, _, hsame, _⟩ := hworkload hentryMem hok
      exact List.mem_map.2 ⟨record, hrecord, hsame.symm⟩
    · intro hidentity
      obtain ⟨record, hrecord, rfl⟩ := List.mem_map.1 hidentity
      obtain ⟨workload, hok, hsame, _⟩ := toWorkload_of_splittable
        ((records.filter fun other => other.mapKey = record.mapKey).map WorkloadRecord.ip) hlawful
        (h record hrecord)
      refine List.mem_map.2 ⟨workload, (mem_mapM hworkloads).2 ⟨_, ?_, hok⟩, hsame⟩
      exact mem_flattenedIpAddresses.2 ⟨List.mem_map_of_mem hrecord, rfl⟩
  · intro workload hmem
    obtain ⟨entry, hentryMem, hok⟩ := (mem_mapM hworkloads).1 hmem
    obtain ⟨record, hrecord, _, hsame, haddresses⟩ := hworkload hentryMem hok
    rw [haddresses, hsame]
    congr 1
    refine List.filter_congr fun other hother => ?_
    rw [decide_eq_decide]
    exact mapKey_eq_iff hlawful (h other hother) (h record hrecord)

theorem splittable_of_grouped
    (hworkloads : (flattenedIpAddresses records).entries.mapM toWorkload = .ok workloads)
    (h : Grouped records workloads) : ∀ record ∈ records, record.Splittable := by
  intro record hrecord
  obtain ⟨workload, hmem, hsame⟩ :=
    List.mem_map.1 ((h.complete record.identity).2 (List.mem_map_of_mem hrecord))
  obtain ⟨entry, hentry, hok⟩ := (mem_mapM hworkloads).1 hmem
  obtain ⟨huuid, hprovider, hostname, hpiece, hhostname⟩ := toWorkload_ok hok
  simp only [Workload.identity, WorkloadRecord.identity, Identity.mk.injEq] at hsame
  obtain ⟨hsameId, hsameProvider, _, _, hsameHostname⟩ := hsame
  have hid : ':' ∉ record.instanceId := hsameId ▸ colon_notMem_of_piece huuid
  have hprov : ':' ∉ record.provider := hsameProvider ▸ colon_notMem_of_piece hprovider
  have hcolon : ':' ∉ hostname := colon_notMem_of_piece (List.mem_of_getElem? hpiece)
  have hrecordHostname : record.hostname = some hostname := hsameHostname.symm.trans hhostname
  refine ⟨hid, hprov, hostname, hrecordHostname, ?_, hcolon⟩
  rintro rfl
  have hown : ⟨record.mapKey, (records.filter fun other => other.mapKey = record.mapKey).map
      WorkloadRecord.ip⟩ ∈ (flattenedIpAddresses records).entries :=
    mem_flattenedIpAddresses.2 ⟨List.mem_map_of_mem hrecord, rfl⟩
  obtain ⟨own, hownOk⟩ := mapM_ok_of_mem hworkloads hown
  obtain ⟨_, _, text, htext, _⟩ := toWorkload_ok hownOk
  have hsplit := WorkloadRecord.splitTrim_mapKey hid hprov (by rw [hrecordHostname]; exact hcolon)
  have hfields : record.fields = [record.instanceId, record.provider,
      Java.showLong record.updateTime.1, Java.showLong record.certExpiryTime.1] ++ [[]] := by
    rw [WorkloadRecord.fields, hrecordHostname]
    rfl
  have hshort : (splitTrim ':' record.mapKey).length ≤ 4 := by
    rw [hsplit, hfields, List.rdropWhile_concat, if_pos (decide_eq_true rfl)]
    exact (List.rdropWhile_prefix _ _).length_le
  rw [List.getElem?_eq_none hshort] at htext
  cases htext

/-- The records of a service are grouped without a loss exactly when the fields of each of them are
found again in its key. -/
theorem workloads_grouped_iff (hlawful : DigitRules.Lawful)
    (getWorkloadRecordsByService : Str → Str → List WorkloadRecord) (domain service : Str) :
    (∃ workloads,
      getWorkloadsByService (some getWorkloadRecordsByService) domain service = .ok workloads ∧
        Grouped (getWorkloadRecordsByService domain service) workloads) ↔
      ∀ record ∈ getWorkloadRecordsByService domain service, record.Splittable := by
  constructor
  · rintro ⟨workloads, hworkloads, h⟩
    exact splittable_of_grouped hworkloads h
  · exact grouped_of_splittable hlawful

end Service

section Sample

local instance workloadDigitRules : DigitRules := .ascii

def workloadRecord (hostname : Option Str) (ip : Str) : WorkloadRecord where
  instanceId := "i-1"
  provider := "sys.aws"
  updateTime := .ofInt 1000
  certExpiryTime := .ofInt 2000
  hostname := hostname
  ip := ip

theorem host_records_grouped :
    (∃ workloads, getWorkloadsByService
        (some fun _ _ => [workloadRecord (some "host") "10.0.0.1", workloadRecord (some "host") "10.0.0.2"])
        "sports" "api" = .ok workloads ∧
      Grouped [workloadRecord (some "host") "10.0.0.1", workloadRecord (some "host") "10.0.0.2"]
        workloads) ↔
      ∀ record ∈ [workloadRecord (some "host") "10.0.0.1", workloadRecord (some "host") "10.0.0.2"],
        record.Splittable :=
  workloads_grouped_iff DigitRules.ascii_lawful
    (fun _ _ => [workloadRecord (some "host") "10.0.0.1", workloadRecord (some "host") "10.0.0.2"])
    "sports" "api"

/-- An empty hostname ends the request, and the hostname made for an IPv6 address is cut at its
first colon. -/
theorem hostnames_lost :
    getWorkloadsByService (some fun _ _ => [workloadRecord (some []) "10.0.0.1"]) "sports" "api" =
        .error .arrayIndexOutOfBounds ∧
      (getWorkloadsByService (some fun _ _ => [workloadRecord (some "sports.api.2001:db8::1") "2001:db8::1"])
        "sports" "api").map (·.map Workload.hostname) = .ok [some "sports.api.2001"] ∧
      ¬ ∃ workloads, getWorkloadsByService
          (some fun _ _ => [workloadRecord (some "sports.api.2001:db8::1") "2001:db8::1"])
          "sports" "api" = .ok workloads ∧
        Grouped [workloadRecord (some "sports.api.2001:db8::1") "2001:db8::1"] workloads := by
  refine ⟨by decide +kernel, by decide +kernel, ?_⟩
  rintro ⟨workloads, hok, h⟩
  obtain ⟨_, _, hostname, hhostname, _, hcolon⟩ :=
    splittable_of_grouped hok h _ List.mem_cons_self
  cases hhostname
  exact hcolon (by decide)

end Sample

end Athenz.Zts.Workloads
