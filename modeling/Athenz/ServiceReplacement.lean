import Mathlib.Data.List.Dedup
import Athenz.DbServiceWhole
import Athenz.StoreSpec

namespace Athenz.ZmsServer
open Lib Lib.Text Lib.Transaction
set_option autoImplicit true

section Keys

/-- The key identifiers and the values of a request. -/
def ServiceIdentity.keys (service : ServiceIdentity) : List PublicKeyEntry :=
  service.publicKeys.getD []

def DistinctKeys (service : ServiceIdentity) : Prop := (service.keys.map (·.id)).Nodup

theorem DistinctKeys.eq (h : DistinctKeys service) (hx : x ∈ service.keys) (hy : y ∈ service.keys)
    (hid : x.id = y.id) : x = y :=
  List.inj_on_of_nodup_map h hx hy hid

theorem lookup_keyMap {publicKeys : Option (List PublicKeyEntry)}
    (h : ((publicKeys.getD []).map (·.id)).Nodup) :
    (keyMap publicKeys).lookup keyId = some entry ↔ entry ∈ publicKeys.getD [] ∧ entry.id = keyId := by
  unfold keyMap
  refine (Map.lookup_foldl_insert h).trans ?_
  rw [AList.lookup_empty]
  simp only [reduceCtorEq, and_false, or_false, exists_eq_right_right]

theorem mem_keyMap {publicKeys : Option (List PublicKeyEntry)}
    (h : ((publicKeys.getD []).map (·.id)).Nodup) :
    keyId ∈ keyMap publicKeys ↔ ∃ entry ∈ publicKeys.getD [], entry.id = keyId := by
  rw [← AList.lookup_isSome, Option.isSome_iff_exists]
  exact exists_congr fun entry => lookup_keyMap h

theorem mem_entries_keyMap {publicKeys : Option (List PublicKeyEntry)}
    (h : ((publicKeys.getD []).map (·.id)).Nodup) {p : Str → PublicKeyEntry → Bool} :
    entry ∈ ((keyMap publicKeys).filter p).entries.map (·.2) ↔
      entry ∈ publicKeys.getD [] ∧ p entry.id entry = true := by
  constructor
  · intro hentry
    obtain ⟨⟨keyId, _⟩, hmem, rfl⟩ := List.mem_map.1 hentry
    obtain ⟨hlookup, hp⟩ := Map.lookup_filter.1 (Map.mem_entries_iff.1 hmem)
    obtain ⟨hrequested, rfl⟩ := (lookup_keyMap h).1 hlookup
    exact ⟨hrequested, hp⟩
  · rintro ⟨hrequested, hp⟩
    refine List.mem_map.2 ⟨⟨entry.id, entry⟩, Map.mem_entries_iff.2 ?_, rfl⟩
    exact Map.lookup_filter.2 ⟨(lookup_keyMap h).2 ⟨hrequested, rfl⟩, hp⟩

theorem nodup_entries_keyMap {publicKeys : Option (List PublicKeyEntry)}
    (h : ((publicKeys.getD []).map (·.id)).Nodup) (p : Str → PublicKeyEntry → Bool) :
    ((((keyMap publicKeys).filter p).entries.map (·.2)).map (·.id)).Nodup := by
  have hkeys : (((keyMap publicKeys).filter p).entries.map (·.2)).map (·.id) =
      ((keyMap publicKeys).filter p).keys := by
    rw [List.map_map]
    refine List.map_congr_left fun entry hentry => ?_
    obtain ⟨hlookup, _⟩ := Map.lookup_filter.1 (Map.mem_entries_iff.1 hentry)
    exact ((lookup_keyMap h).1 hlookup).2
  rw [hkeys]
  exact ((keyMap publicKeys).filter p).nodupKeys

theorem distinct_saved (row : ServiceRow) :
    (((saveService domainName serviceName row).publicKeys.getD []).map (·.id)).Nodup := by
  unfold saveService
  dsimp only [Option.getD_some]
  rw [List.map_map]
  exact row.publicKeys.nodupKeys

theorem mem_keyMap_saved {row : ServiceRow} :
    keyId ∈ keyMap (saveService domainName serviceName row).publicKeys ↔
      (row.publicKeys.lookup keyId).isSome := by
  rw [mem_keyMap (distinct_saved row), AList.lookup_isSome, AList.mem_keys]
  unfold saveService AList.keys List.keys
  dsimp only [Option.getD_some]
  simp only [List.mem_map, exists_exists_and_eq_and]

end Keys

section Rows

def ServiceRow.deleteKey (row : ServiceRow) (id : Str) : ServiceRow :=
  { row with publicKeys := row.publicKeys.erase id }

def ServiceRow.insertKey (row : ServiceRow) (entry : PublicKeyEntry) : ServiceRow :=
  { row with publicKeys := row.publicKeys.insert entry.id entry.key }

def ServiceRow.deleteHost (row : ServiceRow) (host : Str) : ServiceRow :=
  { row with hosts := row.hosts.filter (· ≠ host) }

def ServiceRow.insertHost (row : ServiceRow) (host : Str) : ServiceRow :=
  { row with hosts := row.hosts ++ [host] }

theorem foldl_deleteKey (ids : List Str) (row : ServiceRow) :
    ids.foldl ServiceRow.deleteKey row =
      { row with publicKeys := ids.foldl (fun m id => m.erase id) row.publicKeys } := by
  induction ids generalizing row with
  | nil => rfl
  | cons id ids ih => exact ih _

theorem foldl_insertKey (entries : List PublicKeyEntry) (row : ServiceRow) :
    entries.foldl ServiceRow.insertKey row = { row with
      publicKeys := entries.foldl (fun m entry => m.insert entry.id entry.key) row.publicKeys } := by
  induction entries generalizing row with
  | nil => rfl
  | cons entry entries ih => exact ih _

theorem foldl_deleteHost (hosts : List Str) (row : ServiceRow) :
    hosts.foldl ServiceRow.deleteHost row =
      { row with hosts := row.hosts.filter (· ∉ hosts) } := by
  induction hosts generalizing row with
  | nil => simp only [List.foldl_nil, List.not_mem_nil, not_false_eq_true, decide_true,
      List.filter_true]
  | cons host hosts ih =>
    rw [List.foldl_cons, ih, ServiceRow.deleteHost, List.filter_filter]
    simp only [List.mem_cons, not_or, ne_eq, Bool.decide_and, Bool.and_comm]

theorem foldl_insertHost (hosts : List Str) (row : ServiceRow) :
    hosts.foldl ServiceRow.insertHost row = { row with hosts := row.hosts ++ hosts } := by
  induction hosts generalizing row with
  | nil => rw [List.foldl_nil, List.append_nil]
  | cons host hosts ih =>
    rw [List.foldl_cons, ih, ServiceRow.insertHost, List.append_assoc, List.singleton_append]

end Rows

section Merge

/-- A service behind an update: a key of the request that was stored before has kept its value. -/
structure Merged (service : ServiceIdentity) (keys : Map Str Str) (row : ServiceRow) : Prop where
  publicKeys : ∀ keyId value, row.publicKeys.lookup keyId = some value ↔
    (∃ entry ∈ service.keys, entry.id = keyId) ∧
      (keys.lookup keyId = some value ∨ keys.lookup keyId = none ∧ ⟨keyId, value⟩ ∈ service.keys)
  hosts : ∀ host, host ∈ row.hosts ↔ host ∈ service.hosts.getD []

/-- The request asks for no other value of a key that is stored. -/
def Reused (service : ServiceIdentity) (keys : Map Str Str) : Prop :=
  ∀ entry ∈ service.keys, ∀ value, keys.lookup entry.id = some value → value = entry.key

theorem Merged.lookup_of_mem (h : Merged service keys row) (hentry : entry ∈ service.keys)
    (hvalue : keys.lookup entry.id = some value) : row.publicKeys.lookup entry.id = some value :=
  (h.publicKeys _ _).2 ⟨⟨entry, hentry, rfl⟩, .inl hvalue⟩

theorem Merged.reused_iff (h : Merged service keys row) (hdistinct : DistinctKeys service) :
    Reused service row.publicKeys ↔ Reused service keys := by
  constructor
  · intro hreused entry hentry value hvalue
    exact hreused entry hentry value (h.lookup_of_mem hentry hvalue)
  · intro hreused entry hentry value hvalue
    obtain ⟨_, hkept | ⟨_, hnew⟩⟩ := (h.publicKeys _ _).1 hvalue
    · exact hreused entry hentry value hkept
    · exact congrArg PublicKeyEntry.key (hdistinct.eq hnew hentry rfl)

theorem Merged.replaced_iff (h : Merged service keys row) (hdistinct : DistinctKeys service) :
    (∀ keyId value, row.publicKeys.lookup keyId = some value ↔ ⟨keyId, value⟩ ∈ service.keys) ↔
      Reused service keys := by
  constructor
  · intro hreplaced entry hentry value hvalue
    have hmem := (hreplaced _ _).1 (h.lookup_of_mem hentry hvalue)
    exact congrArg PublicKeyEntry.key (hdistinct.eq hmem hentry rfl)
  · intro hreused keyId value
    rw [h.publicKeys]
    constructor
    · rintro ⟨⟨entry, hentry, rfl⟩, hkept | ⟨_, hnew⟩⟩
      · rw [hreused entry hentry value hkept]
        exact hentry
      · exact hnew
    · intro hmem
      refine ⟨⟨_, hmem, rfl⟩, ?_⟩
      cases hstored : keys.lookup keyId with
      | none => exact .inr ⟨rfl, hmem⟩
      | some stored => exact .inl (congrArg some (hreused _ hmem stored hstored))

/-- The service behind the removal and the insertion of keys and hosts. -/
def ServiceRow.replaced (row : ServiceRow) (goneKeys : List Str) (newKeys : List PublicKeyEntry)
    (goneHosts newHosts : List Str) : ServiceRow :=
  newHosts.foldl ServiceRow.insertHost (goneHosts.foldl ServiceRow.deleteHost
    (newKeys.foldl ServiceRow.insertKey (goneKeys.foldl ServiceRow.deleteKey row)))

theorem lookup_replaced {row : ServiceRow} (h : (newKeys.map (·.id)).Nodup) :
    (row.replaced goneKeys newKeys goneHosts newHosts).publicKeys.lookup keyId = some value ↔
      ⟨keyId, value⟩ ∈ newKeys ∨ keyId ∉ newKeys.map (·.id) ∧ keyId ∉ goneKeys ∧
        row.publicKeys.lookup keyId = some value := by
  rw [ServiceRow.replaced, foldl_insertHost, foldl_deleteHost, foldl_insertKey, foldl_deleteKey]
  dsimp only
  rw [Map.lookup_foldl_insert h, Map.lookup_foldl_erase]
  refine or_congr ⟨?_, fun hmem => ⟨_, hmem, rfl, rfl⟩⟩ (and_congr_right fun _ => ?_)
  · rintro ⟨entry, hmem, rfl, rfl⟩
    exact hmem
  · by_cases hgone : keyId ∈ goneKeys
    · simp only [hgone, if_true, reduceCtorEq, not_true_eq_false, false_and]
    · simp only [hgone, if_false, not_false_eq_true, true_and]

theorem mem_hosts_replaced {row : ServiceRow} :
    host ∈ (row.replaced goneKeys newKeys goneHosts newHosts).hosts ↔
      host ∈ row.hosts ∧ host ∉ goneHosts ∨ host ∈ newHosts := by
  rw [ServiceRow.replaced, foldl_insertHost, foldl_deleteHost, foldl_insertKey, foldl_deleteKey]
  dsimp only
  rw [List.mem_append, List.mem_filter, decide_eq_true_eq]

theorem replaced_merged (row stored : ServiceRow) (goneKeys : List Str)
    (hkeys : row.publicKeys = stored.publicKeys) (hhosts : row.hosts = stored.hosts)
    (hgone : ∀ keyId, keyId ∈ goneKeys ↔
      (stored.publicKeys.lookup keyId).isSome ∧ ¬ ∃ entry ∈ service.keys, entry.id = keyId)
    (hnodup : (newKeys.map (·.id)).Nodup)
    (hnew : ∀ entry, entry ∈ newKeys ↔
      entry ∈ service.keys ∧ stored.publicKeys.lookup entry.id = none)
    (hgoneHosts : ∀ host, host ∈ goneHosts ↔ host ∈ stored.hosts ∧ host ∉ service.hosts.getD [])
    (hnewHosts : ∀ host, host ∈ newHosts ↔ host ∈ service.hosts.getD [] ∧ host ∉ stored.hosts) :
    Merged service stored.publicKeys (row.replaced goneKeys newKeys goneHosts newHosts) where
  publicKeys := by
    intro keyId value
    have hid : keyId ∈ newKeys.map (·.id) ↔
        (∃ entry ∈ service.keys, entry.id = keyId) ∧ stored.publicKeys.lookup keyId = none := by
      rw [List.mem_map]
      constructor
      · rintro ⟨entry, hmem, rfl⟩
        exact ⟨⟨entry, ((hnew entry).1 hmem).1, rfl⟩, ((hnew entry).1 hmem).2⟩
      · rintro ⟨⟨entry, hmem, rfl⟩, hnone⟩
        exact ⟨entry, (hnew entry).2 ⟨hmem, hnone⟩, rfl⟩
    rw [lookup_replaced hnodup, hid, hgone, hnew, hkeys]
    cases hstored : stored.publicKeys.lookup keyId with
    | none =>
      simp only [and_true, reduceCtorEq, and_false, or_false, false_or, true_and]
      exact ⟨fun hmem => ⟨⟨_, hmem, rfl⟩, hmem⟩, And.right⟩
    | some kept =>
      simp only [reduceCtorEq, and_false, false_or, not_false_eq_true, Option.isSome_some, true_and,
        not_not, false_and, or_false]
  hosts := by
    intro host
    rw [mem_hosts_replaced, hhosts, hgoneHosts, hnewHosts]
    by_cases hstored : host ∈ stored.hosts
    · simp only [hstored, true_and, not_not, not_true_eq_false, and_false, or_false]
    · simp only [hstored, false_and, not_false_eq_true, and_true, false_or]

end Merge

section Process

variable {service : ServiceIdentity}

theorem insertKeys_accepts (entries : List PublicKeyEntry) :
    (serviceFocus domainName serviceName).Accepts
      (Tx.forAll (insertPublicKeyEntry domainName serviceName) entries)
      fun row row' => row' = entries.foldl ServiceRow.insertKey row := by
  refine .forAll fun entry _ => onService_accepts fun stored stored' h => ?_
  split at h
  · cases h
  · cases h
    rfl

theorem deleteKeys_accepts (ids : List Str) :
    (serviceFocus domainName serviceName).Accepts
      (Tx.forAll (deletePublicKeyEntry domainName serviceName) ids)
      fun row row' => row' = ids.foldl ServiceRow.deleteKey row := by
  refine .forAll fun keyId _ => onService_accepts fun stored stored' h => ?_
  rw [Except.ok.injEq, Prod.mk.injEq] at h
  exact h.2.symm

theorem insertHosts_accepts (hosts : List Str) :
    (serviceFocus domainName serviceName).Accepts
      (Tx.forAll (insertServiceHost domainName serviceName) hosts)
      fun row row' => row' = hosts.foldl ServiceRow.insertHost row := by
  refine .forAll fun host _ => onService_accepts fun stored stored' h => ?_
  split at h
  · cases h
  · cases h
    rfl

theorem deleteHosts_accepts (hosts : List Str) :
    (serviceFocus domainName serviceName).Accepts
      (Tx.forAll (deleteServiceHost domainName serviceName) hosts)
      fun row row' => row' = hosts.foldl ServiceRow.deleteHost row := by
  refine .forAll fun host _ => onService_accepts fun stored stored' h => ?_
  rw [Except.ok.injEq, Prod.mk.injEq] at h
  exact h.2.symm

theorem updateServiceIdentity_accepts (service : ServiceIdentity)
    (hname : service.name = domainName ++ "." ++ serviceName) :
    (serviceFocus domainName serviceName).Accepts (updateServiceIdentity domainName service)
      fun row row' => row' = service.row row := by
  unfold updateServiceIdentity
  rw [hname, objectName_append]
  refine onService_accepts fun stored stored' h => ?_
  cases h
  rfl

theorem updateService_accepts (hname : service.name = domainName ++ "." ++ serviceName)
    (hdistinct : DistinctKeys service) (stored : ServiceRow) :
    (serviceFocus domainName serviceName).Accepts
      (processServiceIdentity (saveService domainName serviceName stored) domainName serviceName
        service false)
      fun row row' => row = stored → Merged service stored.publicKeys row' := by
  unfold processServiceIdentity
  refine (((updateServiceIdentity_accepts { service with
    providerEndpoint := (saveService domainName serviceName stored).providerEndpoint } hname).both
    ((deleteKeys_accepts _).both (insertKeys_accepts _))).both
    ((deleteHosts_accepts _).both (insertHosts_accepts _))).mono ?_
  rintro row row' ⟨_, ⟨_, rfl, _, rfl, rfl⟩, _, rfl, rfl⟩ rfl
  have hhosts : ((saveService domainName serviceName row).hosts.getD []) = row.hosts := by
    unfold saveService
    dsimp only
    split
    · rename_i hempty
      exact hempty.symm
    · rfl
  refine replaced_merged _ row _ rfl rfl ?_ (nodup_entries_keyMap hdistinct _) ?_ ?_ ?_
  · intro keyId
    rw [← AList.mem_keys, ← AList.lookup_isSome, Option.isSome_iff_exists]
    simp only [Map.lookup_filter, decide_eq_true_eq, exists_and_right]
    rw [← Option.isSome_iff_exists, AList.lookup_isSome, mem_keyMap_saved, mem_keyMap hdistinct]
    rfl
  · intro entry
    rw [mem_entries_keyMap hdistinct, decide_eq_true_eq, mem_keyMap_saved, Option.isSome_iff_ne_none,
      not_not]
    rfl
  · intro host
    rw [Option.bind_some, hhosts, List.mem_filter, decide_eq_true_eq, List.mem_dedup,
      List.mem_dedup]
  · intro host
    rw [Option.bind_some, hhosts, List.mem_filter, decide_eq_true_eq, List.mem_dedup,
      List.mem_dedup]

theorem createService_accepts (hname : service.name = domainName ++ "." ++ serviceName)
    (hdistinct : DistinctKeys service) :
    Tx.Accepts (processServiceIdentity none domainName serviceName service false)
      fun _ db' => ∃ row, db'.service domainName serviceName = some row ∧ Merged service ∅ row := by
  have hinsert : Tx.Accepts (insertServiceIdentity domainName
      { service with providerEndpoint := none }) fun _ db' => ∃ row,
        db'.service domainName serviceName = some row ∧ row.publicKeys = ∅ ∧ row.hosts = [] := by
    unfold insertServiceIdentity
    rw [hname, objectName_append]
    refine (onDomain_returns _).toAccepts.mono ?_
    rintro db db' ⟨row, row', hrow, hf, rfl⟩
    split at hf
    · cases hf
    · cases hf
      refine ⟨ServiceIdentity.row { service with providerEndpoint := none } emptyServiceRow, ?_, rfl,
        rfl⟩
      exact Option.bind_eq_some_iff.2
        ⟨_, (domainFocus domainName).get_put hrow _, AList.lookup_insert _⟩
  unfold processServiceIdentity
  refine ((hinsert.both (insertKeys_accepts _)).both
    ((deleteHosts_accepts _).both (insertHosts_accepts _))).mono ?_
  rintro db db' ⟨db₂, ⟨db₁, ⟨row, hrow, hkeys, hhosts⟩, hinserted⟩, hput⟩
  obtain ⟨row₂, rfl, hreach⟩ := hinserted row hrow
  obtain ⟨row', ⟨_, rfl, rfl⟩, hreach'⟩ := hput _ (hreach.get hrow)
  refine ⟨_, hreach'.get (hreach.get hrow), ?_⟩
  refine replaced_merged row { row with publicKeys := ∅, hosts := [] } [] hkeys hhosts ?_ hdistinct
    ?_ ?_ ?_
  · intro keyId
    simp only [List.not_mem_nil, AList.lookup_empty, Option.isSome_none, Bool.false_eq_true,
      false_and]
  · intro entry
    simp only [AList.lookup_empty, and_true]
    rfl
  · intro host
    rw [List.mem_filter, List.mem_dedup]
    exact ⟨fun h => absurd h.1 List.not_mem_nil, fun h => absurd h.1 List.not_mem_nil⟩
  · intro host
    rw [List.mem_filter, List.mem_dedup, decide_eq_true_eq, List.mem_dedup]
    rfl

end Process

section Run

def Database.storedKeys (db : Database) (domainName serviceName : Str) : Map Str Str :=
  ((db.service domainName serviceName).map (·.publicKeys)).getD ∅

variable {service : ServiceIdentity}

theorem processServiceIdentity_accepts (hname : service.name = domainName ++ "." ++ serviceName)
    (hdistinct : DistinctKeys service) (original : Option ServiceRow) :
    Tx.Accepts (processServiceIdentity (original.map (saveService domainName serviceName))
      domainName serviceName service false)
      fun db db' => db.service domainName serviceName = original → ∃ row,
        db'.service domainName serviceName = some row ∧
          Merged service (db.storedKeys domainName serviceName) row := by
  cases original with
  | none =>
    refine (createService_accepts hname hdistinct).mono fun db db' h hnone => ?_
    rw [Database.storedKeys, hnone]
    exact h
  | some stored =>
    refine Tx.Accepts.mono (updateService_accepts hname hdistinct stored) fun db db' h hsome => ?_
    obtain ⟨row, hmerged, hreach⟩ := h stored hsome
    rw [Database.storedKeys, hsome]
    exact ⟨row, hreach.get hsome, hmerged rfl⟩

theorem putServiceIdentityBody_returns (config : Config) (ctx : Context)
    (hname : service.name = domainName ++ "." ++ serviceName) (hdistinct : DistinctKeys service) :
    Tx.Returns (putServiceIdentityBody config ctx domainName serviceName service)
      fun db _ db' => ∃ row, db'.service domainName serviceName = some row ∧
        Merged service (db.storedKeys domainName serviceName) row := by
  refine (checkDomainAuditEnabled_reading _ _ _ _).returns_bind fun _ =>
    (checkServiceIdentityQuota_reading _ _ _).returns_bind fun _ => ?_
  have hread : getServiceIdentity domainName serviceName = Tx.query fun db : Database =>
      (db.service domainName serviceName).map (saveService domainName serviceName) := by
    unfold getServiceIdentity Database.service
    congr 1
    funext db
    exact (Option.map_bind ..).symm
  rw [hread]
  exact (Tx.Returns.query_bind fun db => (processServiceIdentity_accepts hname hdistinct
    (db.service domainName serviceName)).ensure_bind _).mono fun db _ db' h => h rfl

theorem storedKeys_stampDomain (domainName : Str) (time : Int) (db : Database) (serviceName : Str) :
    (stampDomain domainName time db).storedKeys domainName serviceName =
      db.storedKeys domainName serviceName := by
  unfold Database.storedKeys
  rw [service_stampDomain]

theorem storedKeys_of_service (h : Database.service db domainName serviceName = some row) :
    db.storedKeys domainName serviceName = row.publicKeys := by
  unfold Database.storedKeys
  rw [h]
  rfl

theorem executePutServiceIdentity_reused (config : Config) (ctx : Context)
    (hname : service.name = domainName ++ "." ++ serviceName) (hdistinct : DistinctKeys service)
    (db : Database) (events : Nat → Event Failure) :
    Reused service ((executePutServiceIdentity config ctx domainName serviceName service db
      events).2.storedKeys domainName serviceName) ↔
      Reused service (db.storedKeys domainName serviceName) := by
  have hbody := putServiceIdentityBody_returns config ctx hname hdistinct
  have hiff : Tx.Returns (putServiceIdentityBody config ctx domainName serviceName service)
      fun db _ db' => (Reused service (db'.storedKeys domainName serviceName) ↔
        Reused service (db.storedKeys domainName serviceName)) := by
    refine hbody.mono fun db _ db' ⟨row, hrow, hmerged⟩ => ?_
    rw [storedKeys_of_service hrow]
    exact hmerged.reused_iff hdistinct
  refine Tx.attempts_saved_invariant
    (I := fun db' => Reused service (db'.storedKeys domainName serviceName) ↔
      Reused service (db.storedKeys domainName serviceName))
    (putServiceIdentityBody_whole config ctx domainName serviceName service).atomic
    (hiff.mono fun db₁ _ db₂ h hdb => h.trans hdb) (fun time db₁ h => ?_) Iff.rfl
  rw [storedKeys_stampDomain]
  exact h

/-- A put of a service leaves its hosts and its keys as the request has them, but for a stored key
for which the request has another value. -/
theorem executePutServiceIdentity_replaces {config : Config}
    (hname : service.name = domainName ++ "." ++ serviceName) (hdistinct : DistinctKeys service)
    (h : executePutServiceIdentity config ctx domainName serviceName service db events =
      (.ok (), db')) :
    ∃ row, db'.service domainName serviceName = some row ∧
      (∀ host, host ∈ row.hosts ↔ host ∈ service.hosts.getD []) ∧
      ((∀ keyId value, row.publicKeys.lookup keyId = some value ↔
          ⟨keyId, value⟩ ∈ service.publicKeys.getD []) ↔
        Reused service (db.storedKeys domainName serviceName)) := by
  have hreused := executePutServiceIdentity_reused config ctx hname hdistinct db events
  obtain ⟨c, c', time, _, hbody, rfl⟩ := Tx.attempts_saved_eq_ok
    (putServiceIdentityBody_whole config ctx domainName serviceName service).atomic h
  obtain ⟨row, hrow, hmerged⟩ := putServiceIdentityBody_returns config ctx hname hdistinct _ _ _
    hbody
  rw [h, storedKeys_stampDomain, storedKeys_of_service hrow] at hreused
  refine ⟨row, ?_, hmerged.hosts, ?_⟩
  · rw [service_stampDomain]
    exact hrow
  · rw [← hreused, hmerged.reused_iff hdistinct]
    exact hmerged.replaced_iff hdistinct

end Run

section Rotation

local instance rotationCollation : Collation := .binary

def rotationCaller : Context := { caller := "putserviceidentity" }

def rotationEvents (n : Nat) : Event Failure := ⟨n, none⟩

/-- A domain with one service, which has one key. -/
def rotationStore : Database where
  domains := (∅ : Map Str DomainRow).insert "media" {
    settings := Domain.settings { name := "media" }
    modified := 0
    services := (∅ : Map Str ServiceRow).insert "api"
      { emptyServiceRow with publicKeys := (∅ : Map Str Str).insert "0" "first" } }

def rotatedService (key : Str) : ServiceIdentity where
  name := "media.api"
  publicKeys := some [⟨"0", key⟩]

def rotationRun (key : Str) : Except Failure Unit × Database :=
  executePutServiceIdentity {} rotationCaller "media" "api" (rotatedService key) rotationStore
    rotationEvents

/-- A key that is put with a new value keeps the stored one. -/
theorem rotatedKey_not_replaced : (rotationRun "second").1 = .ok () ∧
    ¬ ∀ keyId value, ((rotationRun "second").2.storedKeys "media" "api").lookup keyId = some value ↔
      (⟨keyId, value⟩ : PublicKeyEntry) ∈ (rotatedService "second").publicKeys.getD [] := by
  refine ⟨by decide +kernel, fun h => ?_⟩
  have hmem := (h "0" "first").1 (by decide +kernel)
  revert hmem
  decide

theorem executePutServiceIdentity_first :
    ∃ row, (rotationRun "first").2.service "media" "api" = some row ∧
      (∀ host, host ∈ row.hosts ↔ host ∈ (rotatedService "first").hosts.getD []) ∧
      ((∀ keyId value, row.publicKeys.lookup keyId = some value ↔
          ⟨keyId, value⟩ ∈ (rotatedService "first").publicKeys.getD []) ↔
        Reused (rotatedService "first") (rotationStore.storedKeys "media" "api")) :=
  have hok : (rotationRun "first").1 = .ok () := by decide +kernel
  have hrun : rotationRun "first" = (.ok (), (rotationRun "first").2) := by rw [← hok]
  executePutServiceIdentity_replaces rfl (by unfold DistinctKeys; decide) hrun

end Rotation

end Athenz.ZmsServer
