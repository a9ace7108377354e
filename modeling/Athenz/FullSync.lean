import Athenz.DomainTracking

namespace Athenz.Zts
open Lib Lib.Text Lib.Exceptional
set_option autoImplicit true

section Repairs

variable {Key : Type} (zms : DataStore.Zms Key) (codec : Codec) (history : Content) (last : Nat)

/-- A list with the domains that ZMS has at a moment, each with its modified time and state. -/
def Lists (domains : List DomainMeta) : Prop :=
  ∀ item, item ∈ domains ↔ ∃ version, history last item.name = some version ∧
    item.modified = version.stamp ∧ item.enabled = version.value.enabled

/-- A check that meets no failure: every domain of ZMS is listed once, and is fetched, accepted and
processed. -/
structure Check.Complete (check : Check) : Prop where
  listed : ∃ domains, check.listing = some domains ∧ (domains.map (·.name)).Nodup ∧
    Lists history last domains
  fetched : ∀ name version, history last name = some version → ∃ document,
    check.fetch name = some document ∧ document.incoming.accepted zms = some version.value ∧
      document.modified = version.stamp
  built : ∀ name version, history last name = some version → version.value.enabled ≠ some false →
    ∃ now, DataStore.Ends (DataStore.buildCache codec now version.value)

/-- A deletion that meets no failure. -/
structure Deletion.Complete (deletion : Deletion) : Prop where
  listed : ∃ names, deletion.domainList = some names ∧ (↑"sys.auth" : Str) ∈ names ∧
    ∀ name, name ∈ names ↔ (history last name).isSome
  finish : ∀ name, deletion.finish name = .done

/-- A version of a domain is published when it is enabled, and the domain is not when it is
disabled. -/
def ShowsVersion (name : Str) (version : Version DomainData) (server : Server) : Prop :=
  (version.value.enabled = some false → server.store.cacheStore.lookup name = none) ∧
    (version.value.enabled ≠ some false → ∃ published,
      server.store.cacheStore.lookup name = some published ∧
      DataStore.PublishedFrom codec version.value published ∧
      server.modified.lookup name = some version.stamp)

/-- What ZMS has for a domain is what is published. -/
def UpToDate (name : Str) (server : Server) : Prop :=
  ∀ version, history last name = some version → ShowsVersion codec name version server

/-- Exactly the enabled domains of ZMS are published, each with its current data and modified
time. -/
structure Synchronized (server : Server) : Prop where
  current : ∀ name published, server.store.cacheStore.lookup name = some published →
    ∃ version, history last name = some version ∧ version.value.enabled ≠ some false ∧
      DataStore.PublishedFrom codec version.value published ∧
      server.modified.lookup name = some version.stamp
  complete : ∀ name version, history last name = some version →
    version.value.enabled ≠ some false → (server.store.cacheStore.lookup name).isSome

variable {zms codec history last} {server : Server}

theorem ShowsVersion.congr {server' : Server} (h : ShowsVersion codec name version server)
    (hlookup : server'.store.cacheStore.lookup name = server.store.cacheStore.lookup name)
    (hmodified : server'.modified.lookup name = server.modified.lookup name) :
    ShowsVersion codec name version server' := by
  unfold ShowsVersion
  rw [hlookup, hmodified]
  exact h

/-- A copy with the current modified time is the current data. -/
theorem Tracks.upToDate (h : Tracks zms codec history last (fun _ => last) server)
    (hadvancing : history.Advancing) (hversion : history last name = some version)
    (hcheck : Server.processDomainCheck (server.getModified name)
      ⟨name, version.stamp, version.value.enabled⟩ = false) :
    UpToDate codec history last name server := by
  intro current hcurrent
  cases hversion.symm.trans hcurrent
  unfold Server.getModified DataStore.getDomainData at hcheck
  cases hlookup : server.store.cacheStore.lookup name with
  | none =>
    rw [hlookup] at hcheck
    refine ⟨fun _ => hlookup, fun henabled => ?_⟩
    exact absurd (of_decide_eq_false hcheck) (not_not_intro henabled)
  | some published =>
    obtain ⟨stamp, hstamp, k, copy, hk, hcopy, hsame, _, hpublished⟩ := h.published name _ hlookup
    rw [hlookup, Option.map_some, Option.bind_some, hstamp] at hcheck
    obtain ⟨henabled, hlate⟩ := not_or.1 (of_decide_eq_false hcheck)
    dsimp only at henabled hlate
    refine ⟨fun hdisabled => absurd hdisabled henabled, fun _ => ⟨published, hlookup, ?_⟩⟩
    have hcopied : copy = version := hadvancing.eq_of_le hk hcopy hversion
      (hsame ▸ Int.not_lt.1 hlate)
    obtain hfrom | ⟨k', later, hk', hlater, hless⟩ := hpublished
    · rw [hcopied] at hfrom hsame
      exact ⟨hfrom, hsame ▸ hstamp⟩
    · exact absurd (Int.lt_of_lt_of_le hless (hadvancing.stamp_le hk' hlater hversion)) hlate

variable [CaseRules]

/-- The processing of a document shows its version. -/
theorem ShowsVersion.of_processDomain (hname : version.value.name = name)
    (haccepted : document.incoming.accepted zms = some version.value)
    (hstamp : document.modified = version.stamp)
    (hbuilt : version.value.enabled ≠ some false →
      ∃ now, DataStore.Ends (DataStore.buildCache codec now version.value)) :
    ShowsVersion codec name version
      (Server.processDomain zms codec handling document saveInStore server).2 := by
  have hcases := Server.processDomain_cases zms codec handling document saveInStore server
  generalize Server.processDomain zms codec handling document saveInStore server = run at hcases ⊢
  cases hcases with
  | rejected hnone => rw [haccepted] at hnone; cases hnone
  | withdrawn hsome hdisabled =>
    cases haccepted.symm.trans hsome
    refine ⟨fun _ => ?_, fun henabled => absurd hdisabled henabled⟩
    rw [Server.withdraws, DataStore.lookup_deleteDomainFromCache, if_pos hname.symm]
  | failed hsome henabled herror =>
    cases haccepted.symm.trans hsome
    obtain ⟨now, hends⟩ := hbuilt henabled
    obtain ⟨cache, hcache⟩ := DataStore.ends_buildCache handling.now hends
    rw [herror] at hcache
    cases hcache
  | @published _ cache hsome henabled hcache =>
    cases haccepted.symm.trans hsome
    refine ⟨fun hdisabled => absurd hdisabled henabled, fun _ => ?_⟩
    rw [Server.publishes, DataStore.lookup_processDomainData handling.clock hcache,
      if_pos hname.symm, Map.lookup_insert, if_pos hname.symm, hstamp]
    exact ⟨_, rfl, ⟨_, cache, hcache, rfl⟩, rfl⟩

/-- The state of a check that meets no failure: the domains that are not listed any more are up to
date. -/
structure Checking (zms : DataStore.Zms Key) (codec : Codec) (history : Content) (last : Nat)
    (items : List (DomainMeta × Nat)) (server : Server) : Prop where
  tracks : Tracks zms codec history last (fun _ => last) server
  nodup : (items.map (·.1.name)).Nodup
  listed : ∀ item ∈ items, ∃ version, history last item.1.name = some version ∧
    item.1.modified = version.stamp ∧ item.1.enabled = version.value.enabled
  done : ∀ name, name ∉ items.map (·.1.name) → UpToDate codec history last name server

theorem Checking.next {check : Check} (hadvancing : history.Advancing) (hnamed : history.Named)
    (hcheck : check.Complete zms codec history last)
    (h : Checking zms codec history last (item :: items) server) :
    ∃ server', Server.checkDomain zms codec check item server = (.ok (), server') ∧
      Checking zms codec history last items server' := by
  obtain ⟨version, hversion, hmodified, henabled⟩ := h.listed item List.mem_cons_self
  obtain ⟨hnot, hnodup⟩ := List.nodup_cons.1 h.nodup
  have hlisted := fun other hother => h.listed other (List.mem_cons_of_mem item hother)
  cases hdue : Server.processDomainCheck (server.getModified item.1.name) item.1 with
  | false =>
    have hrun : Server.checkDomain zms codec check item server = (.ok (), server) := by
      simp only [Server.checkDomain, Prog.read_bind, hdue]
      rfl
    refine ⟨server, hrun, h.tracks, hnodup, hlisted, fun name hname => ?_⟩
    by_cases hsame : name = item.1.name
    · rw [hsame]
      refine h.tracks.upToDate hadvancing hversion ?_
      rw [← hmodified, ← henabled]
      exact hdue
    · refine h.done name ?_
      simp only [List.map_cons, List.mem_cons, not_or]
      exact ⟨hsame, hname⟩
  | true =>
    obtain ⟨document, hfetch, haccepted, hstamp⟩ := hcheck.fetched _ _ hversion
    have hdelivered : Delivered zms history last last item.1.name document := by
      intro domainData hdata
      cases haccepted.symm.trans hdata
      exact ⟨last, Nat.le_refl last, Nat.le_refl last, hstamp ▸ hversion⟩
    have hrun : Server.checkDomain zms codec check item server = (.ok (),
        (Server.processDomain zms codec (check.handlings item.2) document true server).2) := by
      obtain ⟨result, hresult⟩ := Server.processDomain_ends zms codec (check.handlings item.2)
        document true server
      simp only [Server.checkDomain, Prog.read_bind, hdue, hfetch]
      exact Prog.bind_of_ok hresult _
    refine ⟨_, hrun, ?_, hnodup, hlisted, fun name hname => ?_⟩
    · refine (h.tracks.processDomain hadvancing hnamed hdelivered (Nat.le_refl last)
        (.inl (Nat.le_refl last))).mono (Nat.le_refl last) fun other => ?_
      unfold raised
      split
      · exact Nat.le_refl last
      · exact Nat.le_refl last
    · by_cases hsame : name = item.1.name
      · rw [hsame]
        intro current hcurrent
        cases hversion.symm.trans hcurrent
        exact .of_processDomain (hnamed _ _ _ hversion) haccepted hstamp
          (hcheck.built _ _ hversion)
      · have hsource : ∀ domainData, document.incoming.accepted zms = some domainData →
            domainData.name = item.1.name := by
          intro domainData hdata
          cases haccepted.symm.trans hdata
          exact hnamed _ _ _ hversion
        refine fun current hcurrent => (h.done name ?_ current hcurrent).congr
          (Server.processDomain_others hsource hsame).1 (Server.processDomain_others hsource hsame).2
        simp only [List.map_cons, List.mem_cons, not_or]
        exact ⟨hsame, hname⟩

theorem Checking.all {check : Check} (hadvancing : history.Advancing) (hnamed : history.Named)
    (hcheck : check.Complete zms codec history last) (items : List (DomainMeta × Nat)) :
    Prog.Leads (Checking zms codec history last items)
      (items.forM (Server.checkDomain zms codec check))
      (fun _ => Checking zms codec history last []) (fun _ _ => False) := by
  refine .forM (I := Checking zms codec history last) (fun item rest server h => ?_) items
  obtain ⟨server', hrun, hnext⟩ := h.next hadvancing hnamed hcheck
  rw [hrun]
  exact hnext

/-- A check without failures brings every domain of ZMS up to date. -/
theorem processDomainChecks_upToDate {check : Check} (hadvancing : history.Advancing)
    (hnamed : history.Named) (hcheck : check.Complete zms codec history last)
    (h : Tracks zms codec history last (fun _ => last) server) :
    ∃ checked, Server.processDomainChecks zms codec check server = (.ok (), checked) ∧
      Tracks zms codec history last (fun _ => last) checked ∧
      ∀ name, UpToDate codec history last name checked := by
  obtain ⟨domains, hlisting, hnodup, hlisted⟩ := hcheck.listed
  have hnames : domains.zipIdx.map (·.1.name) = domains.map (·.name) := by
    conv_rhs => rw [← List.zipIdx_map_fst 0 domains, List.map_map]
    rfl
  have hstart : Checking zms codec history last domains.zipIdx server := by
    refine ⟨h, hnames ▸ hnodup, fun item hitem => ?_, fun name hname version hversion => ?_⟩
    · refine (hlisted item.1).1 ?_
      have hmem := List.mem_map_of_mem (f := Prod.fst) hitem
      rwa [List.zipIdx_map_fst] at hmem
    · refine absurd ?_ hname
      rw [hnames]
      exact List.mem_map_of_mem (f := DomainMeta.name)
        ((hlisted ⟨name, version.stamp, version.value.enabled⟩).2 ⟨version, hversion, rfl, rfl⟩)
  obtain ⟨_, checked, hrun, hchecked⟩ := (Checking.all hadvancing hnamed hcheck domains.zipIdx).ends
    hstart
  refine ⟨checked, ?_, hchecked.tracks, fun name => hchecked.done name List.not_mem_nil⟩
  rw [Server.processDomainChecks, hlisting]
  exact hrun

omit [CaseRules] in
theorem removeLocalDomain_done (name : Str) (server : Server) : ∃ log,
    Server.removeLocalDomain name .done server = (.ok (), { server with changeLog := log }) := by
  cases hfile : (server.changeLog.files.lookup name).isNone with
  | true =>
    refine ⟨server.changeLog, ?_⟩
    simp only [Server.removeLocalDomain, Prog.read_bind, hfile]
    rfl
  | false =>
    refine ⟨{ server.changeLog with files := server.changeLog.files.erase name }, ?_⟩
    simp only [Server.removeLocalDomain, Prog.read_bind, hfile]
    rfl

/-- The state of a deletion that meets no failure: what is published is a domain of ZMS or still
to be deleted. -/
structure Deleting (zms : DataStore.Zms Key) (codec : Codec) (history : Content) (last : Nat)
    (names : List Str) (server : Server) : Prop where
  tracks : Tracks zms codec history last (fun _ => last) server
  upToDate : ∀ name, UpToDate codec history last name server
  gone : ∀ name ∈ names, history last name = none
  left : ∀ name published, server.store.cacheStore.lookup name = some published →
    (history last name).isSome ∨ name ∈ names

theorem Deleting.next (hroles : ∀ k name version, history k name = some version →
      version.value.roles.isSome)
    (h : Deleting zms codec history last (name :: names) server) :
    ∃ server', Server.deleteDomain .done name server = (.ok (), server') ∧
      Deleting zms codec history last names server' := by
  have htracks : Tracks zms codec history last (fun _ => last)
      (Server.deleteDomain .done name server).2 :=
    (Tracks.deleteDomain .done name).run h.tracks
  have hends : (server.store.deleteDomain name).2 = .ok () := by
    refine DataStore.deleteDomain_ends fun published hlookup => ?_
    obtain ⟨_, _, k, version, _, hversion, _, hsame, _⟩ := h.tracks.published name published hlookup
    rw [hsame]
    exact hroles k name version hversion
  obtain ⟨failure, hresult, _⟩ | ⟨_, hrun⟩ := deleteDomain_run .done name server
  · rw [hends] at hresult
    cases hresult
  · obtain ⟨log, hremoved⟩ := removeLocalDomain_done name { server with
      store := (server.store.deleteDomain name).1
      modified := server.modified.erase name }
    rw [hremoved] at hrun
    rw [hrun] at htracks
    have hlookup := DataStore.lookup_deleteDomain hends
    refine ⟨_, hrun, htracks, fun other version hversion => ?_, fun other hother =>
      h.gone other (List.mem_cons_of_mem name hother), fun other published hother => ?_⟩
    · have hne : other ≠ name := by
        rintro rfl
        rw [h.gone other List.mem_cons_self] at hversion
        cases hversion
      exact (h.upToDate other version hversion).congr ((hlookup other).trans (if_neg hne))
        ((Map.lookup_erase _ _ _).trans (if_neg hne))
    · dsimp only at hother
      rw [hlookup] at hother
      split at hother
      · cases hother
      · rename_i hne
        exact (h.left other published hother).imp_right fun hmem =>
          (List.mem_cons.1 hmem).resolve_left hne

theorem Deleting.all (hroles : ∀ k name version, history k name = some version →
      version.value.roles.isSome) {finish : Str → FileEnd} (hfinish : ∀ name, finish name = .done)
    (names : List Str) : Prog.Leads (Deleting zms codec history last names)
      (names.forM fun name => Server.deleteDomain (finish name) name)
      (fun _ => Deleting zms codec history last []) (fun _ _ => False) := by
  refine .forM (I := Deleting zms codec history last) (fun name rest server h => ?_) names
  obtain ⟨server', hrun, hnext⟩ := h.next hroles
  rw [hfinish, hrun]
  exact hnext

omit [CaseRules] in
theorem Deleting.synchronized (h : Deleting zms codec history last [] server) :
    Synchronized codec history last server where
  current name published hlookup := by
    obtain ⟨version, hversion⟩ := Option.isSome_iff_exists.1
      ((h.left name published hlookup).resolve_right List.not_mem_nil)
    obtain ⟨hdisabled, henabled⟩ := h.upToDate name version hversion
    by_cases hstate : version.value.enabled = some false
    · rw [hdisabled hstate] at hlookup
      cases hlookup
    · obtain ⟨current, hcurrent, hfrom, hmodified⟩ := henabled hstate
      cases hcurrent.symm.trans hlookup
      exact ⟨version, hversion, hstate, hfrom, hmodified⟩
  complete name version hversion henabled := by
    obtain ⟨published, hpublished, _⟩ := (h.upToDate name version hversion).2 henabled
    rw [hpublished]
    rfl

/-- A full synchronization repairs every earlier failure: once ZMS has stopped changing, a check and
a deletion without failures publish exactly the enabled domains, each with its current data. -/
theorem fullSync_repairs {check : Check} {deletion : Deletion} (hadvancing : history.Advancing)
    (hnamed : history.Named)
    (hroles : ∀ k name version, history k name = some version → version.value.roles.isSome)
    (run : Run zms codec history last server) (hcheck : check.Complete zms codec history last)
    (hdeletion : deletion.Complete history last) :
    ∃ checked synchronized,
      Server.processDomainChecks zms codec check server = (.ok (), checked) ∧
      Server.processDomainDeletes deletion checked = (.ok true, synchronized) ∧
      Synchronized codec history last synchronized := by
  obtain ⟨checked, hchecked, htracks, hupToDate⟩ := processDomainChecks_upToDate hadvancing hnamed
    hcheck (run.tracks hadvancing hnamed)
  obtain ⟨zmsDomainList, hlist, hsystem, hnames⟩ := hdeletion.listed
  have hnone : ∀ name, name ∉ zmsDomainList → history last name = none := fun name hname =>
    Option.not_isSome_iff_eq_none.1 fun hsome => hname ((hnames name).2 hsome)
  have hstart : Deleting zms codec history last
      (checked.store.cacheStore.keys.filter (· ∉ zmsDomainList)) checked := by
    refine ⟨htracks, hupToDate, fun name hname => ?_, fun name published hlookup => ?_⟩
    · exact hnone name (of_decide_eq_true (List.mem_filter.1 hname).2)
    · by_cases hname : name ∈ zmsDomainList
      · exact .inl ((hnames name).1 hname)
      · refine .inr (List.mem_filter.2 ⟨?_, decide_eq_true hname⟩)
        exact AList.mem_keys.1 (AList.lookup_isSome.1 (hlookup ▸ rfl))
  by_cases hlocal : checked.store.cacheStore.keys = []
  · refine ⟨checked, checked, hchecked, ?_, ?_⟩
    · simp only [Server.processDomainDeletes, Prog.read_bind, hlocal, if_true]
      rfl
    · rw [hlocal] at hstart
      exact hstart.synchronized
  · obtain ⟨_, synchronized, hrun, hend⟩ := (Deleting.all hroles hdeletion.finish _).ends hstart
    have hvalid : Server.validDomainListResponse zmsDomainList = true := by
      rw [Server.validDomainListResponse, Bool.and_eq_true, decide_eq_true_iff]
      refine ⟨?_, hsystem⟩
      cases zmsDomainList with
      | nil => exact absurd hsystem List.not_mem_nil
      | cons => rfl
    refine ⟨checked, synchronized, hchecked, ?_, hend.synchronized⟩
    simp only [Server.processDomainDeletes, Prog.read_bind, if_neg hlocal, hlist, hvalid, if_true]
    exact Prog.bind_of_ok hrun _

end Repairs

section Example

local instance syncCaseRules : CaseRules := .ascii

def syncVersion (name : Str) (roles : List Role) (stamp : Int) : Version DomainData :=
  ⟨{ name := name, roles := some roles }, stamp⟩

def systemVersion : Version DomainData := syncVersion "sys.auth" [] 105

def mediaVersion : Version DomainData := syncVersion "media" [] 110

def laterMediaVersion : Version DomainData :=
  syncVersion "media" [{ name := "media:role.readers" }] 120

def sportsVersion : Version DomainData := syncVersion "sports" [] 107

/-- One domain never changes, one gets a role, and one is deleted. -/
def syncHistory : Content := fun k name =>
  if name = "sys.auth" then some systemVersion
  else if name = "media" then some (if k = 0 then mediaVersion else laterMediaVersion)
  else if name = "sports" ∧ k = 0 then some sportsVersion
  else none

def syncDocument (version : Version DomainData) : Document :=
  ⟨.signed ⟨version.value, "signature", none⟩, version.stamp⟩

/-- The first poll gets no answer for one domain and cannot save another. -/
def syncPoll : Poll where
  listing := some ⟨some [⟨"sys.auth", 105, none⟩, ⟨"media", 110, none⟩, ⟨"sports", 107, none⟩],
    some "110"⟩
  answers name _ :=
    if name = "sys.auth" then .failed
    else ((syncHistory 0 name).map fun version => Fetched.documents [syncDocument version]).getD .failed
  handlings i := ⟨fun _ => 0, 0, if i = 0 then .damaged else .done⟩

def syncCheck : Check where
  listing := some [⟨"media", 120, none⟩, ⟨"sys.auth", 105, none⟩]
  fetch name := (syncHistory 1 name).map syncDocument
  handlings _ := ⟨fun _ => 0, 0, .done⟩

def syncDeletion : Deletion := ⟨some ["sys.auth", "media"], fun _ => .done⟩

theorem accepted_syncDocument (version : Version DomainData) :
    (syncDocument version).incoming.accepted DataStore.sampleZms = some version.value := rfl

theorem syncHistory_cases (h : syncHistory k name = some version) :
    name = "sys.auth" ∧ version = systemVersion ∨
      name = "media" ∧ version = (if k = 0 then mediaVersion else laterMediaVersion) ∨
      name = "sports" ∧ k = 0 ∧ version = sportsVersion := by
  unfold syncHistory at h
  split at h
  · exact .inl ⟨‹_›, (Option.some.inj h).symm⟩
  · split at h
    · exact .inr (.inl ⟨‹_›, (Option.some.inj h).symm⟩)
    · split at h
      · rename_i hname
        exact .inr (.inr ⟨hname.1, hname.2, (Option.some.inj h).symm⟩)
      · cases h

theorem syncHistory_named : syncHistory.Named := by
  intro k name version h
  obtain ⟨rfl, rfl⟩ | ⟨rfl, rfl⟩ | ⟨rfl, rfl, rfl⟩ := syncHistory_cases h
  · rfl
  · split
    · rfl
    · rfl
  · rfl

theorem syncHistory_roles (k : Nat) (name : Str) (version : Version DomainData)
    (h : syncHistory k name = some version) : version.value.roles.isSome := by
  obtain ⟨rfl, rfl⟩ | ⟨rfl, rfl⟩ | ⟨rfl, rfl, rfl⟩ := syncHistory_cases h
  · rfl
  · split
    · rfl
    · rfl
  · rfl

theorem syncHistory_advancing : syncHistory.Advancing := by
  constructor
  · intro k k' name v w hk hv hw
    obtain ⟨rfl, rfl⟩ | ⟨rfl, rfl⟩ | ⟨rfl, rfl, rfl⟩ := syncHistory_cases hv
    · cases hw
      exact Int.le_refl _
    · cases hw
      split
      · split
        · exact Int.le_refl _
        · exact (by decide : (110 : Int) ≤ 120)
      · rename_i hpos
        rw [if_neg (by omega)]
    · obtain ⟨hname, _⟩ | ⟨hname, _⟩ | ⟨_, rfl, rfl⟩ := syncHistory_cases hw
      · exact absurd hname (by decide)
      · exact absurd hname (by decide)
      · exact Int.le_refl _
  · intro k k' name v w hv hw hstamp
    obtain ⟨rfl, rfl⟩ | ⟨rfl, rfl⟩ | ⟨rfl, rfl, rfl⟩ := syncHistory_cases hv
    · cases hw
      rfl
    · cases hw
      by_cases hk : k = 0
      · by_cases hk' : k' = 0
        · rw [if_pos hk, if_pos hk']
        · rw [if_pos hk, if_neg hk'] at hstamp
          cases hstamp
      · by_cases hk' : k' = 0
        · rw [if_neg hk, if_pos hk'] at hstamp
          cases hstamp
        · rw [if_neg hk, if_neg hk']
    · obtain ⟨hname, _⟩ | ⟨hname, _⟩ | ⟨_, rfl, rfl⟩ := syncHistory_cases hw
      · exact absurd hname (by decide)
      · exact absurd hname (by decide)
      · rfl

theorem syncPoll_honest : syncPoll.Honest DataStore.sampleZms syncHistory 0 0 := by
  have hanswer : ∀ name count documents, syncPoll.answers name count = .documents documents →
      ∃ version, syncHistory 0 name = some version ∧ documents = [syncDocument version] := by
    intro name count documents h
    unfold syncPoll at h
    dsimp only at h
    split at h
    · cases h
    · cases hversion : syncHistory 0 name with
      | none =>
        rw [hversion] at h
        cases h
      | some version =>
        rw [hversion] at h
        cases h
        exact ⟨version, rfl, rfl⟩
  constructor
  · intro listing domains hlisting hdomains
    cases hlisting
    cases hdomains
    decide
  · intro name count documents h
    obtain ⟨version, _, rfl⟩ := hanswer name count documents h
    exact Nat.le_refl 1
  · intro name count documents h document hmem domainData haccepted
    obtain ⟨version, hversion, rfl⟩ := hanswer name count documents h
    cases List.mem_singleton.1 hmem
    cases (accepted_syncDocument version).symm.trans haccepted
    exact ⟨0, Nat.le_refl 0, Nat.le_refl 0, hversion⟩

/-- A server that has missed one domain, keeps a deleted one, and has an old copy of a third. -/
def syncServer : Server :=
  (Server.processDomainUpdates DataStore.sampleZms DataStore.sampleSetting.codec syncPoll {}).2

theorem syncServer_run : Run DataStore.sampleZms DataStore.sampleSetting.codec syncHistory 1
    syncServer :=
  ((Run.new 0).updates (Nat.le_refl 0) syncPoll syncPoll_honest).later (Nat.zero_le 1)

theorem syncCheck_complete :
    syncCheck.Complete DataStore.sampleZms DataStore.sampleSetting.codec syncHistory 1 where
  listed := by
    refine ⟨_, rfl, by decide, fun item => ⟨fun hitem => ?_, ?_⟩⟩
    · obtain rfl | hitem := List.mem_cons.1 hitem
      · exact ⟨laterMediaVersion, rfl, rfl, rfl⟩
      · cases List.mem_singleton.1 hitem
        exact ⟨systemVersion, rfl, rfl, rfl⟩
    · rintro ⟨version, hversion, hmodified, henabled⟩
      obtain ⟨name, modified, enabled⟩ := item
      dsimp only at hversion hmodified henabled
      obtain ⟨rfl, rfl⟩ | ⟨rfl, rfl⟩ | ⟨_, hk, _⟩ := syncHistory_cases hversion
      · rw [hmodified, henabled]
        exact List.mem_cons_of_mem _ List.mem_cons_self
      · rw [hmodified, henabled]
        exact List.mem_cons_self
      · cases hk
  fetched name version hversion :=
    ⟨syncDocument version, congrArg (Option.map syncDocument) hversion,
      accepted_syncDocument version, rfl⟩
  built name version hversion _ := by
    obtain ⟨rfl, rfl⟩ | ⟨rfl, rfl⟩ | ⟨_, hk, _⟩ := syncHistory_cases hversion
    · exact ⟨0, _, rfl⟩
    · exact ⟨0, _, rfl⟩
    · cases hk

theorem syncDeletion_complete : syncDeletion.Complete syncHistory 1 where
  listed := by
    refine ⟨_, rfl, List.mem_cons_self, fun name => ⟨fun hname => ?_, fun hsome => ?_⟩⟩
    · obtain rfl | hname := List.mem_cons.1 hname
      · rfl
      · cases List.mem_singleton.1 hname
        rfl
    · obtain ⟨version, hversion⟩ := Option.isSome_iff_exists.1 hsome
      obtain ⟨rfl, _⟩ | ⟨rfl, _⟩ | ⟨_, hk, _⟩ := syncHistory_cases hversion
      · exact List.mem_cons_self
      · exact List.mem_cons_of_mem _ List.mem_cons_self
      · cases hk
  finish _ := rfl

theorem syncServer_repaired : ∃ checked synchronized,
    Server.processDomainChecks DataStore.sampleZms DataStore.sampleSetting.codec syncCheck
      syncServer = (.ok (), checked) ∧
    Server.processDomainDeletes syncDeletion checked = (.ok true, synchronized) ∧
    Synchronized DataStore.sampleSetting.codec syncHistory 1 synchronized :=
  fullSync_repairs syncHistory_advancing syncHistory_named syncHistory_roles syncServer_run
    syncCheck_complete syncDeletion_complete

end Example

end Athenz.Zts
