import Athenz.Updates

namespace Athenz.Zts
open Lib Lib.Text Lib.Index
set_option autoImplicit true

namespace DataStore

open RequireRoleCertCache

section Deletion

variable [CaseRules] {store : DataStore}

theorem lookup_foldl_processGroupDelete (groups : List Group) :
    (groups.foldl (fun store group => store.processGroupDelete group)
      store).groupMemberCache.lookup name =
        if name ∈ groups.map (·.name) then none else store.groupMemberCache.lookup name := by
  induction groups generalizing store with
  | nil => rfl
  | cons group groups ih =>
    have herase : (store.processGroupDelete group).groupMemberCache.lookup name = _ :=
      Map.lookup_erase store.groupMemberCache group.name name
    simp only [List.foldl_cons, ih, herase, List.map_cons, List.mem_cons]
    by_cases hname : name = group.name
    · simp only [hname, if_true, ite_self, true_or]
    · simp only [hname, if_false, false_or]

/-- The entries of a principal that the deletion of a group takes away. -/
def RemovesMember (group : Group) (principal : Str) (entry : GroupMember) : Prop :=
  principal ∈ (group.groupMembers.getD []).map (·.memberName) ∧
    equalsIgnoreCase entry.groupName group.name = true

theorem mem_foldl_processGroupDelete (groups : List Group) :
    entry ∈ (groups.foldl (fun store group => store.processGroupDelete group)
      store).principalGroupCache.listAt principal ↔
        entry ∈ store.principalGroupCache.listAt principal ∧
          ∀ group ∈ groups, ¬ RemovesMember group principal entry := by
  refine foldl_removes
    (Q := fun store : DataStore => entry ∈ store.principalGroupCache.listAt principal)
    (I := fun _ => True) (fun _ _ _ => trivial) ?_ trivial
  intro store group _ _
  have hlist : (store.processGroupDelete group).principalGroupCache.listAt principal = _ :=
    listAt_foldl_deleteGroupMember (group.groupMembers.getD []) store.principalGroupCache
  rw [hlist, RemovesMember]
  split
  · rename_i hmember
    simp only [deleteEffect, List.mem_filter, Bool.not_eq_true', hmember, true_and,
      Bool.not_eq_true]
  · rename_i hmember
    simp only [hmember, false_and, not_false_eq_true, and_true]

/-- Two stores with the same entries in every cache. -/
structure SameState (store store' : DataStore) : Prop where
  published : ∀ name, store'.cacheStore.lookup name = store.cacheStore.lookup name
  groups : ∀ name, store'.groupMemberCache.lookup name = store.groupMemberCache.lookup name
  principals : ∀ principal entry, entry ∈ store'.principalGroupCache.listAt principal ↔
    entry ∈ store.principalGroupCache.listAt principal
  roles : ∀ name, store'.requireRoleCertCache.roleMemberRequireCertCache.lookup name =
    store.requireRoleCertCache.roleMemberRequireCertCache.lookup name
  certs : ∀ fact, store'.requireRoleCertCache.Holds fact ↔ store.requireRoleCertCache.Holds fact
  hosts : ∀ host, store'.hostCache.lookup host = store.hostCache.lookup host
  keys : ∀ key, store'.publicKeyCache.lookup key = store.publicKeyCache.lookup key
  cloud : store'.cloudStore = store.cloudStore

omit [CaseRules] in
theorem SameState.refl (store : DataStore) : SameState store store :=
  ⟨fun _ => rfl, fun _ => rfl, fun _ _ => Iff.rfl, fun _ => rfl, fun _ => Iff.rfl, fun _ => rfl,
    fun _ => rfl, rfl⟩

/-- A group without entries, neither under its name nor under its listed members. -/
def GroupIdle (store : DataStore) (group : Group) : Prop :=
  store.groupMemberCache.lookup group.name = none ∧
    ∀ principal, ∀ entry ∈ store.principalGroupCache.listAt principal,
      ¬ RemovesMember group principal entry

/-- A role without entries in the certificate cache, neither under its name nor under its listed
members. -/
def RoleIdle (store : DataStore) (role : Role) : Prop :=
  store.requireRoleCertCache.roleMemberRequireCertCache.lookup role.name = none ∧
    ∀ fact, store.requireRoleCertCache.Holds fact →
      ¬ RemovesRole store.requireRoleCertCache.Keyed role fact

/-- The published data of a domain has a list of roles, and none of its groups and roles has
entries. -/
def PublishedIdle (name : Str) (store : DataStore) : Prop :=
  ∀ published, store.cacheStore.lookup name = some published →
    published.domainData.roles ≠ none ∧
    (∀ group ∈ published.domainData.groups.getD [], GroupIdle store group) ∧
    ∀ role ∈ published.domainData.roles.getD [], RoleIdle store role

theorem foldl_processGroupDelete_keeps (groups : List Group) (store : DataStore) :
    ∃ members principals, groups.foldl (fun store group => store.processGroupDelete group) store =
      { store with groupMemberCache := members, principalGroupCache := principals } := by
  induction groups generalizing store with
  | nil => exact ⟨_, _, rfl⟩
  | cons group groups ih =>
    obtain ⟨members, principals, hstore⟩ := ih (store.processGroupDelete group)
    exact ⟨members, principals, hstore⟩

omit [CaseRules] in
/-- The removal of a domain from the cache does not look at groups and certificates. -/
theorem deleteDomainFromCache_with (members principals : Map Str (List GroupMember))
    (certs : RequireRoleCertCache) :
    deleteDomainFromCache name { store with
      groupMemberCache := members
      principalGroupCache := principals
      requireRoleCertCache := certs } =
    { store.deleteDomainFromCache name with
      groupMemberCache := members
      principalGroupCache := principals
      requireRoleCertCache := certs } := by
  unfold deleteDomainFromCache removeEntries
  dsimp only
  cases store.cacheStore.lookup name with
  | none => rfl
  | some published => rfl

omit [CaseRules] in
theorem deleteDomainFromCache_frame (store : DataStore) (name : Str) :
    (store.deleteDomainFromCache name).groupMemberCache = store.groupMemberCache ∧
      (store.deleteDomainFromCache name).principalGroupCache = store.principalGroupCache ∧
      (store.deleteDomainFromCache name).requireRoleCertCache = store.requireRoleCertCache ∧
      (store.deleteDomainFromCache name).cloudStore = store.cloudStore := by
  unfold deleteDomainFromCache removeEntries
  cases store.cacheStore.lookup name with
  | none => exact ⟨rfl, rfl, rfl, rfl⟩
  | some published => exact ⟨rfl, rfl, rfl, rfl⟩

theorem deleteDomain_of_none (hlookup : store.cacheStore.lookup name = none) :
    (store.deleteDomain name).1 = store.deleteDomainFromCache name := by
  simp only [deleteDomain, processDeleteDomainGroups, cleanRequireRoleCertCache, hlookup,
    Option.bind_none, Option.getD_none, List.foldl_nil]

/-- The store that a deletion leaves when the published data has roles. -/
theorem deleteDomain_of_roles (hlookup : store.cacheStore.lookup name = some published)
    (hroles : published.domainData.roles = some roles) :
    (store.deleteDomain name).1 =
      let groupStore := (published.domainData.groups.getD []).foldl
        (fun store group => store.processGroupDelete group) store
      { store.deleteDomainFromCache name with
        groupMemberCache := groupStore.groupMemberCache
        principalGroupCache := groupStore.principalGroupCache
        requireRoleCertCache := roles.foldl (fun cache role => cache.processRoleCacheDelete role)
          store.requireRoleCertCache } := by
  obtain ⟨members, principals, hgroups⟩ := foldl_processGroupDelete_keeps
    (published.domainData.groups.getD []) store
  simp only [deleteDomain, processDeleteDomainGroups, cleanRequireRoleCertCache, hlookup, hroles,
    Option.bind_some, hgroups]
  exact deleteDomainFromCache_with members principals _

theorem lookup_deleteDomain_of_noRoles (hlookup : store.cacheStore.lookup name = some published)
    (hroles : published.domainData.roles = none) :
    (store.deleteDomain name).1.cacheStore.lookup name = some published := by
  obtain ⟨members, principals, hgroups⟩ := foldl_processGroupDelete_keeps
    (published.domainData.groups.getD []) store
  simp only [deleteDomain, processDeleteDomainGroups, cleanRequireRoleCertCache, hlookup, hroles,
    Option.bind_some, hgroups]

theorem groups_kept_iff (groups : List Group) :
    (∀ name, (groups.foldl (fun store group => store.processGroupDelete group)
        store).groupMemberCache.lookup name = store.groupMemberCache.lookup name) ∧
      (∀ principal entry, entry ∈ (groups.foldl (fun store group => store.processGroupDelete group)
        store).principalGroupCache.listAt principal ↔
          entry ∈ store.principalGroupCache.listAt principal) ↔
    ∀ group ∈ groups, GroupIdle store group := by
  simp only [lookup_foldl_processGroupDelete, mem_foldl_processGroupDelete, and_iff_left_iff_imp]
  constructor
  · rintro ⟨hnames, hentries⟩ group hgroup
    constructor
    · have hname := hnames group.name
      rw [if_pos (List.mem_map_of_mem hgroup)] at hname
      exact hname.symm
    · intro principal entry hentry
      exact hentries principal entry hentry group hgroup
  · intro hidle
    constructor
    · intro name
      split
      · rename_i hname
        obtain ⟨group, hgroup, rfl⟩ := List.mem_map.1 hname
        exact (hidle group hgroup).1.symm
      · rfl
    · intro principal entry hentry group hgroup
      exact (hidle group hgroup).2 principal entry hentry

theorem certs_kept_iff (roles : List Role) :
    (∀ name, (roles.foldl (fun cache role => cache.processRoleCacheDelete role)
        store.requireRoleCertCache).roleMemberRequireCertCache.lookup name =
          store.requireRoleCertCache.roleMemberRequireCertCache.lookup name) ∧
      (∀ fact, (roles.foldl (fun cache role => cache.processRoleCacheDelete role)
        store.requireRoleCertCache).Holds fact ↔ store.requireRoleCertCache.Holds fact) ↔
    ∀ role ∈ roles, RoleIdle store role := by
  simp only [lookup_foldl_processRoleCacheDelete, holds_foldl_processRoleCacheDelete,
    and_iff_left_iff_imp]
  constructor
  · rintro ⟨hnames, hfacts⟩ role hrole
    constructor
    · have hname := hnames role.name
      rw [if_pos (List.mem_map_of_mem hrole)] at hname
      exact hname.symm
    · intro fact hfact
      exact hfacts fact hfact role hrole
  · intro hidle
    constructor
    · intro name
      split
      · rename_i hname
        obtain ⟨role, hrole, rfl⟩ := List.mem_map.1 hname
        exact (hidle role hrole).1.symm
      · rfl
    · intro fact hfact role hrole
      exact (hidle role hrole).2 fact hfact

/-- The removal from the cache alone does as much as a deletion when the published data is idle. -/
theorem sameState_deleteDomain_iff :
    SameState (store.deleteDomainFromCache name) (store.deleteDomain name).1 ↔
      PublishedIdle name store := by
  obtain ⟨hgroups, hprincipals, hcerts, _⟩ := deleteDomainFromCache_frame store name
  cases hlookup : store.cacheStore.lookup name with
  | none =>
    rw [deleteDomain_of_none hlookup]
    apply iff_of_true (SameState.refl _)
    intro published hpublished
    rw [hlookup] at hpublished
    cases hpublished
  | some published =>
    cases hroles : published.domainData.roles with
    | none =>
      apply iff_of_false
      · intro hsame
        have hnone := hsame.published name
        rw [lookup_deleteDomain_of_noRoles hlookup hroles, lookup_deleteDomainFromCache,
          if_pos rfl] at hnone
        cases hnone
      · intro hidle
        exact (hidle published hlookup).1 hroles
    | some roles =>
      have hidle : PublishedIdle name store ↔
          (∀ group ∈ published.domainData.groups.getD [], GroupIdle store group) ∧
            ∀ role ∈ roles, RoleIdle store role := by
        unfold PublishedIdle
        simp only [hlookup, Option.some.injEq, forall_eq', hroles, ne_eq, reduceCtorEq,
          not_false_eq_true, true_and, Option.getD_some]
      rw [hidle, ← groups_kept_iff, ← certs_kept_iff, deleteDomain_of_roles hlookup hroles]
      constructor
      · intro hsame
        have hkept := hsame.groups
        have hentries := hsame.principals
        have hnames := hsame.roles
        have hfacts := hsame.certs
        rw [hgroups] at hkept
        rw [hprincipals] at hentries
        rw [hcerts] at hnames hfacts
        exact ⟨⟨hkept, hentries⟩, hnames, hfacts⟩
      · rintro ⟨⟨hkept, hentries⟩, hnames, hfacts⟩
        refine ⟨fun _ => rfl, ?_, ?_, ?_, ?_, fun _ => rfl, fun _ => rfl, rfl⟩
        · rw [hgroups]
          exact hkept
        · rw [hprincipals]
          exact hentries
        · rw [hcerts]
          exact hnames
        · rw [hcerts]
          exact hfacts

end Deletion

section Disabled

/-- The name of a group of a domain. -/
def IsGroupOf (domainName groupName : Str) : Prop := domainName ++ ":group.".toList <+: groupName

def IsRoleOf (domainName roleName : Str) : Prop := domainName ++ ":role.".toList <+: roleName

/-- No group of the domain is cached, and no principal has an entry for one. -/
def NoGroups (domainName : Str) (store : DataStore) : Prop :=
  (∀ name, IsGroupOf domainName name → store.groupMemberCache.lookup name = none) ∧
    ∀ principal, ∀ entry ∈ store.principalGroupCache.listAt principal,
      ¬ IsGroupOf domainName entry.groupName

/-- The certificate cache knows no role of the domain. -/
def NoRoleCerts (domainName : Str) (store : DataStore) : Prop :=
  (∀ name, IsRoleOf domainName name →
    store.requireRoleCertCache.roleMemberRequireCertCache.lookup name = none) ∧
    ∀ fact, store.requireRoleCertCache.Holds fact → ¬ IsRoleOf domainName fact.role

def NoCloud (domainName : Str) (store : DataStore) : Prop :=
  ∀ cloud, store.cloudStore = some cloud →
    cloud.awsAccountCache.lookup domainName = none ∧
      cloud.azureSubscriptionCache.lookup domainName = none

/-- No cache carries data of a domain: what hosts and keys are left belongs to other domains that
are published. -/
structure NothingLeft (domainName : Str) (store : DataStore) : Prop where
  published : store.cacheStore.lookup domainName = none
  groups : NoGroups domainName store
  certs : NoRoleCerts domainName store
  cloud : NoCloud domainName store
  entries : Accounted { other | other ≠ domainName } store

variable [CaseRules] {store : DataStore}

omit [CaseRules] in
theorem nothingLeft_deleteDomainFromCache_iff (h : Accounted .univ store) :
    NothingLeft domainName (store.deleteDomainFromCache domainName) ↔
      NoGroups domainName store ∧ NoRoleCerts domainName store ∧ NoCloud domainName store := by
  obtain ⟨hgroups, hprincipals, hcerts, hcloud⟩ := deleteDomainFromCache_frame store domainName
  have hsame : NoGroups domainName (store.deleteDomainFromCache domainName) =
        NoGroups domainName store ∧
      NoRoleCerts domainName (store.deleteDomainFromCache domainName) =
        NoRoleCerts domainName store ∧
      NoCloud domainName (store.deleteDomainFromCache domainName) = NoCloud domainName store := by
    simp only [NoGroups, NoRoleCerts, NoCloud, hgroups, hprincipals, hcerts, hcloud, and_self]
  constructor
  · intro hnothing
    rw [← hsame.1, ← hsame.2.1, ← hsame.2.2]
    exact ⟨hnothing.groups, hnothing.certs, hnothing.cloud⟩
  · rintro ⟨hnoGroups, hnoCerts, hnoCloud⟩
    refine ⟨?_, hsame.1 ▸ hnoGroups, hsame.2.1 ▸ hnoCerts, hsame.2.2 ▸ hnoCloud,
      h.deleteDomainFromCache domainName⟩
    rw [lookup_deleteDomainFromCache, if_pos rfl]

theorem process_disabled {setting : Setting Key} {incoming : Incoming}
    (haccepted : incoming.accepted setting.zms = some domainData)
    (hdisabled : domainData.enabled = some false) :
    store.process setting incoming =
      (store.deleteDomainFromCache domainData.name, setting.saves incoming) := by
  rw [process_of_accepted haccepted, processValidDomain, if_pos hdisabled]

/-- A disabled domain leaves nothing behind, as a deletion would, exactly when it has left nothing
in the caches of groups, certificates and accounts before. -/
theorem disabled_domain_leaves_nothing_iff {setting : Setting Key} {incoming : Incoming}
    (hreached : Reachable Key store) (haccepted : incoming.accepted setting.zms = some domainData)
    (hdisabled : domainData.enabled = some false) :
    NothingLeft domainData.name (store.process setting incoming).1 ∧
        SameState (store.process setting incoming).1 (store.deleteDomain domainData.name).1 ↔
      (NoGroups domainData.name store ∧ NoRoleCerts domainData.name store ∧
        NoCloud domainData.name store) ∧ PublishedIdle domainData.name store := by
  rw [process_disabled haccepted hdisabled, sameState_deleteDomain_iff,
    nothingLeft_deleteDomainFromCache_iff hreached.accounted]

end Disabled

section Sample

local instance disabledCaseRules : CaseRules := .ascii

/-- Libraries that accept one signature with one key. -/
def sampleZms : Zms Str where
  zmsPublicKeyCache := AList.insert (↑"0" : Str) (↑"zms-key" : Str) ∅
  asCanonicalString data := data.name
  verify _ _ signature := .ok (signature = "signature")
  readDomainData _ := none
  validateJWSDocument _ _ _ _ := false

def sampleSetting : Setting Str where
  zms := sampleZms
  codec := { ybase64DecodeString := some, readAuthzDetails := fun _ => none }
  clock _ := 100
  now := 100
  saveLocalDomain _ := true
  saveInStore := true

/-- A domain with some groups, a role and a service. -/
def sportsData (groups : List Group) (enabled : Bool) : DomainData where
  name := "sports"
  enabled := some enabled
  roles := some [{ name := "sports:role.readers" }]
  groups := some groups
  services := some [{ name := "sports.api", hosts := some ["host1"] }]

def sportsUpdate (groups : List Group) (enabled : Bool) : Incoming :=
  .signed ⟨sportsData groups enabled, "signature", none⟩

def sportsStore (groups : List Group) : DataStore :=
  (({} : DataStore).process sampleSetting (sportsUpdate groups true)).1

/-- The members of the groups of a disabled domain keep their entries, which a deletion removes. -/
theorem disabled_domain_keeps_members :
    ((sportsStore [groupOfJoe "sports:group.staff" none none]).process sampleSetting
      (sportsUpdate [] false)).2 = true ∧
    ((sportsStore [groupOfJoe "sports:group.staff" none none]).process sampleSetting
      (sportsUpdate [] false)).1.principalGroupCache.listAt "user.joe" =
        [joeIn "sports:group.staff" none none] ∧
    ((sportsStore [groupOfJoe "sports:group.staff" none none]).deleteDomain
      "sports").1.principalGroupCache.listAt "user.joe" = [] := by
  decide +kernel

/-- A domain without groups and certificates leaves nothing behind. -/
theorem disabled_domain_without_groups_gone :
    NothingLeft "sports" ((sportsStore []).process sampleSetting (sportsUpdate [] false)).1 ∧
      SameState ((sportsStore []).process sampleSetting (sportsUpdate [] false)).1
        ((sportsStore []).deleteDomain "sports").1 := by
  have hreached : Reachable Str (sportsStore []) :=
    Reachable.empty.process sampleSetting (sportsUpdate [] true)
  have hgroups : (sportsStore []).groupMemberCache = ∅ := rfl
  have hprincipals : (sportsStore []).principalGroupCache = ∅ := rfl
  have hcerts : (sportsStore []).requireRoleCertCache = {} := rfl
  have hnoGroups : NoGroups "sports" (sportsStore []) := by
    rw [NoGroups, hgroups, hprincipals]
    exact ⟨fun _ _ => rfl, fun _ _ hentry => absurd hentry List.not_mem_nil⟩
  have hnoCerts : NoRoleCerts "sports" (sportsStore []) := by
    rw [NoRoleCerts, hcerts]
    exact ⟨fun _ _ => rfl, fun fact hfact => absurd hfact (not_holds_empty fact)⟩
  have hnoCloud : NoCloud "sports" (sportsStore []) := by
    intro cloud hcloud
    cases hcloud
  have hidle : PublishedIdle "sports" (sportsStore []) := by
    intro published hpublished
    cases hpublished
    refine ⟨by decide, fun _ hgroup => absurd hgroup List.not_mem_nil, ?_⟩
    intro role _
    rw [RoleIdle, hcerts]
    exact ⟨rfl, fun fact hfact => absurd hfact (not_holds_empty fact)⟩
  have haccepted : (sportsUpdate [] false).accepted sampleSetting.zms =
      some (sportsData [] false) := rfl
  exact (disabled_domain_leaves_nothing_iff hreached haccepted rfl).2
    ⟨⟨hnoGroups, hnoCerts, hnoCloud⟩, hidle⟩

end Sample

end DataStore

end Athenz.Zts
