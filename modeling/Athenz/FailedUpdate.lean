import Athenz.DisabledDomain

namespace Athenz.Zts
open Lib Lib.Text Lib.Index
set_option autoImplicit true

namespace DataStore

open RequireRoleCertCache

/-- The indexes of a domain as the store has them. -/
def getDataCache (store : DataStore) (name : Str) : Option DataCache :=
  (store.cacheStore.lookup name).map (·.toDataCache)

/-- Two stores that answer every question alike. -/
structure SameAnswers (store store' : DataStore) : Prop where
  domainData : ∀ name, store'.getDomainData name = store.getDomainData name
  accessibleRoles : ∀ now query identity accessibleRoles,
    store'.getAccessibleRoles now query (store'.getDataCache query.domainName) identity accessibleRoles =
      store.getAccessibleRoles now query (store.getDataCache query.domainName) identity accessibleRoles
  roleCerts : ∀ principal role,
    role ∈ store'.requireRoleCertCache.getRolesRequireRoleCert principal ↔
      role ∈ store.requireRoleCertCache.getRolesRequireRoleCert principal
  publicKey : ∀ domain service keyId,
    store'.getPublicKey domain service keyId = store.getPublicKey domain service keyId
  hostServices : ∀ host, store'.getHostServices host = store.getHostServices host

theorem SameAnswers.refl (store : DataStore) : SameAnswers store store :=
  ⟨fun _ => rfl, fun _ _ _ _ => rfl, fun _ _ => Iff.rfl, fun _ _ _ => rfl, fun _ => rfl⟩

section Congruence

variable {store store' : DataStore}

theorem processIdentity_congr
    (hprincipals : ∀ principal, store'.principalGroupCache.listAt principal =
      store.principalGroupCache.listAt principal) :
    processIdentity store' = processIdentity store := by
  funext now query data identity trustedResources accessibleRoles
  simp only [processIdentity, processGroupMembership, hprincipals]

/-- The roles of a principal depend on its groups and on the indexes of the domains. -/
theorem getAccessibleRoles_congr
    (hprincipals : ∀ principal, store'.principalGroupCache.listAt principal =
      store.principalGroupCache.listAt principal)
    (hindexes : ∀ name, store'.getDataCache name = store.getDataCache name) :
    store'.getAccessibleRoles now query (store'.getDataCache query.domainName) identity accessibleRoles =
      store.getAccessibleRoles now query (store.getDataCache query.domainName) identity
        accessibleRoles := by
  have htrusted : ∀ data, processTrustMembership store' now query data =
      processTrustMembership store now query data := by
    intro data
    funext identity accessibleRoles
    have hindex : ∀ name, (store'.cacheStore.lookup name).map (·.toDataCache) =
      (store.cacheStore.lookup name).map (·.toDataCache) := hindexes
    simp only [processTrustMembership, processTrustedDomain, hindex,
      processIdentity_congr hprincipals]
  rw [hindexes]
  unfold getAccessibleRoles
  split
  · rfl
  · rw [htrusted, processIdentity_congr hprincipals]

theorem getRolesRequireRoleCert_congr {cache cache' : RequireRoleCertCache}
    (h : ∀ fact, cache'.Holds fact ↔ cache.Holds fact) :
    role ∈ cache'.getRolesRequireRoleCert principal ↔
      role ∈ cache.getRolesRequireRoleCert principal := by
  simp only [mem_getRolesRequireRoleCert, h]

end Congruence

section Idle

variable [CaseRules]

/-- The deletion of a role takes nothing from the certificate cache. -/
def CertIdle (cache : RequireRoleCertCache) (role : Role) : Prop :=
  ∀ fact, cache.Holds fact → ¬ RemovesRole cache.Keyed role fact

/-- The deletion of a group takes no entry from a principal. -/
def MembersIdle (store : DataStore) (group : Group) : Prop :=
  ∀ principal, ∀ entry ∈ store.principalGroupCache.listAt principal,
    ¬ RemovesMember group principal entry

/-- Nothing that precedes the failure of an update has an effect: it lists no groups, its roles are
untagged and without certificates, and so are the published roles and groups, none of which it
lists. -/
structure UpdateIdle (domainData : DomainData) (store : DataStore) : Prop where
  noGroups : domainData.groups.getD [] = []
  listed : ∀ role ∈ domainData.roles.getD [],
    isRoleCertRequired role = false ∧ CertIdle store.requireRoleCertCache role
  published : ∀ published, store.cacheStore.lookup domainData.name = some published →
    (∀ role ∈ published.domainData.roles.getD [],
      role.name ∉ (domainData.roles.getD []).map (·.name) ∧
        CertIdle store.requireRoleCertCache role) ∧
    ∀ group ∈ published.domainData.groups.getD [], MembersIdle store group

omit [CaseRules] in
theorem deletedRoles_of_unlisted (h : ∀ role ∈ published.getD [], role.name ∉ validRoles) :
    deletedRoles published validRoles = published := by
  unfold deletedRoles
  split
  · rfl
  · cases published with
    | none => rfl
    | some roles =>
      rw [Option.map_some, List.filter_eq_self.2]
      intro role hrole
      exact decide_eq_true (h role hrole)

omit [CaseRules] in
theorem editPublished_of_same {store : DataStore}
    (h : ∀ published, store.cacheStore.lookup name = some published →
      edit published.domainData = published.domainData) (other : Str) :
    (store.editPublished name edit).cacheStore.lookup other = store.cacheStore.lookup other := by
  unfold editPublished
  cases hlookup : store.cacheStore.lookup name with
  | none => rfl
  | some published =>
    dsimp only
    rw [Map.lookup_insert]
    split
    · rename_i hsame
      rw [hsame, hlookup, h published hlookup]
    · rfl

theorem foldl_processRoleCert (now : Int) (roles : List Role) (cache : RequireRoleCertCache)
    (h : ∀ role ∈ roles, isRoleCertRequired role = false) :
    roles.foldl (processRoleCert now) cache =
      roles.foldl (fun cache role => cache.processRoleCacheDelete role) cache := by
  apply List.foldl_ext
  intro cache role hrole
  rw [processRoleCert, h role hrole, if_neg Bool.false_ne_true]

variable {store : DataStore} {domainData : DomainData}

/-- The published data that an idle update finds stays as it is. -/
theorem UpdateIdle.lookup_processDomainRoles (h : UpdateIdle domainData store) (now : Int)
    (name : Str) : (processDomainRoles now domainData store).cacheStore.lookup name =
      store.cacheStore.lookup name := by
  refine editPublished_of_same ?_ name
  intro published hpublished
  have hroles : deletedRoles published.domainData.roles
      ((domainData.roles.getD []).map (·.name)) = published.domainData.roles :=
    deletedRoles_of_unlisted fun role hrole => ((h.published published hpublished).1 role hrole).1
  rw [hroles]

theorem UpdateIdle.holds_processDomainRoles (h : UpdateIdle domainData store) (now : Int)
    (fact : Fact) : (processDomainRoles now domainData store).requireRoleCertCache.Holds fact ↔
      store.requireRoleCertCache.Holds fact := by
  have hlookup := h.lookup_processDomainRoles now domainData.name
  have hcerts : (processDomainRoles now domainData store).requireRoleCertCache =
      (domainData.roles.getD [] ++
        ((store.cacheStore.lookup domainData.name).bind (·.domainData.roles)).getD []).foldl
        (fun cache role => cache.processRoleCacheDelete role) store.requireRoleCertCache := by
    rw [List.foldl_append, ← foldl_processRoleCert now _ _ fun role hrole => (h.listed role hrole).1,
      ← hlookup]
    rfl
  rw [hcerts, holds_foldl_processRoleCacheDelete, and_iff_left_iff_imp]
  intro hfact role hrole
  obtain hrole | hrole := List.mem_append.1 hrole
  · exact (h.listed role hrole).2 fact hfact
  · cases hpublished : store.cacheStore.lookup domainData.name with
    | none =>
      rw [hpublished] at hrole
      exact absurd hrole List.not_mem_nil
    | some published =>
      rw [hpublished] at hrole
      exact ((h.published published hpublished).1 role hrole).2 fact hfact

theorem listAt_processGroupDelete_of_idle (h : MembersIdle store group) (principal : Str) :
    (store.processGroupDelete group).principalGroupCache.listAt principal =
      store.principalGroupCache.listAt principal := by
  have hlist : (store.processGroupDelete group).principalGroupCache.listAt principal = _ :=
    listAt_foldl_deleteGroupMember (group.groupMembers.getD []) store.principalGroupCache
  rw [hlist]
  split
  · rename_i hmember
    rw [deleteEffect, List.filter_eq_self]
    intro entry hentry
    rw [Bool.not_eq_true']
    exact eq_false_of_ne_true fun hsame => h principal entry hentry ⟨hmember, hsame⟩
  · rfl

theorem listAt_foldl_processGroupDelete_of_idle {groups : List Group}
    (h : ∀ group ∈ groups, MembersIdle store group) (principal : Str) :
    (groups.foldl (fun store group => store.processGroupDelete group)
      store).principalGroupCache.listAt principal = store.principalGroupCache.listAt principal := by
  induction groups generalizing store with
  | nil => rfl
  | cons group groups ih =>
    have hsame := listAt_processGroupDelete_of_idle (h group List.mem_cons_self)
    rw [List.foldl_cons, ih, hsame]
    intro other hother principal entry hentry
    rw [hsame] at hentry
    exact h other (.tail _ hother) principal entry hentry

theorem principalGroupCache_processDomainRoles (now : Int) (domainData : DomainData)
    (store : DataStore) : (processDomainRoles now domainData store).principalGroupCache =
      store.principalGroupCache :=
  (editPublished_frame store domainData.name _).2

theorem UpdateIdle.dropped_idle (h : UpdateIdle domainData store) (now : Int) :
    ∀ group ∈ droppedGroups domainData (processDomainRoles now domainData store),
      MembersIdle (processDomainRoles now domainData store) group := by
  intro group hgroup principal entry hentry
  have hpublished := (List.mem_filter.1 hgroup).1
  rw [publishedGroups, h.lookup_processDomainRoles] at hpublished
  rw [principalGroupCache_processDomainRoles] at hentry
  cases hlookup : store.cacheStore.lookup domainData.name with
  | none =>
    rw [hlookup] at hpublished
    exact absurd hpublished List.not_mem_nil
  | some published =>
    rw [hlookup] at hpublished
    exact (h.published published hlookup).2 group hpublished principal entry hentry

/-- An idle update leaves the answers as they were, up to where it fails. -/
theorem UpdateIdle.sameAnswers (h : UpdateIdle domainData store) (clock : Group → Int) (now : Int) :
    SameAnswers store
      (processDomainGroups clock domainData (processDomainRoles now domainData store)) := by
  have hframe := frame_processDomainRoles now domainData store
  have hlists := listAt_foldl_processGroupDelete_of_idle (h.dropped_idle now)
  obtain ⟨members, principals, hgroups⟩ := foldl_processGroupDelete_keeps
    (droppedGroups domainData (processDomainRoles now domainData store))
    (processDomainRoles now domainData store)
  have hprincipals : ∀ principal, Map.listAt principals principal =
      store.principalGroupCache.listAt principal := by
    intro principal
    have hlist := hlists principal
    rw [hgroups, principalGroupCache_processDomainRoles] at hlist
    exact hlist
  rw [processDomainGroups_eq, h.noGroups, List.foldl_nil, hgroups]
  constructor
  · intro name
    exact congrArg (Option.map _) (h.lookup_processDomainRoles now name)
  · intro now query identity accessibleRoles
    exact getAccessibleRoles_congr hprincipals hframe.indexes
  · intro principal role
    exact getRolesRequireRoleCert_congr (h.holds_processDomainRoles now)
  · intro domain service keyId
    exact congrArg _ hframe.publicKeyCache
  · intro host
    exact congrArg _ hframe.hostCache

end Idle

section Failure

variable [CaseRules] {store : DataStore} {setting : Setting Key} {incoming : Incoming}

omit [CaseRules] in
theorem deleteDomainFromCache_of_none (h : store.cacheStore.lookup name = none) :
    store.deleteDomainFromCache name = store := by
  have herase : store.cacheStore.erase name = store.cacheStore := by
    apply AList.ext
    exact List.kerase_of_notMem_keys (AList.lookup_eq_none.1 h)
  unfold deleteDomainFromCache removeEntries
  rw [h]
  dsimp only
  rw [herase]

/-- An accepted domain fails before it has touched the store: it is disabled and not published, or
its indexes cannot be built and nothing before that has an effect. -/
def FailsUntouched (setting : Setting Key) (domainData : DomainData) (store : DataStore) : Prop :=
  if domainData.enabled = some false then store.cacheStore.lookup domainData.name = none
  else (∃ failure, buildCache setting.codec setting.now domainData = .error failure) ∧
    UpdateIdle domainData store

omit [CaseRules] in
theorem lookup_editPublished_self (h : store.cacheStore.lookup name = some published)
    (edit : DomainData → DomainData) :
    (store.editPublished name edit).cacheStore.lookup name =
      some { published with domainData := edit published.domainData } := by
  unfold editPublished
  simp only [h, Map.lookup_insert, if_true]

omit [CaseRules] in
/-- The roles in the published data of a domain. -/
def publishedRoles (name : Str) (store : DataStore) : Option (List Role) :=
  (store.getDomainData name).bind (·.roles)

theorem publishedRoles_processListedGroup (clock : Group → Int) (name : Str) (store : DataStore)
    (group : Group) : publishedRoles name (processListedGroup clock name store group) =
      publishedRoles name store := by
  unfold publishedRoles getDomainData processListedGroup editPublished
  cases hlookup : store.cacheStore.lookup name with
  | none =>
    have hcaches : (processGroup (clock group) group store).cacheStore = store.cacheStore := rfl
    simp only [hcaches, hlookup]
  | some published =>
    simp only [processGroup, processGroupDeletedMembers, Map.lookup_insert, if_true,
      Option.map_some, Option.bind_some]

theorem publishedRoles_processDomainGroups (clock : Group → Int) (domainData : DomainData)
    (store : DataStore) : publishedRoles domainData.name (processDomainGroups clock domainData store) =
      publishedRoles domainData.name store := by
  obtain ⟨members, principals, hgroups⟩ := foldl_processGroupDelete_keeps
    (droppedGroups domainData store)
    ((domainData.groups.getD []).foldl (processListedGroup clock domainData.name) store)
  have hlisted : publishedRoles domainData.name
      ((domainData.groups.getD []).foldl (processListedGroup clock domainData.name) store) =
        publishedRoles domainData.name store := by
    refine foldl_invariant (P := fun s => publishedRoles domainData.name s =
      publishedRoles domainData.name store) ?_ _ rfl
    intro s group hs
    rw [publishedRoles_processListedGroup, hs]
  rw [processDomainGroups_eq, hgroups]
  exact hlisted

theorem publishedRoles_processDomainRoles (now : Int) :
    publishedRoles domainData.name (processDomainRoles now domainData store) =
      deletedRoles (publishedRoles domainData.name store)
        ((domainData.roles.getD []).map (·.name)) := by
  have hcaches : (processDomainRoles now domainData store).cacheStore =
      (store.editPublished domainData.name fun data =>
        { data with
          roles := deletedRoles data.roles
            ((domainData.roles.getD []).map (·.name)) }).cacheStore := rfl
  unfold publishedRoles getDomainData
  rw [hcaches]
  cases hlookup : store.cacheStore.lookup domainData.name with
  | none =>
    simp only [editPublished, hlookup, Option.map_none, Option.bind_none, deletedRoles, ite_self]
  | some published =>
    rw [lookup_editPublished_self hlookup]
    rfl

omit [CaseRules] in
theorem unlisted_of_deletedRoles_eq (h : deletedRoles published validRoles = published) :
    ∀ role ∈ published.getD [], role.name ∉ validRoles := by
  intro role hrole hlisted
  unfold deletedRoles at h
  split at h
  · rename_i hempty
    rw [hempty] at hlisted
    exact absurd hlisted List.not_mem_nil
  · cases published with
    | none => exact absurd hrole List.not_mem_nil
    | some roles =>
      rw [Option.map_some, Option.some.injEq, List.filter_eq_self] at h
      exact of_decide_eq_true (h role hrole) hlisted

/-- What an accepted domain must meet for its failure to be invisible: disabled, it is not
published; saved too late, it was published with the same data; not processed, it lists none of the
published roles. -/
def FailsInvisibly (setting : Setting Key) (domainData : DomainData) (store : DataStore) : Prop :=
  if domainData.enabled = some false then store.cacheStore.lookup domainData.name = none
  else
    match buildCache setting.codec setting.now domainData with
    | .ok _ => store.getDomainData domainData.name = some (normalized domainData)
    | .error _ => ∀ role ∈ (publishedRoles domainData.name store).getD [],
      role.name ∉ (domainData.roles.getD []).map (·.name)

theorem SameAnswers.failsInvisibly {domainData : DomainData}
    (haccepted : incoming.accepted setting.zms = some domainData)
    (h : SameAnswers store (store.process setting incoming).1) :
    FailsInvisibly setting domainData store := by
  rw [process_of_accepted haccepted, processValidDomain] at h
  have hdata := h.domainData domainData.name
  unfold FailsInvisibly
  split
  · rename_i hdisabled
    rw [if_pos hdisabled, getDomainData, getDomainData, lookup_deleteDomainFromCache, if_pos rfl,
      Option.map_none, eq_comm, Option.map_eq_none_iff] at hdata
    exact hdata
  · rename_i henabled
    rw [if_neg henabled, DataStore.processDomainData] at hdata
    split
    · rename_i cache hbuild
      rw [hbuild] at hdata
      dsimp only at hdata
      rw [getDomainData, (addDomainToCache_frame _ _ _).1, Map.lookup_insert, if_pos rfl] at hdata
      exact hdata.symm
    · rename_i failure hbuild
      rw [hbuild] at hdata
      have hroles := congrArg (fun data => data.bind (·.roles)) hdata
      apply unlisted_of_deletedRoles_eq
      rw [← publishedRoles_processDomainRoles setting.now,
        ← publishedRoles_processDomainGroups setting.clock]
      exact hroles

/-- An update leaves the answers as they were when it is rejected or fails before it has touched
the store, and only when its failure is invisible in the published data. -/
theorem failed_update_keeps_answers (store : DataStore) (setting : Setting Key)
    (incoming : Incoming) :
    ((∀ domainData, incoming.accepted setting.zms = some domainData →
        FailsUntouched setting domainData store) →
      SameAnswers store (store.process setting incoming).1) ∧
    (SameAnswers store (store.process setting incoming).1 →
      ∀ domainData, incoming.accepted setting.zms = some domainData →
        FailsInvisibly setting domainData store) := by
  refine ⟨?_, fun hsame _ haccepted => hsame.failsInvisibly haccepted⟩
  intro huntouched
  cases haccepted : incoming.accepted setting.zms with
  | none =>
    rw [process_of_rejected haccepted]
    exact SameAnswers.refl store
  | some domainData =>
    have hcondition := huntouched domainData haccepted
    rw [process_of_accepted haccepted, processValidDomain]
    unfold FailsUntouched at hcondition
    split at hcondition
    · rename_i hdisabled
      rw [if_pos hdisabled, deleteDomainFromCache_of_none hcondition]
      exact SameAnswers.refl store
    · rename_i henabled
      obtain ⟨⟨failure, hbuild⟩, hidle⟩ := hcondition
      rw [if_neg henabled, DataStore.processDomainData, hbuild]
      exact hidle.sameAnswers setting.clock setting.now

end Failure

section Sample

local instance failureCaseRules : CaseRules := .ascii

/-- A domain whose readers are its staff. -/
def readersData (groups : List Group) (entities : Option (List Entity)) : DomainData where
  name := "sports"
  roles := some [{ name := "sports:role.readers"
                   roleMembers := some [{ memberName := "sports:group.staff" }] }]
  groups := some groups
  entities := entities

/-- An entity that stops the processing of its domain. -/
def entityWithoutValue : Entity where
  name := "sports:entity.zts.authorization_details_files"
  value := none

def readersStore : DataStore :=
  (({} : DataStore).process sampleSetting (.signed
    ⟨readersData [groupOfJoe "sports:group.staff" none none] none, "signature", none⟩)).1

/-- The roles of a principal of the domain. -/
def sportsRoles (store : DataStore) (identity : Str) : List Str :=
  store.getAccessibleRoles 100 ⟨"sports", none, false⟩ (store.getDataCache "sports") identity []

/-- An update that fails on an entity has already taken the groups it does not list. -/
theorem failed_update_revokes_role :
    (readersStore.process sampleSetting (.signed
      ⟨readersData [] (some [entityWithoutValue]), "signature", none⟩)).2 = false ∧
    sportsRoles readersStore "user.joe" = [↑"readers"] ∧
    sportsRoles (readersStore.process sampleSetting (.signed
      ⟨readersData [] (some [entityWithoutValue]), "signature", none⟩)).1 "user.joe" = [] := by
  decide +kernel

end Sample

end DataStore

end Athenz.Zts
