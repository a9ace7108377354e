import Athenz.RoleCertExact
import Athenz.FailedUpdate

namespace Athenz.Zts
open Lib Lib.Text Lib.Index
set_option autoImplicit true

namespace RequireRoleCertCache

open RolePrefixTrie DataStore

section Domains

variable [CaseRules]

/-- The versions after an update that lists some roles. -/
def setVersions (version : Str → Option Role) (roles : List Role) : Str → Option Role :=
  roles.foldl (fun version role => Function.update version role.name (some role)) version

def dropVersions (version : Str → Option Role) (roles : List Role) : Str → Option Role :=
  roles.foldl (fun version role => Function.update version role.name none) version

omit [CaseRules] in
theorem setVersions_of_notMem {roles : List Role} {version : Str → Option Role}
    (h : name ∉ roles.map (·.name)) : setVersions version roles name = version name := by
  induction roles generalizing version with
  | nil => rfl
  | cons role roles ih =>
    rw [List.map_cons, List.mem_cons, not_or] at h
    rw [setVersions, List.foldl_cons]
    exact (ih h.2).trans (Function.update_of_ne h.1 _ _)

omit [CaseRules] in
theorem setVersions_of_mem {roles : List Role} {version : Str → Option Role}
    (hnodup : (roles.map (·.name)).Nodup) (h : role ∈ roles) :
    setVersions version roles role.name = some role := by
  induction roles generalizing version with
  | nil => exact absurd h List.not_mem_nil
  | cons first roles ih =>
    rw [List.map_cons, List.nodup_cons] at hnodup
    rw [setVersions, List.foldl_cons]
    obtain rfl | h := List.mem_cons.1 h
    · exact (setVersions_of_notMem hnodup.1).trans (Function.update_self _ _ _)
    · exact ih hnodup.2 h

omit [CaseRules] in
theorem dropVersions_apply {roles : List Role} {version : Str → Option Role} (name : Str) :
    dropVersions version roles name = if name ∈ roles.map (·.name) then none else version name := by
  induction roles generalizing version with
  | nil => rfl
  | cons role roles ih =>
    rw [dropVersions, List.foldl_cons]
    refine ih.trans ?_
    simp only [List.map_cons, List.mem_cons]
    by_cases hname : name = role.name
    · simp only [hname, Function.update_self, true_or, if_true, ite_self]
    · simp only [hname, false_or, Function.update_of_ne (Ne.intro hname)]

/-- Every role of an update finds what it must when its turn comes. -/
def RolesFit (now : Int) : RequireRoleCertCache → List Role → Prop
  | _, [] => True
  | cache, role :: roles =>
    UpdateFits now role cache ∧ RolesFit now (processRoleCert now cache role) roles

theorem CertsExact.processRoleCerts (hsafe : CaseSafe names) {roles : List Role}
    {cache : RequireRoleCertCache} (h : CertsExact now names version cache)
    (hgood : ∀ role ∈ roles, GoodRole names role) (hfit : RolesFit now cache roles) :
    CertsExact now names (setVersions version roles)
      (roles.foldl (DataStore.processRoleCert now) cache) := by
  induction roles generalizing version cache with
  | nil => exact h
  | cons role roles ih =>
    exact ih (h.processRoleCert hsafe (hgood role List.mem_cons_self) hfit.1)
      (fun other hother => hgood other (.tail _ hother)) hfit.2

/-- A role lists the members of the latest version of its name. -/
def Covers (version : Str → Option Role) (role : Role) : Prop :=
  ∀ latest, version role.name = some latest → ∀ member ∈ latest.roleMembers.getD [],
    member.memberName ∈ (role.roleMembers.getD []).map (·.memberName)

omit [CaseRules] in
theorem CertsExact.covers (h : CertsExact now names version cache) (hcovers : Covers version role)
    (principal : Str) (hentry : cache.Holds (.entry principal role.name)) :
    principal ∈ (role.roleMembers.getD []).map (·.memberName) := by
  obtain ⟨member, hmember, _, rfl⟩ := mem_requiredNames.1 ((h.entries _ _).1 hentry)
  cases hversion : version role.name with
  | none =>
    rw [hversion] at hmember
    exact absurd hmember List.not_mem_nil
  | some latest =>
    rw [hversion, cachedMembers] at hmember
    split at hmember
    · exact hcovers latest hversion _ (mem_getRoleMembersForCache hmember).2
    · exact absurd hmember List.not_mem_nil

theorem CertsExact.processRoleCacheDeletes (hsafe : CaseSafe names) {roles : List Role}
    {cache : RequireRoleCertCache} (h : CertsExact now names version cache)
    (hroles : ∀ role ∈ roles, role.name ∈ names ∧ Covers version role) :
    CertsExact now names (dropVersions version roles)
      (roles.foldl (fun cache role => cache.processRoleCacheDelete role) cache) := by
  induction roles generalizing version cache with
  | nil => exact h
  | cons role roles ih =>
    obtain ⟨hname, hcovers⟩ := hroles role List.mem_cons_self
    have hstep : CertsExact now names (Function.update version role.name none)
        (cache.processRoleCacheDelete role) :=
      h.processRoleCacheDelete hsafe hname (h.covers hcovers) (fun _ hnone => nomatch hnone) rfl
    refine ih hstep ?_
    intro other hother
    obtain ⟨hotherName, hotherCovers⟩ := hroles other (.tail _ hother)
    refine ⟨hotherName, ?_⟩
    intro latest hlatest
    dsimp only at hlatest
    by_cases hsame : other.name = role.name
    · rw [hsame, Function.update_self] at hlatest
      cases hlatest
    · rw [Function.update_of_ne hsame] at hlatest
      exact hotherCovers latest hlatest

end Domains

section Frames

variable [CaseRules]

theorem requireRoleCertCache_processDomainGroups (clock : Group → Int) (domainData : DomainData)
    (store : DataStore) : (processDomainGroups clock domainData store).requireRoleCertCache =
      store.requireRoleCertCache := by
  obtain ⟨members, principals, hgroups⟩ := foldl_processGroupDelete_keeps
    (droppedGroups domainData store)
    ((domainData.groups.getD []).foldl (processListedGroup clock domainData.name) store)
  rw [processDomainGroups_eq, hgroups]
  refine foldl_invariant (P := fun s : DataStore => s.requireRoleCertCache =
    store.requireRoleCertCache) ?_ _ rfl
  intro s group hs
  rw [← hs]
  exact requireRoleCertCache_editPublished s domainData.name _

omit [CaseRules] in
theorem requireRoleCertCache_addDomainToCache (store : DataStore) (name : Str)
    (cache : PublishedCache) :
    (store.addDomainToCache name cache).requireRoleCertCache = store.requireRoleCertCache := by
  unfold addDomainToCache removeEntries
  cases store.cacheStore.lookup name with
  | none => rfl
  | some published => rfl

omit [CaseRules] in
theorem lookup_editPublished_of_ne (store : DataStore) (edit : DomainData → DomainData)
    (h : other ≠ name) :
    (store.editPublished name edit).cacheStore.lookup other = store.cacheStore.lookup other := by
  unfold editPublished
  split
  · rfl
  · rw [Map.lookup_insert, if_neg h]

/-- An update of a domain leaves the published data of the others alone. -/
theorem lookup_processDomain_of_ne (clock : Group → Int) (now : Int) (domainData : DomainData)
    (store : DataStore) (h : other ≠ domainData.name) :
    (processDomainGroups clock domainData
      (processDomainRoles now domainData store)).cacheStore.lookup other =
        store.cacheStore.lookup other := by
  obtain ⟨members, principals, hgroups⟩ := foldl_processGroupDelete_keeps
    (droppedGroups domainData (processDomainRoles now domainData store))
    ((domainData.groups.getD []).foldl (processListedGroup clock domainData.name)
      (processDomainRoles now domainData store))
  rw [processDomainGroups_eq, hgroups]
  refine foldl_invariant (P := fun s : DataStore => s.cacheStore.lookup other =
    store.cacheStore.lookup other) ?_ _ (lookup_editPublished_of_ne store _ h)
  intro s group hs
  rw [← hs]
  exact lookup_editPublished_of_ne s _ h

end Frames

section Runs

variable [CaseRules]

/-- The roles of the domains that have been processed last. -/
abbrev Processed := Str → Option (List Role)

/-- A role is in a processed domain. -/
def Current (processed : Processed) (role : Role) : Prop :=
  ∃ name roles, processed name = some roles ∧ role ∈ roles

/-- What an update of the roles of a domain must meet: good roles that find what they must, with
names of their own. -/
structure DomainFits (now : Int) (names : Set Str) (processed : Processed) (domainData : DomainData)
    (cache : RequireRoleCertCache) : Prop where
  good : ∀ role ∈ domainData.roles.getD [], GoodRole names role
  nodup : ((domainData.roles.getD []).map (·.name)).Nodup
  own : ∀ name roles, name ≠ domainData.name → processed name = some roles →
    ∀ role ∈ roles, role.name ∉ (domainData.roles.getD []).map (·.name)
  fits : RolesFit now cache (domainData.roles.getD [])

/-- Updates and deletions of domains from an empty store on, at one time, with the roles of the
domains that are processed. -/
inductive CertsRun (now : Int) (names : Set Str) : DataStore → Processed → Prop where
  | empty : CertsRun now names {} fun _ => none
  | update (run : CertsRun now names store processed) (codec : Codec) (clock : Group → Int)
    (domainData : DomainData) (hok : buildCache codec now domainData = .ok cache)
    (hfits : DomainFits now names processed domainData store.requireRoleCertCache) :
    CertsRun now names (store.processDomainData codec clock now domainData).1
      (Function.update processed domainData.name (some (domainData.roles.getD [])))
  | delete (run : CertsRun now names store processed) (name : Str)
    (hroles : ∀ published, store.cacheStore.lookup name = some published →
      published.domainData.roles ≠ none) :
    CertsRun now names (store.deleteDomain name).1 (Function.update processed name none)

/-- The certificate cache is exact for the processed roles, which are the published ones and have
names of their own. -/
structure Tracks (now : Int) (names : Set Str) (processed : Processed) (store : DataStore) : Prop where
  own : ∀ name other roles others, processed name = some roles → processed other = some others →
    ∀ role ∈ roles, ∀ role' ∈ others, role.name = role'.name → name = other
  exact : ∃ version, CertsExact now names version store.requireRoleCertCache ∧
    ∀ name role, version name = some role ↔ Current processed role ∧ role.name = name
  published : ∀ name, (store.cacheStore.lookup name).map (fun published =>
    published.domainData.roles.getD []) = (processed name).map (List.map setRoleMemberGroupType)

omit [CaseRules] in
theorem tracks_empty (now : Int) (names : Set Str) : Tracks now names (fun _ => none) {} where
  own _ _ _ _ hnone := nomatch hnone
  exact := by
    refine ⟨fun _ => none, ⟨?_, fun _ => rfl, ?_, ?_, ?_⟩, ?_⟩
    · intro name role hnone
      cases hnone
    · exact fun fact hfact => absurd hfact (not_holds_empty fact)
    · exact fun principal role => iff_of_false (not_holds_empty _) List.not_mem_nil
    · intro role name _
      refine iff_of_false ?_ fun hboth => absurd hboth.1 List.not_mem_nil
      rintro (⟨_, hholds⟩ | ⟨_, _, hholds⟩)
      · exact not_holds_empty _ hholds
      · exact not_holds_empty _ hholds
    · intro name role
      refine iff_of_false nofun ?_
      rintro ⟨⟨_, _, hnone, _⟩, _⟩
      cases hnone
  published _ := rfl

omit [CaseRules] in
theorem mem_deletedRoles {published : Option (List Role)} {validRoles : List Str} :
    role ∈ (deletedRoles published validRoles).getD [] ↔
      role ∈ published.getD [] ∧ role.name ∉ validRoles := by
  unfold deletedRoles
  split
  · rename_i hempty
    simp only [hempty, List.not_mem_nil, not_false_eq_true, and_true]
  · cases published with
    | none => simp only [Option.map_none, Option.getD_none, List.not_mem_nil, false_and]
    | some roles => simp only [Option.map_some, Option.getD_some, List.mem_filter, decide_eq_true_eq]

omit [CaseRules] in
/-- The published roles of a domain are the processed ones. -/
theorem Tracks.mem_publishedRoles (h : Tracks now names processed store) :
    role ∈ (publishedRoles name store).getD [] ↔
      ∃ roles, processed name = some roles ∧ ∃ r ∈ roles, setRoleMemberGroupType r = role := by
  have hpublished := h.published name
  unfold publishedRoles getDomainData
  cases hlookup : store.cacheStore.lookup name with
  | none =>
    rw [hlookup, Option.map_none, eq_comm, Option.map_eq_none_iff] at hpublished
    simp only [Option.map_none, Option.bind_none, Option.getD_none, List.not_mem_nil, hpublished,
      reduceCtorEq, false_and, exists_false]
  | some published =>
    rw [hlookup, Option.map_some, eq_comm, Option.map_eq_some_iff] at hpublished
    obtain ⟨roles, hroles, hmap⟩ := hpublished
    simp only [Option.map_some, Option.bind_some, hroles, Option.some.injEq, exists_eq_left', ← hmap,
      List.mem_map]

omit [CaseRules] in
theorem memberNames_setRoleMemberGroupType (role : Role) :
    ((setRoleMemberGroupType role).roleMembers.getD []).map (·.memberName) =
      (role.roleMembers.getD []).map (·.memberName) := by
  unfold setRoleMemberGroupType
  cases role.roleMembers with
  | none => rfl
  | some members =>
    simp only [Option.map_some, Option.getD_some, List.map_map]
    apply List.map_congr_left
    intro member _
    simp only [Function.comp]
    split
    · rfl
    · rfl

omit [CaseRules] in
/-- A published role that is processed lists the members of its latest version. -/
theorem covers_of_version (hversion : version role.name = some role) :
    Covers version (setRoleMemberGroupType role) := by
  intro latest hlatest member hmember
  have hsame : version role.name = some latest := hlatest
  rw [hversion] at hsame
  cases hsame
  rw [memberNames_setRoleMemberGroupType]
  exact List.mem_map_of_mem hmember

/-- The certificates after the roles of a domain are processed. -/
theorem requireRoleCertCache_processDomainRoles (now : Int) (domainData : DomainData)
    (store : DataStore) : (processDomainRoles now domainData store).requireRoleCertCache =
      ((deletedRoles (publishedRoles domainData.name store)
        ((domainData.roles.getD []).map (·.name))).getD []).foldl
          (fun cache role => cache.processRoleCacheDelete role)
        ((domainData.roles.getD []).foldl (processRoleCert now) store.requireRoleCertCache) := by
  rw [← publishedRoles_processDomainRoles now, publishedRoles, getDomainData, Option.bind_map]
  rfl

variable {store : DataStore} {domainData : DomainData}

omit [CaseRules] in
/-- The versions of the processed roles after an update of one domain. -/
theorem Tracks.versions_update (h : Tracks now names processed store)
    (hversion : ∀ name role, version name = some role ↔ Current processed role ∧ role.name = name)
    {roles deleted : List Role} (hnodup : (roles.map (·.name)).Nodup)
    (hown : ∀ name others, name ≠ domainName → processed name = some others →
      ∀ role ∈ others, role.name ∉ roles.map (·.name))
    (hdeleted : ∀ role, role ∈ deleted ↔ (∃ old, processed domainName = some old ∧
      ∃ r ∈ old, setRoleMemberGroupType r = role) ∧ role.name ∉ roles.map (·.name)) :
    ∀ name role, dropVersions (setVersions version roles) deleted name = some role ↔
      Current (Function.update processed domainName (some roles)) role ∧ role.name = name := by
  intro name role
  rw [dropVersions_apply]
  by_cases hlisted : name ∈ roles.map (·.name)
  · have hkept : name ∉ deleted.map (·.name) := by
      intro hmem
      obtain ⟨dropped, hdropped, rfl⟩ := List.mem_map.1 hmem
      exact ((hdeleted dropped).1 hdropped).2 hlisted
    obtain ⟨listed, hmem, rfl⟩ := List.mem_map.1 hlisted
    rw [if_neg hkept, setVersions_of_mem hnodup hmem, Option.some.injEq]
    constructor
    · rintro rfl
      exact ⟨⟨domainName, roles, Function.update_self _ _ _, hmem⟩, rfl⟩
    · rintro ⟨⟨other, others, hother, hrole⟩, hname⟩
      by_cases hsame : other = domainName
      · subst hsame
        rw [Function.update_self] at hother
        cases hother
        exact (List.inj_on_of_nodup_map hnodup hrole hmem hname).symm
      · rw [Function.update_of_ne hsame] at hother
        rw [← hname] at hlisted
        exact absurd hlisted (hown other others hsame hother role hrole)
  · have hothers : ∀ role, role.name = name →
        (Current (Function.update processed domainName (some roles)) role ↔
          ∃ other others, other ≠ domainName ∧ processed other = some others ∧ role ∈ others) := by
      rintro role rfl
      constructor
      · rintro ⟨other, others, hother, hrole⟩
        by_cases hsame : other = domainName
        · subst hsame
          rw [Function.update_self] at hother
          cases hother
          exact absurd (List.mem_map_of_mem hrole) hlisted
        · rw [Function.update_of_ne hsame] at hother
          exact ⟨other, others, hsame, hother, hrole⟩
      · rintro ⟨other, others, hsame, hother, hrole⟩
        exact ⟨other, others, by rw [Function.update_of_ne hsame, hother], hrole⟩
    rw [setVersions_of_notMem hlisted]
    split
    · rename_i hdropped
      obtain ⟨dropped, hmem, rfl⟩ := List.mem_map.1 hdropped
      obtain ⟨⟨old, hold, r, hr, rfl⟩, _⟩ := (hdeleted dropped).1 hmem
      refine iff_of_false nofun ?_
      rintro ⟨hcurrent, hname⟩
      obtain ⟨other, others, hsame, hother, hrole⟩ := (hothers role hname).1 hcurrent
      exact hsame (h.own other domainName others old hother hold role hrole r hr hname)
    · rename_i hkept
      rw [hversion]
      refine and_congr_left fun hname => ?_
      rw [hothers role hname]
      constructor
      · rintro ⟨other, others, hother, hrole⟩
        refine ⟨other, others, ?_, hother, hrole⟩
        rintro rfl
        apply hkept
        refine List.mem_map.2 ⟨setRoleMemberGroupType role, (hdeleted _).2 ⟨⟨others, hother, role, hrole,
          rfl⟩, ?_⟩, hname⟩
        intro hmem
        exact hlisted (hname ▸ hmem)
      · rintro ⟨other, others, _, hother, hrole⟩
        exact ⟨other, others, hother, hrole⟩

/-- The store that a successful update leaves. -/
theorem processDomainData_of_ok (hok : buildCache codec now domainData = .ok cache) :
    (store.processDomainData codec clock now domainData).1 =
      (processDomainGroups clock domainData (processDomainRoles now domainData store)).addDomainToCache
        domainData.name { cache with domainData := normalized domainData } := by
  rw [processDomainData, hok]

theorem Tracks.update (hsafe : CaseSafe names) (h : Tracks now names processed store)
    (hok : buildCache codec now domainData = .ok cache)
    (hfits : DomainFits now names processed domainData store.requireRoleCertCache) :
    Tracks now names
      (Function.update processed domainData.name (some (domainData.roles.getD [])))
      (store.processDomainData codec clock now domainData).1 := by
  obtain ⟨version, hexact, hversion⟩ := h.exact
  have hdeleted : ∀ role, role ∈ (deletedRoles (publishedRoles domainData.name store)
      ((domainData.roles.getD []).map (·.name))).getD [] ↔
        (∃ old, processed domainData.name = some old ∧ ∃ r ∈ old, setRoleMemberGroupType r = role) ∧
          role.name ∉ (domainData.roles.getD []).map (·.name) := by
    intro role
    rw [mem_deletedRoles, h.mem_publishedRoles]
  have hcerts := hexact.processRoleCerts hsafe hfits.good hfits.fits
  rw [processDomainData_of_ok hok]
  constructor
  · intro name other roles others hname hother role hrole role' hrole' hsame
    by_cases hfirst : name = domainData.name
    · by_cases hsecond : other = domainData.name
      · rw [hfirst, hsecond]
      · rw [hfirst, Function.update_self] at hname
        rw [Function.update_of_ne hsecond] at hother
        cases hname
        exact absurd (hsame ▸ List.mem_map_of_mem hrole)
          (hfits.own other others hsecond hother role' hrole')
    · rw [Function.update_of_ne hfirst] at hname
      by_cases hsecond : other = domainData.name
      · rw [hsecond, Function.update_self] at hother
        cases hother
        exact absurd (hsame ▸ List.mem_map_of_mem hrole') (hfits.own name roles hfirst hname role hrole)
      · rw [Function.update_of_ne hsecond] at hother
        exact h.own name other roles others hname hother role hrole role' hrole' hsame
  · refine ⟨_, ?_, h.versions_update hversion hfits.nodup hfits.own hdeleted⟩
    rw [requireRoleCertCache_addDomainToCache, requireRoleCertCache_processDomainGroups,
      requireRoleCertCache_processDomainRoles]
    apply hcerts.processRoleCacheDeletes hsafe
    intro role hrole
    obtain ⟨⟨old, hold, r, hr, rfl⟩, hunlisted⟩ := (hdeleted role).1 hrole
    have hlatest : version r.name = some r :=
      (hversion r.name r).2 ⟨⟨domainData.name, old, hold, hr⟩, rfl⟩
    refine ⟨(hexact.good r.name r hlatest).2.name_mem, covers_of_version ?_⟩
    exact (setVersions_of_notMem hunlisted).trans hlatest
  · intro name
    rw [(addDomainToCache_frame _ _ _).1, Map.lookup_insert]
    by_cases hname : name = domainData.name
    · rw [if_pos hname, hname, Function.update_self]
      have hroles : (normalized domainData).roles.getD [] =
          (domainData.roles.getD []).map setRoleMemberGroupType := by
        unfold normalized
        cases domainData.roles with
        | none => rfl
        | some roles => rfl
      rw [Option.map_some, Option.map_some, hroles]
    · rw [if_neg hname, Function.update_of_ne hname, lookup_processDomain_of_ne _ _ _ _ hname]
      exact h.published name

omit [CaseRules] in
/-- A deleted domain counts as one without roles. -/
theorem current_update_nil :
    Current (Function.update processed name (some [])) role ↔
      Current (Function.update processed name none) role := by
  refine exists_congr fun other => exists_congr fun roles => and_congr_left fun hrole => ?_
  by_cases hsame : other = name
  · rw [hsame, Function.update_self, Function.update_self]
    refine iff_of_false ?_ nofun
    rintro ⟨⟩
    exact absurd hrole List.not_mem_nil
  · rw [Function.update_of_ne hsame, Function.update_of_ne hsame]

omit [CaseRules] in
theorem Tracks.own_delete (h : Tracks now names processed store) (name other otherName : Str)
    (roles others : List Role) (hroles : Function.update processed name none other = some roles)
    (hothers : Function.update processed name none otherName = some others) (role : Role)
    (hrole : role ∈ roles) (role' : Role) (hrole' : role' ∈ others)
    (hsame : role.name = role'.name) : other = otherName := by
  have hold : ∀ domain kept, Function.update processed name none domain = some kept →
      processed domain = some kept := by
    intro domain kept hkept
    by_cases hdomain : domain = name
    · rw [hdomain, Function.update_self] at hkept
      cases hkept
    · rwa [Function.update_of_ne hdomain] at hkept
  exact h.own other otherName roles others (hold _ _ hroles) (hold _ _ hothers) role hrole role' hrole'
    hsame

/-- The store that a deletion leaves when the published data, if any, has roles. -/
theorem deleteDomain_certs (hroles : ∀ published, store.cacheStore.lookup name = some published →
    published.domainData.roles ≠ none) :
    (store.deleteDomain name).1.requireRoleCertCache = ((publishedRoles name store).getD []).foldl
        (fun cache role => cache.processRoleCacheDelete role) store.requireRoleCertCache ∧
      ∀ other, (store.deleteDomain name).1.cacheStore.lookup other =
        if other = name then none else store.cacheStore.lookup other := by
  unfold publishedRoles getDomainData
  cases hlookup : store.cacheStore.lookup name with
  | none =>
    rw [deleteDomain_of_none hlookup]
    refine ⟨?_, fun other => lookup_deleteDomainFromCache ..⟩
    unfold deleteDomainFromCache removeEntries
    rw [hlookup]
    rfl
  | some published =>
    obtain ⟨roles, hsome⟩ := Option.ne_none_iff_exists'.1 (hroles published hlookup)
    rw [deleteDomain_of_roles hlookup hsome]
    refine ⟨?_, fun other => lookup_deleteDomainFromCache ..⟩
    rw [Option.map_some, Option.bind_some, hsome]
    rfl

theorem Tracks.delete (hsafe : CaseSafe names) (h : Tracks now names processed store)
    (hroles : ∀ published, store.cacheStore.lookup name = some published →
      published.domainData.roles ≠ none) :
    Tracks now names (Function.update processed name none) (store.deleteDomain name).1 := by
  obtain ⟨version, hexact, hversion⟩ := h.exact
  obtain ⟨hcerts, hlookup⟩ := deleteDomain_certs hroles
  refine ⟨h.own_delete name, ⟨dropVersions version ((publishedRoles name store).getD []), ?_, ?_⟩, ?_⟩
  · rw [hcerts]
    apply hexact.processRoleCacheDeletes hsafe
    intro role hrole
    obtain ⟨old, hold, r, hr, rfl⟩ := h.mem_publishedRoles.1 hrole
    have hlatest : version r.name = some r := (hversion r.name r).2 ⟨⟨name, old, hold, hr⟩, rfl⟩
    exact ⟨(hexact.good r.name r hlatest).2.name_mem, covers_of_version hlatest⟩
  · intro other role
    have hdeleted : ∀ role, role ∈ (publishedRoles name store).getD [] ↔
        (∃ old, processed name = some old ∧ ∃ r ∈ old, setRoleMemberGroupType r = role) ∧
          role.name ∉ ([] : List Role).map (·.name) := by
      intro role
      rw [h.mem_publishedRoles]
      exact (and_iff_left List.not_mem_nil).symm
    have hnodup : (([] : List Role).map (·.name)).Nodup := List.nodup_nil
    rw [← current_update_nil]
    exact h.versions_update hversion hnodup (fun _ _ _ _ _ _ => List.not_mem_nil) hdeleted
      other role
  · intro other
    rw [hlookup]
    by_cases hsame : other = name
    · rw [if_pos hsame, hsame, Function.update_self]
      rfl
    · rw [if_neg hsame, Function.update_of_ne hsame]
      exact h.published other

theorem CertsRun.tracks (hsafe : CaseSafe names) (run : CertsRun now names store processed) :
    Tracks now names processed store := by
  induction run with
  | empty => exact tracks_empty now names
  | update _ codec clock domainData hok hfits ih => exact ih.update hsafe hok hfits
  | delete _ name hroles ih => exact ih.delete hsafe hroles

/-- A role asks for a certificate for a principal: it has the tag, and an enabled and unexpired
member that is the principal or a wildcard for it. -/
def RequiresCert (now : Int) (role : Role) (principal : Str) : Prop :=
  ↑"true" ∈ role.tags.listAt "zts.IssueRoleCerts" ∧ ∃ member ∈ role.roleMembers.getD [],
    isMemberDisabled member.systemDisabled = false ∧ isMemberExpired member.expiration now = false ∧
      (member.memberName = principal ∨
        ['*'] <:+ member.memberName ∧ member.memberName.dropLast <+: principal)

/-- A principal that the trie can find: it does not end in a dot, and no wildcard inside a section
of a name would match it across a further dot. -/
def InSection (processed : Processed) (principal : Str) : Prop :=
  ¬ ['.'] <:+ principal ∧ ∀ role, Current processed role → ∀ member ∈ role.roleMembers.getD [],
    ['*'] <:+ member.memberName → member.memberName ≠ "*" → ¬ ['.', '*'] <:+ member.memberName →
      ∀ rest, principal = member.memberName.dropLast ++ rest → '.' ∉ rest

omit [CaseRules] in
theorem mem_requiredNames_some : name ∈ requiredNames now (some role) ↔
    ↑"true" ∈ role.tags.listAt "zts.IssueRoleCerts" ∧ ∃ member ∈ role.roleMembers.getD [],
      isMemberDisabled member.systemDisabled = false ∧
        isMemberExpired member.expiration now = false ∧ member.memberName = name := by
  rw [mem_requiredNames, cachedMembers, isRoleCertRequired]
  constructor
  · rintro ⟨member, hmember, hskip, rfl⟩
    split at hmember
    · rename_i htag
      rw [Bool.and_eq_true, decide_eq_true_iff] at htag
      rw [shouldSkipRoleMember, Bool.or_eq_false_iff] at hskip
      exact ⟨htag.2, _, (mem_getRoleMembersForCache hmember).2, hskip.1, hskip.2, rfl⟩
    · exact absurd hmember List.not_mem_nil
  · rintro ⟨htag, member, hmember, henabled, hexpired, rfl⟩
    have hsome : role.roleMembers.isSome = true := by
      cases hmembers : role.roleMembers with
      | none =>
        rw [hmembers] at hmember
        exact absurd hmember List.not_mem_nil
      | some members => rfl
    rw [hsome, Bool.true_and, if_pos (decide_eq_true htag)]
    refine ⟨⟨member, role.name⟩, List.mem_map_of_mem hmember, ?_, rfl⟩
    rw [shouldSkipRoleMember, henabled, hexpired]
    rfl

omit [CaseRules] in
/-- A fact of an exact cache that concerns a principal stands for a name that is required. -/
theorem CertsExact.required_of_concerns {fact : Fact} (h : CertsExact now names version cache)
    (hfact : cache.Holds fact) (hconcerns : fact.Concerns principal) :
    ∃ name ∈ requiredNames now (version fact.role),
      name = principal ∨ ['*'] <:+ name ∧ name.dropLast <+: principal := by
  cases fact with
  | entry name role =>
    obtain rfl : name = principal := hconcerns
    exact ⟨name, (h.entries name role).1 hfact, .inl rfl⟩
  | wildcard role =>
    have hall : GoodMember "*" := fun _ hne => absurd rfl hne
    exact ⟨"*", ((h.registered role "*" hall).1 (.inl ⟨rfl, hfact⟩)).1,
      .inr ⟨List.suffix_rfl, List.nil_prefix⟩⟩
  | prefixed path role =>
    obtain ⟨wildcard, hgood, hstar, hne, rfl⟩ := (h.fits _ hfact).2 path role rfl
    exact ⟨wildcard, ((h.registered role wildcard fun _ _ => hgood).1 (.inr ⟨hne, hstar, hfact⟩)).1,
      .inr ⟨hstar, hgood.prefix_of_pathMatches hconcerns⟩⟩

omit [CaseRules] in
/-- A required wildcard is found under every principal that it matches in its section. -/
theorem CertsExact.concerns_of_wildcard (h : CertsExact now names version cache)
    (hrequired : name ∈ requiredNames now (version role)) (hgood : GoodMember name)
    (hstar : ['*'] <:+ name) (hstarts : name.dropLast <+: principal)
    (hprincipal : ¬ ['.'] <:+ principal)
    (hsection : name ≠ "*" → ¬ ['.', '*'] <:+ name →
      ∀ rest, principal = name.dropLast ++ rest → '.' ∉ rest) :
    ∃ fact : Fact, cache.Holds fact ∧ fact.Concerns principal ∧ fact.role = role := by
  obtain ⟨hall, hholds⟩ | ⟨hne, _, hholds⟩ := (h.registered role name hgood).2 ⟨hrequired, hstar⟩
  · exact ⟨.wildcard role, hholds, trivial, rfl⟩
  · exact ⟨.prefixed (triePath name) role, hholds,
      (hgood hstar hne).pathMatches_of_starts hprincipal hstarts (hsection hne), rfl⟩

/-- In every run whose updates find what they must, the roles that require a certificate for a
principal are those of the processed domains that ask for it, whatever their earlier versions. -/
theorem roles_require_role_cert_iff (hsafe : CaseSafe names) (run : CertsRun now names store processed)
    (hprincipal : InSection processed principal) (roleName : Str) :
    roleName ∈ store.requireRoleCertCache.getRolesRequireRoleCert principal ↔
      ∃ role, Current processed role ∧ role.name = roleName ∧ RequiresCert now role principal := by
  obtain ⟨version, hexact, hversion⟩ := (run.tracks hsafe).exact
  rw [mem_getRolesRequireRoleCert]
  constructor
  · rintro ⟨fact, hfact, hconcerns, rfl⟩
    obtain ⟨name, hname, hmatch⟩ := hexact.required_of_concerns hfact hconcerns
    cases hlatest : version fact.role with
    | none =>
      rw [hlatest] at hname
      exact absurd hname List.not_mem_nil
    | some role =>
      rw [hlatest] at hname
      obtain ⟨htag, member, hmember, henabled, hexpired, rfl⟩ := mem_requiredNames_some.1 hname
      obtain ⟨hcurrent, hrole⟩ := (hversion _ _).1 hlatest
      exact ⟨role, hcurrent, hrole, htag, member, hmember, henabled, hexpired, hmatch⟩
  · rintro ⟨role, hcurrent, rfl, htag, member, hmember, henabled, hexpired, hmatch⟩
    have hlatest : version role.name = some role := (hversion _ _).2 ⟨hcurrent, rfl⟩
    have hrequired : member.memberName ∈ requiredNames now (version role.name) := by
      rw [hlatest]
      exact mem_requiredNames_some.2 ⟨htag, member, hmember, henabled, hexpired, rfl⟩
    obtain rfl | ⟨hstar, hstarts⟩ := hmatch
    · exact ⟨.entry member.memberName role.name, (hexact.entries _ _).2 hrequired, rfl, rfl⟩
    · have hgood := (hexact.good _ _ hlatest).2.members member hmember
      exact hexact.concerns_of_wildcard hrequired hgood.2 hstar hstarts hprincipal.1
        (hprincipal.2 role hcurrent member hmember hstar)

end Runs

section Sample

local instance certCaseRules : CaseRules := .ascii

instance (now : Int) (role : Role) (principal : Str) : Decidable (RequiresCert now role principal) :=
  inferInstanceAs (Decidable (_ ∧ ∃ member ∈ role.roleMembers.getD [], _))

def certTags : Map Str (List Str) := (∅ : Map Str (List Str)).insert "zts.IssueRoleCerts" [↑"true"]

def deployers (memberNames : List Str) (tags : Map Str (List Str)) : Role where
  name := "sports:role.deployers"
  roleMembers := some (memberNames.map fun name => { memberName := name })
  tags := tags

/-- A domain with one role. -/
def deployersData (memberNames : List Str) (tags : Map Str (List Str)) : DomainData where
  name := "sports"
  roles := some [deployers memberNames tags]

def plainCodec : Codec := ⟨fun _ => none, fun _ => none⟩

def certNames : List Str := ["sports:role.deployers", "user.joe", "user.j*"]

def deployersStore : DataStore :=
  (({} : DataStore).processDomainData plainCodec (fun _ => 100) 100
    (deployersData ["user.joe", "user.j*"] certTags)).1

theorem caseSafe_certNames : CaseSafe { name | name ∈ certNames } := by
  have hall : ∀ a ∈ certNames, ∀ b ∈ certNames, equalsIgnoreCase a b = true → a = b := by
    decide +kernel
  exact hall

theorem goodRole_deployers :
    GoodRole { name | name ∈ certNames } (deployers ["user.joe", "user.j*"] certTags) where
  name_mem := List.mem_cons_self
  nodup := by decide +kernel
  members := by
    intro member hmember
    obtain rfl | hmember := List.mem_cons.1 hmember
    · refine ⟨.tail _ List.mem_cons_self, fun hstar => absurd hstar ?_⟩
      decide +kernel
    · rw [List.mem_singleton.1 hmember]
      refine ⟨.tail _ (.tail _ List.mem_cons_self), fun _ _ => ?_⟩
      refine Wildcard.service ["user"] "j" ⟨List.cons_ne_nil _ _, ?_⟩
      decide +kernel

theorem current_update_empty {roles : List Role} :
    Current (Function.update (fun _ => none) name (some roles)) role ↔ role ∈ roles := by
  constructor
  · rintro ⟨other, others, hother, hrole⟩
    by_cases hsame : other = name
    · rw [hsame, Function.update_self] at hother
      cases hother
      exact hrole
    · rw [Function.update_of_ne hsame] at hother
      cases hother
  · intro hrole
    exact ⟨name, roles, Function.update_self _ _ _, hrole⟩

/-- A wildcard of a tagged role is found under a principal that it matches. -/
theorem wildcard_requires_cert :
    ↑"sports:role.deployers" ∈ deployersStore.requireRoleCertCache.getRolesRequireRoleCert "user.jane" := by
  have hfits : DomainFits 100 { name | name ∈ certNames } (fun _ => none)
      (deployersData ["user.joe", "user.j*"] certTags) {} := by
    refine ⟨?_, List.nodup_singleton _, nofun, ?_, trivial⟩
    · intro role hrole
      rw [List.mem_singleton.1 hrole]
      exact goodRole_deployers
    · rw [UpdateFits, if_pos (by decide +kernel)]
      intro member _ hlisted
      exact absurd hlisted List.not_mem_nil
  have hrun := CertsRun.empty.update plainCodec (fun _ => 100) _ rfl hfits
  refine (roles_require_role_cert_iff caseSafe_certNames hrun ⟨by decide +kernel, ?_⟩ _).2
    ⟨_, current_update_empty.2 List.mem_cons_self, rfl, by decide +kernel⟩
  intro role hcurrent member hmember hstar _ _ rest hrest
  rw [List.mem_singleton.1 (current_update_empty.1 hcurrent)] at hmember
  obtain rfl | hmember := List.mem_cons.1 hmember
  · exact absurd hstar (by decide +kernel)
  · rw [List.mem_singleton.1 hmember] at hrest
    have happend : (↑"user.j" ++ ↑"ane" : Str) = ↑"user.j" ++ rest := hrest
    rw [← List.append_cancel_left happend]
    decide +kernel

/-- A role that loses its tag together with a member still asks for the certificate of the member,
and asks for none when its latest version alone is processed. -/
theorem dropped_tag_still_requires_cert :
    ↑"sports:role.deployers" ∈ (deployersStore.processDomainData plainCodec (fun _ => 100) 100
      (deployersData [] ∅)).1.requireRoleCertCache.getRolesRequireRoleCert "user.joe" ∧
    ¬ RequiresCert 100 (deployers [] ∅) "user.joe" ∧
    (({} : DataStore).processDomainData plainCodec (fun _ => 100) 100
      (deployersData [] ∅)).1.requireRoleCertCache.getRolesRequireRoleCert "user.joe" = [] := by
  decide +kernel

end Sample

end RequireRoleCertCache

end Athenz.Zts
