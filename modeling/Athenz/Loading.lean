import Athenz.RoleIndex
import Athenz.AccessibleRoles

namespace Athenz.Zts
open Lib Lib.Text Lib.Result Lib.Index
set_option autoImplicit true

namespace DataStore

section FreshGroups

variable [CaseRules]

theorem removeGroupMembers_nil : removeGroupMembers members [] = members := by
  simp only [removeGroupMembers, List.any_nil, Bool.not_false, List.filter_true]

theorem removeGroupMembers_self : removeGroupMembers members members = [] := by
  rw [removeGroupMembers, List.filter_eq_nil_iff]
  intro member hmember
  simp only [Bool.not_eq_true', Bool.not_eq_false, List.any_eq_true]
  exact ⟨member, hmember, equalsIgnoreCase_refl member.memberName⟩

omit [CaseRules] in
theorem mem_addGroupMember {principals : Map Str (List GroupMember)} :
    member ∈ (addGroupMember now principals added).listAt principal ↔
      member ∈ principals.listAt principal ∨
        (added.memberName = principal ∧ shouldSkipGroupMember added now = false) ∧
          member = added := by
  unfold addGroupMember
  split
  · rename_i hskip
    simp only [hskip, Bool.true_eq_false, and_false, false_and, or_false]
  · rename_i hskip
    rw [Map.appendTo, Map.listAt_insert]
    by_cases hname : principal = added.memberName
    · subst hname
      simp only [if_true, List.mem_append, List.mem_singleton, hskip, true_and]
    · simp only [hname, if_false, Ne.symm hname, false_and, or_false]

/-- A group that was not there before leaves the entries of its members. -/
theorem processGroup_fresh {store : DataStore} {group : Group}
    (hfresh : store.groupMemberCache.listAt group.name = []) :
    (store.processGroup now group).principalGroupCache =
      (group.groupMembers.getD []).foldl (addGroupMember now) store.principalGroupCache := by
  simp only [processGroup, hfresh, removeGroupMembers_nil, removeGroupMembers_self,
    processGroupDeletedMembers, Option.getD_some, List.foldl_nil]
  rfl

/-- A member of a group that counts at some time. -/
def GroupHas (now : Int) (group : Group) (member : GroupMember) : Prop :=
  member ∈ group.groupMembers.getD [] ∧ shouldSkipGroupMember member now = false

/-- Exactly these groups were processed, each of them once. -/
structure GroupsLoaded (now : Int) (groups : List Group) (store : DataStore) : Prop where
  fresh : ∀ name, name ∉ groups.map (·.name) → store.groupMemberCache.listAt name = []
  entries : ∀ principal member, member ∈ store.principalGroupCache.listAt principal ↔
    ∃ group ∈ groups, GroupHas now group member ∧ member.memberName = principal

theorem GroupsLoaded.processGroup (h : GroupsLoaded now groups store)
    (hfresh : group.name ∉ groups.map (·.name)) :
    GroupsLoaded now (groups ++ [group]) (store.processGroup now group) where
  fresh := by
    intro name hname
    rw [List.map_append, List.mem_append, not_or] at hname
    have hne : name ≠ group.name := fun he => hname.2 (he ▸ List.mem_cons_self)
    have hcache : (store.processGroup now group).groupMemberCache =
        store.groupMemberCache.insert group.name (group.groupMembers.getD []) := rfl
    rw [hcache, Map.listAt_insert, if_neg hne]
    exact h.fresh name hname.1
  entries := by
    intro principal member
    rw [processGroup_fresh (h.fresh _ hfresh),
      foldl_adds (Q := fun m => member ∈ Map.listAt m principal) (f := addGroupMember now)
        fun principals added => mem_addGroupMember, h.entries]
    simp only [List.mem_append, List.mem_singleton, or_and_right, exists_or, exists_eq_left,
      GroupHas]
    refine or_congr_right ⟨?_, ?_⟩
    · rintro ⟨added, hadded, ⟨hname, hskip⟩, rfl⟩
      exact ⟨⟨hadded, hskip⟩, hname⟩
    · rintro ⟨⟨hadded, hskip⟩, hname⟩
      exact ⟨member, hadded, ⟨hname, hskip⟩, rfl⟩

omit [CaseRules] in
theorem editPublished_of_none {store : DataStore} (h : store.cacheStore.lookup name = none) :
    store.editPublished name edit = store := by
  unfold editPublished
  rw [h]

/-- The groups of a domain that is not published are processed one by one. -/
theorem GroupsLoaded.processListedGroups {store : DataStore} (h : GroupsLoaded now groups store)
    (hnone : store.cacheStore.lookup name = none)
    (hnodup : ((groups ++ added).map (·.name)).Nodup) :
    GroupsLoaded now (groups ++ added) (added.foldl (processListedGroup (fun _ => now) name) store) ∧
      (added.foldl (processListedGroup (fun _ => now) name) store).cacheStore = store.cacheStore := by
  induction added generalizing groups store with
  | nil =>
    rw [List.append_nil]
    exact ⟨h, rfl⟩
  | cons group added ih =>
    have hlisted : processListedGroup (fun _ => now) name store group =
        store.processGroup now group := by
      rw [processListedGroup, editPublished_of_none hnone]
    have hfresh : group.name ∉ groups.map (·.name) := by
      rw [List.map_append, List.map_cons, List.nodup_append] at hnodup
      intro hmem
      exact hnodup.2.2 _ hmem _ List.mem_cons_self rfl
    rw [List.append_cons] at hnodup ⊢
    obtain ⟨hloaded, hcaches⟩ := ih (h.processGroup hfresh) hnone hnodup
    rw [List.foldl_cons, hlisted]
    exact ⟨hloaded, hcaches⟩

/-- The member lists of exactly these groups are kept. -/
def ListsLoaded (groups : List Group) (store : DataStore) : Prop :=
  ∀ name members, store.groupMemberCache.lookup name = some members ↔
    ∃ group ∈ groups, group.name = name ∧ group.groupMembers.getD [] = members

theorem ListsLoaded.processGroup {store : DataStore} (h : ListsLoaded groups store)
    (hfresh : group.name ∉ groups.map (·.name)) (now : Int) :
    ListsLoaded (groups ++ [group]) (store.processGroup now group) := by
  intro name members
  have hcache : (store.processGroup now group).groupMemberCache =
      store.groupMemberCache.insert group.name (group.groupMembers.getD []) := rfl
  rw [hcache, Map.lookup_insert]
  simp only [List.mem_append, List.mem_singleton, or_and_right, exists_or, exists_eq_left]
  by_cases hname : name = group.name
  · subst hname
    have hnot : ¬ ∃ other ∈ groups, other.name = group.name ∧ other.groupMembers.getD [] = members := by
      rintro ⟨other, hother, hsame, _⟩
      exact hfresh (hsame ▸ List.mem_map_of_mem hother)
    rw [if_pos rfl, or_iff_right hnot, Option.some.injEq, eq_self, true_and]
  · rw [if_neg hname, or_iff_left fun hboth => hname hboth.1.symm]
    exact h name members

theorem ListsLoaded.processListedGroups {store : DataStore} (h : ListsLoaded groups store)
    (hnone : store.cacheStore.lookup name = none)
    (hnodup : ((groups ++ added).map (·.name)).Nodup) :
    ListsLoaded (groups ++ added) (added.foldl (processListedGroup (fun _ => now) name) store) := by
  induction added generalizing groups store with
  | nil =>
    rw [List.append_nil]
    exact h
  | cons group added ih =>
    have hlisted : processListedGroup (fun _ => now) name store group =
        store.processGroup now group := by
      rw [processListedGroup, editPublished_of_none hnone]
    have hfresh : group.name ∉ groups.map (·.name) := by
      rw [List.map_append, List.map_cons, List.nodup_append] at hnodup
      intro hmem
      exact hnodup.2.2 _ hmem _ List.mem_cons_self rfl
    rw [List.append_cons] at hnodup ⊢
    rw [List.foldl_cons, hlisted]
    exact ih (h.processGroup hfresh now) hnone hnodup

/-- The groups of all domains. -/
def allGroups (domains : List DomainData) : List Group := domains.flatMap (·.groups.getD [])

def allRoles (domains : List DomainData) : List Role := domains.flatMap (·.roles.getD [])

/-- Exactly these domains were processed, each of them once and at one time. -/
structure Loaded (codec : Codec) (now : Int) (domains : List DomainData) (store : DataStore) :
    Prop where
  groups : GroupsLoaded now (allGroups domains) store
  caches : ∀ name published, store.cacheStore.lookup name = some published ↔
    ∃ domainData ∈ domains, domainData.name = name ∧ ∃ cache,
      buildCache codec now domainData = .ok cache ∧
        published = { cache with domainData := normalized domainData }

omit [CaseRules] in
theorem removeEntries_frame (store : DataStore) (name : Str) :
    (store.removeEntries name).cacheStore = store.cacheStore ∧
      (store.removeEntries name).groupMemberCache = store.groupMemberCache ∧
      (store.removeEntries name).principalGroupCache = store.principalGroupCache := by
  unfold removeEntries
  split
  · exact ⟨rfl, rfl, rfl⟩
  · exact ⟨rfl, rfl, rfl⟩

omit [CaseRules] in
theorem addDomainToCache_frame (store : DataStore) (name : Str) (cache : PublishedCache) :
    (store.addDomainToCache name cache).cacheStore = store.cacheStore.insert name cache ∧
      (store.addDomainToCache name cache).groupMemberCache = store.groupMemberCache ∧
      (store.addDomainToCache name cache).principalGroupCache = store.principalGroupCache := by
  obtain ⟨hcaches, hmembers, hprincipals⟩ := removeEntries_frame store name
  simp only [addDomainToCache, hcaches, hmembers, hprincipals, and_self]

theorem processDomainGroups_of_none {store : DataStore} (h : GroupsLoaded now groups store)
    (hlists : ListsLoaded groups store) (hnone : store.cacheStore.lookup domainData.name = none)
    (hnodup : ((groups ++ domainData.groups.getD []).map (·.name)).Nodup) :
    GroupsLoaded now (groups ++ domainData.groups.getD [])
        (processDomainGroups (fun _ => now) domainData store) ∧
      ListsLoaded (groups ++ domainData.groups.getD [])
        (processDomainGroups (fun _ => now) domainData store) ∧
      (processDomainGroups (fun _ => now) domainData store).cacheStore = store.cacheStore := by
  obtain ⟨hloaded, hcaches⟩ := h.processListedGroups hnone hnodup
  have hall : processDomainGroups (fun _ => now) domainData store =
      (domainData.groups.getD []).foldl (processListedGroup (fun _ => now) domainData.name)
        store := by
    simp only [processDomainGroups, hcaches, hnone, Option.bind_none, Option.getD_none,
      List.foldl_nil]
  rw [hall]
  exact ⟨hloaded, hlists.processListedGroups hnone hnodup, hcaches⟩

theorem processDomainRoles_of_none {store : DataStore} (now : Int)
    (hnone : store.cacheStore.lookup domainData.name = none) :
    (processDomainRoles now domainData store).cacheStore = store.cacheStore ∧
      (processDomainRoles now domainData store).groupMemberCache = store.groupMemberCache ∧
      (processDomainRoles now domainData store).principalGroupCache =
        store.principalGroupCache := by
  simp only [processDomainRoles, editPublished_of_none hnone, and_self]

theorem Loaded.processDomainData {store : DataStore} (h : Loaded codec now domains store)
    (hlists : ListsLoaded (allGroups domains) store) (hname : domainData.name ∉ domains.map (·.name))
    (hgroups : ((allGroups (domains ++ [domainData])).map (·.name)).Nodup)
    (hbuild : buildCache codec now domainData = .ok cache) :
    Loaded codec now (domains ++ [domainData])
        (store.processDomainData codec (fun _ => now) now domainData).1 ∧
      ListsLoaded (allGroups (domains ++ [domainData]))
        (store.processDomainData codec (fun _ => now) now domainData).1 := by
  have hnone : store.cacheStore.lookup domainData.name = none := by
    rw [Option.eq_none_iff_forall_not_mem]
    intro published hpublished
    obtain ⟨other, hother, hsame, _⟩ := (h.caches _ _).1 hpublished
    exact hname (hsame ▸ List.mem_map_of_mem hother)
  have happend : allGroups (domains ++ [domainData]) =
      allGroups domains ++ domainData.groups.getD [] := by
    simp only [allGroups, List.flatMap_append, List.flatMap_cons, List.flatMap_nil,
      List.append_nil]
  rw [happend] at hgroups
  obtain ⟨hcaches₁, hmembers₁, hprincipals₁⟩ := processDomainRoles_of_none now hnone
  have hroles : GroupsLoaded now (allGroups domains) (processDomainRoles now domainData store) :=
    ⟨by rw [hmembers₁]; exact h.groups.fresh, by rw [hprincipals₁]; exact h.groups.entries⟩
  have hlists₁ : ListsLoaded (allGroups domains) (processDomainRoles now domainData store) := by
    unfold ListsLoaded
    rw [hmembers₁]
    exact hlists
  obtain ⟨hloaded, hlists₂, hcaches₂⟩ := processDomainGroups_of_none hroles hlists₁
    (hcaches₁ ▸ hnone) hgroups
  have hstore : (store.processDomainData codec (fun _ => now) now domainData).1 =
      (processDomainGroups (fun _ => now) domainData
        (processDomainRoles now domainData store)).addDomainToCache domainData.name
        { cache with domainData := normalized domainData } := by
    simp only [DataStore.processDomainData, hbuild]
  obtain ⟨hstored, hmembers, hprincipals⟩ := addDomainToCache_frame
    (processDomainGroups (fun _ => now) domainData (processDomainRoles now domainData store))
    domainData.name { cache with domainData := normalized domainData }
  rw [hstore, happend]
  refine ⟨⟨?_, ?_⟩, ?_⟩
  · rw [happend]
    exact ⟨by rw [hmembers]; exact hloaded.fresh, by rw [hprincipals]; exact hloaded.entries⟩
  · intro name published
    rw [hstored, hcaches₂, hcaches₁, Map.lookup_insert]
    simp only [List.mem_append, List.mem_singleton, or_and_right, exists_or, exists_eq_left]
    by_cases hsame : name = domainData.name
    · subst hsame
      have hnot : ¬ ∃ other ∈ domains, other.name = domainData.name ∧ ∃ cache,
          buildCache codec now other = .ok cache ∧
            published = { cache with domainData := normalized other } := by
        rintro ⟨other, hother, hsame, _⟩
        exact hname (hsame ▸ List.mem_map_of_mem hother)
      rw [if_pos rfl, or_iff_right hnot]
      simp only [hbuild, Option.some.injEq, Except.ok.injEq, exists_eq_left', true_and]
      exact eq_comm
    · rw [if_neg hsame, or_iff_left (fun h => hsame h.1.symm)]
      exact h.caches name published
  · unfold ListsLoaded
    rw [hmembers]
    exact hlists₂

omit [CaseRules] in
theorem loaded_empty (codec : Codec) (now : Int) : Loaded codec now [] {} where
  groups := ⟨fun _ _ => rfl, fun _ _ => by simp [allGroups]⟩
  caches := by
    intro name published
    simp

omit [CaseRules] in
theorem listsLoaded_empty : ListsLoaded [] {} := by
  intro name members
  simp

/-- Process the domains one after the other. -/
def loadDomains (codec : Codec) (now : Int) (domains : List DomainData) (store : DataStore) :
    DataStore :=
  domains.foldl
    (fun store domainData => (store.processDomainData codec (fun _ => now) now domainData).1) store

theorem Loaded.loadDomains {store : DataStore} (h : Loaded codec now loaded store)
    (hlists : ListsLoaded (allGroups loaded) store) (hnames : ((loaded ++ domains).map (·.name)).Nodup)
    (hgroups : ((allGroups (loaded ++ domains)).map (·.name)).Nodup)
    (hbuild : ∀ domainData ∈ domains, ∃ cache, buildCache codec now domainData = .ok cache) :
    Loaded codec now (loaded ++ domains) (DataStore.loadDomains codec now domains store) ∧
      ListsLoaded (allGroups (loaded ++ domains)) (DataStore.loadDomains codec now domains store) := by
  induction domains generalizing loaded store with
  | nil =>
    rw [List.append_nil]
    exact ⟨h, hlists⟩
  | cons domainData domains ih =>
    obtain ⟨cache, hcache⟩ := hbuild domainData List.mem_cons_self
    rw [List.append_cons] at hnames hgroups ⊢
    have hname : domainData.name ∉ loaded.map (·.name) := by
      rw [List.map_append, List.map_append, List.nodup_append] at hnames
      have hfirst := (List.nodup_append.1 hnames.1).2.2
      intro hmem
      exact hfirst _ hmem _ List.mem_cons_self rfl
    have hfirst : ((allGroups (loaded ++ [domainData])).map (·.name)).Nodup := by
      rw [allGroups, List.flatMap_append, List.map_append] at hgroups
      exact (List.nodup_append.1 hgroups).1
    obtain ⟨hnext, hnextLists⟩ := h.processDomainData hlists hname hfirst hcache
    exact ih hnext hnextLists hnames hgroups fun other hother => hbuild other (.tail _ hother)

end FreshGroups

end DataStore

end Athenz.Zts
