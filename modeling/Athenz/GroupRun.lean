import Athenz.GroupIndex

namespace Athenz.Zts
open Lib Lib.Text Lib.Index
set_option autoImplicit true

namespace DataStore

section Updates

variable [CaseRules] {store : DataStore} {group : Group} {groups : List Group}

omit [CaseRules] in
/-- The inversion speaks of the two caches of groups alone. -/
theorem Inverted.frame (h : Inverted names latest store)
    (hmembers : store'.groupMemberCache = store.groupMemberCache)
    (hprincipals : store'.principalGroupCache = store.principalGroupCache) :
    Inverted names latest store' where
  good := h.good
  cached := by
    rw [hmembers]
    exact h.cached
  entries := by
    rw [hprincipals]
    exact h.entries
  single := by
    rw [hprincipals]
    exact h.single

omit [CaseRules] in
theorem editPublished_frame (store : DataStore) (name : Str) (edit : DomainData → DomainData) :
    (store.editPublished name edit).groupMemberCache = store.groupMemberCache ∧
      (store.editPublished name edit).principalGroupCache = store.principalGroupCache := by
  unfold editPublished
  split
  · exact ⟨rfl, rfl⟩
  · exact ⟨rfl, rfl⟩

omit [CaseRules] in
/-- The groups in the published data of a domain. -/
def publishedGroups (name : Str) (store : DataStore) : List Group :=
  ((store.cacheStore.lookup name).bind (·.domainData.groups)).getD []

theorem publishedGroups_processListedGroup :
    publishedGroups name (processListedGroup clock name store group) =
      (publishedGroups name store).filter fun item => !equalsIgnoreCase item.name group.name := by
  have hcaches : (processListedGroup clock name store group).cacheStore =
      (store.editPublished name fun data =>
        { data with
          groups := data.groups.map fun groups =>
            groups.filter fun item => !equalsIgnoreCase item.name group.name }).cacheStore := rfl
  unfold publishedGroups
  rw [hcaches, editPublished]
  cases hlookup : store.cacheStore.lookup name with
  | none =>
    simp only [hlookup]
    rfl
  | some published =>
    simp only [Map.lookup_insert, if_true, Option.bind_some]
    cases published.domainData.groups with
    | none => rfl
    | some groups => rfl

theorem publishedGroups_foldl_processListedGroup :
    publishedGroups name (groups.foldl (processListedGroup clock name) store) =
      (publishedGroups name store).filter fun item =>
        groups.all fun group => !equalsIgnoreCase item.name group.name := by
  induction groups generalizing store with
  | nil => simp only [List.foldl_nil, List.all_nil, List.filter_true]
  | cons group groups ih =>
    rw [List.foldl_cons, ih, publishedGroups_processListedGroup, List.filter_filter]
    simp only [List.all_cons, Bool.and_comm]

/-- The published groups that an update no longer lists. -/
def droppedGroups (domainData : DomainData) (store : DataStore) : List Group :=
  (publishedGroups domainData.name store).filter fun item =>
    (domainData.groups.getD []).all fun group => !equalsIgnoreCase item.name group.name

theorem processDomainGroups_eq : processDomainGroups clock domainData store =
    (droppedGroups domainData store).foldl (fun store group => store.processGroupDelete group)
      ((domainData.groups.getD []).foldl (processListedGroup clock domainData.name) store) := by
  have hdropped : droppedGroups domainData store = publishedGroups domainData.name
      ((domainData.groups.getD []).foldl (processListedGroup clock domainData.name) store) :=
    publishedGroups_foldl_processListedGroup.symm
  rw [hdropped]
  rfl

/-- Every listed group is good, and its update finds the entries it looks for when its turn comes. -/
def UpdatesFind (names : Set Str) (clock : Group → Int) (domainName : Str) :
    DataStore → List Group → Prop
  | _, [] => True
  | store, group :: groups =>
    (GoodGroup names group.name (group.groupMembers.getD []) ∧
      UpdateFinds store (clock group) group) ∧
    UpdatesFind names clock domainName (processListedGroup clock domainName store group) groups

theorem Inverted.processListedGroup (hsafe : CaseSafe names) (h : Inverted names latest store)
    (hgood : GoodGroup names group.name (group.groupMembers.getD []))
    (hfinds : UpdateFinds store (clock group) group) :
    Inverted names (latest.set (clock group) group)
      (DataStore.processListedGroup clock name store group) := by
  obtain ⟨hmembers, hprincipals⟩ := editPublished_frame store name fun data =>
    { data with
      groups := data.groups.map fun groups =>
        groups.filter fun item => !equalsIgnoreCase item.name group.name }
  apply (h.frame hmembers hprincipals).processGroup hsafe hgood
  unfold UpdateFinds
  rw [hmembers, hprincipals]
  exact hfinds

/-- The versions after an update of the listed groups. -/
def Latest.setAll (latest : Latest) (clock : Group → Int) (groups : List Group) : Latest :=
  groups.foldl (fun latest group => latest.set (clock group) group) latest

def Latest.dropAll (latest : Latest) (groups : List Group) : Latest := groups.foldl Latest.drop latest

theorem Inverted.processListedGroups (hsafe : CaseSafe names) (h : Inverted names latest store)
    (hfind : UpdatesFind names clock name store groups) :
    Inverted names (latest.setAll clock groups)
      (groups.foldl (DataStore.processListedGroup clock name) store) := by
  induction groups generalizing latest store with
  | nil => exact h
  | cons group groups ih =>
    obtain ⟨⟨hgood, hfinds⟩, hrest⟩ := hfind
    exact ih (h.processListedGroup hsafe hgood hfinds) hrest

theorem DeleteCovers.processGroupDelete (h : DeleteCovers store group) (other : Group) :
    DeleteCovers (store.processGroupDelete other) group := by
  intro member hmember
  have hlist : (store.processGroupDelete other).groupMemberCache.listAt group.name = _ :=
    Map.listAt_erase store.groupMemberCache other.name group.name
  rw [hlist] at hmember
  split at hmember
  · exact absurd hmember List.not_mem_nil
  · exact h member hmember

theorem Inverted.processGroupDeletes (hsafe : CaseSafe names) (h : Inverted names latest store)
    (hcovers : ∀ group ∈ groups, group.name ∈ names ∧ DeleteCovers store group) :
    Inverted names (latest.dropAll groups)
      (groups.foldl (fun store group => store.processGroupDelete group) store) := by
  induction groups generalizing latest store with
  | nil => exact h
  | cons group groups ih =>
    obtain ⟨hname, hcover⟩ := hcovers group List.mem_cons_self
    apply ih (h.processGroupDelete hsafe hname hcover)
    intro other hother
    obtain ⟨hotherName, hotherCover⟩ := hcovers other (.tail _ hother)
    exact ⟨hotherName, hotherCover.processGroupDelete group⟩

/-- The members of a group that an update does not list stay in the cache. -/
theorem groupMemberCache_processListedGroups (hname : groupName ∉ groups.map (·.name)) :
    (groups.foldl (DataStore.processListedGroup clock name) store).groupMemberCache.listAt groupName =
      store.groupMemberCache.listAt groupName := by
  induction groups generalizing store with
  | nil => rfl
  | cons group groups ih =>
    rw [List.map_cons, List.mem_cons, not_or] at hname
    rw [List.foldl_cons, ih hname.2]
    have hinsert : (DataStore.processListedGroup clock name store group).groupMemberCache = _ :=
      congrArg (fun m : Map Str (List GroupMember) => m.insert group.name _)
        (editPublished_frame store name _).1
    rw [hinsert, Map.listAt_insert, if_neg hname.1]

theorem notMem_of_mem_droppedGroups (h : group ∈ droppedGroups domainData store) :
    group.name ∉ (domainData.groups.getD []).map (·.name) := by
  intro hmem
  obtain ⟨listed, hlisted, hname⟩ := List.mem_map.1 hmem
  have hall := List.all_eq_true.1 (List.mem_filter.1 h).2 listed hlisted
  rw [hname, equalsIgnoreCase_refl] at hall
  exact absurd hall (by decide)

/-- What an update of a domain must meet in the store it finds. -/
structure DomainFits (names : Set Str) (clock : Group → Int) (domainData : DomainData)
    (store : DataStore) : Prop where
  finds : UpdatesFind names clock domainData.name store (domainData.groups.getD [])
  covers : ∀ group ∈ droppedGroups domainData store, group.name ∈ names ∧ DeleteCovers store group

/-- The versions after an update of a domain. -/
def Latest.update (latest : Latest) (clock : Group → Int) (domainData : DomainData)
    (store : DataStore) : Latest :=
  (latest.setAll clock (domainData.groups.getD [])).dropAll (droppedGroups domainData store)

theorem Inverted.processDomainGroups (hsafe : CaseSafe names) (h : Inverted names latest store)
    (hfits : DomainFits names clock domainData store) :
    Inverted names (latest.update clock domainData store)
      (DataStore.processDomainGroups clock domainData store) := by
  rw [processDomainGroups_eq]
  apply (h.processListedGroups hsafe hfits.finds).processGroupDeletes hsafe
  intro group hgroup
  obtain ⟨hname, hcover⟩ := hfits.covers group hgroup
  refine ⟨hname, ?_⟩
  intro member hmember
  rw [groupMemberCache_processListedGroups (notMem_of_mem_droppedGroups hgroup)] at hmember
  exact hcover member hmember

end Updates

section Runs

variable [CaseRules]

/-- Updates from an empty store on, with the latest version of each group they have processed.
Between the updates new data may be published. -/
inductive GroupsRun (names : Set Str) : DataStore → Latest → Prop where
  | empty : GroupsRun names {} fun _ => none
  | processGroup (run : GroupsRun names store latest) (now : Int) (group : Group)
    (hgood : GoodGroup names group.name (group.groupMembers.getD []))
    (hfinds : UpdateFinds store now group) :
    GroupsRun names (store.processGroup now group) (latest.set now group)
  | processDomainGroups (run : GroupsRun names store latest) (clock : Group → Int)
    (domainData : DomainData) (hfits : DomainFits names clock domainData store) :
    GroupsRun names (processDomainGroups clock domainData store)
      (latest.update clock domainData store)
  | addDomainToCache (run : GroupsRun names store latest) (name : Str) (cache : PublishedCache) :
    GroupsRun names (store.addDomainToCache name cache) latest

omit [CaseRules] in
theorem inverted_empty (names : Set Str) : Inverted names (fun _ => none) {} where
  good := by
    intro name members now hnone
    cases hnone
  cached _ := rfl
  entries := by
    intro principal entry
    constructor
    · exact fun hmem => absurd hmem List.not_mem_nil
    · rintro ⟨members, now, hnone, _⟩
      cases hnone
  single _ := List.nodup_nil

theorem GroupsRun.inverted (hsafe : CaseSafe names) (run : GroupsRun names store latest) :
    Inverted names latest store := by
  induction run with
  | empty => exact inverted_empty names
  | processGroup run now group hgood hfinds ih => exact ih.processGroup hsafe hgood hfinds
  | processDomainGroups run clock domainData hfits ih => exact ih.processDomainGroups hsafe hfits
  | @addDomainToCache store _ run name cache ih =>
    obtain ⟨_, hmembers, hprincipals⟩ := addDomainToCache_frame store name cache
    exact ih.frame hmembers hprincipals

/-- The cache of the principals inverts the latest versions of the groups, whatever their history. -/
theorem principal_cache_inverts_groups (hsafe : CaseSafe names)
    (run : GroupsRun names store latest) :
    (∀ principal entry, entry ∈ store.principalGroupCache.listAt principal ↔
      Current latest principal entry) ∧
    (∀ principal, ((store.principalGroupCache.listAt principal).map (·.groupName)).Nodup) ∧
    ∀ other, GroupsRun names other latest → ∀ principal,
      (other.principalGroupCache.listAt principal).Perm
        (store.principalGroupCache.listAt principal) := by
  have hinverted := run.inverted hsafe
  refine ⟨hinverted.entries, hinverted.single, ?_⟩
  intro other hother principal
  have hsame := hother.inverted hsafe
  rw [List.perm_ext_iff_of_nodup (List.Nodup.of_map _ (hsame.single principal))
    (List.Nodup.of_map _ (hinverted.single principal))]
  intro entry
  rw [hsame.entries, hinverted.entries]

end Runs

section Sample

local instance groupCaseRules : CaseRules := .ascii

def joeIn (groupName : Str) (expiration systemDisabled : Option Int) : GroupMember where
  memberName := "user.joe"
  groupName := groupName
  expiration := expiration
  systemDisabled := systemDisabled

def groupOfJoe (groupName : Str) (expiration systemDisabled : Option Int) : Group where
  name := groupName
  groupMembers := some [joeIn groupName expiration systemDisabled]

def sampleNames : Set Str := { name | name ∈ [↑"sports:group.staff", (↑"user.joe" : Str)] }

theorem caseSafe_sampleNames : CaseSafe sampleNames := by
  have hall : ∀ a ∈ [↑"sports:group.staff", (↑"user.joe" : Str)],
      ∀ b ∈ [↑"sports:group.staff", (↑"user.joe" : Str)], equalsIgnoreCase a b = true → a = b := by
    decide +kernel
  exact hall

theorem goodGroup_staff (expiration : Option Int) :
    GoodGroup sampleNames "sports:group.staff" [joeIn "sports:group.staff" expiration none] where
  name_mem := List.mem_cons_self
  nodup := List.nodup_singleton _
  members := by
    intro member hmember
    rw [List.mem_singleton.1 hmember]
    exact ⟨.tail _ List.mem_cons_self, rfl⟩

/-- The staff as a domain lists it first. -/
def staffData : DomainData where
  name := "sports"
  groups := some [groupOfJoe "sports:group.staff" (some 500) none]

def staffStore : DataStore :=
  (processDomainGroups (fun _ => 100) staffData {}).addDomainToCache "sports"
    { ({} : DataCache) with domainData := staffData }

/-- An update of the staff is found under its member. -/
theorem update_reaches_member : joeIn "sports:group.staff" (some 900) none ∈
    (staffStore.processGroup 200 (groupOfJoe "sports:group.staff" (some 900) none)).principalGroupCache.listAt
      "user.joe" := by
  have hfits : DomainFits sampleNames (fun _ => 100) staffData {} := by
    refine ⟨⟨⟨goodGroup_staff (some 500), ?_⟩, trivial⟩, ?_⟩
    · unfold UpdateFinds
      decide +kernel
    · intro group hgroup
      exact absurd hgroup List.not_mem_nil
  have hfinds : UpdateFinds staffStore 200 (groupOfJoe "sports:group.staff" (some 900) none) := by
    unfold UpdateFinds
    decide +kernel
  have hrun := ((GroupsRun.empty.processDomainGroups _ _ hfits).addDomainToCache _ _).processGroup
    200 _ (goodGroup_staff (some 900)) hfinds
  have hinverts := principal_cache_inverts_groups caseSafe_sampleNames hrun
  exact (hinverts.1 "user.joe" _).2 ⟨_, 200, rfl, List.mem_cons_self, rfl, rfl⟩

/-- The store after the staff has been processed with its member enabled, disabled and enabled again. -/
def reenabledStore : DataStore :=
  ((((({} : DataStore).processGroup 100 (groupOfJoe "sports:group.admins" none none)).processGroup 100
    (groupOfJoe "sports:group.staff" none none)).processGroup 200
    (groupOfJoe "sports:group.staff" none (some 1))).processGroup 300
    (groupOfJoe "sports:group.staff" none none))

/-- A member of two groups that one of them enables again is missing there, and is found when the
latest versions alone are processed. -/
theorem reenabled_member_missing :
    shouldSkipGroupMember (joeIn "sports:group.staff" none none) 300 = false ∧
    (∀ entry ∈ reenabledStore.principalGroupCache.listAt "user.joe",
      entry.groupName ≠ "sports:group.staff") ∧
    joeIn "sports:group.staff" none none ∈
      ((({} : DataStore).processGroup 100 (groupOfJoe "sports:group.admins" none none)).processGroup 300
        (groupOfJoe "sports:group.staff" none none)).principalGroupCache.listAt "user.joe" := by
  decide +kernel

end Sample

end DataStore

end Athenz.Zts
