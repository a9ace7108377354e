import Athenz.Loading
import Athenz.Lib.Diff

namespace Athenz.Zts
open Lib Lib.Text Lib.Index Lib.Diff
set_option autoImplicit true

/-- Names among which comparison without case is equality. -/
def CaseSafe [CaseRules] (names : Set Str) : Prop :=
  ∀ a ∈ names, ∀ b ∈ names, equalsIgnoreCase a b = true → a = b

theorem CaseSafe.iff [CaseRules] (h : CaseSafe names) (ha : a ∈ names) (hb : b ∈ names) :
    equalsIgnoreCase a b = true ↔ a = b := by
  constructor
  · exact h a ha b hb
  · rintro rfl
    exact equalsIgnoreCase_refl a

namespace DataStore

section Effects

variable [CaseRules]

/-- What the update of a listed member does to the list of its principal. -/
def updateEffect (now : Int) (groupName : Str) (member : GroupMember) (entries : List GroupMember) :
    List GroupMember :=
  if shouldSkipGroupMember member now then
    entries.filter fun item => !equalsIgnoreCase item.groupName groupName
  else if entries = [] then [member]
  else modifyFirst (fun item => equalsIgnoreCase item.groupName groupName)
    (refreshGroupMember member) entries

omit [CaseRules] in
def addEffect (now : Int) (member : GroupMember) (entries : List GroupMember) : List GroupMember :=
  if shouldSkipGroupMember member now then entries else entries ++ [member]

def deleteEffect (groupName : Str) (entries : List GroupMember) : List GroupMember :=
  entries.filter fun item => !equalsIgnoreCase item.groupName groupName

theorem stepsAt_updateGroupMember (members : List GroupMember) :
    StepsAt (fun principals : Map Str (List GroupMember) => principals.listAt principal)
      (·.memberName) principal (updateGroupMember now groupName) (updateEffect now groupName)
      members := by
  intro principals member _
  dsimp only
  unfold updateGroupMember updateEffect
  by_cases hname : member.memberName = principal
  · subst hname
    rw [if_pos rfl]
    cases hlookup : principals.lookup member.memberName with
    | none =>
      have hlist : principals.listAt member.memberName = [] := Map.listAt_of_lookup_none hlookup
      cases shouldSkipGroupMember member now <;> simp [Map.listAt_insert, hlist]
    | some entries =>
      have hlist : principals.listAt member.memberName = entries := Map.listAt_of_lookup hlookup
      cases entries with
      | nil => cases shouldSkipGroupMember member now <;> simp [Map.listAt_insert, hlist]
      | cons entry entries =>
        cases shouldSkipGroupMember member now <;> simp [Map.listAt_insert, hlist]
  · have hne : principal ≠ member.memberName := Ne.symm hname
    rw [if_neg hname]
    split
    · split
      · rfl
      · rw [Map.listAt_insert, if_neg hne]
    · split
      · rfl
      · rw [Map.listAt_insert, if_neg hne]
    · rw [Map.listAt_insert, if_neg hne]

omit [CaseRules] in
theorem stepsAt_addGroupMember (members : List GroupMember) :
    StepsAt (fun principals : Map Str (List GroupMember) => principals.listAt principal)
      (·.memberName) principal (addGroupMember now) (addEffect now) members := by
  intro principals member _
  dsimp only
  unfold addGroupMember addEffect
  split
  · rw [ite_self]
  · rw [Map.appendTo, Map.listAt_insert]
    by_cases hname : member.memberName = principal
    · rw [hname, if_pos rfl]
    · rw [if_neg hname, if_neg (Ne.symm hname)]

theorem stepsAt_deleteGroupMember (members : List GroupMember) :
    StepsAt (fun principals : Map Str (List GroupMember) => principals.listAt principal)
      (·.memberName) principal (deleteGroupMember groupName) (fun _ => deleteEffect groupName)
      members := by
  intro principals member _
  dsimp only
  unfold deleteGroupMember
  by_cases hname : member.memberName = principal
  · subst hname
    rw [if_pos rfl]
    cases hlookup : principals.lookup member.memberName with
    | none =>
      rw [Map.listAt_of_lookup_none hlookup]
      rfl
    | some entries =>
      rw [Map.listAt_of_lookup hlookup]
      exact (Map.listAt_insert _ _ _ _).trans (if_pos rfl)
  · rw [if_neg hname]
    split
    · rfl
    · rw [Map.listAt_insert, if_neg (Ne.symm hname)]

variable {entries : List GroupMember} {groupName : Str}

omit [CaseRules] in
theorem replaces_addEffect (hsingle : (entries.map (·.groupName)).Nodup)
    (hnone : ∀ entry ∈ entries, entry.groupName ≠ groupName) (hgroup : member.groupName = groupName) :
    Replaces (·.groupName) groupName
      (fun entry => entry = member ∧ shouldSkipGroupMember member now = false)
      entries (addEffect now member entries) := by
  unfold addEffect
  cases hskip : shouldSkipGroupMember member now with
  | true =>
    rw [if_pos rfl]
    simp only [Bool.true_eq_false, and_false]
    exact replaces_refl hsingle hnone
  | false =>
    rw [if_neg (by decide)]
    simp only [and_true]
    exact replaces_append hsingle hnone hgroup

omit [CaseRules] in
theorem refreshGroupMember_eq (hname : entry.memberName = member.memberName)
    (hgroup : entry.groupName = member.groupName) : refreshGroupMember member entry = member := by
  cases member
  cases entry
  cases hname
  cases hgroup
  rfl

/-- An update is right when it finds the entry of the group, or no entry at all. -/
theorem replaces_updateEffect (hsingle : (entries.map (·.groupName)).Nodup)
    (hsafe : ∀ entry ∈ entries,
      equalsIgnoreCase entry.groupName groupName = true ↔ entry.groupName = groupName)
    (hname : ∀ entry ∈ entries, entry.memberName = member.memberName)
    (hgroup : member.groupName = groupName)
    (hfound : shouldSkipGroupMember member now = false →
      entries = [] ∨ ∃ entry ∈ entries, entry.groupName = groupName) :
    Replaces (·.groupName) groupName
      (fun entry => entry = member ∧ shouldSkipGroupMember member now = false)
      entries (updateEffect now groupName member entries) := by
  unfold updateEffect
  cases hskip : shouldSkipGroupMember member now with
  | true =>
    rw [if_pos rfl]
    simp only [Bool.true_eq_false, and_false]
    exact replaces_filter hsingle hsafe
  | false =>
    rw [if_neg (by decide)]
    simp only [and_true]
    by_cases hempty : entries = []
    · rw [if_pos hempty, hempty]
      exact replaces_append List.nodup_nil (fun _ h => absurd h List.not_mem_nil) hgroup
    · rw [if_neg hempty]
      obtain hnil | hentry := hfound hskip
      · exact absurd hnil hempty
      · apply replaces_modifyFirst hsingle hsafe hgroup _ hentry
        intro entry hmem hentryGroup
        exact refreshGroupMember_eq (hname entry hmem) (hentryGroup.trans hgroup.symm)

end Effects

/-- The version of each group that was processed last, with the time of its processing. -/
abbrev Latest := Str → Option (List GroupMember × Int)

def Latest.set (latest : Latest) (now : Int) (group : Group) : Latest :=
  Function.update latest group.name (some (group.groupMembers.getD [], now))

def Latest.drop (latest : Latest) (group : Group) : Latest :=
  Function.update latest group.name none

/-- The latest version of a group lists a member that was enabled and unexpired when the version
was processed. -/
def Current (latest : Latest) (principal : Str) (entry : GroupMember) : Prop :=
  ∃ members now, latest entry.groupName = some (members, now) ∧ entry ∈ members ∧
    entry.memberName = principal ∧ shouldSkipGroupMember entry now = false

/-- A version of a group with names from a set, each member once and under the group's name. -/
structure GoodGroup (names : Set Str) (name : Str) (members : List GroupMember) : Prop where
  name_mem : name ∈ names
  nodup : (members.map (·.memberName)).Nodup
  members : ∀ member ∈ members, member.memberName ∈ names ∧ member.groupName = name

/-- The cache of the principals is the inversion of the latest versions of the groups. -/
structure Inverted (names : Set Str) (latest : Latest) (store : DataStore) : Prop where
  good : ∀ name members now, latest name = some (members, now) → GoodGroup names name members
  cached : ∀ name, store.groupMemberCache.listAt name = ((latest name).map Prod.fst).getD []
  entries : ∀ principal entry, entry ∈ store.principalGroupCache.listAt principal ↔
    Current latest principal entry
  single : ∀ principal, ((store.principalGroupCache.listAt principal).map (·.groupName)).Nodup

namespace Inverted

variable [CaseRules]

omit [CaseRules] in
theorem cached_good (h : Inverted names latest store) (hname : name ∈ names) :
    GoodGroup names name (store.groupMemberCache.listAt name) := by
  rw [h.cached]
  cases hlatest : latest name with
  | none => exact ⟨hname, List.nodup_nil, fun _ hm => absurd hm List.not_mem_nil⟩
  | some version =>
    obtain ⟨members, now⟩ := version
    exact h.good name members now hlatest

omit [CaseRules] in
/-- An entry is one of the members that the cache lists for its group. -/
theorem mem_cached (h : Inverted names latest store)
    (hentry : entry ∈ store.principalGroupCache.listAt principal) :
    entry ∈ store.groupMemberCache.listAt entry.groupName ∧ entry.memberName = principal ∧
      entry.groupName ∈ names := by
  obtain ⟨members, now, hlatest, hmember, hname, _⟩ := (h.entries _ _).1 hentry
  refine ⟨?_, hname, (h.good _ _ _ hlatest).name_mem⟩
  rw [h.cached, hlatest]
  exact hmember

theorem case_iff (h : Inverted names latest store) (hsafe : CaseSafe names)
    (hname : groupName ∈ names) : ∀ entry ∈ store.principalGroupCache.listAt principal,
      equalsIgnoreCase entry.groupName groupName = true ↔ entry.groupName = groupName :=
  fun _ hentry => hsafe.iff (h.mem_cached hentry).2.2 hname

end Inverted

section Steps

variable [CaseRules]

/-- The members that an update re-enables have an entry for the group, or no entry at all. -/
def UpdateFinds (store : DataStore) (now : Int) (group : Group) : Prop :=
  ∀ member ∈ group.groupMembers.getD [], shouldSkipGroupMember member now = false →
    member.memberName ∈ (store.groupMemberCache.listAt group.name).map (·.memberName) →
    store.principalGroupCache.listAt member.memberName = [] ∨
      ∃ entry ∈ store.principalGroupCache.listAt member.memberName, entry.groupName = group.name

variable {store : DataStore} {group : Group}

omit [CaseRules] in
theorem GoodGroup.eq_of_memberName_eq {listed : List GroupMember} (h : GoodGroup names name listed)
    (hmember : member ∈ listed) (hother : other ∈ listed)
    (hname : member.memberName = other.memberName) : member = other :=
  List.inj_on_of_nodup_map h.nodup hmember hother hname

theorem GoodGroup.exact {listed other : List GroupMember} (hsafe : CaseSafe names)
    (h : GoodGroup names name listed) (hother : GoodGroup names name other) :
    Exact equalsIgnoreCase (·.memberName) listed other :=
  fun _ ha _ hb => hsafe.iff (h.members _ ha).1 (hother.members _ hb).1

/-- The processing of a group is an update of its cached version, seen at each principal. -/
theorem updates_processGroup (now : Int) (hsafe : CaseSafe names) (h : Inverted names latest store)
    (hgood : GoodGroup names group.name (group.groupMembers.getD [])) (principal : Str) :
    Updates equalsIgnoreCase (·.memberName) principal
      (fun principals : Map Str (List GroupMember) => principals.listAt principal)
      (updateGroupMember now group.name) (addGroupMember now) (deleteGroupMember group.name)
      (updateEffect now group.name) (addEffect now) (fun _ => deleteEffect group.name)
      (store.groupMemberCache.listAt group.name) (group.groupMembers.getD []) := by
  have hcur := h.cached_good hgood.name_mem
  exact
    { old_new := hcur.exact hsafe hgood
      new_old := hgood.exact hsafe hcur
      new_new := hgood.exact hsafe hgood
      nodup_old := hcur.nodup
      nodup_new := hgood.nodup
      upd := stepsAt_updateGroupMember _
      add := stepsAt_addGroupMember _
      del := stepsAt_deleteGroupMember _ }

theorem listAt_processGroup :
    (store.processGroup now group).principalGroupCache.listAt principal =
      (diffUpdate equalsIgnoreCase (·.memberName) (updateGroupMember now group.name)
        (addGroupMember now) (deleteGroupMember group.name)
        (store.groupMemberCache.listAt group.name) (group.groupMembers.getD [])
        store.principalGroupCache).listAt principal := rfl

omit [CaseRules] in
theorem Inverted.no_entry_of_notMem (h : Inverted names latest store)
    (hnot : principal ∉ (store.groupMemberCache.listAt groupName).map (·.memberName)) :
    ∀ entry ∈ store.principalGroupCache.listAt principal, entry.groupName ≠ groupName := by
  intro entry hentry hgroup
  obtain ⟨hcached, hname, _⟩ := h.mem_cached hentry
  rw [hgroup] at hcached
  exact hnot (List.mem_map.2 ⟨entry, hcached, hname⟩)

/-- A principal that the group lists is left with its entry, or without one when it is skipped. -/
theorem processGroup_replaces_listed (hsafe : CaseSafe names) (h : Inverted names latest store)
    (hgood : GoodGroup names group.name (group.groupMembers.getD []))
    (hfinds : UpdateFinds store now group) (hmember : member ∈ group.groupMembers.getD []) :
    Replaces (·.groupName) group.name
      (fun entry => entry = member ∧ shouldSkipGroupMember member now = false)
      (store.principalGroupCache.listAt member.memberName)
      ((store.processGroup now group).principalGroupCache.listAt member.memberName) := by
  have hupdates := updates_processGroup now hsafe h hgood member.memberName
  have hgroup := (hgood.members member hmember).2
  rw [listAt_processGroup]
  by_cases hcached : member.memberName ∈
      (store.groupMemberCache.listAt group.name).map (·.memberName)
  · rw [hupdates.of_both hmember rfl hcached]
    apply replaces_updateEffect (h.single _) (h.case_iff hsafe hgood.name_mem) _ hgroup
    · intro hskip
      exact hfinds member hmember hskip hcached
    · intro entry hentry
      exact (h.mem_cached hentry).2.1
  · rw [hupdates.of_new hmember rfl hcached]
    exact replaces_addEffect (h.single _) (h.no_entry_of_notMem hcached) hgroup

theorem processGroup_replaces_unlisted (hsafe : CaseSafe names) (h : Inverted names latest store)
    (hgood : GoodGroup names group.name (group.groupMembers.getD []))
    (hlisted : principal ∉ (group.groupMembers.getD []).map (·.memberName)) :
    Replaces (·.groupName) group.name (fun _ => False) (store.principalGroupCache.listAt principal)
      ((store.processGroup now group).principalGroupCache.listAt principal) := by
  have hupdates := updates_processGroup now hsafe h hgood principal
  rw [listAt_processGroup]
  by_cases hcached : principal ∈ (store.groupMemberCache.listAt group.name).map (·.memberName)
  · obtain ⟨member, hmember, hname⟩ := List.mem_map.1 hcached
    rw [hupdates.of_old hmember hname hlisted]
    exact replaces_filter (h.single _) (h.case_iff hsafe hgood.name_mem)
  · rw [hupdates.of_neither hcached hlisted]
    exact replaces_refl (h.single _) (h.no_entry_of_notMem hcached)

theorem processGroup_replaces (hsafe : CaseSafe names) (h : Inverted names latest store)
    (hgood : GoodGroup names group.name (group.groupMembers.getD []))
    (hfinds : UpdateFinds store now group) (principal : Str) :
    Replaces (·.groupName) group.name (fun entry => entry ∈ group.groupMembers.getD [] ∧
        entry.memberName = principal ∧ shouldSkipGroupMember entry now = false)
      (store.principalGroupCache.listAt principal)
      ((store.processGroup now group).principalGroupCache.listAt principal) := by
  by_cases hlisted : principal ∈ (group.groupMembers.getD []).map (·.memberName)
  · obtain ⟨member, hmember, rfl⟩ := List.mem_map.1 hlisted
    apply (processGroup_replaces_listed hsafe h hgood hfinds hmember).congr
    intro entry
    constructor
    · rintro ⟨rfl, hskip⟩
      exact ⟨hmember, rfl, hskip⟩
    · rintro ⟨hentry, hname, hskip⟩
      obtain rfl := hgood.eq_of_memberName_eq hentry hmember hname
      exact ⟨rfl, hskip⟩
  · apply (processGroup_replaces_unlisted hsafe h hgood hlisted).congr
    intro entry
    rw [false_iff]
    rintro ⟨hentry, hname, _⟩
    exact hlisted (List.mem_map.2 ⟨entry, hentry, hname⟩)

omit [CaseRules] in
/-- Replacing the version of one group keeps the inversion when the lists change accordingly. -/
theorem Inverted.replace {store' : DataStore} {version : Option (List GroupMember × Int)}
    (h : Inverted names latest store)
    (hgood : ∀ members now, version = some (members, now) → GoodGroup names groupName members)
    (hcached : ∀ name, store'.groupMemberCache.listAt name =
      if name = groupName then (version.map Prod.fst).getD []
      else store.groupMemberCache.listAt name)
    (hentries : ∀ principal, Replaces (·.groupName) groupName
      (fun entry => ∃ members now, version = some (members, now) ∧ entry ∈ members ∧
        entry.memberName = principal ∧ shouldSkipGroupMember entry now = false)
      (store.principalGroupCache.listAt principal) (store'.principalGroupCache.listAt principal)) :
    Inverted names (Function.update latest groupName version) store' where
  good := by
    intro name members now hlatest
    by_cases hname : name = groupName
    · subst hname
      rw [Function.update_self] at hlatest
      exact hgood members now hlatest
    · rw [Function.update_of_ne hname] at hlatest
      exact h.good name members now hlatest
  cached := by
    intro name
    rw [hcached]
    by_cases hname : name = groupName
    · subst hname
      rw [if_pos rfl, Function.update_self]
    · rw [if_neg hname, Function.update_of_ne hname]
      exact h.cached name
  entries := by
    intro principal entry
    rw [(hentries principal).mem_iff, h.entries]
    unfold Current
    by_cases hname : entry.groupName = groupName
    · rw [hname, Function.update_self]
      simp only [ne_eq, not_true_eq_false, and_false, false_or]
    · rw [Function.update_of_ne hname]
      refine (or_iff_left ?_).trans (and_iff_left hname)
      rintro ⟨members, now, hversion, hentry, _⟩
      exact hname ((hgood members now hversion).members entry hentry).2
  single principal := (hentries principal).single

theorem Inverted.processGroup (hsafe : CaseSafe names) (h : Inverted names latest store)
    (hgood : GoodGroup names group.name (group.groupMembers.getD []))
    (hfinds : UpdateFinds store now group) :
    Inverted names (latest.set now group) (store.processGroup now group) := by
  refine h.replace ?_ ?_ ?_
  · intro members now' hversion
    cases hversion
    exact hgood
  · intro name
    exact Map.listAt_insert store.groupMemberCache group.name name _
  · intro principal
    refine (processGroup_replaces hsafe h hgood hfinds principal).congr fun entry => ?_
    constructor
    · rintro ⟨hentry, hname, hskip⟩
      exact ⟨_, now, rfl, hentry, hname, hskip⟩
    · rintro ⟨members, now', hversion, hentry, hname, hskip⟩
      cases hversion
      exact ⟨hentry, hname, hskip⟩

/-- The published version of a group names every member that the cache lists for it. -/
def DeleteCovers (store : DataStore) (group : Group) : Prop :=
  ∀ member ∈ store.groupMemberCache.listAt group.name,
    member.memberName ∈ (group.groupMembers.getD []).map (·.memberName)

theorem listAt_foldl_deleteGroupMember (members : List GroupMember)
    (principals : Map Str (List GroupMember)) :
    (members.foldl (deleteGroupMember groupName) principals).listAt principal =
      if principal ∈ members.map (·.memberName) then
        deleteEffect groupName (principals.listAt principal)
      else principals.listAt principal := by
  induction members generalizing principals with
  | nil => rfl
  | cons member members ih =>
    have hstep : (deleteGroupMember groupName principals member).listAt principal = _ :=
      stepsAt_deleteGroupMember [member] principals member List.mem_cons_self
    simp only [List.foldl_cons, ih, hstep, List.map_cons, List.mem_cons, eq_comm]
    by_cases hname : principal = member.memberName
    · simp only [hname, if_true, true_or, deleteEffect, List.filter_filter, Bool.and_self, ite_self]
    · simp only [hname, if_false, false_or]

theorem Inverted.processGroupDelete (hsafe : CaseSafe names) (h : Inverted names latest store)
    (hname : group.name ∈ names) (hcovers : DeleteCovers store group) :
    Inverted names (latest.drop group) (store.processGroupDelete group) := by
  refine h.replace (fun _ _ hversion => nomatch hversion) ?_ ?_
  · intro name
    exact Map.listAt_erase store.groupMemberCache group.name name
  · intro principal
    have hlist : (store.processGroupDelete group).principalGroupCache.listAt principal = _ :=
      listAt_foldl_deleteGroupMember (group.groupMembers.getD []) store.principalGroupCache
    have hdeleted : Replaces (·.groupName) group.name (fun _ => False)
        (store.principalGroupCache.listAt principal)
        ((store.processGroupDelete group).principalGroupCache.listAt principal) := by
      rw [hlist]
      split
      · exact replaces_filter (h.single _) (h.case_iff hsafe hname)
      · rename_i hnot
        apply replaces_refl (h.single _) (h.no_entry_of_notMem _)
        intro hcached
        obtain ⟨member, hmember, rfl⟩ := List.mem_map.1 hcached
        exact hnot (hcovers member hmember)
    apply hdeleted.congr
    intro entry
    rw [false_iff]
    rintro ⟨_, _, hversion, _⟩
    cases hversion

end Steps

end DataStore

end Athenz.Zts
