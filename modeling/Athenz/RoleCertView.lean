import Athenz.RoleCertIndex
import Athenz.Lib.Diff

namespace Athenz.Zts
open Lib Lib.Text Lib.Index Lib.Diff
set_option autoImplicit true

namespace RequireRoleCertCache

open RolePrefixTrie

/-- The name of a member as ZMS allows it. -/
def GoodMember (name : Str) : Prop := ['*'] <:+ name → name ≠ "*" → Wildcard name

/-- A role is registered under a wildcard, in the set of all users or in the trie. -/
def Registered (cache : RequireRoleCertCache) (role name : Str) : Prop :=
  name = "*" ∧ cache.Holds (.wildcard role) ∨
    name ≠ "*" ∧ ['*'] <:+ name ∧ cache.Holds (.prefixed (triePath name) role)

/-- The places where a member of a collection is kept. -/
def Fact.At (name : Str) : Fact → Prop
  | .entry principal _ => principal = name
  | .wildcard _ => name = "*"
  | .prefixed path _ => name ≠ "*" ∧ ['*'] <:+ name ∧ path = triePath name

section Updates

variable [CaseRules] {cache : RequireRoleCertCache} {member : RoleMemberCache} {now : Int}

/-- The list that the update of a member leaves at its name. -/
def updatedList (now : Int) (roleName : Str) (member : RoleMemberCache) :
    Option (List RoleMemberCache) → Option (List RoleMemberCache)
  | none => if shouldSkipRoleMember member now then none else some [member]
  | some members => some <|
    if shouldSkipRoleMember member now then
      members.filter fun item => !equalsIgnoreCase item.role roleName
    else modifyFirst (fun item => equalsIgnoreCase item.role roleName) (refresh member) members

theorem lookup_updateMember :
    (updateMember now roleName cache member).principalRoleRequireCertCache.lookup name =
      if name = member.roleMember.memberName then
        updatedList now roleName member (cache.principalRoleRequireCertCache.lookup name)
      else cache.principalRoleRequireCertCache.lookup name := by
  unfold updateMember
  dsimp only
  by_cases hname : name = member.roleMember.memberName
  · rw [if_pos hname, hname]
    cases hlookup : cache.principalRoleRequireCertCache.lookup member.roleMember.memberName with
    | none =>
      dsimp only [updatedList]
      split
      · exact hlookup
      · rw [Map.lookup_insert, if_pos rfl]
    | some members => rw [Map.lookup_insert, if_pos rfl]; rfl
  · rw [if_neg hname]
    split
    · split
      · rfl
      · rw [Map.lookup_insert, if_neg hname]
    · rw [Map.lookup_insert, if_neg hname]

theorem updateMember_frame :
    (updateMember now roleName cache member).requireRoleCertWildcard = cache.requireRoleCertWildcard ∧
      (updateMember now roleName cache member).requireRoleCertPrefixTrie =
        cache.requireRoleCertPrefixTrie := by
  unfold updateMember
  dsimp only
  split
  · split
    · exact ⟨rfl, rfl⟩
    · exact ⟨rfl, rfl⟩
  · exact ⟨rfl, rfl⟩

theorem roleMemberRequireCertCache_updateMember :
    (updateMember now roleName cache member).roleMemberRequireCertCache =
      cache.roleMemberRequireCertCache := by
  unfold updateMember
  dsimp only
  split
  · split
    · rfl
    · rfl
  · rfl

omit [CaseRules] in
theorem roleMemberRequireCertCache_addMember :
    (addMember now roleName cache member).roleMemberRequireCertCache =
      cache.roleMemberRequireCertCache := by
  unfold addMember
  dsimp only
  split
  · rfl
  · split
    · rfl
    · split
      · rfl
      · rfl

omit [CaseRules] in
theorem lookup_addMember :
    (addMember now roleName cache member).principalRoleRequireCertCache.lookup name =
      if name = member.roleMember.memberName ∧ shouldSkipRoleMember member now = false then
        some (cache.principalRoleRequireCertCache.listAt name ++ [member])
      else cache.principalRoleRequireCertCache.lookup name := by
  unfold addMember
  dsimp only
  cases hskip : shouldSkipRoleMember member now with
  | true => simp only [if_true, Bool.true_eq_false, and_false, if_false]
  | false =>
    have hinsert : ((cache.principalRoleRequireCertCache.appendTo member.roleMember.memberName
        member).lookup name) = if name = member.roleMember.memberName then
          some (cache.principalRoleRequireCertCache.listAt name ++ [member])
        else cache.principalRoleRequireCertCache.lookup name := by
      rw [Map.appendTo, Map.lookup_insert]
      by_cases hname : name = member.roleMember.memberName
      · rw [if_pos hname, if_pos hname, hname]
      · rw [if_neg hname, if_neg hname]
    simp only [Bool.false_eq_true, if_false, and_true]
    rw [← hinsert]
    split
    · rfl
    · split
      · rfl
      · rfl

omit [CaseRules] in
/-- What the addition of a member adds to the sets of wildcards. -/
theorem addMember_wildcards :
    (∀ role, (addMember now roleName cache member).Holds (.wildcard role) ↔
      cache.Holds (.wildcard role) ∨ shouldSkipRoleMember member now = false ∧
        member.roleMember.memberName = "*" ∧ role = roleName) ∧
    ∀ path role, (addMember now roleName cache member).Holds (.prefixed path role) ↔
      cache.Holds (.prefixed path role) ∨ shouldSkipRoleMember member now = false ∧
        member.roleMember.memberName ≠ "*" ∧ ['*'] <:+ member.roleMember.memberName ∧
          path = triePath member.roleMember.memberName ∧ role = roleName := by
  unfold addMember
  dsimp only
  cases hskip : shouldSkipRoleMember member now with
  | true => simp only [if_true, Bool.true_eq_false, false_and, or_false, implies_true, and_self]
  | false =>
    simp only [Bool.false_eq_true, if_false, true_and]
    by_cases hall : member.roleMember.memberName = "*"
    · simp only [hall, if_true, Holds, List.mem_insert_iff, true_and, ne_eq, not_true_eq_false,
        false_and, or_false, implies_true, and_true]
      exact fun role => or_comm
    · by_cases hstar : ['*'] <:+ member.roleMember.memberName
      · simp only [hall, hstar, if_false, if_true, Holds, false_and, or_false, implies_true,
          ne_eq, not_false_eq_true, true_and, Trie.valuesAt_insert]
        intro path role
        split
        · rename_i hpath
          simp only [hpath, List.mem_insert_iff, true_and]
          exact or_comm
        · rename_i hpath
          simp only [hpath, false_and, or_false]
      · simp only [hall, hstar, if_false, Holds, false_and, and_false, or_false, implies_true, and_self]

end Updates

section Views

variable [CaseRules]

/-- What is seen of a role at the name of a member. -/
structure View where
  entry : Prop
  keyed : Prop
  registered : Prop

omit [CaseRules] in
theorem View.eq_of_iff {v w : View} (hentry : v.entry ↔ w.entry) (hkeyed : v.keyed ↔ w.keyed)
    (hregistered : v.registered ↔ w.registered) : v = w := by
  cases v
  cases w
  rw [View.mk.injEq]
  exact ⟨propext hentry, propext hkeyed, propext hregistered⟩

def view (role name : Str) (cache : RequireRoleCertCache) : View where
  entry := ∃ item ∈ cache.principalRoleRequireCertCache.listAt name,
    equalsIgnoreCase item.role role = true
  keyed := cache.Keyed name
  registered := cache.Registered role name

def updateView (now : Int) (member : RoleMemberCache) (v : View) : View :=
  if shouldSkipRoleMember member now then ⟨False, v.keyed, v.registered⟩
  else ⟨v.entry ∨ ¬ v.keyed, True, v.registered⟩

def addView (now : Int) (member : RoleMemberCache) (v : View) : View :=
  if shouldSkipRoleMember member now then v
  else ⟨True, True, v.registered ∨ ['*'] <:+ member.roleMember.memberName⟩

def deleteView (v : View) : View := ⟨False, v.keyed, v.registered ∧ ¬ v.keyed⟩

variable {cache : RequireRoleCertCache}

theorem view_of_lookup_none (role : Str) (h : cache.principalRoleRequireCertCache.lookup name = none) :
    ¬ (view role name cache).entry ∧ ¬ (view role name cache).keyed := by
  constructor
  · rintro ⟨item, hitem, _⟩
    rw [Map.listAt_of_lookup_none h] at hitem
    exact absurd hitem List.not_mem_nil
  · intro hkeyed
    rw [view, Keyed, h] at hkeyed
    cases hkeyed

theorem view_of_lookup_some (role : Str)
    (h : cache.principalRoleRequireCertCache.lookup name = some items) :
    ((view role name cache).entry ↔ ∃ item ∈ items, equalsIgnoreCase item.role role = true) ∧
      (view role name cache).keyed := by
  constructor
  · rw [view, Map.listAt_of_lookup h]
  · rw [view, Keyed, h]
    rfl

/-- The view changes only with the list at the name and with the registration. -/
theorem view_congr (hlookup : cache'.principalRoleRequireCertCache.lookup name =
      cache.principalRoleRequireCertCache.lookup name)
    (hregistered : cache'.Registered role name ↔ cache.Registered role name) :
    view role name cache' = view role name cache := by
  rw [view, view, Map.listAt, Map.listAt, Keyed, Keyed, hlookup, propext hregistered]

theorem registered_updateMember : (updateMember now roleName cache member).Registered role name ↔
    cache.Registered role name := by
  rw [Registered, Registered, Holds, Holds, Holds, Holds, updateMember_frame.1, updateMember_frame.2]

theorem exists_mem_modifyFirst {items : List RoleMemberCache} (hrole : member.role = roleName) :
    (∃ item ∈ modifyFirst (fun item => equalsIgnoreCase item.role roleName) (refresh member) items,
      equalsIgnoreCase item.role roleName = true) ↔
    ∃ item ∈ items, equalsIgnoreCase item.role roleName = true := by
  induction items with
  | nil => rfl
  | cons item items ih =>
    unfold modifyFirst
    by_cases hitem : equalsIgnoreCase item.role roleName = true
    · rw [if_pos hitem]
      apply iff_of_true
      · refine ⟨_, List.mem_cons_self, ?_⟩
        have hrefresh : (refresh member item).role = member.role := rfl
        rw [hrefresh, hrole, equalsIgnoreCase_refl]
      · exact ⟨item, List.mem_cons_self, hitem⟩
    · rw [if_neg hitem]
      rw [List.exists_mem_cons_iff, List.exists_mem_cons_iff, ih]

theorem stepsAt_updateMember {members : List RoleMemberCache}
    (hrole : ∀ member ∈ members, member.role = roleName) :
    StepsAt (view roleName name) (·.roleMember.memberName) name (updateMember now roleName)
      (updateView now) members := by
  intro cache member hmember
  by_cases hname : member.roleMember.memberName = name
  · have hafter : (updateMember now roleName cache member).principalRoleRequireCertCache.lookup name =
        updatedList now roleName member (cache.principalRoleRequireCertCache.lookup name) := by
      rw [lookup_updateMember, if_pos hname.symm]
    rw [if_pos hname, updateView]
    cases hskip : shouldSkipRoleMember member now with
    | true =>
      rw [if_pos rfl]
      cases hlookup : cache.principalRoleRequireCertCache.lookup name with
      | none =>
        rw [hlookup, updatedList, hskip, if_pos rfl] at hafter
        obtain ⟨_, hkeyed⟩ := view_of_lookup_none roleName hlookup
        obtain ⟨hentry', hkeyed'⟩ := view_of_lookup_none roleName hafter
        exact View.eq_of_iff (iff_false_intro hentry') (iff_of_false hkeyed' hkeyed)
          registered_updateMember
      | some items =>
        rw [hlookup, updatedList, hskip, if_pos rfl] at hafter
        obtain ⟨_, hkeyed⟩ := view_of_lookup_some roleName hlookup
        obtain ⟨hentry', hkeyed'⟩ := view_of_lookup_some roleName hafter
        refine View.eq_of_iff ?_ (iff_of_true hkeyed' hkeyed) registered_updateMember
        rw [hentry', iff_false]
        rintro ⟨item, hitem, hsame⟩
        have hnot := (List.mem_filter.1 hitem).2
        rw [hsame] at hnot
        cases hnot
    | false =>
      rw [if_neg Bool.false_ne_true]
      cases hlookup : cache.principalRoleRequireCertCache.lookup name with
      | none =>
        rw [hlookup, updatedList, hskip, if_neg Bool.false_ne_true] at hafter
        obtain ⟨_, hkeyed⟩ := view_of_lookup_none roleName hlookup
        obtain ⟨hentry', hkeyed'⟩ := view_of_lookup_some roleName hafter
        apply View.eq_of_iff _ (iff_true_intro hkeyed') registered_updateMember
        rw [hentry']
        apply iff_of_true _ (.inr hkeyed)
        exact ⟨member, List.mem_cons_self, by rw [hrole member hmember, equalsIgnoreCase_refl]⟩
      | some items =>
        rw [hlookup, updatedList, hskip, if_neg Bool.false_ne_true] at hafter
        obtain ⟨hentry, hkeyed⟩ := view_of_lookup_some roleName hlookup
        obtain ⟨hentry', hkeyed'⟩ := view_of_lookup_some roleName hafter
        apply View.eq_of_iff _ (iff_true_intro hkeyed') registered_updateMember
        rw [hentry', exists_mem_modifyFirst (hrole member hmember), or_iff_left (not_not_intro hkeyed),
          hentry]
  · rw [if_neg hname]
    apply view_congr _ registered_updateMember
    rw [lookup_updateMember, if_neg (Ne.symm hname)]

omit [CaseRules] in
theorem registered_addMember (hmember : GoodMember member.roleMember.memberName)
    (hname : GoodMember name) : (addMember now roleName cache member).Registered roleName name ↔
      cache.Registered roleName name ∨ shouldSkipRoleMember member now = false ∧
        member.roleMember.memberName = name ∧ ['*'] <:+ name := by
  rw [Registered, Registered, addMember_wildcards.1, addMember_wildcards.2]
  by_cases hall : name = "*"
  · have hstar : ['*'] <:+ name := by
      rw [hall]
      exact List.suffix_rfl
    simp only [hall, ne_eq, not_true_eq_false, true_and, false_and, or_false, and_true]
    rw [hall] at hstar
    simp only [hstar, and_true]
  · by_cases hstar : ['*'] <:+ name
    · simp only [hall, hstar, false_and, false_or, ne_eq, not_false_eq_true, true_and, and_true]
      refine or_congr_right (and_congr_right fun _ => ⟨?_, ?_⟩)
      · rintro ⟨hmemberAll, hmemberStar, hpath⟩
        exact (hmember hmemberStar hmemberAll).eq_of_triePath_eq (hname hstar hall) hpath.symm
      · rintro rfl
        exact ⟨hall, hstar, rfl⟩
    · simp only [hall, hstar, false_and, and_false, or_self]

theorem stepsAt_addMember {members : List RoleMemberCache} (hname : GoodMember name)
    (hgood : ∀ member ∈ members, member.role = roleName ∧ GoodMember member.roleMember.memberName) :
    StepsAt (view roleName name) (·.roleMember.memberName) name (addMember now roleName)
      (addView now) members := by
  intro cache member hmember
  obtain ⟨hrole, hmemberName⟩ := hgood member hmember
  have hregistered : (addMember now roleName cache member).Registered roleName name ↔ _ :=
    registered_addMember hmemberName hname
  cases hskip : shouldSkipRoleMember member now with
  | true =>
    have hsame : view roleName name (addMember now roleName cache member) =
        view roleName name cache := by
      apply view_congr
      · rw [lookup_addMember, if_neg fun hboth => Bool.false_ne_true (hboth.2.symm.trans hskip)]
      · rw [hregistered, or_iff_left fun hboth => Bool.false_ne_true (hboth.1.symm.trans hskip)]
    rw [hsame, addView, if_pos hskip, ite_self]
  | false =>
    by_cases hmemberSame : member.roleMember.memberName = name
    · have hafter : (addMember now roleName cache member).principalRoleRequireCertCache.lookup name =
          some (cache.principalRoleRequireCertCache.listAt name ++ [member]) := by
        rw [lookup_addMember, if_pos ⟨hmemberSame.symm, hskip⟩]
      obtain ⟨hentry, hkeyed⟩ := view_of_lookup_some roleName hafter
      rw [if_pos hmemberSame, addView, hskip, if_neg Bool.false_ne_true]
      refine View.eq_of_iff (iff_true_intro (hentry.2 ?_)) (iff_true_intro hkeyed) ?_
      · refine ⟨member, List.mem_append_right _ List.mem_cons_self, ?_⟩
        rw [hrole, equalsIgnoreCase_refl]
      · rw [hmemberSame]
        refine hregistered.trans (or_congr_right ?_)
        simp only [hskip, hmemberSame, true_and]
    · rw [if_neg hmemberSame]
      apply view_congr
      · rw [lookup_addMember, if_neg fun hboth => hmemberSame hboth.1.symm]
      · rw [hregistered, or_iff_left fun hboth => hmemberSame hboth.2.1]

theorem lookup_deleteMember :
    (deleteMember roleName cache member).principalRoleRequireCertCache.lookup name =
      if name = member.roleMember.memberName then
        (cache.principalRoleRequireCertCache.lookup name).map fun items =>
          items.filter fun item => !equalsIgnoreCase item.role roleName
      else cache.principalRoleRequireCertCache.lookup name := by
  cases hlookup : cache.principalRoleRequireCertCache.lookup member.roleMember.memberName with
  | none =>
    rw [deleteMember_of_none hlookup]
    split
    · rename_i hname
      rw [hname, hlookup]
      rfl
    · rfl
  | some items =>
    rw [deleteMember_of_some hlookup, Map.lookup_insert]
    split
    · rename_i hname
      rw [hname, hlookup]
      rfl
    · rfl

theorem stepsAt_deleteMember {members : List RoleMemberCache} (hname : GoodMember name)
    (hgood : ∀ member ∈ members, GoodMember member.roleMember.memberName) :
    StepsAt (view roleName name) (·.roleMember.memberName) name (deleteMember roleName)
      (fun _ => deleteView) members := by
  intro cache member hmember
  have hmemberName := hgood member hmember
  have hregistered : (deleteMember roleName cache member).Registered roleName name ↔
      cache.Registered roleName name ∧ ¬ (member.roleMember.memberName = name ∧ cache.Keyed name) := by
    rw [Registered, Registered, holds_deleteMember, holds_deleteMember]
    by_cases hall : name = "*"
    · simp only [hall, Removes, true_and, and_true, ne_eq, not_true_eq_false, false_and, or_false]
      refine and_congr_right fun _ => not_congr (and_congr_right fun hmemberAll => ?_)
      rw [hmemberAll]
    · by_cases hstar : ['*'] <:+ name
      · simp only [hall, hstar, Removes, false_and, false_or, ne_eq, not_false_eq_true, true_and,
          and_true]
        refine and_congr_right fun _ => not_congr ⟨?_, ?_⟩
        · rintro ⟨hmemberAll, hmemberStar, hkeyed, hpath⟩
          obtain rfl := (hmemberName hmemberStar hmemberAll).eq_of_triePath_eq (hname hstar hall)
            hpath.symm
          exact ⟨rfl, hkeyed⟩
        · rintro ⟨rfl, hkeyed⟩
          exact ⟨hall, hstar, hkeyed, rfl⟩
      · simp only [hall, hstar, false_and, and_false, or_self]
  by_cases hmemberSame : member.roleMember.memberName = name
  · rw [if_pos hmemberSame]
    refine View.eq_of_iff (iff_false_intro ?_) ?_ ?_
    · rintro ⟨item, hitem, hsame⟩
      obtain ⟨left, hleft, hitem⟩ := Map.mem_listAt_iff.1 hitem
      rw [lookup_deleteMember, if_pos hmemberSame.symm] at hleft
      obtain ⟨items, _, rfl⟩ := Option.map_eq_some_iff.1 hleft
      have hnot := (List.mem_filter.1 hitem).2
      rw [hsame] at hnot
      cases hnot
    · exact keyed_deleteMember
    · refine hregistered.trans (and_congr_right fun _ => ?_)
      rw [and_iff_right hmemberSame]
      rfl
  · rw [if_neg hmemberSame]
    apply view_congr
    · rw [lookup_deleteMember, if_neg (Ne.symm hmemberSame)]
    · rw [hregistered, and_iff_left fun hboth => hmemberSame hboth.1]

end Views

section Others

variable [CaseRules] {cache : RequireRoleCertCache} {fact : Fact}

omit [CaseRules] in
theorem holds_entry_iff : cache.Holds (.entry principal role) ↔
    ∃ items, cache.principalRoleRequireCertCache.lookup principal = some items ∧
      role ∈ items.map (·.role) := by
  rw [Holds, Map.listAt]
  cases cache.principalRoleRequireCertCache.lookup principal with
  | none => simp only [Option.getD_none, List.map_nil, List.not_mem_nil, reduceCtorEq, false_and,
      exists_false]
  | some items => simp only [Option.getD_some, Option.some.injEq, exists_eq_left']

omit [CaseRules] in
theorem roles_modifyFirst {items : List RoleMemberCache} {p : RoleMemberCache → Bool}
    (h : role ∈ (modifyFirst p (refresh member) items).map (·.role)) :
    role ∈ items.map (·.role) ∨ role = member.role := by
  induction items with
  | nil => exact absurd h List.not_mem_nil
  | cons item items ih =>
    unfold modifyFirst at h
    split at h
    · obtain rfl | h := List.mem_cons.1 h
      · exact .inr rfl
      · exact .inl (List.mem_cons_of_mem _ h)
    · obtain rfl | h := List.mem_cons.1 h
      · exact .inl List.mem_cons_self
      · exact (ih h).imp_left (List.mem_cons_of_mem _)

/-- A role that is not the updated one stays in the list. -/
theorem mem_roles_modifyFirst {items : List RoleMemberCache}
    (hother : equalsIgnoreCase role roleName = false) (h : role ∈ items.map (·.role)) :
    role ∈ (modifyFirst (fun item => equalsIgnoreCase item.role roleName) (refresh member)
      items).map (·.role) := by
  induction items with
  | nil => exact absurd h List.not_mem_nil
  | cons item items ih =>
    unfold modifyFirst
    obtain rfl | h := List.mem_cons.1 h
    · rw [if_neg (by rw [hother]; exact Bool.false_ne_true)]
      exact List.mem_cons_self
    · split
      · exact List.mem_cons_of_mem _ h
      · exact List.mem_cons_of_mem _ (ih h)

theorem holds_updateMember (hrole : member.role = roleName)
    (h : (updateMember now roleName cache member).Holds fact) :
    cache.Holds fact ∨ fact.role = roleName ∧ fact.At member.roleMember.memberName := by
  cases fact with
  | entry principal role =>
    obtain ⟨items, hitems, hmem⟩ := holds_entry_iff.1 h
    rw [lookup_updateMember] at hitems
    split at hitems
    · rename_i hname
      cases hlookup : cache.principalRoleRequireCertCache.lookup principal with
      | none =>
        rw [hlookup, updatedList] at hitems
        split at hitems
        · cases hitems
        · cases hitems
          exact .inr ⟨(List.mem_singleton.1 hmem).trans hrole, hname⟩
      | some before =>
        rw [hlookup, updatedList] at hitems
        cases hitems
        split at hmem
        · obtain ⟨item, hitem, rfl⟩ := List.mem_map.1 hmem
          exact .inl (holds_entry_iff.2 ⟨before, hlookup,
            List.mem_map_of_mem (List.mem_of_mem_filter hitem)⟩)
        · obtain hbefore | hrefreshed := roles_modifyFirst hmem
          · exact .inl (holds_entry_iff.2 ⟨before, hlookup, hbefore⟩)
          · exact .inr ⟨hrefreshed.trans hrole, hname⟩
    · exact .inl (holds_entry_iff.2 ⟨items, hitems, hmem⟩)
  | wildcard role =>
    rw [Holds, updateMember_frame.1] at h
    exact .inl h
  | prefixed path role =>
    rw [Holds, updateMember_frame.2] at h
    exact .inl h

theorem holds_updateMember_of_other (hother : equalsIgnoreCase fact.role roleName = false)
    (h : cache.Holds fact) : (updateMember now roleName cache member).Holds fact := by
  cases fact with
  | entry principal role =>
    obtain ⟨items, hitems, hmem⟩ := holds_entry_iff.1 h
    rw [holds_entry_iff, lookup_updateMember, hitems]
    split
    · refine ⟨_, rfl, ?_⟩
      split
      · obtain ⟨item, hitem, rfl⟩ := List.mem_map.1 hmem
        refine List.mem_map_of_mem (List.mem_filter.2 ⟨hitem, ?_⟩)
        rw [Bool.not_eq_true']
        exact hother
      · exact mem_roles_modifyFirst hother hmem
    · exact ⟨items, rfl, hmem⟩
  | wildcard role =>
    rw [Holds, updateMember_frame.1]
    exact h
  | prefixed path role =>
    rw [Holds, updateMember_frame.2]
    exact h

omit [CaseRules] in
theorem holds_addMember (hrole : member.role = roleName)
    (h : (addMember now roleName cache member).Holds fact) :
    cache.Holds fact ∨ fact.role = roleName ∧ fact.At member.roleMember.memberName := by
  cases fact with
  | entry principal role =>
    obtain ⟨items, hitems, hmem⟩ := holds_entry_iff.1 h
    rw [lookup_addMember] at hitems
    split at hitems
    · rename_i hname
      cases hitems
      rw [List.map_append, List.mem_append] at hmem
      obtain hbefore | hadded := hmem
      · exact .inl hbefore
      · exact .inr ⟨(List.mem_singleton.1 hadded).trans hrole, hname.1⟩
    · exact .inl (holds_entry_iff.2 ⟨items, hitems, hmem⟩)
  | wildcard role =>
    obtain hbefore | ⟨_, hall, hadded⟩ := (addMember_wildcards.1 role).1 h
    · exact .inl hbefore
    · exact .inr ⟨hadded, hall⟩
  | prefixed path role =>
    obtain hbefore | ⟨_, hall, hstar, hpath, hadded⟩ := (addMember_wildcards.2 path role).1 h
    · exact .inl hbefore
    · exact .inr ⟨hadded, hall, hstar, hpath⟩

omit [CaseRules] in
theorem holds_addMember_of_holds (h : cache.Holds fact) :
    (addMember now roleName cache member).Holds fact := by
  cases fact with
  | entry principal role =>
    obtain ⟨items, hitems, hmem⟩ := holds_entry_iff.1 h
    rw [holds_entry_iff, lookup_addMember]
    split
    · refine ⟨_, rfl, ?_⟩
      rw [List.map_append, Map.listAt_of_lookup hitems]
      exact List.mem_append_left _ hmem
    · exact ⟨items, hitems, hmem⟩
  | wildcard role => exact (addMember_wildcards.1 role).2 (.inl h)
  | prefixed path role => exact (addMember_wildcards.2 path role).2 (.inl h)

theorem holds_deleteMember_of_other (hother : equalsIgnoreCase fact.role roleName = false)
    (h : cache.Holds fact) : (deleteMember roleName cache member).Holds fact := by
  refine holds_deleteMember.2 ⟨h, ?_⟩
  have hne : fact.role ≠ roleName := by
    intro hsame
    rw [hsame, equalsIgnoreCase_refl] at hother
    cases hother
  cases fact with
  | entry principal role =>
    rintro ⟨_, hsame⟩
    exact Bool.false_ne_true (hother.symm.trans hsame)
  | wildcard role => exact fun hremoves => hne hremoves.2.2
  | prefixed path role => exact fun hremoves => hne hremoves.2.2.2.2

end Others

end RequireRoleCertCache

end Athenz.Zts
