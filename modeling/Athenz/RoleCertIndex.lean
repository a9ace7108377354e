import Athenz.DataStore
import Athenz.RolePrefixTrie

namespace Athenz.Zts
open Lib Lib.Text Lib.Index
set_option autoImplicit true

namespace RequireRoleCertCache

open RolePrefixTrie

/-- The facts that the cache keeps about roles. -/
inductive Fact where
  | entry (principal role : Str)
  | wildcard (role : Str)
  | prefixed (path : List Str) (role : Str)

def Fact.role : Fact → Str
  | .entry _ role => role
  | .wildcard role => role
  | .prefixed _ role => role

def Holds (cache : RequireRoleCertCache) : Fact → Prop
  | .entry principal role =>
    role ∈ (cache.principalRoleRequireCertCache.listAt principal).map (·.role)
  | .wildcard role => role ∈ cache.requireRoleCertWildcard
  | .prefixed path role => role ∈ cache.requireRoleCertPrefixTrie.valuesAt path

theorem not_holds_empty (fact : Fact) : ¬ Holds {} fact := by
  cases fact with
  | entry principal role => exact List.not_mem_nil
  | wildcard role => exact List.not_mem_nil
  | prefixed path role =>
    rw [Holds, Trie.valuesAt_empty]
    exact List.not_mem_nil

/-- The facts for which a principal is told the role. -/
def Fact.Concerns (principal : Str) : Fact → Prop
  | .entry name _ => name = principal
  | .wildcard _ => True
  | .prefixed path _ => pathMatches path (splitTrim '.' principal)

theorem mem_getRolesRequireRoleCert {cache : RequireRoleCertCache} :
    role ∈ cache.getRolesRequireRoleCert principal ↔
      ∃ fact : Fact, cache.Holds fact ∧ fact.Concerns principal ∧ fact.role = role := by
  rw [getRolesRequireRoleCert, List.mem_append, List.mem_append, findMatchingValues,
    mem_findMatchingSections]
  constructor
  · rintro ((hrole | hrole) | ⟨path, hrole, hmatch⟩)
    · exact ⟨.entry principal role, hrole, rfl, rfl⟩
    · exact ⟨.wildcard role, hrole, trivial, rfl⟩
    · exact ⟨.prefixed path role, hrole, hmatch, rfl⟩
  · rintro ⟨fact, hholds, hconcerns, rfl⟩
    cases fact with
    | entry name role =>
      cases hconcerns
      exact .inl (.inl hholds)
    | wildcard role => exact .inl (.inr hholds)
    | prefixed path role => exact .inr ⟨path, hholds, hconcerns⟩

section Delete

variable [CaseRules] {cache : RequireRoleCertCache}

/-- The cache has a list under a member name, maybe an empty one. -/
def Keyed (cache : RequireRoleCertCache) (name : Str) : Prop :=
  (cache.principalRoleRequireCertCache.lookup name).isSome

/-- The facts that the deletion of a member of a collection takes away. -/
def Removes (keyed : Str → Prop) (collectionName memberName : Str) : Fact → Prop
  | .entry principal role => principal = memberName ∧ equalsIgnoreCase role collectionName = true
  | .wildcard role => memberName = "*" ∧ keyed memberName ∧ role = collectionName
  | .prefixed path role => memberName ≠ "*" ∧ ['*'] <:+ memberName ∧ keyed memberName ∧
    path = triePath memberName ∧ role = collectionName

theorem deleteMember_of_none
    (h : cache.principalRoleRequireCertCache.lookup member.roleMember.memberName = none) :
    deleteMember collectionName cache member = cache := by
  rw [deleteMember]
  simp only [h]

theorem deleteMember_of_some
    (h : cache.principalRoleRequireCertCache.lookup member.roleMember.memberName = some members) :
    deleteMember collectionName cache member =
      { cache with
        principalRoleRequireCertCache := cache.principalRoleRequireCertCache.insert
          member.roleMember.memberName
          (members.filter fun item => !equalsIgnoreCase item.role collectionName)
        requireRoleCertWildcard :=
          if member.roleMember.memberName = "*" then
            cache.requireRoleCertWildcard.filter (· ≠ collectionName)
          else cache.requireRoleCertWildcard
        requireRoleCertPrefixTrie :=
          if member.roleMember.memberName ≠ "*" ∧ ['*'] <:+ member.roleMember.memberName then
            (cache.requireRoleCertPrefixTrie.delete (triePath member.roleMember.memberName)
              collectionName).1
          else cache.requireRoleCertPrefixTrie } := by
  rw [deleteMember]
  simp only [h]
  by_cases hall : member.roleMember.memberName = "*"
  · simp only [hall, if_true, ne_eq, not_true_eq_false, false_and, if_false]
  · by_cases hstar : ['*'] <:+ member.roleMember.memberName
    · simp only [hall, hstar, if_true, if_false, ne_eq, not_false_eq_true, and_self]
    · simp only [hall, hstar, if_false, and_false]

theorem keyed_deleteMember : (deleteMember collectionName cache member).Keyed name ↔
    cache.Keyed name := by
  cases h : cache.principalRoleRequireCertCache.lookup member.roleMember.memberName with
  | none => rw [deleteMember_of_none h]
  | some members =>
    rw [deleteMember_of_some h, Keyed, Keyed, Map.lookup_insert]
    by_cases hname : name = member.roleMember.memberName
    · rw [if_pos hname, hname, h]
      simp only [Option.isSome_some]
    · rw [if_neg hname]

theorem holds_deleteMember {fact : Fact} : (deleteMember collectionName cache member).Holds fact ↔
    cache.Holds fact ∧
      ¬ Removes cache.Keyed collectionName member.roleMember.memberName fact := by
  cases h : cache.principalRoleRequireCertCache.lookup member.roleMember.memberName with
  | none =>
    have hkeyed : ¬ cache.Keyed member.roleMember.memberName := by
      rw [Keyed, h]
      exact Bool.false_ne_true
    rw [deleteMember_of_none h, iff_self_and]
    cases fact with
    | entry principal role =>
      rintro hholds ⟨rfl, _⟩
      rw [Holds, Map.listAt_of_lookup_none h] at hholds
      exact absurd hholds List.not_mem_nil
    | wildcard role => exact fun _ hremoves => hkeyed hremoves.2.1
    | prefixed path role => exact fun _ hremoves => hkeyed hremoves.2.2.1
  | some members =>
    have hkeyed : cache.Keyed member.roleMember.memberName := by
      rw [Keyed, h]
      rfl
    rw [deleteMember_of_some h]
    cases fact with
    | entry principal role =>
      simp only [Holds, Removes, Map.listAt_insert]
      by_cases hname : principal = member.roleMember.memberName
      · rw [if_pos hname, hname, Map.listAt_of_lookup h]
        simp only [List.mem_map, List.mem_filter, Bool.not_eq_true', true_and]
        constructor
        · rintro ⟨item, ⟨hitem, hdiffers⟩, rfl⟩
          exact ⟨⟨item, hitem, rfl⟩, by rw [hdiffers]; exact Bool.false_ne_true⟩
        · rintro ⟨⟨item, hitem, rfl⟩, hdiffers⟩
          exact ⟨item, ⟨hitem, Bool.eq_false_iff.2 hdiffers⟩, rfl⟩
      · simp only [hname, if_false, false_and, not_false_eq_true, and_true]
    | wildcard role =>
      simp only [Holds, Removes, hkeyed, true_and]
      split
      · rename_i hall
        simp only [List.mem_filter, decide_eq_true_eq, hall, true_and, ne_eq]
      · rename_i hall
        simp only [hall, false_and, not_false_eq_true, and_true]
    | prefixed path role =>
      simp only [Holds, Removes, hkeyed, true_and]
      split
      · rename_i hstar
        rw [Trie.valuesAt_delete]
        simp only [hstar.1, hstar.2, ne_eq, not_false_eq_true, true_and]
        split
        · rename_i hpath
          simp only [hpath, List.mem_filter, decide_eq_true_eq, true_and]
        · rename_i hpath
          simp only [hpath, false_and, not_false_eq_true, and_true]
      · rename_i hstar
        rw [iff_self_and]
        exact fun _ hremoves => hstar ⟨hremoves.1, hremoves.2.1⟩

theorem roleMemberRequireCertCache_deleteMember :
    (deleteMember collectionName cache member).roleMemberRequireCertCache =
      cache.roleMemberRequireCertCache := by
  cases h : cache.principalRoleRequireCertCache.lookup member.roleMember.memberName with
  | none => rw [deleteMember_of_none h]
  | some members => rw [deleteMember_of_some h]

/-- The deletions keep the names that have a list. -/
theorem keyed_eq_deleteMember (keyed : Str → Prop) (c : RequireRoleCertCache)
    (member : RoleMemberCache) (h : c.Keyed = keyed) :
    (deleteMember collectionName c member).Keyed = keyed := by
  rw [← h]
  exact funext fun name => propext keyed_deleteMember

theorem holds_foldl_deleteMember {fact : Fact} (members : List RoleMemberCache) :
    (members.foldl (deleteMember collectionName) cache).Holds fact ↔
      cache.Holds fact ∧ ∀ member ∈ members,
        ¬ Removes cache.Keyed collectionName member.roleMember.memberName fact := by
  refine foldl_removes (Q := fun c => Holds c fact)
    (P := fun member => Removes cache.Keyed collectionName member.roleMember.memberName fact)
    (keyed_eq_deleteMember cache.Keyed) ?_ rfl
  intro c member _ hc
  rw [holds_deleteMember, hc]

/-- The facts that the deletion of a role takes away. -/
def RemovesRole (keyed : Str → Prop) (role : Role) (fact : Fact) : Prop :=
  ∃ member ∈ role.roleMembers.getD [], Removes keyed role.name member.memberName fact

omit [CaseRules] in
theorem holds_roleMembers {fact : Fact} (roles : Map Str (List RoleMemberCache)) :
    Holds { cache with roleMemberRequireCertCache := roles } fact ↔ cache.Holds fact := by
  cases fact with
  | entry principal role => rfl
  | wildcard role => rfl
  | prefixed path role => rfl

theorem keyed_processRoleCacheDelete (keyed : Str → Prop) (c : RequireRoleCertCache) (role : Role)
    (h : c.Keyed = keyed) : (c.processRoleCacheDelete role).Keyed = keyed :=
  foldl_invariant (keyed_eq_deleteMember keyed) (getRoleMembersForCache role) h

theorem holds_processRoleCacheDelete {fact : Fact} :
    (cache.processRoleCacheDelete role).Holds fact ↔
      cache.Holds fact ∧ ¬ RemovesRole cache.Keyed role fact := by
  rw [processRoleCacheDelete, processCollectionDeletedMembers, holds_foldl_deleteMember,
    holds_roleMembers]
  refine and_congr_right fun _ => ?_
  simp only [getRoleMembersForCache, List.forall_mem_map, RemovesRole, not_exists, not_and]
  rfl

theorem holds_foldl_processRoleCacheDelete {fact : Fact} (roles : List Role) :
    (roles.foldl (fun cache role => cache.processRoleCacheDelete role) cache).Holds fact ↔
      cache.Holds fact ∧ ∀ role ∈ roles, ¬ RemovesRole cache.Keyed role fact := by
  refine foldl_removes (Q := fun c => Holds c fact) (P := fun role => RemovesRole cache.Keyed role fact)
    (keyed_processRoleCacheDelete cache.Keyed) ?_ rfl
  intro c role _ hc
  rw [holds_processRoleCacheDelete, hc]

theorem lookup_processRoleCacheDelete :
    (cache.processRoleCacheDelete role).roleMemberRequireCertCache.lookup name =
      if name = role.name then none else cache.roleMemberRequireCertCache.lookup name := by
  have hkeep : (cache.processRoleCacheDelete role).roleMemberRequireCertCache =
      cache.roleMemberRequireCertCache.erase role.name := by
    refine foldl_invariant (P := fun c : RequireRoleCertCache => c.roleMemberRequireCertCache =
      cache.roleMemberRequireCertCache.erase role.name) ?_ (getRoleMembersForCache role) rfl
    intro c member hc
    rw [roleMemberRequireCertCache_deleteMember, hc]
  rw [hkeep, Map.lookup_erase]

theorem lookup_foldl_processRoleCacheDelete (roles : List Role) :
    (roles.foldl (fun cache role => cache.processRoleCacheDelete role)
      cache).roleMemberRequireCertCache.lookup name =
        if name ∈ roles.map (·.name) then none
        else cache.roleMemberRequireCertCache.lookup name := by
  induction roles generalizing cache with
  | nil => rfl
  | cons role roles ih =>
    simp only [List.foldl_cons, ih, lookup_processRoleCacheDelete, List.map_cons, List.mem_cons]
    by_cases hname : name = role.name
    · simp only [hname, if_true, ite_self, true_or]
    · simp only [hname, if_false, false_or]

end Delete

end RequireRoleCertCache

end Athenz.Zts
