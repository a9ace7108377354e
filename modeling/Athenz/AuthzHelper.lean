import Athenz.Membership

namespace Athenz.AuthzHelper
open Lib Lib.Text Lib.Index Lib.Result Zts
set_option autoImplicit true

section Members

/-- The members of a group by its name; `none` for a group that is not known. -/
abbrev GroupMembersFetcher := Str → Option (List GroupMember)

def memberNameMatch (memberName matchName : Str) : Bool :=
  if memberName = "*" then true
  else if ['*'] <:+ memberName then memberName.dropLast <+: matchName
  else memberName = matchName

/-- The first entry that matches decides. -/
def checkGroupMemberValidity (now : Int) (groupMembers : List GroupMember) (member : Str) : Bool :=
  (groupMembers.find? fun entry => memberNameMatch entry.memberName member).any fun entry =>
    !isMemberDisabled entry.systemDisabled && !isMemberExpired entry.expiration now

def isMemberOfGroup (now : Int) (groupMembers : Option (List GroupMember)) (member : Str) : Bool :=
  match groupMembers with
  | none => false
  | some groupMembers => checkGroupMemberValidity now groupMembers member

def isGroupEntry (entry : RoleMember) : Bool := entry.principalType = some 3

/-- The first entry that matches and is no group decides, and the groups when it gives nothing. -/
def checkRoleMemberValidity (now : Int) (fetcher : GroupMembersFetcher)
    (roleMembers : List RoleMember) (member : Str) : Bool :=
  let isMember := (roleMembers.find? fun entry =>
      !isGroupEntry entry && memberNameMatch entry.memberName member).any fun entry =>
    !isMemberDisabled entry.systemDisabled && !isMemberExpired entry.expiration now
  isMember || (roleMembers.filter isGroupEntry).any fun entry =>
    !isMemberExpired entry.expiration now && isMemberOfGroup now (fetcher entry.memberName) member

def isMemberOfRole (now : Int) (fetcher : GroupMembersFetcher) (role : Role) (member : Str) : Bool :=
  match role.roleMembers with
  | none => false
  | some members => checkRoleMemberValidity now fetcher members member

end Members

section Trust

variable [CaseRules]

def shouldRunDelegatedTrustCheck (trust trustDomain : Option Str) : Bool :=
  match trust, trustDomain with
  | none, _ => false
  | some _, none => true
  | some trust, some trustDomain => equalsIgnoreCase trust trustDomain

def assumeRoleResourceMatch (roleName : Str) (assertion : Assertion) : Bool :=
  equalsIgnoreCase "assume_role" assertion.action &&
    matchesPattern (patternFromGlob assertion.resource) roleName

/-- A list of roles that is missing stops the check. -/
def matchDelegatedTrustAssertion (now : Int) (fetcher : GroupMembersFetcher)
    (assertion : Assertion) (roleName roleMember : Str) (roles : Option (List Role)) :
    Except Failure Bool :=
  if !assumeRoleResourceMatch roleName assertion then .ok false
  else
    match roles with
    | none => .error .nullPointer
    | some roles =>
      .ok (roles.any fun role =>
        matchesPattern (patternFromGlob assertion.role) role.name &&
          isMemberOfRole now fetcher role roleMember)

def matchDelegatedTrustPolicy (now : Int) (fetcher : GroupMembersFetcher) (policy : Policy)
    (roleName roleMember : Str) (roles : Option (List Role)) : Except Failure Bool :=
  (policy.assertions.getD []).anyM fun assertion =>
    matchDelegatedTrustAssertion now fetcher assertion roleName roleMember roles

end Trust

section Meaning

/-- At most one element of a list has a property. -/
def AtMostOne (p : α → Bool) (l : List α) : Prop := (l.filter p).length ≤ 1

instance : Decidable (AtMostOne p l) := inferInstanceAs (Decidable ((l.filter p).length ≤ 1))

theorem exists_of_find? {p q : α → Bool} {l : List α}
    (h : (l.find? p).any q = true) : ∃ a ∈ l, p a = true ∧ q a = true := by
  obtain ⟨a, hfind, hq⟩ := (Option.any_eq_true q _).1 h
  exact ⟨a, List.mem_of_find?_eq_some hfind, List.find?_some hfind, hq⟩

theorem find?_of_atMostOne {p q : α → Bool} {l : List α} (h : AtMostOne p l) (hmem : a ∈ l)
    (hp : p a = true) (hq : q a = true) : (l.find? p).any q = true := by
  have hin : a ∈ l.filter p := List.mem_filter.2 ⟨hmem, hp⟩
  cases hfind : l.find? p with
  | none => exact absurd hp (List.find?_eq_none.1 hfind a hmem)
  | some b =>
    have hother : b ∈ l.filter p :=
      List.mem_filter.2 ⟨List.mem_of_find?_eq_some hfind, List.find?_some hfind⟩
    obtain ⟨c, hc⟩ := List.length_eq_one_iff.1 (Nat.le_antisymm h (List.length_pos_of_mem hin))
    rw [hc, List.mem_singleton] at hin hother
    rw [hother, ← hin]
    exact hq

theorem memberNameMatch_iff : memberNameMatch memberName matchName = true ↔
    memberName = matchName ∨ memberName = ['*'] ∨ ∃ x, memberName = x ++ ['*'] ∧ x <+: matchName := by
  unfold memberNameMatch
  constructor
  · intro h
    split at h
    · rename_i hall
      exact .inr (.inl hall)
    split at h
    · rename_i hsuffix
      obtain ⟨x, rfl⟩ := hsuffix
      rw [List.dropLast_concat, decide_eq_true_iff] at h
      exact .inr (.inr ⟨x, rfl, h⟩)
    · exact .inl (of_decide_eq_true h)
  · intro h
    split
    · rfl
    rename_i hall
    split
    · obtain rfl | hstar | ⟨x, rfl, hx⟩ := h
      · exact decide_eq_true (List.dropLast_prefix memberName)
      · exact absurd hstar hall
      · rw [List.dropLast_concat]
        exact decide_eq_true hx
    · rename_i hsuffix
      obtain rfl | hstar | ⟨x, rfl, _⟩ := h
      · exact decide_eq_true rfl
      · exact absurd hstar hall
      · exact absurd (List.suffix_append x ['*']) hsuffix

/-- A group has a valid entry for a principal. -/
def GroupAdmits (now : Int) (groupMembers : List GroupMember) (member : Str) : Prop :=
  ∃ entry ∈ groupMembers, memberNameMatch entry.memberName member = true ∧
    shouldSkipGroupMember entry now = false

/-- An entry of a role gives the role to a principal. -/
def EntryAdmits (now : Int) (fetcher : GroupMembersFetcher) (member : Str) (entry : RoleMember) :
    Prop :=
  isMemberExpired entry.expiration now = false ∧
    if isGroupEntry entry then
      ∃ groupMembers, fetcher entry.memberName = some groupMembers ∧ GroupAdmits now groupMembers member
    else isMemberDisabled entry.systemDisabled = false ∧ memberNameMatch entry.memberName member = true

theorem groupAdmits_of_isMemberOfGroup (h : isMemberOfGroup now groupMembers member = true) :
    ∃ entries, groupMembers = some entries ∧ GroupAdmits now entries member := by
  unfold isMemberOfGroup at h
  cases groupMembers with
  | none => exact absurd h Bool.false_ne_true
  | some entries =>
    obtain ⟨entry, hentry, hmatch, hvalid⟩ := exists_of_find? h
    refine ⟨entries, rfl, entry, hentry, hmatch, ?_⟩
    unfold shouldSkipGroupMember
    simpa using hvalid

theorem isMemberOfGroup_iff
    (h : AtMostOne (fun entry => memberNameMatch entry.memberName member) groupMembers) :
    isMemberOfGroup now (some groupMembers) member = true ↔ GroupAdmits now groupMembers member := by
  constructor
  · intro hmember
    obtain ⟨entries, hentries, hadmits⟩ := groupAdmits_of_isMemberOfGroup hmember
    obtain rfl := Option.some.inj hentries
    exact hadmits
  · rintro ⟨entry, hentry, hmatch, hskip⟩
    refine find?_of_atMostOne h hentry hmatch ?_
    unfold shouldSkipGroupMember at hskip
    simpa using hskip

theorem entryAdmits_of_isMemberOfRole (h : isMemberOfRole now fetcher role member = true) :
    ∃ entry ∈ role.roleMembers.getD [], EntryAdmits now fetcher member entry := by
  unfold isMemberOfRole at h
  cases hmembers : role.roleMembers with
  | none =>
    rw [hmembers] at h
    exact absurd h Bool.false_ne_true
  | some members =>
    rw [hmembers] at h
    obtain hdirect | hgroups := Bool.or_eq_true_iff.1 h
    · obtain ⟨entry, hentry, hmatch, hvalid⟩ := exists_of_find? hdirect
      obtain ⟨hgroup, hname⟩ := Bool.and_eq_true_iff.1 hmatch
      obtain ⟨hdisabled, hexpired⟩ := Bool.and_eq_true_iff.1 hvalid
      rw [Bool.not_eq_true'] at hgroup hdisabled hexpired
      refine ⟨entry, hentry, hexpired, ?_⟩
      rw [if_neg (Bool.not_eq_true _ ▸ hgroup)]
      exact ⟨hdisabled, hname⟩
    · obtain ⟨entry, hentry, hadmits⟩ := List.any_eq_true.1 hgroups
      obtain ⟨hmem, hgroup⟩ := List.mem_filter.1 hentry
      obtain ⟨hexpired, hmember⟩ := Bool.and_eq_true_iff.1 hadmits
      rw [Bool.not_eq_true'] at hexpired
      refine ⟨entry, hmem, hexpired, ?_⟩
      rw [if_pos hgroup]
      exact groupAdmits_of_isMemberOfGroup hmember

/-- With no second entry for a principal the entries of a role decide one by one. -/
theorem isMemberOfRole_iff
    (hrole : AtMostOne (fun entry => !isGroupEntry entry && memberNameMatch entry.memberName member)
      (role.roleMembers.getD []))
    (hgroups : ∀ name groupMembers, fetcher name = some groupMembers →
      AtMostOne (fun entry => memberNameMatch entry.memberName member) groupMembers) :
    isMemberOfRole now fetcher role member = true ↔
      ∃ entry ∈ role.roleMembers.getD [], EntryAdmits now fetcher member entry := by
  refine ⟨entryAdmits_of_isMemberOfRole, ?_⟩
  rintro ⟨entry, hentry, hexpired, hadmits⟩
  unfold isMemberOfRole
  cases hmembers : role.roleMembers with
  | none =>
    rw [hmembers] at hentry
    exact absurd hentry List.not_mem_nil
  | some members =>
    rw [hmembers, Option.getD_some] at hentry hrole
    apply Bool.or_eq_true_iff.2
    split at hadmits
    · rename_i hgroup
      obtain ⟨groupMembers, hfetch, hadmits⟩ := hadmits
      refine .inr (List.any_eq_true.2 ⟨entry, List.mem_filter.2 ⟨hentry, hgroup⟩, ?_⟩)
      rw [hexpired, hfetch, (isMemberOfGroup_iff (hgroups _ _ hfetch)).2 hadmits]
      rfl
    · rename_i hgroup
      obtain ⟨hdisabled, hname⟩ := hadmits
      refine .inl (find?_of_atMostOne hrole hentry ?_ ?_)
      · rw [eq_false_of_ne_true hgroup, hname]
        rfl
      · rw [hdisabled, hexpired]
        rfl

end Meaning

end Athenz.AuthzHelper
