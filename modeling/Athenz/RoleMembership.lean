import Athenz.AuthzHelper

namespace Athenz.AuthzHelper
open Lib Lib.Text Lib.Result Zts
set_option autoImplicit true

section Rule

/-- The names that a member name stands for. -/
def StandsFor (memberName matchName : Str) : Prop :=
  memberName = matchName ∨ memberName = ['*'] ∨ ∃ x, memberName = x ++ ['*'] ∧ x <+: matchName

/-- An entry that is enabled and has not expired. -/
def Live (now : Int) (systemDisabled expiration : Option Int) : Prop :=
  isMemberDisabled systemDisabled = false ∧ isMemberExpired expiration now = false

def GroupHas (now : Int) (groupMembers : List GroupMember) (member : Str) : Prop :=
  ∃ entry ∈ groupMembers, StandsFor entry.memberName member ∧
    Live now entry.systemDisabled entry.expiration

/-- A live entry of the role itself, which is no group. -/
def RoleHas (now : Int) (roleMembers : List RoleMember) (member : Str) : Prop :=
  ∃ entry ∈ roleMembers, isGroupEntry entry = false ∧ StandsFor entry.memberName member ∧
    Live now entry.systemDisabled entry.expiration

/-- A live entry of the role that is a group which has the principal. -/
def RoleHasGroup (now : Int) (fetcher : GroupMembersFetcher) (roleMembers : List RoleMember)
    (member : Str) : Prop :=
  ∃ entry ∈ roleMembers, isGroupEntry entry = true ∧
    Live now entry.systemDisabled entry.expiration ∧
    ∃ groupMembers, fetcher entry.memberName = some groupMembers ∧ GroupHas now groupMembers member

/-- Who is a member of a role, whatever the order of its entries. -/
def IsMember (now : Int) (fetcher : GroupMembersFetcher) (roleMembers : List RoleMember)
    (member : Str) : Prop :=
  RoleHas now roleMembers member ∨ RoleHasGroup now fetcher roleMembers member

/-- A list whose first match is not live hides the live matches behind it. -/
def Hides (isMatch live : α → Bool) (entries : List α) : Prop :=
  ∃ first ∈ entries.find? isMatch, live first = false ∧
    ∃ entry ∈ entries, isMatch entry = true ∧ live entry = true

end Rule

section Entries

def isDirectMatch (member : Str) (entry : RoleMember) : Bool :=
  !isGroupEntry entry && memberNameMatch entry.memberName member

def isLiveEntry (now : Int) (entry : RoleMember) : Bool :=
  !isMemberDisabled entry.systemDisabled && !isMemberExpired entry.expiration now

def isGroupMatch (member : Str) (entry : GroupMember) : Bool :=
  memberNameMatch entry.memberName member

def isLiveMember (now : Int) (entry : GroupMember) : Bool :=
  !isMemberDisabled entry.systemDisabled && !isMemberExpired entry.expiration now

/-- An unexpired group entry whose group starts its matches with a live one. -/
def OpensGroup (now : Int) (fetcher : GroupMembersFetcher) (member : Str) (entry : RoleMember) :
    Prop :=
  isGroupEntry entry = true ∧ isMemberExpired entry.expiration now = false ∧
    isMemberOfGroup now (fetcher entry.memberName) member = true

/-- The first match of the role's own entries is live. -/
def OpensRole (now : Int) (roleMembers : List RoleMember) (member : Str) : Prop :=
  ∃ first ∈ roleMembers.find? (isDirectMatch member), isLiveEntry now first = true

/-- No list starts its matches with a live one, and a live match is hidden in the role or in a
group that a live entry names. -/
def HiddenMatch (now : Int) (fetcher : GroupMembersFetcher) (roleMembers : List RoleMember)
    (member : Str) : Prop :=
  ¬ OpensRole now roleMembers member ∧
    (∀ entry ∈ roleMembers, ¬ OpensGroup now fetcher member entry) ∧
    (Hides (isDirectMatch member) (isLiveEntry now) roleMembers ∨
      ∃ entry ∈ roleMembers, isGroupEntry entry = true ∧
        Live now entry.systemDisabled entry.expiration ∧
        ∃ groupMembers, fetcher entry.memberName = some groupMembers ∧
          Hides (isGroupMatch member) (isLiveMember now) groupMembers)

/-- Some disabled entry names a group that has the principal, and nothing else has it. -/
def OnlyDisabledGroups (now : Int) (fetcher : GroupMembersFetcher) (roleMembers : List RoleMember)
    (member : Str) : Prop :=
  (∃ entry ∈ roleMembers, isMemberDisabled entry.systemDisabled = true ∧
    OpensGroup now fetcher member entry) ∧
  (∀ entry ∈ roleMembers, isDirectMatch member entry = true → isLiveEntry now entry = false) ∧
  ∀ entry ∈ roleMembers, isGroupEntry entry = true →
    Live now entry.systemDisabled entry.expiration →
    ∀ groupMembers, fetcher entry.memberName = some groupMembers →
      ∀ groupMember ∈ groupMembers, isGroupMatch member groupMember = true →
        isLiveMember now groupMember = false

end Entries

section FirstMatch

theorem isLiveEntry_iff : isLiveEntry now entry = true ↔
    Live now entry.systemDisabled entry.expiration := by
  rw [isLiveEntry, Bool.and_eq_true, Bool.not_eq_true', Bool.not_eq_true', Live]

theorem isLiveMember_iff : isLiveMember now entry = true ↔
    Live now entry.systemDisabled entry.expiration := by
  rw [isLiveMember, Bool.and_eq_true, Bool.not_eq_true', Bool.not_eq_true', Live]

theorem isDirectMatch_iff : isDirectMatch member entry = true ↔
    isGroupEntry entry = false ∧ StandsFor entry.memberName member := by
  rw [isDirectMatch, Bool.and_eq_true, Bool.not_eq_true', memberNameMatch_iff, StandsFor]

theorem roleHas_iff : RoleHas now roleMembers member ↔
    ∃ entry ∈ roleMembers, isDirectMatch member entry = true ∧ isLiveEntry now entry = true := by
  simp only [RoleHas, isDirectMatch_iff, isLiveEntry_iff, and_assoc]

theorem groupHas_iff : GroupHas now groupMembers member ↔
    ∃ entry ∈ groupMembers, isGroupMatch member entry = true ∧ isLiveMember now entry = true := by
  simp only [GroupHas, isGroupMatch, memberNameMatch_iff, isLiveMember_iff, StandsFor]

/-- A live match is the first match, or it is hidden. -/
theorem opens_or_hides {isMatch live : α → Bool} (hmem : entry ∈ entries)
    (hmatch : isMatch entry = true) (hlive : live entry = true) :
    (∃ first ∈ entries.find? isMatch, live first = true) ∨ Hides isMatch live entries := by
  cases hfind : entries.find? isMatch with
  | none => exact absurd hmatch (List.find?_eq_none.1 hfind entry hmem)
  | some first =>
    cases hfirst : live first with
    | true => exact .inl ⟨first, rfl, hfirst⟩
    | false => exact .inr ⟨first, hfind, hfirst, entry, hmem, hmatch, hlive⟩

theorem isMemberOfGroup_eq_true_iff : isMemberOfGroup now (some groupMembers) member = true ↔
    ∃ first ∈ groupMembers.find? (isGroupMatch member), isLiveMember now first = true :=
  Option.any_eq_true _ _

theorem isMemberOfRole_eq_true_iff : isMemberOfRole now fetcher role member = true ↔
    OpensRole now (role.roleMembers.getD []) member ∨
      ∃ entry ∈ role.roleMembers.getD [], OpensGroup now fetcher member entry := by
  unfold isMemberOfRole
  cases role.roleMembers with
  | none => simp [OpensRole]
  | some members =>
    unfold checkRoleMemberValidity
    rw [Bool.or_eq_true, Option.any_eq_true, List.any_eq_true]
    refine or_congr Iff.rfl (exists_congr fun entry => ?_)
    rw [List.mem_filter, Bool.and_eq_true, Bool.not_eq_true', OpensGroup, and_assoc, Option.getD_some]

end FirstMatch

section Decision

theorem roleHas_of_opensRole (h : OpensRole now roleMembers member) :
    RoleHas now roleMembers member := by
  obtain ⟨first, hfirst, hlive⟩ := h
  exact roleHas_iff.2 ⟨first, List.mem_of_find?_eq_some hfirst, List.find?_some hfirst, hlive⟩

theorem OpensGroup.has (h : OpensGroup now fetcher member entry) :
    ∃ groupMembers, fetcher entry.memberName = some groupMembers ∧
      GroupHas now groupMembers member := by
  obtain ⟨_, _, hopens⟩ := h
  cases hfetch : fetcher entry.memberName with
  | none =>
    rw [hfetch] at hopens
    exact absurd hopens Bool.false_ne_true
  | some groupMembers =>
    rw [hfetch] at hopens
    obtain ⟨first, hfirst, hlive⟩ := isMemberOfGroup_eq_true_iff.1 hopens
    exact ⟨groupMembers, rfl, groupHas_iff.2
      ⟨first, List.mem_of_find?_eq_some hfirst, List.find?_some hfirst, hlive⟩⟩

/-- An entry that opens its group and is enabled admits by the rule. -/
theorem OpensGroup.roleHasGroup (h : OpensGroup now fetcher member entry)
    (hmem : entry ∈ roleMembers) (henabled : isMemberDisabled entry.systemDisabled = false) :
    RoleHasGroup now fetcher roleMembers member :=
  ⟨entry, hmem, h.1, ⟨henabled, h.2.1⟩, h.has⟩

theorem not_isMember_of_refused
    (hrole : ∀ entry ∈ roleMembers, isDirectMatch member entry = true →
      isLiveEntry now entry = false)
    (hgroups : ∀ entry ∈ roleMembers, isGroupEntry entry = true →
      Live now entry.systemDisabled entry.expiration →
      ∀ groupMembers, fetcher entry.memberName = some groupMembers →
        ∀ groupMember ∈ groupMembers, isGroupMatch member groupMember = true →
          isLiveMember now groupMember = false) :
    ¬ IsMember now fetcher roleMembers member := by
  rintro (h | ⟨entry, hentry, hgroup, hlive, groupMembers, hfetch, hhas⟩)
  · obtain ⟨entry, hentry, hmatch, hlive⟩ := roleHas_iff.1 h
    rw [hrole entry hentry hmatch] at hlive
    exact Bool.false_ne_true hlive
  · obtain ⟨groupMember, hmem, hmatch, hlive'⟩ := groupHas_iff.1 hhas
    rw [hgroups entry hentry hgroup hlive groupMembers hfetch groupMember hmem hmatch] at hlive'
    exact Bool.false_ne_true hlive'

theorem isMember_of_hiddenMatch (h : HiddenMatch now fetcher roleMembers member) :
    IsMember now fetcher roleMembers member := by
  obtain ⟨_, _, ⟨_, _, _, entry, hentry, hmatch, hlive⟩ |
    ⟨entry, hentry, hgroup, hlive, groupMembers, hfetch, _, _, _, groupMember, hmem, hmatch, hlive'⟩⟩ := h
  · exact .inl (roleHas_iff.2 ⟨entry, hentry, hmatch, hlive⟩)
  · exact .inr ⟨entry, hentry, hgroup, hlive, groupMembers, hfetch,
      groupHas_iff.2 ⟨groupMember, hmem, hmatch, hlive'⟩⟩

/-- A member by the rule that no list opens for is hidden. -/
theorem hiddenMatch_of_isMember (h : IsMember now fetcher roleMembers member)
    (hrole : ¬ OpensRole now roleMembers member)
    (hgroups : ∀ entry ∈ roleMembers, ¬ OpensGroup now fetcher member entry) :
    HiddenMatch now fetcher roleMembers member := by
  refine ⟨hrole, hgroups, ?_⟩
  rcases h with h | ⟨entry, hentry, hgroup, hlive, groupMembers, hfetch, hhas⟩
  · obtain ⟨entry, hentry, hmatch, hlive⟩ := roleHas_iff.1 h
    exact .inl ((opens_or_hides hentry hmatch hlive).resolve_left hrole)
  · obtain ⟨groupMember, hmem, hmatch, hlive'⟩ := groupHas_iff.1 hhas
    rcases opens_or_hides hmem hmatch hlive' with hopens | hhides
    · refine absurd ⟨hgroup, hlive.2, ?_⟩ (hgroups entry hentry)
      rw [hfetch]
      exact isMemberOfGroup_eq_true_iff.2 hopens
    · exact .inr ⟨entry, hentry, hgroup, hlive, groupMembers, hfetch, hhides⟩

def userJoe : RoleMember where
  memberName := "user.joe".toList

/-- An expired user pattern in front of a live entry of the user. -/
def expiredPattern : Role where
  name := "sports:role.readers".toList
  roleMembers := some [{ memberName := "user.*".toList, expiration := some 0 }, userJoe]

end Decision

end Athenz.AuthzHelper
