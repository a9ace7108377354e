import Athenz.Lib.Rearrangement
import Athenz.RoleIndex
import Athenz.ZtsAuthorizer

namespace Athenz.Zts
open Lib Lib.Text Lib.Index Lib.Result Lib.Rearrangement
set_option autoImplicit true

section Grammar

def IsPort (s : Str) : Prop := 1 ≤ s.length ∧ s.length ≤ 5 ∧ s.all Char.isDigit = true

instance : Decidable (IsPort s) := inferInstanceAs (Decidable (_ ∧ _ ∧ _))

def IsSourcePortRange (s : Str) : Prop :=
  IsPort s ∨ ∃ low high, IsPort low ∧ IsPort high ∧ s = low ++ '-' :: high

/-- The whole text is of the form protocol-direction:range:port. -/
def IsTransportRule (action : Str) : Prop :=
  ∃ start ∈ ["TCP-IN:", "TCP-OUT:", "UDP-IN:", "UDP-OUT:"], ∃ sourcePortRange port,
    IsSourcePortRange sourcePortRange ∧ IsPort port ∧
      action = start.toList ++ (sourcePortRange ++ ':' :: port)

theorem takesPort_append (hport : IsPort port) (hc : c.isDigit = false) :
    takesPort (port ++ c :: rest) = some (c :: rest) := by
  obtain ⟨hone, hfive, hdigits⟩ := hport
  have htake : (port ++ c :: rest).takeWhile Char.isDigit = port := by
    rw [List.takeWhile_append_of_pos (List.all_eq_true.1 hdigits),
      List.takeWhile_cons_of_neg (by rw [hc]; exact Bool.false_ne_true), List.append_nil]
  unfold takesPort
  rw [htake]
  simp only [List.drop_left]
  rw [if_neg (by omega)]

theorem eq_append_of_takesPort (h : takesPort s = some rest) : ∃ port, IsPort port ∧ s = port ++ rest := by
  unfold takesPort at h
  simp only [Option.ite_none_left_eq_some, Option.some.injEq] at h
  obtain ⟨hlength, rfl⟩ := h
  exact ⟨s.takeWhile Char.isDigit, ⟨by omega, by omega, List.all_takeWhile⟩,
    (List.prefix_iff_eq_append.1 (List.takeWhile_prefix Char.isDigit)).symm⟩

theorem IsPort.head (h : IsPort port) : ∃ c rest, port = c :: rest ∧ c.isDigit = true := by
  obtain ⟨hone, _, hdigits⟩ := h
  cases port with
  | nil => exact absurd hone (by decide)
  | cons c rest => exact ⟨c, rest, rfl, List.all_eq_true.1 hdigits c List.mem_cons_self⟩

theorem isPort_singleton (h : c.isDigit = true) : IsPort [c] :=
  ⟨Nat.le_refl 1, Nat.le_add_left 1 4, by simpa using h⟩

theorem takesPorts_of_ranges (hrange : IsSourcePortRange sourcePortRange) (hport : IsPort port) :
    takesPorts (sourcePortRange ++ ':' :: (port ++ rest)) = true := by
  obtain ⟨c, digits, rfl, hc⟩ := hport.head
  unfold takesPorts
  rcases hrange with hsingle | ⟨low, high, hlow, hhigh, rfl⟩
  · rw [takesPort_append hsingle rfl]
    exact hc
  · rw [List.append_assoc, List.cons_append, takesPort_append hlow rfl]
    have htail : takesPort (high ++ ':' :: c :: (digits ++ rest)) =
        some (':' :: c :: (digits ++ rest)) := takesPort_append hhigh rfl
    simp only [List.cons_append, htail, Option.any_some, hc]

theorem ranges_of_takesPorts (h : takesPorts s = true) :
    ∃ sourcePortRange port rest, IsSourcePortRange sourcePortRange ∧ IsPort port ∧
      s = sourcePortRange ++ ':' :: (port ++ rest) := by
  unfold takesPorts at h
  split at h
  · rename_i tail htail
    obtain ⟨low, hlow, rfl⟩ := eq_append_of_takesPort htail
    obtain ⟨last, hlast, hcolon⟩ := (Option.any_eq_true _ _).1 h
    obtain ⟨high, hhigh, rfl⟩ := eq_append_of_takesPort hlast
    split at hcolon
    · rename_i c rest
      exact ⟨low ++ '-' :: high, [c], rest, .inr ⟨low, high, hlow, hhigh, rfl⟩, isPort_singleton hcolon,
        by simp only [List.append_assoc, List.cons_append, List.nil_append]⟩
    · cases hcolon
  · rename_i last _ hsingle
    obtain ⟨single, hport, rfl⟩ := eq_append_of_takesPort hsingle
    dsimp only at h
    split at h
    · rename_i c rest _
      exact ⟨single, [c], rest, .inl hport, isPort_singleton h, rfl⟩
    · cases h
  · cases h

/-- The search finds the actions in which a transport rule is a part. -/
theorem isTransportRuleAction_iff :
    isTransportRuleAction action = true ↔ ∃ rule, IsTransportRule rule ∧ rule <:+: action := by
  simp only [isTransportRuleAction, List.any_eq_true, List.mem_tails, Bool.and_eq_true,
    decide_eq_true_eq]
  constructor
  · rintro ⟨s, ⟨before, rfl⟩, start, hstart, ⟨tail, rfl⟩, hports⟩
    rw [List.drop_left] at hports
    obtain ⟨sourcePortRange, port, rest, hrange, hport, rfl⟩ := ranges_of_takesPorts hports
    refine ⟨_, ⟨start, hstart, sourcePortRange, port, hrange, hport, rfl⟩, before, rest, ?_⟩
    simp only [List.append_assoc, List.cons_append]
  · rintro ⟨_, ⟨start, hstart, sourcePortRange, port, hrange, hport, rfl⟩, before, rest, rfl⟩
    refine ⟨start.toList ++ (sourcePortRange ++ ':' :: (port ++ rest)), ⟨before, ?_⟩, start, hstart,
      List.prefix_append _ _, ?_⟩
    · simp only [List.append_assoc, List.cons_append]
    · rw [List.drop_left]
      exact takesPorts_of_ranges hrange hport

theorem IsTransportRule.isTransportRuleAction (h : IsTransportRule action) :
    isTransportRuleAction action = true :=
  isTransportRuleAction_iff.2 ⟨action, h, List.infix_rfl⟩

end Grammar

namespace DataCache

def getTransportRulesInfoForService (cache : DataCache) (service : Str) :
    Option (Map Str (List Str)) :=
  cache.transportRulesCache.lookup service

/-- The members that are cached for a resource suffix and a transport action. -/
def transportMembers (cache : DataCache) (suffix action : Str) : List Str :=
  ((cache.getTransportRulesInfoForService suffix).getD ∅).listAt action

/-- What an assertion writes for a resource suffix and an action. -/
def written (domainName : Str) (roles : Map Str Role) (suffix action : Str) (assertion : Assertion) :
    Option (List Str) :=
  if isTransportRuleAction assertion.action = true ∧ assertion.action = action ∧
      assertion.resource.drop (domainName.length + 1) = suffix then
    (assertionMembers roles assertion).map fun members => members.map (·.memberName)
  else none

section Index

variable {cache cache' : DataCache} {domainName : Str} {roles : Map Str Role}

theorem transportMembers_congr (h : cache'.transportRulesCache = cache.transportRulesCache) :
    cache'.transportMembers suffix action = cache.transportMembers suffix action := by
  unfold transportMembers getTransportRulesInfoForService
  rw [h]

theorem transportRulesCache_processRoleMembers :
    (processRoleMembers now roleName members cache).transportRulesCache = cache.transportRulesCache := by
  refine foldl_invariant (P := fun c : DataCache => c.transportRulesCache = cache.transportRulesCache)
    (fun acc member hacc => ?_) _ rfl
  rw [← hacc]
  unfold processRoleMember
  split
  · rfl
  split
  · rfl
  split
  · rfl
  split <;> rfl

theorem transportRulesCache_processRole :
    (processRole now cache role).transportRulesCache = cache.transportRulesCache := by
  have hmeta (c : DataCache) : (processRoleMeta role c).transportRulesCache = c.transportRulesCache := by
    unfold processRoleMeta
    split <;> rfl
  have htrust (c : DataCache) :
      (processRoleTrustDomain role.name role.trust c).transportRulesCache = c.transportRulesCache := by
    unfold processRoleTrustDomain
    split <;> rfl
  rw [processRole, hmeta, htrust, transportRulesCache_processRoleMembers]

theorem transportMembers_processTransportRulesAssertion
    (haction : isTransportRuleAction assertion.action = true)
    (h : processTransportRulesAssertion domainName assertion roles cache = .ok cache') :
    cache'.transportMembers suffix action =
      (written domainName roles suffix action assertion).getD (cache.transportMembers suffix action) := by
  simp only [processTransportRulesAssertion, bind_eq_ok, pure_eq_ok] at h
  obtain ⟨_, _, rfl⟩ := h
  unfold transportMembers getTransportRulesInfoForService written
  rw [Map.lookup_insert]
  by_cases hsuffix : assertion.resource.drop (domainName.length + 1) = suffix
  · subst hsuffix
    rw [if_pos rfl, Option.getD_some]
    cases hmembers : assertionMembers roles assertion with
    | none =>
      simp only [Option.map_none, ite_self, Option.getD_none]
    | some members =>
      simp only [Option.map_some, Map.listAt_insert, haction, true_and, and_true]
      by_cases hsame : assertion.action = action
      · rw [if_pos hsame.symm, if_pos hsame, Option.getD_some]
      · rw [if_neg (Ne.symm hsame), if_neg hsame, Option.getD_none]
  · rw [if_neg (Ne.symm hsuffix), if_neg (fun h => hsuffix h.2.2), Option.getD_none]

theorem processAssertion_transport (haction : isTransportRuleAction assertion.action = true) :
    processAssertion now domainName roles cache assertion =
      processTransportRulesAssertion domainName assertion roles cache := by
  have hother (name : Str) (hname : isTransportRuleAction name = false) : assertion.action ≠ name := by
    rintro rfl
    rw [haction] at hname
    cases hname
  rw [processAssertion, if_neg (hother _ (by decide)), if_neg (hother _ (by decide)),
    if_neg (hother _ (by decide)), if_pos haction]

theorem transportRulesCache_processAssertion (haction : ¬ isTransportRuleAction assertion.action = true)
    (h : processAssertion now domainName roles cache assertion = .ok cache') :
    cache'.transportRulesCache = cache.transportRulesCache := by
  unfold processAssertion at h
  split at h
  · cases h
    unfold processAWSAssumeRoleAssertion
    split <;> rfl
  split at h
  · cases h
    unfold processAssumeRoleAssertion
    split
    · rfl
    split
    · rfl
    · exact transportRulesCache_processRoleMembers
  split at h
  · cases h
    unfold processLaunchAssertion
    split <;> rfl
  · cases h
    rfl

theorem transportMembers_processAssertion
    (h : processAssertion now domainName roles cache assertion = .ok cache') :
    cache'.transportMembers suffix action =
      (written domainName roles suffix action assertion).getD (cache.transportMembers suffix action) := by
  by_cases haction : isTransportRuleAction assertion.action = true
  · rw [processAssertion_transport haction] at h
    exact transportMembers_processTransportRulesAssertion haction h
  · have hcache := transportRulesCache_processAssertion haction h
    rw [written, if_neg fun h => haction h.1, Option.getD_none, transportMembers_congr hcache]

theorem processAssertion_terminates :
    (∃ cache', processAssertion now domainName roles cache assertion = .ok cache') ↔
      (isTransportRuleAction assertion.action = true →
        domainName.length < assertion.resource.length) := by
  by_cases haction : isTransportRuleAction assertion.action = true
  · rw [processAssertion_transport haction]
    simp only [processTransportRulesAssertion, bind_eq_ok, pure_eq_ok, refuse_eq_ok, exists_unit,
      haction, true_imp_iff, exists_and_left, exists_eq', and_true, Nat.not_lt, Nat.succ_le_iff]
  · refine iff_of_true ?_ fun h => absurd h haction
    unfold processAssertion
    split
    · exact ⟨_, rfl⟩
    split
    · exact ⟨_, rfl⟩
    split
    · exact ⟨_, rfl⟩
    · exact ⟨cache, rfl⟩

theorem foldlM_processPolicy {policies : List Policy} :
    policies.foldlM (processPolicy now domainName roles) cache =
      (policies.flatMap (·.assertions.getD [])).foldlM (processAssertion now domainName roles) cache := by
  induction policies generalizing cache with
  | nil => rfl
  | cons policy policies ih =>
    rw [List.foldlM_cons, List.flatMap_cons, List.foldlM_append, processPolicy]
    congr 1
    funext cache₁
    exact ih

theorem processAssertions_terminate {assertions : List Assertion} :
    (∃ cache', assertions.foldlM (processAssertion now domainName roles) cache = .ok cache') ↔
      ∀ assertion ∈ assertions, isTransportRuleAction assertion.action = true →
        domainName.length < assertion.resource.length := by
  induction assertions generalizing cache with
  | nil => exact iff_of_true ⟨cache, rfl⟩ (List.forall_mem_nil _)
  | cons assertion assertions ih =>
    simp only [List.foldlM_cons, bind_eq_ok, List.forall_mem_cons]
    rw [exists_comm]
    simp only [exists_and_left, ih]
    rw [exists_and_right, processAssertion_terminates]

/-- The last assertion that writes for a suffix and an action decides. -/
theorem transportMembers_processAssertions {assertions : List Assertion}
    (h : assertions.foldlM (processAssertion now domainName roles) cache = .ok cache') :
    cache'.transportMembers suffix action =
      (assertions.reverse.findSome? (written domainName roles suffix action)).getD
        (cache.transportMembers suffix action) := by
  induction assertions generalizing cache with
  | nil =>
    cases h
    rfl
  | cons assertion assertions ih =>
    rw [List.foldlM_cons] at h
    obtain ⟨cache₁, hfirst, hrest⟩ := bind_eq_ok.1 h
    rw [ih hrest, transportMembers_processAssertion hfirst, List.reverse_cons, List.findSome?_append,
      List.findSome?_singleton]
    cases assertions.reverse.findSome? (written domainName roles suffix action) <;> rfl

end Index

end DataCache

namespace DataStore

open DataCache

/-- The cache of a domain whose roles are processed. -/
def roleCache (now : Int) (domainData : DomainData) : DataCache :=
  (domainData.roles.getD []).foldl (processRole now) {}

theorem transportRulesCache_roleCache : (roleCache now domainData).transportRulesCache = ∅ := by
  refine foldl_invariant (P := fun c : DataCache => c.transportRulesCache = ∅) (fun c role hc => ?_) _ rfl
  rw [transportRulesCache_processRole, hc]

theorem transportMembers_roleCache : (roleCache now domainData).transportMembers suffix action = [] := by
  unfold transportMembers getTransportRulesInfoForService
  rw [transportRulesCache_roleCache]
  rfl

/-- Policies that hold the same assertions in some order. -/
def SameAssertions (policy policy' : Policy) : Prop :=
  (policy.assertions.getD []).Perm (policy'.assertions.getD [])

theorem sameAssertions_flatMap {policies policies' : List Policy}
    (h : Rearranged SameAssertions policies policies') :
    (policies.flatMap (·.assertions.getD [])).Perm (policies'.flatMap (·.assertions.getD [])) := by
  obtain ⟨middle, hperm, hall⟩ := h
  refine (hperm.flatMap_right _).trans ?_
  clear hperm
  induction hall with
  | nil => exact .nil
  | cons hsame _ ih => exact hsame.append ih

/-- Every assertion can be made the last one. -/
theorem exists_last {policies : List Policy}
    (h : assertion ∈ policies.flatMap (·.assertions.getD [])) :
    ∃ policies' front, Rearranged SameAssertions policies policies' ∧
      policies'.flatMap (·.assertions.getD []) = front ++ [assertion] := by
  obtain ⟨policy, hpolicy, hassertion⟩ := List.mem_flatMap.1 h
  obtain ⟨before, after, rfl⟩ := List.append_of_mem hpolicy
  obtain ⟨first, last, hsplit⟩ := List.append_of_mem hassertion
  refine ⟨before ++ after ++ [{ policy with assertions := some (first ++ last ++ [assertion]) }],
    (before ++ after).flatMap (·.assertions.getD []) ++ (first ++ last), ⟨before ++ after ++ [policy], ?_, ?_⟩, ?_⟩
  · rw [List.append_assoc]
    exact (List.perm_append_singleton policy after).symm.append_left before
  · refine List.rel_append (forall₂_refl (r := SameAssertions) (fun p => List.Perm.refl _) _)
      (.cons ?_ .nil)
    unfold SameAssertions
    rw [hsplit, Option.getD_some, List.append_assoc]
    exact (List.perm_append_singleton assertion last).symm.append_left first
  · rw [List.flatMap_append, List.flatMap_singleton, Option.getD_some, ← List.append_assoc]

/-- An assertion allows an action on a resource of its domain to a member of its role. -/
def AllowsTransport (domainData : DomainData) (suffix action member : Str) (assertion : Assertion) :
    Prop :=
  assertion.effect ≠ some .DENY ∧ assertion.action = action ∧
    assertion.resource = domainData.name ++ ':' :: suffix ∧
    ∃ members, assertionMembers (rolesByName domainData) assertion = some members ∧
      member ∈ members.map (·.memberName)

/-- In any order of the active policies and of their assertions nothing is thrown, the members that are
cached for a suffix and a transport action are those that assertions allow, and the actions that are
treated as transport rules are those of their form. -/
def TransportRulesExact (now : Int) (domainData : DomainData) : Prop :=
  ∀ policies, Rearranged SameAssertions (activePolicies (domainData.policies.getD [])) policies →
    ∃ cache, policies.foldlM (processPolicy now domainData.name (rolesByName domainData))
        (roleCache now domainData) = .ok cache ∧
      (∀ suffix action, IsTransportRule action → ∀ member,
        member ∈ cache.transportMembers suffix action ↔
          ∃ assertion ∈ activeAssertions domainData,
            AllowsTransport domainData suffix action member assertion) ∧
      ∀ assertion ∈ activeAssertions domainData,
        isTransportRuleAction assertion.action = true ↔ IsTransportRule assertion.action

/-- The conditions on the assertions of a domain under which its transport rules are cached exactly. -/
structure SteadyTransportRules (domainData : DomainData) : Prop where
  whole : ∀ assertion ∈ activeAssertions domainData, ∀ rule, IsTransportRule rule →
    rule <:+: assertion.action → IsTransportRule assertion.action
  long : ∀ assertion ∈ activeAssertions domainData, IsTransportRule assertion.action →
    domainData.name.length < assertion.resource.length
  agree : ∀ assertion ∈ activeAssertions domainData, ∀ other ∈ activeAssertions domainData,
    IsTransportRule assertion.action → other.action = assertion.action →
    other.resource.drop (domainData.name.length + 1) =
      assertion.resource.drop (domainData.name.length + 1) →
    ∀ members, assertionMembers (rolesByName domainData) assertion = some members →
    ∀ others, assertionMembers (rolesByName domainData) other = some others →
      members.map (·.memberName) ⊆ others.map (·.memberName)
  backed : ∀ assertion ∈ activeAssertions domainData, IsTransportRule assertion.action →
    ∀ member members, assertionMembers (rolesByName domainData) assertion = some (member :: members) →
    ∃ other ∈ activeAssertions domainData, other.effect ≠ some .DENY ∧
      other.action = assertion.action ∧
      other.resource = domainData.name ++ ':' :: assertion.resource.drop (domainData.name.length + 1) ∧
      (assertionMembers (rolesByName domainData) other).isSome = true

theorem mem_rearranged {policies : List Policy}
    (h : Rearranged SameAssertions (activePolicies (domainData.policies.getD [])) policies) :
    assertion ∈ policies.flatMap (·.assertions.getD []) ↔ assertion ∈ activeAssertions domainData :=
  (sameAssertions_flatMap h).symm.mem_iff

theorem written_of_transports (domainName : Str) (haction : IsTransportRule assertion.action)
    (hmembers : assertionMembers roles assertion = some members) :
    written domainName roles (assertion.resource.drop (domainName.length + 1)) assertion.action assertion =
      some (members.map (·.memberName)) := by
  rw [written, if_pos ⟨haction.isTransportRuleAction, rfl, rfl⟩, hmembers, Option.map_some]

theorem written_eq_some (h : written domainName roles suffix action assertion = some names) :
    assertion.action = action ∧ assertion.resource.drop (domainName.length + 1) = suffix ∧
      ∃ members, assertionMembers roles assertion = some members ∧ members.map (·.memberName) = names := by
  unfold written at h
  split at h
  · rename_i hwrites
    exact ⟨hwrites.2.1, hwrites.2.2, Option.map_eq_some_iff.1 h⟩
  · cases h

theorem drop_resource : (domainName ++ ':' :: suffix : Str).drop (domainName.length + 1) = suffix := by
  rw [List.drop_append, List.drop_eq_nil_of_le (Nat.le_succ _), Nat.add_sub_cancel_left]
  rfl

theorem AllowsTransport.written (h : AllowsTransport domainData suffix action member assertion)
    (haction : IsTransportRule action) :
    ∃ members, assertionMembers (rolesByName domainData) assertion = some members ∧
      member ∈ members.map (·.memberName) ∧
      DataCache.written domainData.name (rolesByName domainData) suffix action assertion =
        some (members.map (·.memberName)) := by
  obtain ⟨_, rfl, hresource, members, hmembers, hmember⟩ := h
  refine ⟨members, hmembers, hmember, ?_⟩
  have hwritten := written_of_transports domainData.name haction hmembers
  rwa [hresource, drop_resource] at hwritten

section Exact

variable (hsteady : SteadyTransportRules domainData)
include hsteady

theorem SteadyTransportRules.isTransportRule (hassertion : assertion ∈ activeAssertions domainData) :
    isTransportRuleAction assertion.action = true ↔ IsTransportRule assertion.action := by
  refine ⟨fun h => ?_, fun h => h.isTransportRuleAction⟩
  obtain ⟨rule, hrule, hinside⟩ := isTransportRuleAction_iff.1 h
  exact hsteady.whole assertion hassertion rule hrule hinside

/-- What an assertion writes is what the assertions of the domain allow. -/
theorem SteadyTransportRules.mem_written (haction : IsTransportRule action)
    (hassertion : assertion ∈ activeAssertions domainData)
    (hwritten : written domainData.name (rolesByName domainData) suffix action assertion = some names) :
    member ∈ names ↔ ∃ other ∈ activeAssertions domainData,
      AllowsTransport domainData suffix action member other := by
  obtain ⟨rfl, rfl, members, hmembers, rfl⟩ := written_eq_some hwritten
  constructor
  · intro hmember
    obtain ⟨first, rest, rfl⟩ : ∃ first rest, members = first :: rest := by
      cases members with
      | nil => exact absurd hmember List.not_mem_nil
      | cons first rest => exact ⟨first, rest, rfl⟩
    obtain ⟨other, hother, heffect, hsame, hresource, hsome⟩ :=
      hsteady.backed assertion hassertion haction first rest hmembers
    obtain ⟨others, hothers⟩ := Option.isSome_iff_exists.1 hsome
    exact ⟨other, hother, heffect, hsame, hresource, others, hothers,
      hsteady.agree assertion hassertion other hother haction hsame
        (by rw [hresource, drop_resource]) _ hmembers _ hothers hmember⟩
  · rintro ⟨other, hother, _, hsame, hresource, others, hothers, hmember⟩
    exact hsteady.agree other hother assertion hassertion (hsame ▸ haction) hsame.symm
      (by rw [hresource, drop_resource]) _ hothers _ hmembers hmember

theorem SteadyTransportRules.exact : TransportRulesExact now domainData := by
  intro policies hpolicies
  simp only [foldlM_processPolicy]
  have hterminate : ∃ cache, (policies.flatMap (·.assertions.getD [])).foldlM
      (processAssertion now domainData.name (rolesByName domainData)) (roleCache now domainData) =
        .ok cache :=
    processAssertions_terminate.2 fun assertion hassertion hrule => by
      have hassertion := (mem_rearranged hpolicies).1 hassertion
      exact hsteady.long assertion hassertion ((hsteady.isTransportRule hassertion).1 hrule)
  obtain ⟨cache, hcache⟩ := hterminate
  refine ⟨cache, hcache, fun suffix action haction member => ?_, fun assertion hassertion =>
    hsteady.isTransportRule hassertion⟩
  rw [transportMembers_processAssertions hcache, transportMembers_roleCache]
  cases hlast : (policies.flatMap (·.assertions.getD [])).reverse.findSome?
      (written domainData.name (rolesByName domainData) suffix action) with
  | none =>
    refine iff_of_false List.not_mem_nil ?_
    rintro ⟨assertion, hassertion, hallows⟩
    obtain ⟨members, _, _, hwritten⟩ := hallows.written haction
    rw [List.findSome?_eq_none_iff.1 hlast assertion
      (List.mem_reverse.2 ((mem_rearranged hpolicies).2 hassertion))] at hwritten
    cases hwritten
  | some names =>
    obtain ⟨assertion, hassertion, hwritten⟩ := List.exists_of_findSome?_eq_some hlast
    exact hsteady.mem_written haction
      ((mem_rearranged hpolicies).1 (List.mem_reverse.1 hassertion)) hwritten

end Exact

section Steady

variable (hexact : TransportRulesExact now domainData)
include hexact

/-- An assertion that comes last leaves its own members. -/
theorem TransportRulesExact.mem_members (hassertion : assertion ∈ activeAssertions domainData)
    (haction : IsTransportRule assertion.action)
    (hmembers : assertionMembers (rolesByName domainData) assertion = some members) :
    member ∈ members.map (·.memberName) ↔ ∃ other ∈ activeAssertions domainData,
      AllowsTransport domainData (assertion.resource.drop (domainData.name.length + 1))
        assertion.action member other := by
  obtain ⟨policies, front, hpolicies, hlast⟩ := exists_last hassertion
  obtain ⟨cache, hcache, hcached, _⟩ := hexact policies hpolicies
  rw [foldlM_processPolicy, hlast] at hcache
  rw [← hcached _ _ haction, transportMembers_processAssertions hcache, List.reverse_append,
    List.reverse_singleton, List.singleton_append, List.findSome?_cons,
    written_of_transports domainData.name haction hmembers]
  rfl

theorem TransportRulesExact.steady : SteadyTransportRules domainData := by
  obtain ⟨cache, hcache, _, hforms⟩ :=
    hexact _ (.of_perm (fun p => List.Perm.refl _) (List.Perm.refl _))
  rw [foldlM_processPolicy] at hcache
  refine ⟨?_, ?_, ?_, ?_⟩
  · intro assertion hassertion rule hrule hinside
    exact (hforms assertion hassertion).1 (isTransportRuleAction_iff.2 ⟨rule, hrule, hinside⟩)
  · intro assertion hassertion haction
    exact processAssertions_terminate.1 ⟨cache, hcache⟩ assertion hassertion
      haction.isTransportRuleAction
  · intro assertion hassertion other hother haction hsame hsuffix members hmembers others hothers
      member hmember
    have hallowed := (hexact.mem_members hassertion haction hmembers).1 hmember
    rw [hexact.mem_members hother (hsame ▸ haction) hothers, hsame, hsuffix]
    exact hallowed
  · intro assertion hassertion haction first rest hmembers
    obtain ⟨other, hother, heffect, hsame, hresource, others, hothers, _⟩ :=
      (hexact.mem_members hassertion haction hmembers).1 (List.mem_map_of_mem List.mem_cons_self)
    exact ⟨other, hother, heffect, hsame, hresource, Option.isSome_iff_exists.2 ⟨others, hothers⟩⟩

end Steady

/-- The transport rules of a domain are cached exactly when the roles of one suffix and action agree,
every resource is long enough, and no action only holds a transport rule. -/
theorem transport_rules_exact_iff (now : Int) (domainData : DomainData) :
    TransportRulesExact now domainData ↔ SteadyTransportRules domainData :=
  ⟨fun h => h.steady, fun h => h.exact⟩

def allowsTcp (role : String) : Assertion where
  role := role.toList
  resource := "sports:api".toList
  action := "TCP-IN:1024-65535:4443".toList

def roleOf (name member : String) : Role where
  name := name.toList
  roleMembers := some [{ memberName := member.toList }]

/-- The members of two roles may call one service. -/
def sportsTransports : DomainData where
  name := "sports".toList
  roles := some [roleOf "sports:role.readers" "weather.api", roleOf "sports:role.writers" "news.api"]
  policies := some
    [{ assertions := some [allowsTcp "sports:role.readers", allowsTcp "sports:role.writers"] }]

theorem isTransportRule_allowsTcp : IsTransportRule (allowsTcp role).action :=
  ⟨"TCP-IN:", by decide, "1024-65535".toList, "4443".toList,
    .inr ⟨"1024".toList, "65535".toList, by decide⟩, by decide, rfl⟩

theorem second_role_replaces_first : ¬ TransportRulesExact 0 sportsTransports := by
  intro hexact
  have hagree := hexact.steady.agree (allowsTcp "sports:role.readers") (by decide)
    (allowsTcp "sports:role.writers") (by decide) isTransportRule_allowsTcp rfl rfl
    [{ memberName := "weather.api".toList }] (by decide) [{ memberName := "news.api".toList }] (by decide)
  exact absurd (hagree List.mem_cons_self) (by decide)

end DataStore

end Athenz.Zts
