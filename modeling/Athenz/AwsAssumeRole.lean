import Athenz.ZtsAuthorizer
import Athenz.Loading

namespace Athenz.Zts
open Lib Lib.Text Lib.Index Lib.Result AuthzHelper
set_option autoImplicit true

def PublishedCache.getAWSResourceRoleSet (data : PublishedCache) (role : Str) : Option (List Str) :=
  data.awsRoleCache.lookup role

def DataStore.verifyAWSAssumeRole (store : DataStore) (now : Int)
    (domainName roleResource principal : Str) : Bool :=
  match store.cacheStore.lookup domainName with
  | none => false
  | some data =>
    let roles := store.getAccessibleRoles now ⟨domainName, none, true⟩ (some data.toDataCache) principal []
    if roles.isEmpty then false
    else roles.any fun role =>
      match data.getAWSResourceRoleSet role with
      | none => false
      | some awsResourceSet => roleResource ∈ awsResourceSet

namespace DataCache

section Index

variable {cache cache' : DataCache}

theorem awsRoleCache_processRoleMembers :
    (processRoleMembers now roleName members cache).awsRoleCache = cache.awsRoleCache := by
  refine foldl_invariant (P := fun c : DataCache => c.awsRoleCache = cache.awsRoleCache)
    (fun acc member hacc => ?_) _ rfl
  rw [← hacc]
  unfold processRoleMember
  split
  · rfl
  split
  · rfl
  split
  · rfl
  split <;> rfl

theorem awsRoleCache_processRole :
    (processRole now cache role).awsRoleCache = cache.awsRoleCache := by
  have hmeta (c : DataCache) : (processRoleMeta role c).awsRoleCache = c.awsRoleCache := by
    unfold processRoleMeta
    split <;> rfl
  have htrust (c : DataCache) :
      (processRoleTrustDomain role.name role.trust c).awsRoleCache = c.awsRoleCache := by
    unfold processRoleTrustDomain
    split <;> rfl
  rw [processRole, hmeta, htrust, awsRoleCache_processRoleMembers]

/-- An assertion that is no denial lets the members of its role assume a role of AWS. -/
def LetsAssumeAws (role resource : Str) (assertion : Assertion) : Prop :=
  assertion.action = "assume_aws_role" ∧ assertion.effect ≠ some .DENY ∧ assertion.role = role ∧
    assertion.resource = resource

theorem mem_awsRoleCache_processAWSAssumeRoleAssertion {assertion : Assertion}
    (haction : assertion.action = "assume_aws_role") :
    resource ∈ (processAWSAssumeRoleAssertion assertion cache).awsRoleCache.listAt role ↔
      resource ∈ cache.awsRoleCache.listAt role ∨ LetsAssumeAws role resource assertion := by
  unfold processAWSAssumeRoleAssertion LetsAssumeAws
  split
  · rename_i hdeny
    simp only [hdeny, ne_eq, not_true_eq_false, false_and, and_false, or_false]
  · rename_i hallow
    rw [Map.mem_listAt_addTo, or_comm]
    simp only [haction, hallow, ne_eq, not_false_eq_true, true_and, eq_comm]

theorem awsRoleCache_processAssertion
    (h : processAssertion now domainName roles cache assertion = .ok cache')
    (haction : assertion.action ≠ "assume_aws_role") : cache'.awsRoleCache = cache.awsRoleCache := by
  unfold processAssertion at h
  rw [if_neg haction] at h
  split at h
  · cases h
    unfold processAssumeRoleAssertion
    split
    · rfl
    split
    · rfl
    · exact awsRoleCache_processRoleMembers
  split at h
  · cases h
    unfold processLaunchAssertion
    split <;> rfl
  split at h
  · simp only [processTransportRulesAssertion, bind_eq_ok, pure_eq_ok] at h
    obtain ⟨_, _, rfl⟩ := h
    rfl
  · cases h
    rfl

theorem mem_awsRoleCache_processAssertion
    (h : processAssertion now domainName roles cache assertion = .ok cache') :
    resource ∈ cache'.awsRoleCache.listAt role ↔
      resource ∈ cache.awsRoleCache.listAt role ∨ LetsAssumeAws role resource assertion := by
  by_cases haction : assertion.action = "assume_aws_role"
  · rw [processAssertion, if_pos haction] at h
    cases h
    exact mem_awsRoleCache_processAWSAssumeRoleAssertion haction
  · rw [awsRoleCache_processAssertion h haction, LetsAssumeAws]
    simp only [haction, false_and, or_false]

theorem mem_awsRoleCache_processPolicy
    (h : processPolicy now domainName roles cache policy = .ok cache') :
    resource ∈ cache'.awsRoleCache.listAt role ↔ resource ∈ cache.awsRoleCache.listAt role ∨
      ∃ assertion ∈ policy.assertions.getD [], LetsAssumeAws role resource assertion := by
  unfold processPolicy at h
  refine foldlM_adds (Q := fun c => resource ∈ c.awsRoleCache.listAt role) ?_ h
  intro c assertion c' hstep
  exact mem_awsRoleCache_processAssertion hstep

theorem awsRoleCache_processEntity (h : processEntity codec domainName cache entity = .ok cache') :
    cache'.awsRoleCache = cache.awsRoleCache := by
  unfold processEntity at h
  split at h
  · cases h
    rfl
  obtain ⟨data, _, h⟩ := bind_eq_ok.1 h
  split at h
  · cases h
    rfl
  split at h
  · cases h
  · cases h
    rfl

theorem awsRoleCache_processSystemBehaviorRoles
    (h : processSystemBehaviorRoles domainData cache = .ok cache') :
    cache'.awsRoleCache = cache.awsRoleCache := by
  unfold processSystemBehaviorRoles at h
  split at h
  · cases h
    rfl
  split at h
  · cases h
  · obtain ⟨current, _, h⟩ := bind_eq_ok.1 h
    cases h
    rfl

end Index

end DataCache

namespace DataStore

open DataCache

section Listing

/-- The index keeps the resources of the assertions that are no denials. -/
theorem mem_awsRoleCache_buildCache (h : buildCache codec now domainData = .ok cache) :
    resource ∈ cache.awsRoleCache.listAt role ↔
      ∃ assertion ∈ activeAssertions domainData, LetsAssumeAws role resource assertion := by
  simp only [buildCache, bind_eq_ok] at h
  obtain ⟨indexed, hindexed, withEntities, hentities, hsystem⟩ := h
  have hroles : ((domainData.roles.getD []).foldl (processRole now) {}).awsRoleCache = ∅ := by
    refine foldl_invariant (P := fun c : DataCache => c.awsRoleCache = ∅) (fun c role hc => ?_) _ rfl
    rw [awsRoleCache_processRole, hc]
  have hservices : (processDomainServiceIdentities codec domainData indexed).awsRoleCache =
      indexed.awsRoleCache := by
    refine foldl_invariant (P := fun c : DataCache => c.awsRoleCache = indexed.awsRoleCache)
      (fun c service hc => ?_) _ rfl
    rw [← hc]
    rfl
  have hentities : withEntities.awsRoleCache = indexed.awsRoleCache := by
    refine foldlM_invariant (P := fun c : DataCache => c.awsRoleCache = indexed.awsRoleCache)
      (fun c entity c' hstep hc => ?_) hentities hservices
    rw [awsRoleCache_processEntity hstep, hc]
  rw [awsRoleCache_processSystemBehaviorRoles hsystem, hentities,
    foldlM_adds (Q := fun c => resource ∈ c.awsRoleCache.listAt role)
      (fun c policy c' hstep => mem_awsRoleCache_processPolicy hstep) (processDomainPolicies_ok hindexed),
    hroles, Map.listAt_empty]
  unfold activeAssertions activePolicies
  simp only [List.not_mem_nil, false_or, List.mem_flatMap]
  constructor
  · rintro ⟨policy, hpolicy, assertion, hassertion, hlets⟩
    exact ⟨assertion, ⟨policy, hpolicy, hassertion⟩, hlets⟩
  · rintro ⟨assertion, ⟨policy, hpolicy, hassertion⟩, hlets⟩
    exact ⟨policy, hpolicy, assertion, hassertion, hlets⟩

/-- The caches of a domain as its processing publishes them. -/
def Publishes (codec : Codec) (loaded : Int) (domainData : DomainData) (published : PublishedCache) : Prop :=
  ∃ cache, buildCache codec loaded domainData = .ok cache ∧
    published = { cache with domainData := normalized domainData }

theorem verifyAWSAssumeRole_iff {store : DataStore}
    (hlookup : store.cacheStore.lookup domainName = some published)
    (hpublishes : Publishes codec loaded domainData published) :
    store.verifyAWSAssumeRole now domainName roleResource principal = true ↔
      ∃ role ∈ store.getAccessibleRoles now ⟨domainName, none, true⟩ (some published.toDataCache)
          principal [],
        ∃ assertion ∈ activeAssertions domainData, LetsAssumeAws role roleResource assertion := by
  obtain ⟨cache, hbuild, rfl⟩ := hpublishes
  have hlists (role : Str) : (match AList.lookup role cache.awsRoleCache with
      | none => false
      | some awsResourceSet => decide (roleResource ∈ awsResourceSet)) = true ↔
      ∃ assertion ∈ activeAssertions domainData, LetsAssumeAws role roleResource assertion := by
    rw [← mem_awsRoleCache_buildCache hbuild, Map.mem_listAt_iff]
    cases AList.lookup role cache.awsRoleCache with
    | none => simp only [Bool.false_eq_true, reduceCtorEq, false_and, exists_false]
    | some awsResourceSet => simp only [decide_eq_true_eq, Option.some.injEq, exists_eq_left']
  unfold verifyAWSAssumeRole
  rw [hlookup]
  dsimp only [PublishedCache.getAWSResourceRoleSet]
  split
  · rename_i hempty
    rw [List.isEmpty_iff.1 hempty]
    simp only [Bool.false_eq_true, List.not_mem_nil, false_and, exists_false]
  · simp only [List.any_eq_true, hlists]

end Listing

end DataStore

namespace ZTSAuthorizer

section Evaluation

/-- The first check that does not say no passes. -/
def Passes (check : Assertion → Except Failure Bool) : List Assertion → Prop
  | [] => False
  | assertion :: assertions =>
    check assertion = .ok true ∨ check assertion = .ok false ∧ Passes check assertions

/-- Access is allowed when every denial is checked and says no, and an allowance passes. -/
theorem evaluateAssertions_eq_allowed_iff {check : Assertion → Except Failure Bool} :
    evaluateAssertions check accessStatus assertions = .ok .ALLOWED ↔
      (∀ denial ∈ assertions, denial.effect = some .DENY → check denial = .ok false) ∧
        (accessStatus = .ALLOWED ∨ Passes check (assertions.filter (·.effect ≠ some .DENY))) := by
  induction assertions generalizing accessStatus with
  | nil => simp only [evaluateAssertions, Except.ok.injEq, List.not_mem_nil, false_implies, implies_true,
      true_and, List.filter_nil, Passes, or_false]
  | cons assertion assertions ih =>
    rw [List.forall_mem_cons]
    by_cases hdeny : assertion.effect = some .DENY
    · have heffect : assertion.effect.getD .ALLOW = .DENY := by rw [hdeny, Option.getD_some]
      simp only [evaluateAssertions, heffect, reduceCtorEq, and_false, if_false, if_true, bind, Except.bind,
        pure, Except.pure]
      rw [List.filter_cons_of_neg (by simp [hdeny])]
      cases hcheck : check assertion with
      | error failure => simp only [reduceCtorEq, hdeny, true_implies, false_and]
      | ok passed =>
        cases passed with
        | true => simp [hdeny]
        | false => simp [hdeny, ih]
    · have heffect : assertion.effect.getD .ALLOW = .ALLOW := by
        cases heffect : assertion.effect with
        | none => rfl
        | some effect =>
          cases effect with
          | ALLOW => rfl
          | DENY => exact absurd heffect hdeny
      rw [List.filter_cons_of_pos (by simp [hdeny]), Passes]
      simp only [evaluateAssertions, heffect, and_true, reduceCtorEq, if_false, bind, Except.bind]
      by_cases hstatus : accessStatus = .ALLOWED
      · simp [hstatus, hdeny, ih]
      · cases hcheck : check assertion with
        | error failure => simp [hstatus]
        | ok passed => cases passed <;> simp [hstatus, hdeny, ih]

variable [CaseRules]

end Evaluation

section Sample

local instance awsCaseRules : CaseRules := .ascii

def awsCodec : Codec where
  ybase64DecodeString _ := none
  readAuthzDetails _ := none

def operators : Role where
  name := "cloud:role.operators"
  roleMembers := some [{ memberName := "user.joe" }]

def operatorAssertion (effect : AssertionEffect) : Assertion where
  role := "cloud:role.operators"
  resource := "cloud:admin"
  action := "assume_aws_role"
  effect := some effect

/-- A domain that lets its operators assume a role of AWS, by a policy with some more assertions. -/
def cloudDomain (others : List Assertion) : DomainData where
  name := "cloud"
  roles := some [operators]
  policies := some [{ assertions := some (others ++ [operatorAssertion .ALLOW]) }]

def cloudStore (others : List Assertion) : DataStore :=
  DataStore.loadDomains awsCodec 100 [cloudDomain others] {}

def cloudAccess (others : List Assertion) : Option (Except Failure AccessStatus) :=
  ((cloudStore others).cacheStore.lookup ↑"cloud").map fun published =>
    evaluateAccess (cloudStore others) 100 published "user.joe" "assume_aws_role" "cloud:admin" none

def otherDenial : Assertion := { operatorAssertion .DENY with resource := "cloud:other" }

end Sample

end ZTSAuthorizer

end Athenz.Zts
