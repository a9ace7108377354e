import Athenz.AuthzHelper

namespace Athenz.Zts
open Lib Lib.Text Lib.Index Lib.Result AuthzHelper
set_option autoImplicit true

inductive AccessStatus where
  | ALLOWED | DENIED | DENIED_DOMAIN_NOT_FOUND | DENIED_INVALID_ROLE_TOKEN
deriving DecidableEq

def DataStore.getGroupMembers (store : DataStore) (groupName : Str) : Option (List GroupMember) :=
  store.groupMemberCache.lookup groupName

/-- The policies of a domain that are not switched off. -/
def activePolicies (policies : List Policy) : List Policy :=
  policies.filter (·.active ≠ some false)

/-- The assertions of the policies that are not switched off. -/
def activeAssertions (domainData : DomainData) : List Assertion :=
  (activePolicies (domainData.policies.getD [])).flatMap (·.assertions.getD [])

namespace ZTSAuthorizer

section Checks

variable [CaseRules]

def delegatedTrust (store : DataStore) (now : Int) (domainName roleName roleMember : Str) :
    Except Failure Bool :=
  match store.cacheStore.lookup domainName with
  | none => .ok false
  | some domain =>
    match domain.domainData.policies with
    | none => .error .nullPointer
    | some policies =>
      (activePolicies policies).anyM fun policy =>
        matchDelegatedTrustPolicy now store.getGroupMembers policy roleName roleMember
          domain.domainData.roles

def matchPrincipalInRole (store : DataStore) (now : Int) (role : Role) (fullUser : Str)
    (trustDomain : Option Str) : Except Failure Bool :=
  if role.roleMembers.isSome then .ok (isMemberOfRole now store.getGroupMembers role fullUser)
  else if !shouldRunDelegatedTrustCheck role.trust trustDomain then .ok false
  else delegatedTrust store now (role.trust.getD []) role.name fullUser

def matchPrincipal (store : DataStore) (now : Int) (roles : Option (List Role)) (rolePattern : List GlobPiece)
    (fullUser : Str) (trustDomain : Option Str) : Except Failure Bool :=
  match roles with
  | none => .error .nullPointer
  | some roles =>
    (roles.filter fun role => matchesPattern rolePattern role.name).anyM fun role =>
      matchPrincipalInRole store now role fullUser trustDomain

def assertionMatch (store : DataStore) (now : Int) (assertion : Assertion) (identity op resource : Str)
    (roles : Option (List Role)) (trustDomain : Option Str) : Except Failure Bool :=
  if !matchesPattern (patternFromGlob (toLowerCase assertion.action)) op then .ok false
  else if !matchesPattern (patternFromGlob (toLowerCase assertion.resource)) resource then .ok false
  else matchPrincipal store now roles (patternFromGlob assertion.role) identity trustDomain

omit [CaseRules] in
/-- The loop over the assertions: a denial that matches ends it. -/
def evaluateAssertions (assertionMatch : Assertion → Except Failure Bool) :
    AccessStatus → List Assertion → Except Failure AccessStatus
  | accessStatus, [] => .ok accessStatus
  | accessStatus, assertion :: assertions =>
    let effect := assertion.effect.getD .ALLOW
    if accessStatus = .ALLOWED ∧ effect = .ALLOW then
      evaluateAssertions assertionMatch accessStatus assertions
    else do
      if !(← assertionMatch assertion) then evaluateAssertions assertionMatch accessStatus assertions
      else if effect = .DENY then return .DENIED
      else evaluateAssertions assertionMatch .ALLOWED assertions

def evaluateAccess (store : DataStore) (now : Int) (domain : PublishedCache) (identity op resource : Str)
    (trustDomain : Option Str) : Except Failure AccessStatus :=
  match domain.domainData.policies with
  | none => .error .nullPointer
  | some policies =>
    evaluateAssertions
      (fun assertion => assertionMatch store now assertion identity op resource
        domain.domainData.roles trustDomain)
      .DENIED ((activePolicies policies).flatMap (·.assertions.getD []))

end Checks

section Meaning

/-- Without failures the loop computes the decision in which denials override. -/
theorem evaluateAssertions_allowed_iff {matched : Assertion → Bool} :
    evaluateAssertions (fun assertion => .ok (matched assertion)) accessStatus assertions = .ok .ALLOWED ↔
      (∀ assertion ∈ assertions, assertion.effect = some .DENY → matched assertion = false) ∧
        (accessStatus = .ALLOWED ∨
          ∃ assertion ∈ assertions, assertion.effect ≠ some .DENY ∧ matched assertion = true) := by
  induction assertions generalizing accessStatus with
  | nil =>
    simp only [evaluateAssertions, Except.ok.injEq, List.not_mem_nil, false_and, exists_false, or_false,
      false_implies, implies_true, true_and]
  | cons assertion assertions ih =>
    rw [List.forall_mem_cons, List.exists_mem_cons_iff]
    by_cases hdeny : assertion.effect = some .DENY
    · have hstep : evaluateAssertions (fun assertion => .ok (matched assertion)) accessStatus
          (assertion :: assertions) = if matched assertion then .ok .DENIED
            else evaluateAssertions (fun assertion => .ok (matched assertion)) accessStatus assertions := by
        simp only [evaluateAssertions, hdeny, Option.getD_some, reduceCtorEq, and_false, if_false, if_true,
          bind, Except.bind]
        cases matched assertion <;> rfl
      rw [hstep]
      cases matched assertion with
      | true => simp [hdeny]
      | false => simp [hdeny, ih]
    · have heffect : assertion.effect.getD .ALLOW = .ALLOW := by
        cases heffect : assertion.effect with
        | none => rfl
        | some effect =>
          cases effect with
          | ALLOW => rfl
          | DENY => exact absurd heffect hdeny
      have hstep : evaluateAssertions (fun assertion => .ok (matched assertion)) accessStatus
          (assertion :: assertions) = if accessStatus ≠ .ALLOWED ∧ matched assertion then
            evaluateAssertions (fun assertion => .ok (matched assertion)) .ALLOWED assertions
            else evaluateAssertions (fun assertion => .ok (matched assertion)) accessStatus assertions := by
        simp only [evaluateAssertions, heffect, and_true, bind, Except.bind]
        by_cases hstatus : accessStatus = .ALLOWED
        · simp [hstatus]
        · cases matched assertion <;> simp [hstatus]
      rw [hstep]
      by_cases hstatus : accessStatus = .ALLOWED
      · simp [hstatus, hdeny, ih]
      · cases matched assertion <;> simp [hstatus, hdeny, ih]

variable [CaseRules]

theorem matchPrincipalInRole_of_noTrust (h : role.trust = none) :
    matchPrincipalInRole store now role fullUser trustDomain =
      .ok (isMemberOfRole now store.getGroupMembers role fullUser) := by
  unfold matchPrincipalInRole
  cases hmembers : role.roleMembers with
  | some members => rfl
  | none =>
    rw [h, isMemberOfRole, hmembers]
    rfl

/-- What an assertion has to match when no role is delegated. -/
def matchedBy (store : DataStore) (now : Int) (identity op resource : Str) (roles : List Role)
    (assertion : Assertion) : Bool :=
  matchesPattern (patternFromGlob (toLowerCase assertion.action)) op &&
    (matchesPattern (patternFromGlob (toLowerCase assertion.resource)) resource &&
      (roles.filter fun role => matchesPattern (patternFromGlob assertion.role) role.name).any fun role =>
        isMemberOfRole now store.getGroupMembers role identity)

theorem assertionMatch_of_noTrust (h : ∀ role ∈ roles, role.trust = none) :
    assertionMatch store now assertion identity op resource (some roles) trustDomain =
      .ok (matchedBy store now identity op resource roles assertion) := by
  unfold assertionMatch matchedBy matchPrincipal
  cases matchesPattern (patternFromGlob (toLowerCase assertion.action)) op with
  | false => rfl
  | true =>
    cases matchesPattern (patternFromGlob (toLowerCase assertion.resource)) resource with
    | false => rfl
    | true =>
      simp only [Bool.not_true, Bool.false_eq_true, if_false, Bool.true_and]
      apply anyM_ok
      intro role hrole
      exact matchPrincipalInRole_of_noTrust (h role (List.mem_filter.1 hrole).1)

theorem evaluateAccess_allowed_iff {domain : PublishedCache} (hpolicies : domain.domainData.policies = some policies)
    (hroles : domain.domainData.roles = some roles) (h : ∀ role ∈ roles, role.trust = none) :
    evaluateAccess store now domain identity op resource trustDomain = .ok .ALLOWED ↔
      (∀ assertion ∈ (activePolicies policies).flatMap (·.assertions.getD []),
        assertion.effect = some .DENY → matchedBy store now identity op resource roles assertion = false) ∧
      ∃ assertion ∈ (activePolicies policies).flatMap (·.assertions.getD []),
        assertion.effect ≠ some .DENY ∧ matchedBy store now identity op resource roles assertion = true := by
  have hmatch : (fun assertion => assertionMatch store now assertion identity op resource
      domain.domainData.roles trustDomain) =
        fun assertion => .ok (matchedBy store now identity op resource roles assertion) := by
    funext assertion
    rw [hroles, assertionMatch_of_noTrust h]
  unfold evaluateAccess
  rw [hpolicies]
  dsimp only
  rw [hmatch, evaluateAssertions_allowed_iff]
  simp only [reduceCtorEq, false_or]

end Meaning

end ZTSAuthorizer

end Athenz.Zts
