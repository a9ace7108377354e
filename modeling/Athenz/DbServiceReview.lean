import Athenz.DbServiceMeta
import Athenz.TenancyOperations

namespace Athenz.ZmsServer
open Lib Lib.Text Lib.Transaction
set_option autoImplicit true

variable [Collation] [CaseRules]

section Reviews

/-- For which types of members a due date is set for the role or its domain. -/
abbrev MemberDueDays := PrincipalType → Bool

/-- The members of a role that a review names, as it changes them. -/
def applyMembershipChanges (config : Config) (originalRole role : Role)
    (expiryDueDays reminderDueDays : MemberDueDays) : List Member :=
  (originalRole.roleMembers.getD []).filterMap fun originalMember =>
    ((role.roleMembers.getD []).find? (·.memberName = originalMember.memberName)).map fun incoming =>
      { memberName := originalMember.memberName
        approved := some (originalRole.auditEnabled ≠ some true)
        active := incoming.active
        expiration :=
          if expiryDueDays (principalType config incoming.memberName) then incoming.expiration
          else originalMember.expiration
        reviewReminder :=
          if reminderDueDays (principalType config incoming.memberName) then
            incoming.reviewReminder
          else originalMember.reviewReminder }

/-- A member that is not active any more leaves; another one is extended. -/
def reviewMember (ctx : Context) (domainName roleName : Str) (member : Member) : Op Unit :=
  if member.active = some false then do
    let done ← deleteRoleMember domainName roleName member.memberName ctx.principal
    Tx.ensure done (.resource 404 (ctx.caller ++ ": unable to delete role member: ".toList ++
      member.memberName ++ " from role: ".toList ++ roleName))
  else do
    let done ← insertRoleMember domainName roleName member ctx.principal
    Tx.ensure done (.resource 404 (ctx.caller ++ ": unable to extend role member: ".toList ++
      member.memberName ++ " for the role: ".toList ++ roleName))

def updateRoleReviewTimestamp := roleTable.updateModTimestamp

/-- A role that does not exist is a null pointer. -/
def putRoleReviewBody (config : Config) (ctx : Context) (domainName roleName : Str) (role : Role)
    (expiryDueDays reminderDueDays : MemberDueDays) : Op Unit := do
  checkDomainAuditEnabled config ctx domainName .role
  match ← getRole domainName roleName with
  | none => Tx.raise .nullPointer
  | some originalRole => do
    Tx.permit (originalRole.trust = none) (requestError (ctx.caller ++ ": role ".toList ++ roleName ++
      " is delegated. Review should happen on the trusted role. ".toList))
    let updatedMembers := applyMembershipChanges config originalRole role expiryDueDays
      reminderDueDays
    forEach (reviewMember ctx domainName roleName) updatedMembers
    let _ ← if updatedMembers = [] then pure false
      else updateRoleModTimestamp domainName roleName
    let _ ← updateRoleReviewTimestamp domainName roleName

def executePutRoleReview (config : Config) (ctx : Context) (domainName roleName : Str) (role : Role)
    (expiryDueDays reminderDueDays : MemberDueDays) : Execution Unit :=
  execute config domainName
    (putRoleReviewBody config ctx domainName roleName role expiryDueDays reminderDueDays)

end Reviews

section Deletions

def deleteRoleBody (config : Config) (ctx : Context) (domainName roleName : Str) : Op Unit := do
  checkDomainAuditEnabled config ctx domainName .role
  let done ← deleteRole domainName roleName
  Tx.ensure done (.resource 404 (ctx.caller ++ ": unable to delete role: ".toList ++ roleName))

def executeDeleteRole (config : Config) (ctx : Context) (domainName roleName : Str) :
    Execution Unit :=
  execute config domainName (deleteRoleBody config ctx domainName roleName)

end Deletions

section Assertions

def countAssertions (domainName policyName : Str) (version : Option Str) : Op Nat :=
  readDomain domainName fun row =>
    match row.policies.find? (·.isVersion policyName version) with
    | none => .error (notFoundError "policy" (policyResourceName domainName policyName))
    | some policy => .ok policy.assertions.length

def checkPolicyAssertionQuota (config : Config) (domainName policyName : Str)
    (version : Option Str) : Op Unit :=
  if config.quotaCheckEnabled then do
    let quota ← getDomainQuota config domainName
    checkQuota "policy assertion" quota.assertion ((← countAssertions domainName policyName version) + 1)
  else pure ()

/-- The assertion with a number, in any version of a policy. -/
def getAssertion (domainName policyName : Str) (assertionId : Nat) : Op (Option Assertion) :=
  Tx.query fun db => (db.domains.lookup domainName).bind fun row =>
    (((row.policies.filter (·.name = policyName)).flatMap (·.assertions)).find?
      (·.id = assertionId)).map (AssertionRow.toAssertion domainName)

/-- A new assertion; one with the same values that is there already is a success. -/
def putAssertionBody (config : Config) (ctx : Context) (domainName policyName : Str)
    (version : Option Str) (assertion : Assertion) : Op Unit := do
  checkDomainAuditEnabled config ctx domainName .policy
  checkPolicyAssertionQuota config domainName policyName version
  let _ ← insertAssertion domainName policyName version assertion
  let _ ← updatePolicyModTimestamp domainName policyName version
  updateDomainModTimestamp domainName

/-- A single operation, which uses no transaction. -/
def executePutAssertion (config : Config) (ctx : Context) (domainName policyName : Str)
    (version : Option Str) (assertion : Assertion) : Execution Unit :=
  executeAutoCommit config (putAssertionBody config ctx domainName policyName version assertion)

def deleteAssertionBody (config : Config) (ctx : Context) (domainName policyName : Str)
    (version : Option Str) (assertionId : Nat) : Op Unit := do
  checkDomainAuditEnabled config ctx domainName .policy
  let assertion ← getAssertion domainName policyName assertionId
  Tx.permit assertion.isSome (.resource 404 (ctx.caller ++ ": unable to read assertion: ".toList ++
    (Nat.repr assertionId).toList ++ " from policy: ".toList ++ policyName ++ " version: ".toList ++
    if isEmptyVersion version then "active version".toList else version.getD []))
  let done ← deleteAssertion domainName policyName version assertionId
  Tx.ensure done (requestError (ctx.caller ++ ": unable to delete assertion: ".toList ++
    (Nat.repr assertionId).toList ++ " from policy: ".toList ++ policyName ++ " version: ".toList ++
    if isEmptyVersion version then "active version".toList else version.getD []))
  let _ ← updatePolicyModTimestamp domainName policyName version
  updateDomainModTimestamp domainName

def executeDeleteAssertion (config : Config) (ctx : Context) (domainName policyName : Str)
    (version : Option Str) (assertionId : Nat) : Execution Unit :=
  executeAutoCommit config
    (deleteAssertionBody config ctx domainName policyName version assertionId)

end Assertions

end Athenz.ZmsServer
