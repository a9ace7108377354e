import Athenz.DbService
import Mathlib.Algebra.GroupWithZero.Nat

namespace Athenz.ZmsServer
open Lib Lib.Text Lib.Transaction
set_option autoImplicit true

section Execution

/-- A conflict, or a server that has become read-only. -/
def shouldRetryOperation (failure : Failure) : Bool :=
  failure.code = some 409 || failure.code = some 410

/-- What an operation answers and leaves in the store, by what its statements meet. -/
abbrev Execution (α : Type) := Database → (Nat → Event Failure) → Except Failure α × Database

/-- A transaction on a domain with its retries; its changes are saved behind it. -/
def execute (config : Config) (domainName : Str) (body : Op α) : Execution α :=
  Tx.attempts false shouldRetryOperation (Tx.saved (stampDomain domainName) body)
    (config.defaultRetryCount - 1)

/-- An operation whose statements commit themselves, with its retries. -/
def executeAutoCommit (config : Config) (body : Op α) : Execution α :=
  Tx.attempts true shouldRetryOperation body (config.defaultRetryCount - 1)

end Execution

variable [Collation] [CaseRules]

section Puts

def roleResourceName (domainName roleName : Str) : Str := domainName ++ ":role.".toList ++ roleName

def policyResourceName (domainName policyName : Str) : Str :=
  domainName ++ ":policy.".toList ++ policyName

def makeAdminRole (domainName : Str) (adminUsers : List Str) : Role where
  name := roleResourceName domainName "admin"
  roleMembers := some (adminUsers.map fun admin =>
    { memberName := admin, active := some true, approved := some true })

def makeAdminPolicy (domainName : Str) (adminsRole : Role) : Policy where
  name := policyResourceName domainName "admin"
  assertions := some [{
    role := adminsRole.name
    resource := domainName ++ ":*".toList
    action := "*"
    effect := some .ALLOW }]

def touchDomain (domainName : Str) (changed : Bool) : Op Bool :=
  if changed then do
    updateDomainModTimestamp domainName
    pure true
  else pure true

def processDomainTags (config : Config) (domainTags originalTags : Option Tags) (domainName : Str)
    (updateDomainLastModTimestamp : Bool) : Op Bool :=
  let insert := insertDomainTags config.domainTagsLimit domainName
  if isEmptyTags originalTags then
    if isEmptyTags domainTags then pure true
    else (insert (domainTags.getD ∅)).both (touchDomain domainName updateDomainLastModTimestamp)
  else
    match domainTags with
    | none => pure true
    | some currentTags =>
      let (tagsToRemove, tagsToAdd) := tagChanges (originalTags.getD ∅) currentTags
      let tagsChanged := tagsToRemove ≠ [] || tagsToAdd.entries ≠ []
      (if tagsToRemove = [] then pure true else deleteDomainTags domainName tagsToRemove).both <|
      (if tagsToAdd.entries = [] then pure true else insert tagsToAdd).both <|
      touchDomain domainName (tagsChanged && updateDomainLastModTimestamp)

/-- The admin role and policy of a new domain, and the templates it starts with. -/
def makeDomainBody (config : Config) (ctx : Context) (domain : Domain) (adminUsers : List Str)
    (solutionTemplates : Option (List Str)) : Op Unit := do
  let admin := ctx.principal.or (some "sys.auth.zms")
  let adminRole := makeAdminRole domain.name adminUsers
  let adminPolicy := makeAdminPolicy domain.name adminRole
  checkSubdomainQuota config domain.name
  let domainInserted ← insertDomain domain
  let tagsInserted ← processDomainTags config domain.tags none domain.name false
  Tx.ensure (domainInserted && tagsInserted) (requestError
    ("makeDomain: Cannot create domain: ".toList ++ domain.name ++ " - already exists".toList))
  let done ← processRole config none domain.name "admin" adminRole admin false
  Tx.ensure done (internalServerError
    ("makeDomain: Cannot process role: '".toList ++ adminRole.name))
  let done ← processPolicy none domain.name "admin" adminPolicy false
  Tx.ensure done (internalServerError
    ("makeDomain: Cannot process policy: '".toList ++ adminPolicy.name))
  let done ← Tx.forAll (fun templateName => addSolutionTemplate config domain.name templateName
    admin none) (solutionTemplates.getD [])
  Tx.ensure done (internalServerError ("makeDomain: Cannot apply templates: '".toList ++ domain.name))

def makeDomain (config : Config) (ctx : Context) (domain : Domain) (adminUsers : List Str)
    (solutionTemplates : Option (List Str)) : Execution Unit :=
  execute config domain.name (makeDomainBody config ctx domain adminUsers solutionTemplates)

/-- A version that is not stored yet: the first one of a policy is active, and no other. -/
def checkPolicyVersion (domainName policyName : Str) (policy : Policy)
    (originalPolicy : Option Policy) : Op Unit :=
  if !isEmptyVersion policy.version && originalPolicy.isNone then do
    let activePolicy ← getPolicy domainName policyName none
    match policy.active with
    | none => Tx.raise .nullPointer
    | some active => do
      Tx.ensure (!(active && activePolicy.isSome)) (requestError
        ("Policy ".toList ++ policyName ++ " already exists with an active version. ".toList))
      Tx.ensure (active || activePolicy.isSome) (.resource 404
        ("Policy ".toList ++ policyName ++ " doesn't exist, new version must be active ".toList))
  else pure ()

def putPolicyBody (config : Config) (ctx : Context) (domainName policyName : Str)
    (policy : Policy) : Op Unit := do
  checkDomainAuditEnabled config ctx domainName .policy
  checkPolicyQuota config domainName policy
  let originalPolicy ← getPolicy domainName policyName policy.version
  checkPolicyVersion domainName policyName policy originalPolicy
  let done ← processPolicy originalPolicy domainName policyName policy false
  Tx.ensure done (internalServerError ("unable to put policy: ".toList ++ policy.name))

def executePutPolicy (config : Config) (ctx : Context) (domainName policyName : Str)
    (policy : Policy) : Execution Unit :=
  execute config domainName (putPolicyBody config ctx domainName policyName policy)

/-- A version as a request can name one. -/
def Version := { version : Str // version ≠ [] }

/-- The copy of an assertion with its conditions into a new version. -/
def copyAssertion (domainName policyName : Str) (version : Version) (assertion : Assertion) :
    Op Bool :=
  match assertion.id with
  | none => do
    let _ ← insertAssertion domainName policyName version.1 assertion
    pure true
  | some id => do
    let conditions ← getAssertionConditions id
    let added ← insertAssertion domainName policyName version.1 assertion
    if conditions.isEmpty then pure true else insertAssertionConditions (added.getD id) conditions

def putPolicyVersionBody (config : Config) (ctx : Context) (domainName policyName : Str)
    (version : Version) (fromVersion : Option Str) : Op Unit := do
  checkDomainAuditEnabled config ctx domainName .policy
  let policyVersions ← listPolicyVersions domainName policyName
  Tx.ensure (policyVersions.length < config.maxPolicyVersions) (.resource 429
    ("unable to put policy: ".toList ++ policyName ++ ", version: ".toList ++ version.1 ++
      ", max number of versions reached (".toList ++ (Nat.repr config.maxPolicyVersions).toList ++
      ")".toList))
  match ← getPolicy domainName policyName fromVersion with
  | none => Tx.abort (.resource 404
      ("unable to fetch policy version: ".toList ++ fromVersion.getD "null".toList))
  | some originalPolicy => do
    checkPolicyQuota config domainName originalPolicy
    let done ← (insertPolicy domainName
      { originalPolicy with version := version.1, active := some false }).both <|
      Tx.forAll (copyAssertion domainName policyName version) (originalPolicy.assertions.getD [])
    Tx.ensure done (internalServerError ("unable to put policy: ".toList ++ originalPolicy.name ++
      ", version: ".toList ++ version.1))

def executePutPolicyVersion (config : Config) (ctx : Context) (domainName policyName : Str)
    (version : Version) (fromVersion : Option Str) : Execution Unit :=
  execute config domainName
    (putPolicyVersionBody config ctx domainName policyName version fromVersion)

def setActivePolicyBody (config : Config) (ctx : Context) (domainName policyName : Str)
    (version : Version) : Op Unit := do
  checkDomainAuditEnabled config ctx domainName .policy
  match ← getPolicy domainName policyName none with
  | none => Tx.abort (.resource 404 ("unknown policy: ".toList ++ policyName))
  | some originalActivePolicy => do
    let newActivePolicy ← getPolicy domainName policyName version.1
    Tx.ensure newActivePolicy.isSome
      (.resource 404 ("unknown policy version: ".toList ++ version.1))
    let done ← (setActivePolicyVersion domainName policyName version.1).both <|
      (updatePolicyModTimestamp domainName policyName version.1).both <|
      updatePolicyModTimestamp domainName policyName originalActivePolicy.version
    Tx.ensure done (internalServerError ("unable to set active policy version: ".toList ++
      version.1 ++ " for policy: ".toList ++ policyName ++ " in domain: ".toList ++ domainName))

def executeSetActivePolicy (config : Config) (ctx : Context) (domainName policyName : Str)
    (version : Version) : Execution Unit :=
  execute config domainName (setActivePolicyBody config ctx domainName policyName version)

def deletePolicyBody (config : Config) (ctx : Context) (domainName policyName : Str) : Op Unit := do
  checkDomainAuditEnabled config ctx domainName .policy
  let versions ← listPolicyVersions domainName policyName
  Tx.ensure (versions ≠ []) (.resource 404
    (ctx.caller ++ ": unable to get versions for policy: ".toList ++ policyName))
  let read ← Tx.forAll (fun version => do
    return (← getPolicy domainName policyName version).isSome) versions
  Tx.ensure read (.resource 404
    (ctx.caller ++ ": unable to read policy: ".toList ++ policyName))
  let done ← deletePolicy domainName policyName
  Tx.ensure done (.resource 404
    (ctx.caller ++ ": unable to delete policy: ".toList ++ policyName))

def executeDeletePolicy (config : Config) (ctx : Context) (domainName policyName : Str) :
    Execution Unit :=
  execute config domainName (deletePolicyBody config ctx domainName policyName)

def deletePolicyVersionBody (config : Config) (ctx : Context) (domainName policyName : Str)
    (version : Version) : Op Unit := do
  checkDomainAuditEnabled config ctx domainName .policy
  match ← getPolicy domainName policyName version.1 with
  | none => Tx.abort (.resource 404 (ctx.caller ++ ": unable to read policy: ".toList ++
      policyName ++ ", version: ".toList ++ version.1))
  | some policy => do
    Tx.ensure (policy.active ≠ some true) (requestError (ctx.caller ++
      ": unable to delete active policy version. Policy: ".toList ++ policyName ++
      ", version: ".toList ++ version.1))
    let done ← deletePolicyVersion domainName policyName version.1
    Tx.ensure done (.resource 404 (ctx.caller ++ ": unable to delete policy: ".toList ++
      policyName ++ ", version: ".toList ++ version.1))

def executeDeletePolicyVersion (config : Config) (ctx : Context) (domainName policyName : Str)
    (version : Version) : Execution Unit :=
  execute config domainName (deletePolicyVersionBody config ctx domainName policyName version)

def putRoleBody (config : Config) (ctx : Context) (domainName roleName : Str) (role : Role) :
    Op Unit := do
  checkDomainAuditEnabled config ctx domainName .role
  checkRoleQuota config domainName role
  let originalRole ← getRole domainName roleName
  Tx.permit (!originalRole.any fun original =>
      original.auditEnabled = some true || original.reviewEnabled = some true)
    (requestError "Can not update auditEnabled and/or reviewEnabled roles")
  let done ← processRole config originalRole domainName roleName role ctx.principal false
  Tx.ensure done (internalServerError ("unable to put role: ".toList ++ role.name))

def executePutRole (config : Config) (ctx : Context) (domainName roleName : Str) (role : Role) :
    Execution Unit :=
  execute config domainName (putRoleBody config ctx domainName roleName role)

def putGroupBody (config : Config) (ctx : Context) (domainName groupName : Str) (group : Group) :
    Op Unit := do
  checkDomainAuditEnabled config ctx domainName .group
  checkGroupQuota config domainName group
  let originalGroup ← getGroup domainName groupName
  Tx.permit (!originalGroup.any fun original =>
      original.auditEnabled = some true || original.reviewEnabled = some true)
    (requestError "Can not update auditEnabled and/or reviewEnabled groups")
  let done ← processGroup config originalGroup domainName groupName group ctx.principal
  Tx.ensure done (internalServerError ("unable to put group: ".toList ++ group.name))

def executePutGroup (config : Config) (ctx : Context) (domainName groupName : Str)
    (group : Group) : Execution Unit :=
  execute config domainName (putGroupBody config ctx domainName groupName group)

def putServiceIdentityBody (config : Config) (ctx : Context) (domainName serviceName : Str)
    (service : ServiceIdentity) : Op Unit := do
  checkDomainAuditEnabled config ctx domainName .service
  checkServiceIdentityQuota config domainName service
  let originalService ← getServiceIdentity domainName serviceName
  let done ← processServiceIdentity originalService domainName serviceName service false
  Tx.ensure done (internalServerError ("unable to put service: ".toList ++ service.name))

def executePutServiceIdentity (config : Config) (ctx : Context) (domainName serviceName : Str)
    (service : ServiceIdentity) : Execution Unit :=
  execute config domainName (putServiceIdentityBody config ctx domainName serviceName service)

def putEntityBody (config : Config) (ctx : Context) (domainName entityName : Str)
    (entity : Entity) : Op Unit := do
  checkDomainAuditEnabled config ctx domainName .entity
  checkEntityQuota config domainName
  let originalEntity ← Tx.query fun db =>
    (db.domains.lookup domainName).bind fun row => row.entities.lookup entityName
  let done ← match originalEntity with
    | none => insertEntity domainName entity
    | some _ => updateEntity domainName entity
  Tx.ensure done (internalServerError ("unable to put entity: ".toList ++ entity.name))

def executePutEntity (config : Config) (ctx : Context) (domainName entityName : Str)
    (entity : Entity) : Execution Unit :=
  execute config domainName (putEntityBody config ctx domainName entityName entity)

def putDomainTemplateBody (config : Config) (ctx : Context) (domainName : Str)
    (templateNames : List Str) (params : Option (List TemplateParam)) : Op Unit := do
  checkDomainAuditEnabled config ctx domainName .template
  let done ← Tx.forAll (fun templateName => addSolutionTemplate config domainName templateName
    ctx.principal params) templateNames
  Tx.ensure done (internalServerError ("unable to put domain templates: ".toList ++ domainName))

def executePutDomainTemplate (config : Config) (ctx : Context) (domainName : Str)
    (templateNames : List Str) (params : Option (List TemplateParam)) : Execution Unit :=
  execute config domainName (putDomainTemplateBody config ctx domainName templateNames params)

/-- The checks of a new member; a delegated role has none. -/
def checkMembership (config : Config) (ctx : Context) (domainName roleName : Str) : Op Unit := do
  checkDomainAuditEnabled config ctx domainName .role
  match ← Tx.query fun db => roleTable.find db domainName roleName with
  | none => Tx.abort (.resource 404 (ctx.caller ++ ": Unknown role: ".toList ++ roleName))
  | some stored => do
    let originalRole := retrieveRole domainName roleName stored.settings
    checkObjectAuditEnabled config ctx originalRole.auditEnabled originalRole.name
    Tx.ensure (originalRole.trust = none) (requestError
      (ctx.caller ++ ": ".toList ++ roleName ++ " is a delegated role".toList))
    checkRoleMembershipQuota config domainName roleName

def updateRoleModTimestamp := roleTable.updateModTimestamp

def putMembershipBody (config : Config) (ctx : Context) (domainName roleName : Str)
    (roleMember : Member) : Op Unit := do
  checkMembership config ctx domainName roleName
  let done ← insertRoleMember domainName roleName roleMember ctx.principal
  Tx.ensure done (requestError (ctx.caller ++ ": unable to insert role member: ".toList ++
    roleMember.memberName ++ " to role: ".toList ++ roleName))
  let _ ← updateRoleModTimestamp domainName roleName
  updateDomainModTimestamp domainName

/-- A single operation, which uses no transaction. -/
def executePutMembership (config : Config) (ctx : Context) (domainName roleName : Str)
    (roleMember : Member) : Execution Unit :=
  executeAutoCommit config (putMembershipBody config ctx domainName roleName roleMember)

end Puts

section Members

def putMembershipDecisionBody (config : Config) (ctx : Context) (domainName roleName : Str)
    (roleMember : Member) : Op Unit := do
  match ← Tx.query fun db => roleTable.find db domainName roleName with
  | none => Tx.abort (.resource 404 ("unknown role: ".toList ++ roleName))
  | some stored => do
    let originalRole := retrieveRole domainName roleName stored.settings
    checkObjectAuditEnabled config ctx originalRole.auditEnabled originalRole.name
    let done ← confirmRoleMember domainName roleName roleMember ctx.principal
    Tx.ensure done (requestError ("unable to apply role membership decision for member: ".toList ++
      roleMember.memberName ++ " and role: ".toList ++ roleName))
    let _ ← updateRoleModTimestamp domainName roleName

def executePutMembershipDecision (config : Config) (ctx : Context) (domainName roleName : Str)
    (roleMember : Member) : Execution Unit :=
  execute config domainName (putMembershipDecisionBody config ctx domainName roleName roleMember)

/-- The removal of a member, or of one that waits; without a transaction. -/
def Table.removalBody (table : Table S) (config : Config) (ctx : Context) (objectType : AuditType)
    (domainName name : Str) (remove : Op Bool) (failure : Failure) : Op Unit := do
  checkDomainAuditEnabled config ctx domainName objectType
  let done ← remove
  Tx.ensure done failure
  let _ ← table.updateModTimestamp domainName name
  updateDomainModTimestamp domainName

def deleteMembershipBody (config : Config) (ctx : Context)
    (domainName roleName normalizedMember : Str) : Op Unit :=
  roleTable.removalBody config ctx .role domainName roleName
    (deleteRoleMember domainName roleName normalizedMember ctx.principal)
    (.resource 404 (ctx.caller ++ ": unable to delete role member: ".toList ++ normalizedMember ++
      " from role: ".toList ++ roleName))

def deletePendingMembershipBody (config : Config) (ctx : Context)
    (domainName roleName normalizedMember : Str) : Op Unit :=
  roleTable.removalBody config ctx .role domainName roleName
    (deletePendingRoleMember domainName roleName normalizedMember ctx.principal)
    (.resource 404 (ctx.caller ++ ": unable to delete pending role member: ".toList ++
      normalizedMember ++ " from role: ".toList ++ roleName))

def deleteGroupMembershipBody (config : Config) (ctx : Context)
    (domainName groupName normalizedMember : Str) : Op Unit :=
  groupTable.removalBody config ctx .group domainName groupName
    (deleteGroupMember domainName groupName normalizedMember ctx.principal)
    (.resource 404 ("unable to delete group member: ".toList ++ normalizedMember ++
      " from group: ".toList ++ groupName))

def deletePendingGroupMembershipBody (config : Config) (ctx : Context)
    (domainName groupName normalizedMember : Str) : Op Unit :=
  groupTable.removalBody config ctx .group domainName groupName
    (deletePendingGroupMember domainName groupName normalizedMember ctx.principal)
    (.resource 404 ("unable to delete pending group member: ".toList ++ normalizedMember ++
      " from group: ".toList ++ groupName))

/-- The audit flag is the one of the group that the request has read. -/
def putGroupMembershipBody (config : Config) (ctx : Context) (domainName groupName : Str)
    (auditEnabled : Option Bool) (groupMember : Member) : Op Unit := do
  checkDomainAuditEnabled config ctx domainName .group
  checkObjectAuditEnabled config ctx auditEnabled (domainName ++ ":group.".toList ++ groupName)
  checkGroupMembershipQuota config domainName groupName
  let done ← insertGroupMember domainName groupName groupMember ctx.principal
  Tx.ensure done (requestError ("unable to insert group member: ".toList ++
    groupMember.memberName ++ " to group: ".toList ++ groupName))
  let _ ← groupTable.updateModTimestamp domainName groupName
  updateDomainModTimestamp domainName

def putGroupMembershipDecisionBody (config : Config) (ctx : Context) (domainName groupName : Str)
    (auditEnabled : Option Bool) (groupMember : Member) : Op Unit := do
  checkObjectAuditEnabled config ctx auditEnabled (domainName ++ ":group.".toList ++ groupName)
  let done ← confirmGroupMember domainName groupName groupMember ctx.principal
  Tx.ensure done (requestError ("unable to apply group membership decision for member: ".toList ++
    groupMember.memberName ++ " and group: ".toList ++ groupName))
  let _ ← groupTable.updateModTimestamp domainName groupName

def deleteGroupBody (config : Config) (ctx : Context) (domainName groupName : Str) : Op Unit := do
  checkDomainAuditEnabled config ctx domainName .group
  let done ← deleteGroup domainName groupName
  Tx.ensure done (.resource 404 ("unable to delete group: ".toList ++ groupName))

def executeDeleteGroup (config : Config) (ctx : Context) (domainName groupName : Str) :
    Execution Unit :=
  execute config domainName (deleteGroupBody config ctx domainName groupName)

end Members

section Conditions

def conditionText (message policyName : Str) (assertionId : Nat) : Str :=
  message ++ " for policy=".toList ++ policyName ++ " assertionId=".toList ++
    (Nat.repr assertionId).toList

def conditionIdText (message policyName : Str) (assertionId : Nat) (conditionId : Int) : Str :=
  conditionText message policyName assertionId ++ " conditionId=".toList ++
    (toString conditionId).toList

def checkConditionsCount (config : Config) (assertionId newCount : Nat) : Op Unit := do
  checkQuota "assertion conditions" config.assertionConditionsQuota
    ((← countAssertionConditions assertionId) + newCount)

/-- No conditions need no quota. -/
def checkAssertionConditionsQuota (config : Config) (assertionId : Nat)
    (conditions : List AssertionCondition) : Op Unit :=
  if config.quotaCheckEnabled && !conditions.isEmpty then
    checkConditionsCount config assertionId
      (conditions.map (·.conditionsMap.entries.length)).sum
  else pure ()

def checkAssertionConditionQuota (config : Config) (assertionId : Nat)
    (condition : AssertionCondition) : Op Unit :=
  if config.quotaCheckEnabled then
    checkConditionsCount config assertionId condition.conditionsMap.entries.length
  else pure ()

/-- A condition that is not inserted leaves the transaction open. -/
def putAssertionConditionsBody (config : Config) (ctx : Context) (domainName policyName : Str)
    (assertionId : Nat) (conditions : List AssertionCondition) : Op Unit := do
  checkDomainAuditEnabled config ctx domainName .policy
  checkAssertionConditionsQuota config assertionId conditions
  let done ← insertAssertionConditions assertionId conditions
  Tx.permit done (requestError (conditionText
    (ctx.caller ++ ": unable to insert assertion conditions".toList) policyName assertionId))
  let _ ← updatePolicyModTimestamp domainName policyName none

def executePutAssertionConditions (config : Config) (ctx : Context) (domainName policyName : Str)
    (assertionId : Nat) (conditions : List AssertionCondition) : Execution Unit :=
  execute config domainName
    (putAssertionConditionsBody config ctx domainName policyName assertionId conditions)

/-- A condition without a number is added. -/
def addAssertionCondition (config : Config) (ctx : Context) (policyName : Str) (assertionId : Nat)
    (condition : AssertionCondition) : Op Unit := do
  checkAssertionConditionQuota config assertionId condition
  let conditionId ← getNextConditionId assertionId
  let done ← insertSingleAssertionCondition assertionId conditionId condition.conditionsMap
  Tx.permit done (requestError (conditionText
    (ctx.caller ++ ": unable to insert new assertion condition".toList) policyName assertionId))

/-- A condition with a number replaces the stored one, which is deleted before the quota is
checked. -/
def replaceAssertionCondition (config : Config) (ctx : Context) (policyName : Str)
    (assertionId : Nat) (conditionId : Int) (condition : AssertionCondition) : Op Unit := do
  let deleted ← deleteAssertionCondition assertionId conditionId
  Tx.permit deleted (.resource 404 (conditionIdText
    (ctx.caller ++ ": unable to delete assertion condition during putAssertionCondition".toList)
    policyName assertionId conditionId))
  checkAssertionConditionQuota config assertionId condition
  let done ← insertSingleAssertionCondition assertionId conditionId condition.conditionsMap
  Tx.permit done (requestError (conditionText
    (ctx.caller ++ ": unable to insert assertion condition".toList) policyName assertionId))

def putAssertionConditionBody (config : Config) (ctx : Context) (domainName policyName : Str)
    (assertionId : Nat) (condition : AssertionCondition) : Op Unit := do
  checkDomainAuditEnabled config ctx domainName .policy
  match condition.id with
  | none => addAssertionCondition config ctx policyName assertionId condition
  | some conditionId =>
    replaceAssertionCondition config ctx policyName assertionId conditionId condition
  let _ ← updatePolicyModTimestamp domainName policyName none

def executePutAssertionCondition (config : Config) (ctx : Context) (domainName policyName : Str)
    (assertionId : Nat) (condition : AssertionCondition) : Execution Unit :=
  execute config domainName
    (putAssertionConditionBody config ctx domainName policyName assertionId condition)

def deleteAssertionConditionsBody (config : Config) (ctx : Context) (domainName policyName : Str)
    (assertionId : Nat) : Op Unit := do
  checkDomainAuditEnabled config ctx domainName .policy
  let _ ← getAssertionConditions assertionId
  let deleted ← deleteAssertionConditions assertionId
  Tx.permit deleted (.resource 404 (conditionText
    (ctx.caller ++ ": unable to delete assertion conditions".toList) policyName assertionId))
  let _ ← updatePolicyModTimestamp domainName policyName none
  updateDomainModTimestamp domainName

def executeDeleteAssertionConditions (config : Config) (ctx : Context)
    (domainName policyName : Str) (assertionId : Nat) : Execution Unit :=
  executeAutoCommit config
    (deleteAssertionConditionsBody config ctx domainName policyName assertionId)

def deleteAssertionConditionBody (config : Config) (ctx : Context) (domainName policyName : Str)
    (assertionId : Nat) (conditionId : Int) : Op Unit := do
  checkDomainAuditEnabled config ctx domainName .policy
  let stored ← getAssertionCondition assertionId conditionId
  Tx.permit stored.isSome (.resource 404 (conditionIdText
    (ctx.caller ++ ": unable to read assertion condition".toList) policyName assertionId
    conditionId))
  let deleted ← deleteAssertionCondition assertionId conditionId
  Tx.permit deleted (.resource 404 (conditionIdText
    (ctx.caller ++ ": unable to delete assertion condition".toList) policyName assertionId
    conditionId))
  let _ ← updatePolicyModTimestamp domainName policyName none
  updateDomainModTimestamp domainName

def executeDeleteAssertionCondition (config : Config) (ctx : Context) (domainName policyName : Str)
    (assertionId : Nat) (conditionId : Int) : Execution Unit :=
  executeAutoCommit config
    (deleteAssertionConditionBody config ctx domainName policyName assertionId conditionId)

end Conditions

end Athenz.ZmsServer
