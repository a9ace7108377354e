import Athenz.JdbcConnection

namespace Athenz.ZmsServer
open Lib Lib.Text Lib.Transaction
set_option autoImplicit true

/-- The kinds of objects for which an audit reference can be asked. -/
inductive AuditType where
  | role | group | policy | service | domain | entity | template | tenancy
deriving DecidableEq

/-- What is known about users: a date attribute, whether they satisfy a filter, and whether they
are known at all. -/
structure UserAuthority where
  getDateAttribute : Str → Str → Option Int
  isUserAuthorityFilterValid : Str → Str → Bool
  isValidUser : Str → Bool := fun _ => true

/-- The quota of a domain that has none of its own. -/
def serverDefaultQuota : Quota where
  role := 1000
  roleMember := 100
  policy := 1000
  assertion := 100
  service := 250
  serviceHost := 10
  publicKey := 100
  entity := 100
  subdomain := 100
  group := 100
  groupMember := 100

/-- The settings of the service. -/
structure Config where
  defaultRetryCount : Nat := 120
  auditRefSet : AuditType → Bool := fun _ => false
  validateReference : Option Str → Option Str → Str → Bool := fun _ _ _ => true
  quotaCheckEnabled : Bool := true
  defaultQuota : Quota := serverDefaultQuota
  maxPolicyVersions : Nat := 5
  assertionConditionsQuota : Nat := 10
  roleTagsLimit : Nat := 25
  groupTagsLimit : Nat := 25
  domainTagsLimit : Nat := 25
  templates : Map Str Template := ∅
  userDomainPrefix : Str := "user."
  addlUserCheckDomainPrefixList : List Str := []
  userAuthority : Option UserAuthority := none
  validateUserRoleMembers : Bool := false
  validateServiceRoleMembers : Bool := false
  validateServiceMemberSkipDomains : List Str := []

/-- Who asks, with which audit reference and through which call. -/
structure Context where
  principal : Option Str := none
  auditRef : Option Str := none
  caller : Str

variable [Collation]

section Checks

def auditReferenceCheck (config : Config) (ctx : Context) (objectName : Str) : Op Unit := do
  Tx.ensure (ctx.auditRef.any (· ≠ [])) (requestError
    (ctx.caller ++ ": Audit reference required for domain: ".toList ++ objectName))
  Tx.ensure (config.validateReference ctx.auditRef ctx.principal ctx.caller) (requestError
    (ctx.caller ++ ": Audit reference validation failed for domain: ".toList ++ objectName))

def checkDomainAuditEnabled (config : Config) (ctx : Context) (domainName : Str)
    (objectType : AuditType) : Op Unit :=
  if config.auditRefSet objectType then do
    match ← getDomain domainName with
    | none => Tx.abort (.resource 404 (ctx.caller ++ ": Unknown domain: ".toList ++ domainName))
    | some domain =>
      if domain.auditEnabled = some true then auditReferenceCheck config ctx domainName else pure ()
  else pure ()

def checkObjectAuditEnabled (config : Config) (ctx : Context) (auditEnabled : Option Bool)
    (objectName : Str) : Op Unit :=
  if auditEnabled = some true then auditReferenceCheck config ctx objectName else pure ()

/-- A count against its limit; the transaction stays open. -/
def checkQuota (what : Str) (limit actual : Nat) : Op Unit :=
  Tx.permit (actual ≤ limit) (.quotaLimit what limit actual)

def getDomainQuota (config : Config) (domainName : Str) : Op Quota := do
  return (← getQuota domainName).getD config.defaultQuota

def getListSize (list : Option (List α)) : Nat := (list.map List.length).getD 0

def checkSubdomainQuota (config : Config) (domainName : Str) : Op Unit :=
  if config.quotaCheckEnabled then
    match indexOf ("." : Str) domainName with
    | none => pure ()
    | some idx => do
      let quota ← getDomainQuota config (domainName.take idx)
      let domains ← listDomains (domainName.take idx ++ ".".toList)
      checkQuota "subdomain" quota.subdomain (domains.length + 1)
  else pure ()

def checkRoleQuota (config : Config) (domainName : Str) (role : Role) : Op Unit :=
  if config.quotaCheckEnabled then do
    let quota ← getDomainQuota config domainName
    checkQuota "role member" quota.roleMember (getListSize role.roleMembers)
    checkQuota "role" quota.role ((← countRoles domainName) + 1)
  else pure ()

def checkGroupQuota (config : Config) (domainName : Str) (group : Group) : Op Unit :=
  if config.quotaCheckEnabled then do
    let quota ← getDomainQuota config domainName
    checkQuota "group member" quota.groupMember (getListSize group.groupMembers)
    checkQuota "group" quota.group ((← countGroups domainName) + 1)
  else pure ()

def checkRoleMembershipQuota (config : Config) (domainName roleName : Str) : Op Unit :=
  if config.quotaCheckEnabled then do
    let quota ← getDomainQuota config domainName
    checkQuota "role member" quota.roleMember ((← countRoleMembers domainName roleName) + 1)
  else pure ()

def checkGroupMembershipQuota (config : Config) (domainName groupName : Str) : Op Unit :=
  if config.quotaCheckEnabled then do
    let quota ← getDomainQuota config domainName
    checkQuota "group member" quota.groupMember ((← countGroupMembers domainName groupName) + 1)
  else pure ()

def checkPolicyQuota (config : Config) (domainName : Str) (policy : Policy) : Op Unit :=
  if config.quotaCheckEnabled then do
    let quota ← getDomainQuota config domainName
    checkQuota "policy assertion" quota.assertion (getListSize policy.assertions)
    checkQuota "policy" quota.policy ((← countPolicies domainName) + 1)
  else pure ()

def checkServiceIdentityQuota (config : Config) (domainName : Str) (service : ServiceIdentity) :
    Op Unit :=
  if config.quotaCheckEnabled then do
    let quota ← getDomainQuota config domainName
    checkQuota "service host" quota.serviceHost (getListSize service.hosts)
    checkQuota "service public key" quota.publicKey (getListSize service.publicKeys)
    checkQuota "service" quota.service ((← countServiceIdentities domainName) + 1)
  else pure ()

def checkEntityQuota (config : Config) (domainName : Str) : Op Unit :=
  if config.quotaCheckEnabled then do
    let quota ← getDomainQuota config domainName
    checkQuota "entity" quota.entity ((← countEntities domainName) + 1)
  else pure ()

end Checks

section Reads

/-- The role with its tags, and with its members unless it is delegated. -/
def getRole (domainName roleName : Str) : Op (Option Role) :=
  Tx.query fun db => (roleTable.find db domainName roleName).map fun stored =>
    let role := retrieveRole domainName roleName stored.settings
    { role with
      roleMembers := if role.trust = none then some stored.listMembers else none
      tags := tagsOf stored.tags }

def getGroup (domainName groupName : Str) : Op (Option Group) :=
  Tx.query fun db => (groupTable.find db domainName groupName).map fun stored =>
    { retrieveGroup domainName groupName stored.settings with
      groupMembers := some stored.listMembers
      tags := tagsOf stored.tags }

def savePolicy (domainName : Str) (row : PolicyRow) : Policy where
  name := domainName ++ ":policy.".toList ++ row.name
  version := some row.version
  active := some row.active
  assertions := some (row.assertions.map (·.toAssertion domainName))

def getPolicy (domainName policyName : Str) (version : Option Str) : Op (Option Policy) :=
  Tx.query fun db => (db.policyRow domainName policyName version).map (savePolicy domainName)

def saveService (domainName serviceName : Str) (row : ServiceRow) : ServiceIdentity where
  name := domainName ++ '.' :: serviceName
  description := saveValue row.description
  providerEndpoint := saveValue row.providerEndpoint
  executable := saveValue row.executable
  user := saveValue row.user
  group := saveValue row.group
  publicKeys := some (row.publicKeys.entries.map fun entry => ⟨entry.1, entry.2⟩)
  hosts := if row.hosts = [] then none else some row.hosts

def getServiceIdentity (domainName serviceName : Str) : Op (Option ServiceIdentity) :=
  Tx.query fun db => (db.domains.lookup domainName).bind fun row =>
    (row.services.lookup serviceName).map (saveService domainName serviceName)

end Reads

section Assertions

def matchesAssertion (assertion checkAssertion : Assertion) : Bool :=
  assertion.action = checkAssertion.action && assertion.resource = checkAssertion.resource &&
    assertion.role = checkAssertion.role &&
    assertion.effect.getD .ALLOW = checkAssertion.effect.getD .ALLOW

/-- Whether an assertion is in a list, and the list without its first match. -/
def removeMatchedAssertion (assertion : Assertion) (assertions : List Assertion) :
    Bool × List Assertion :=
  (assertions.any (matchesAssertion assertion), assertions.eraseP (matchesAssertion assertion))

/-- The assertions to add and those to delete. -/
def policyAssertionChanges : List Assertion → List Assertion → List Assertion × List Assertion
  | [], curAssertions => ([], curAssertions)
  | assertion :: newAssertions, curAssertions =>
    let (found, curAssertions) := removeMatchedAssertion assertion curAssertions
    let (addAssertions, delAssertions) := policyAssertionChanges newAssertions curAssertions
    (if found then addAssertions else assertion :: addAssertions, delAssertions)

def insertAssertions (domainName policyName : Str) (version : Option Str)
    (assertions : List Assertion) : Op Bool :=
  Tx.forAll (fun assertion => do
    let _ ← insertAssertion domainName policyName version assertion
    pure true) assertions

/-- An assertion without an identifier is a null pointer. -/
def deleteAssertions (domainName policyName : Str) (version : Option Str)
    (assertions : List Assertion) : Op Bool :=
  Tx.forAll (fun assertion =>
    match assertion.id with
    | none => Tx.raise .nullPointer
    | some id => deleteAssertion domainName policyName version id) assertions

def processPolicy (originalPolicy : Option Policy) (domainName policyName : Str) (policy : Policy)
    (ignoreDeletes : Bool) : Op Bool :=
  match originalPolicy with
  | none =>
    (insertPolicy domainName policy).both
      (insertAssertions domainName policyName policy.version (policy.assertions.getD []))
  | some original =>
    let (addAssertions, delAssertions) :=
      policyAssertionChanges (policy.assertions.getD []) (original.assertions.getD [])
    (updatePolicy domainName policy).both <|
      (if ignoreDeletes then pure true
        else deleteAssertions domainName policyName policy.version delAssertions).both <|
      insertAssertions domainName policyName policy.version addAssertions

end Assertions

section Objects

variable [CaseRules]

/-- The members without those whose name stands in another list in any case. -/
def removeMembers (original : List Member) (remove : Option (List Member)) : List Member :=
  original.filter fun item =>
    !(remove.getD []).any fun member => equalsIgnoreCase item.memberName member.memberName

def Table.processUpdateMembers (table : Table S) (originalMembers members : Option (List Member))
    (ignoreDeletes : Bool) (domainName name : Str) (admin : Option Str) : Op Bool :=
  let curMembers := originalMembers.getD []
  let newMembers := removeMembers (members.getD []) (some curMembers)
  let delMembers := removeMembers curMembers members
  (if ignoreDeletes then pure true
    else Tx.forAll (fun member => table.deleteMember domainName name member.memberName admin)
      delMembers).both <|
  Tx.forAll (fun member => table.insertMember domainName name member admin) newMembers

def isEmptyTags (tags : Option Tags) : Bool := tags.all (·.entries = [])

/-- The names of tags to remove and the tags to add. -/
def tagChanges (originalTags currentTags : Tags) : List Column × Tags :=
  ((originalTags.filter fun key values => currentTags.lookup key ≠ some values).keys,
    currentTags.filter fun key values => originalTags.lookup key ≠ some values)

/-- The tags to replace; stored tags without any to compare them with are a null pointer. -/
def processUpdateTags (insert : Tags → Op Bool) (delete : List Column → Op Bool)
    (tags originalTags : Option Tags) : Op Bool :=
  if isEmptyTags originalTags then
    if isEmptyTags tags then pure true else insert (tags.getD ∅)
  else
    match tags with
    | none => Tx.raise .nullPointer
    | some currentTags =>
      let (tagsToRemove, tagsToAdd) := tagChanges (originalTags.getD ∅) currentTags
      (delete tagsToRemove).both (insert tagsToAdd)

/-- The tags of an object; without any in the request there is nothing to do. -/
def processTags (insert : Tags → Op Bool) (delete : List Column → Op Bool) (tags : Option Tags)
    (originalTags : Option (Option Tags)) : Op Bool :=
  if isEmptyTags tags then pure true
  else
    match originalTags with
    | none => insert (tags.getD ∅)
    | some originalTags => processUpdateTags insert delete tags originalTags

def processRoleTags (config : Config) (role : Role) (roleName domainName : Str)
    (originalRole : Option Role) : Op Bool :=
  processTags (roleTable.insertTags config.roleTagsLimit roleName domainName)
    (roleTable.deleteTags roleName domainName) role.tags (originalRole.map (·.tags))

def processGroupTags (config : Config) (group : Group) (groupName domainName : Str)
    (originalGroup : Option Group) : Op Bool :=
  processTags (groupTable.insertTags config.groupTagsLimit groupName domainName)
    (groupTable.deleteTags groupName domainName) group.tags (originalGroup.map (·.tags))

def processRole (config : Config) (originalRole : Option Role) (domainName roleName : Str)
    (role : Role) (admin : Option Str) (ignoreDeletes : Bool) : Op Bool :=
  match originalRole with
  | none =>
    (insertRole domainName { role with auditEnabled := some false }).both <|
    (Tx.forAll (fun member => insertRoleMember domainName roleName member admin)
      (role.roleMembers.getD [])).both <|
    processRoleTags config role roleName domainName originalRole
  | some original =>
    (updateRole domainName { role with auditEnabled := original.auditEnabled }).both <|
    (roleTable.processUpdateMembers original.roleMembers role.roleMembers ignoreDeletes domainName
      roleName admin).both <|
    processRoleTags config role roleName domainName originalRole

def processGroup (config : Config) (originalGroup : Option Group) (domainName groupName : Str)
    (group : Group) (admin : Option Str) : Op Bool :=
  match originalGroup with
  | none =>
    (insertGroup domainName { group with auditEnabled := some false }).both <|
    (Tx.forAll (fun member => insertGroupMember domainName groupName member admin)
      (group.groupMembers.getD [])).both <|
    processGroupTags config group groupName domainName originalGroup
  | some original =>
    (updateGroup domainName { group with auditEnabled := original.auditEnabled }).both <|
    (groupTable.processUpdateMembers original.groupMembers group.groupMembers false domainName
      groupName admin).both <|
    processGroupTags config group groupName domainName originalGroup

end Objects

section ServiceIdentities

def keyMap (publicKeys : Option (List PublicKeyEntry)) : Map Str PublicKeyEntry :=
  (publicKeys.getD []).foldl (fun keys entry => keys.insert entry.id entry) ∅

/-- The keys are compared by their identifiers, the hosts by their names. -/
def processServiceIdentity (originalService : Option ServiceIdentity) (domainName serviceName : Str)
    (service : ServiceIdentity) (ignoreDeletes : Bool) : Op Bool :=
  let insertKeys := Tx.forAll (insertPublicKeyEntry domainName serviceName)
  let keys : Op Bool :=
    match originalService with
    | none =>
      (insertServiceIdentity domainName { service with providerEndpoint := none }).both <|
      insertKeys (service.publicKeys.getD [])
    | some original =>
      let curPublicKeys := keyMap original.publicKeys
      let publicKeys := keyMap service.publicKeys
      let delPublicKeys := curPublicKeys.filter fun id _ => id ∉ publicKeys
      let newPublicKeys := publicKeys.filter fun id _ => id ∉ curPublicKeys
      (updateServiceIdentity domainName
        { service with providerEndpoint := original.providerEndpoint }).both <|
      (if ignoreDeletes then pure true
        else Tx.forAll (deletePublicKeyEntry domainName serviceName) delPublicKeys.keys).both <|
      insertKeys (newPublicKeys.entries.map (·.2))
  let curHosts := ((originalService.bind (·.hosts)).getD []).dedup
  let newHosts := (service.hosts.getD []).dedup
  keys.both <|
  (Tx.forAll (deleteServiceHost domainName serviceName) (curHosts.filter (· ∉ newHosts))).both <|
  Tx.forAll (insertServiceHost domainName serviceName) (newHosts.filter (· ∉ curHosts))

end ServiceIdentities

section SolutionTemplates

/-- The text with every occurrence of a pattern replaced, from the left. -/
def replaceFrom (pattern replacement : Str) : Nat → Str → Str
  | _, [] => []
  | skip + 1, _ :: text => replaceFrom pattern replacement skip text
  | 0, c :: text =>
    if pattern <+: c :: text then
      replacement ++ replaceFrom pattern replacement (pattern.length - 1) text
    else c :: replaceFrom pattern replacement 0 text

def substitute (domainName : Str) (params : Option (List TemplateParam)) (text : Str) : Str :=
  (params.getD []).foldl
    (fun text param => replaceFrom ("_".toList ++ param.name ++ "_".toList) param.value 0 text)
    (replaceFrom "_domain_" domainName 0 text)

def updateTemplateRole (role : Role) (domainName : Str) (params : Option (List TemplateParam)) :
    Role :=
  { role with
    name := substitute domainName params role.name
    auditEnabled := none
    roleMembers := some ((role.roleMembers.getD []).map fun member =>
      { memberName := substitute domainName params member.memberName
        expiration := member.expiration
        reviewReminder := member.reviewReminder })
    tags := none }

def updateTemplatePolicy (policy : Policy) (domainName : Str)
    (params : Option (List TemplateParam)) : Policy where
  name := substitute domainName params policy.name
  assertions := some ((policy.assertions.getD []).map fun assertion =>
    { role := substitute domainName params assertion.role
      resource := substitute domainName params assertion.resource
      action := assertion.action
      effect := assertion.effect })

def updateTemplateServiceIdentity (service : ServiceIdentity) (domainName : Str)
    (params : Option (List TemplateParam)) : ServiceIdentity :=
  { service with
    name := substitute domainName params service.name
    publicKeys := some (service.publicKeys.getD []) }

/-- The attributes that a template leaves open are those of the stored role. -/
def mergeOriginalRoleAndMetaRoleAttributes (originalRole templateRole : Role) : Role :=
  { templateRole with
    selfServe := templateRole.selfServe.or originalRole.selfServe
    memberExpiryDays := templateRole.memberExpiryDays.or originalRole.memberExpiryDays
    serviceExpiryDays := templateRole.serviceExpiryDays.or originalRole.serviceExpiryDays
    groupExpiryDays := templateRole.groupExpiryDays.or originalRole.groupExpiryDays
    groupReviewDays := templateRole.groupReviewDays.or originalRole.groupReviewDays
    tokenExpiryMins := templateRole.tokenExpiryMins.or originalRole.tokenExpiryMins
    certExpiryMins := templateRole.certExpiryMins.or originalRole.certExpiryMins
    signAlgorithm := templateRole.signAlgorithm.or originalRole.signAlgorithm
    reviewEnabled := templateRole.reviewEnabled.or originalRole.reviewEnabled
    notifyRoles := templateRole.notifyRoles.or originalRole.notifyRoles
    memberReviewDays := templateRole.memberReviewDays.or originalRole.memberReviewDays
    serviceReviewDays := templateRole.serviceReviewDays.or originalRole.serviceReviewDays
    userAuthorityFilter := templateRole.userAuthorityFilter.or originalRole.userAuthorityFilter
    userAuthorityExpiration :=
      templateRole.userAuthorityExpiration.or originalRole.userAuthorityExpiration }

def removeDomainPrefix (objectName domainName separator : Str) : Str :=
  (extractObjectName domainName objectName separator).getD objectName

variable [CaseRules]

def addTemplateRole (config : Config) (domainName : Str) (admin : Option Str)
    (params : Option (List TemplateParam)) (role : Role) : Op Bool := do
  let templateRole := updateTemplateRole role domainName params
  let roleName := removeDomainPrefix templateRole.name domainName ":role."
  let originalRole ← getRole domainName roleName
  let templateRole := originalRole.elim templateRole
    fun original => mergeOriginalRoleAndMetaRoleAttributes original templateRole
  processRole config originalRole domainName roleName templateRole admin true

def addTemplatePolicy (domainName : Str) (params : Option (List TemplateParam)) (policy : Policy) :
    Op Bool := do
  let templatePolicy := updateTemplatePolicy policy domainName params
  let policyName := removeDomainPrefix templatePolicy.name domainName ":policy."
  let originalPolicy ← getPolicy domainName policyName none
  processPolicy originalPolicy domainName policyName templatePolicy true

def addTemplateServiceIdentity (domainName : Str) (params : Option (List TemplateParam))
    (service : ServiceIdentity) : Op Bool := do
  let templateService := updateTemplateServiceIdentity service domainName params
  let serviceName := removeDomainPrefix templateService.name domainName "."
  let originalService ← getServiceIdentity domainName serviceName
  processServiceIdentity originalService domainName serviceName templateService true

def ensureListed (domainName templateName : Str) : Op Unit := do
  let currentTemplateList ← listDomainTemplates domainName
  if templateName ∈ currentTemplateList then pure ()
  else insertDomainTemplate domainName templateName

/-- The template is listed with its version; one without metadata is a null pointer. -/
def listTemplate (domainName templateName : Str) (template : Template) : Op Bool := do
  ensureListed domainName templateName
  match template.metadata with
  | none => Tx.raise .nullPointer
  | some metadata =>
    match metadata.latestVersion with
    | none => pure true
    | some version => do
      updateDomainTemplate domainName templateName version
      pure true

def addSolutionTemplate (config : Config) (domainName templateName : Str) (admin : Option Str)
    (params : Option (List TemplateParam)) : Op Bool :=
  match config.templates.lookup templateName with
  | none => pure true
  | some template =>
    (Tx.forAll (addTemplateRole config domainName admin params) (template.roles.getD [])).both <|
    (Tx.forAll (addTemplatePolicy domainName params) (template.policies.getD [])).both <|
    (Tx.forAll (addTemplateServiceIdentity domainName params) (template.services.getD [])).both <|
    listTemplate domainName templateName template

end SolutionTemplates

end Athenz.ZmsServer
