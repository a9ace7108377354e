import Athenz.DbServiceOperations

namespace Athenz.ZmsServer
open Lib Lib.Text Lib.Transaction
set_option autoImplicit true

section Requests

structure RoleMeta where
  selfServe : Option Bool := none
  memberExpiryDays : Option Int := none
  tokenExpiryMins : Option Int := none
  certExpiryMins : Option Int := none
  signAlgorithm : Option Str := none
  serviceExpiryDays : Option Int := none
  memberReviewDays : Option Int := none
  serviceReviewDays : Option Int := none
  groupReviewDays : Option Int := none
  reviewEnabled : Option Bool := none
  notifyRoles : Option Str := none
  userAuthorityFilter : Option Str := none
  userAuthorityExpiration : Option Str := none
  groupExpiryDays : Option Int := none
  tags : Option Tags := none

/-- The first two have default values. -/
structure GroupMeta where
  selfServe : Bool := false
  reviewEnabled : Bool := false
  notifyRoles : Option Str := none
  userAuthorityFilter : Option Str := none
  userAuthorityExpiration : Option Str := none
  memberExpiryDays : Option Int := none
  serviceExpiryDays : Option Int := none
  tags : Option Tags := none

structure DomainMeta where
  description : Option Str := none
  org : Option Str := none
  enabled : Option Bool := none
  auditEnabled : Option Bool := none
  account : Option Str := none
  ypmId : Option Int := none
  applicationId : Option Str := none
  certDnsDomain : Option Str := none
  memberExpiryDays : Option Int := none
  tokenExpiryMins : Option Int := none
  serviceCertExpiryMins : Option Int := none
  roleCertExpiryMins : Option Int := none
  signAlgorithm : Option Str := none
  serviceExpiryDays : Option Int := none
  userAuthorityFilter : Option Str := none
  groupExpiryDays : Option Int := none
  azureSubscription : Option Str := none
  businessService : Option Str := none
  tags : Option Tags := none

/-- The attributes of a domain that only the system sets. -/
inductive SystemAttribute where
  | account | azureSubscription | productId | certDnsDomain | org | auditEnabled
  | userAuthorityFilter | enabled | businessService
  | unknown (name : Str)

end Requests

section DueDates

inductive PrincipalType where
  | user | group | service
deriving DecidableEq

def isUserDomainPrincipal (config : Config) (memberName : Str) : Bool :=
  (config.userDomainPrefix :: config.addlUserCheckDomainPrefixList).any (· <+: memberName)

def principalType (config : Config) (memberName : Str) : PrincipalType :=
  if isUserDomainPrincipal config memberName then .user
  else if (":group." : Str) <:+: memberName then .group
  else .service

def isNumOfDaysReduced (oldNumberOfDays newNumberOfDays : Option Int) : Bool :=
  newNumberOfDays.any fun new => 0 < new && oldNumberOfDays.all fun old => old ≤ 0 || new < old

/-- The latest dates that new numbers of days allow; none where the days are not reduced. -/
structure DueLimits where
  userExpiry : Option Int := none
  serviceExpiry : Option Int := none
  groupExpiry : Option Int := none
  userReview : Option Int := none
  serviceReview : Option Int := none
  groupReview : Option Int := none
  userAuthorityExpiry : Option Str := none
deriving DecidableEq

def dueLimit (now : Int) (oldNumberOfDays newNumberOfDays : Option Int) : Option Int :=
  if isNumOfDaysReduced oldNumberOfDays newNumberOfDays then
    newNumberOfDays.map fun days => now + days * 86400000
  else none

/-- A due date that is missing or later than the limit is moved to the limit. -/
def limitDueDate (limit currentDueDate : Option Int) : Option Int :=
  match limit with
  | none => currentDueDate
  | some newDueDate =>
    if currentDueDate.all (· > newDueDate) then some newDueDate else currentDueDate

/-- A user without a date of the authority expires now. -/
def updateUserAuthorityExpiry (authority : UserAuthority) (now : Int) (memberName : Str)
    (userAuthorityExpiry : Option Str) (expiration : Option Int) : Option Int :=
  match userAuthorityExpiry with
  | none => expiration
  | some name =>
    match authority.getDateAttribute memberName name with
    | none => if expiration.all (· > now) then some now else expiration
    | some date => some date

def updateDueDates (config : Config) (now : Int) (limits : DueLimits) (member : Member) : Member :=
  match principalType config member.memberName with
  | .user =>
    let expiration := limitDueDate limits.userExpiry member.expiration
    { member with
      expiration := config.userAuthority.elim expiration fun authority =>
        updateUserAuthorityExpiry authority now member.memberName limits.userAuthorityExpiry
          expiration
      reviewReminder := limitDueDate limits.userReview member.reviewReminder }
  | .group => { member with
      expiration := limitDueDate limits.groupExpiry member.expiration
      reviewReminder := limitDueDate limits.groupReview member.reviewReminder }
  | .service => { member with
      expiration := limitDueDate limits.serviceExpiry member.expiration
      reviewReminder := limitDueDate limits.serviceReview member.reviewReminder }

/-- The members whose dates change. -/
def getMembersWithUpdatedDueDates (config : Config) (now : Int) (limits : DueLimits)
    (members : List Member) : List Member :=
  (members.filter fun member => updateDueDates config now limits member ≠ member).map
    (updateDueDates config now limits)

def emptyToNull (value : Option Str) : Option Str := value.filter (· ≠ [])

variable [CaseRules]

def isUserAuthorityExpiryChanged (config : Config) (originalValue newValue : Option Str) : Bool :=
  config.userAuthority.isSome && (emptyToNull newValue).any fun new =>
    (emptyToNull originalValue).all fun original => !equalsIgnoreCase original new

def isUserAuthorityFilterChanged (config : Config) (originalValue newValue : Option Str) : Bool :=
  config.userAuthority.isSome &&
    match emptyToNull originalValue, emptyToNull newValue with
    | none, none => false
    | some original, some new => !equalsIgnoreCase original new
    | _, _ => true

def combineUserAuthorityFilters (roleFilter domainFilter : Option Str) : Option Str :=
  match emptyToNull roleFilter, emptyToNull domainFilter with
  | some role, some domain => some (role ++ ',' :: domain)
  | some role, none => some role
  | none, domain => domain

/-- The lowest bit of the disabled state belongs to the filter. -/
def getMemberUserAuthorityState (config : Config) (memberName : Str) (filter : Option Str)
    (currentState : Nat) : Nat :=
  match filter with
  | none => currentState / 2 * 2
  | some filter =>
    if isUserDomainPrincipal config memberName then
      if config.userAuthority.any (·.isUserAuthorityFilterValid filter memberName) then
        currentState / 2 * 2
      else currentState / 2 * 2 + 1
    else currentState

def getMembersWithUpdatedDisabledState (config : Config) (members : List Member)
    (filter : Option Str) : List Member :=
  let newState (member : Member) :=
    getMemberUserAuthorityState config member.memberName filter (member.systemDisabled.getD 0)
  (members.filter fun member => newState member ≠ member.systemDisabled.getD 0).map
    fun member => { member with systemDisabled := some (newState member) }

end DueDates

variable [Collation]

section MemberUpdates

/-- The steps one after the other, each tried on its own; it answers whether one succeeded. -/
def tryEach (step : Member → Op Bool) : List Member → Op Bool
  | [] => pure false
  | member :: members => do
    let done ← Tx.quietly (step member)
    let others ← tryEach step members
    pure (done || others)

/-- The times of an object and its domain are set behind changes of its members. -/
def Table.touch (table : Table S) (domainName name : Str) (changed : Bool) : Op Unit :=
  if changed then do
    let _ ← table.updateModTimestamp domainName name
    updateDomainModTimestamp domainName
  else pure ()

def Table.updateMembersDueDates (table : Table S) (config : Config) (ctx : Context) (now : Int)
    (domainName name : Str) (limits : DueLimits) (members : List Member) : Op Unit :=
  if limits = {} then pure ()
  else do
    let changed ← tryEach (fun member => table.insertMember domainName name member ctx.principal)
      (getMembersWithUpdatedDueDates config now limits members)
    table.touch domainName name changed

def Table.updateMembersSystemDisabledState (table : Table S) (config : Config) (ctx : Context)
    (domainName name : Str) (filter : Option Str) (members : List Member) : Op Unit := do
  let domainFilter ← Tx.query fun db =>
    (db.domains.lookup domainName).bind fun row => saveValue row.settings.userAuthorityFilter
  let changed ← tryEach
    (fun member => table.updateMemberDisabledState domainName name member.memberName ctx.principal
      (member.systemDisabled.getD 0))
    (getMembersWithUpdatedDisabledState config members
      (combineUserAuthorityFilters filter domainFilter))
  table.touch domainName name changed

variable [CaseRules]

def roleDueLimits (config : Config) (now : Int) (originalRole updatedRole : Role) : DueLimits where
  userExpiry := dueLimit now originalRole.memberExpiryDays updatedRole.memberExpiryDays
  serviceExpiry := dueLimit now originalRole.serviceExpiryDays updatedRole.serviceExpiryDays
  groupExpiry := dueLimit now originalRole.groupExpiryDays updatedRole.groupExpiryDays
  userReview := dueLimit now originalRole.memberReviewDays updatedRole.memberReviewDays
  serviceReview := dueLimit now originalRole.serviceReviewDays updatedRole.serviceReviewDays
  groupReview := dueLimit now originalRole.groupReviewDays updatedRole.groupReviewDays
  userAuthorityExpiry :=
    if isUserAuthorityExpiryChanged config originalRole.userAuthorityExpiration
        updatedRole.userAuthorityExpiration then updatedRole.userAuthorityExpiration
    else none

/-- The members of a delegated role are left alone. -/
def dueMembers (role : Role) : List Member :=
  if role.trust.any (· ≠ []) then [] else role.roleMembers.getD []

def updateRoleMembersDueDates (config : Config) (ctx : Context) (now : Int)
    (domainName roleName : Str) (originalRole updatedRole : Role) : Op Unit :=
  if dueMembers originalRole = [] then pure ()
  else
    roleTable.updateMembersDueDates config ctx now domainName roleName
      (roleDueLimits config now originalRole updatedRole) (dueMembers originalRole)

def updateRoleMembersSystemDisabledState (config : Config) (ctx : Context)
    (domainName roleName : Str) (originalRole updatedRole : Role) : Op Unit :=
  if dueMembers originalRole = [] then pure ()
  else if isUserAuthorityFilterChanged config originalRole.userAuthorityFilter
      updatedRole.userAuthorityFilter then
    roleTable.updateMembersSystemDisabledState config ctx domainName roleName
      updatedRole.userAuthorityFilter (dueMembers originalRole)
  else pure ()

def groupDueLimits (config : Config) (now : Int) (originalGroup updatedGroup : Group) :
    DueLimits where
  userExpiry := dueLimit now originalGroup.memberExpiryDays updatedGroup.memberExpiryDays
  serviceExpiry := dueLimit now originalGroup.serviceExpiryDays updatedGroup.serviceExpiryDays
  userAuthorityExpiry :=
    if isUserAuthorityExpiryChanged config originalGroup.userAuthorityExpiration
        updatedGroup.userAuthorityExpiration then updatedGroup.userAuthorityExpiration
    else none

def updateGroupMembersDueDates (config : Config) (ctx : Context) (now : Int)
    (domainName groupName : Str) (originalGroup updatedGroup : Group) : Op Unit :=
  let members := originalGroup.groupMembers.getD []
  if members = [] then pure ()
  else
    groupTable.updateMembersDueDates config ctx now domainName groupName
      (groupDueLimits config now originalGroup updatedGroup) members

def updateGroupMembersSystemDisabledState (config : Config) (ctx : Context)
    (domainName groupName : Str) (originalGroup updatedGroup : Group) : Op Unit :=
  let members := originalGroup.groupMembers.getD []
  if members = [] then pure ()
  else if isUserAuthorityFilterChanged config originalGroup.userAuthorityFilter
      updatedGroup.userAuthorityFilter then
    groupTable.updateMembersSystemDisabledState config ctx domainName groupName
      updatedGroup.userAuthorityFilter members
  else pure ()

end MemberUpdates

section RoleMetadata

variable [CaseRules]

/-- What a system update copies of a role. -/
def copyForSystemMeta (originalRole : Role) : Role where
  name := originalRole.name
  auditEnabled := originalRole.auditEnabled
  trust := originalRole.trust
  selfServe := originalRole.selfServe
  memberExpiryDays := originalRole.memberExpiryDays
  serviceExpiryDays := originalRole.serviceExpiryDays
  groupExpiryDays := originalRole.groupExpiryDays
  groupReviewDays := originalRole.groupReviewDays
  tokenExpiryMins := originalRole.tokenExpiryMins
  certExpiryMins := originalRole.certExpiryMins
  memberReviewDays := originalRole.memberReviewDays
  serviceReviewDays := originalRole.serviceReviewDays
  signAlgorithm := originalRole.signAlgorithm
  reviewEnabled := originalRole.reviewEnabled
  notifyRoles := originalRole.notifyRoles

/-- A group that is a member of an audited role is audited as well. -/
def checkGroupMemberAudit (config : Config) (memberName : Str) : Op Bool :=
  match principalType config memberName, indexOf (":group." : Str) memberName with
  | .group, some idx => do
    match ← Tx.query fun db =>
        groupTable.find db (memberName.take idx) (memberName.drop (idx + 7)) with
    | none => Tx.raise (requestError ("role has invalid group member: ".toList ++ memberName))
    | some group => do
      Tx.permit group.settings.auditEnabled (requestError
        ("role member: ".toList ++ memberName ++ " must have audit flag enabled".toList))
      pure true
  | _, _ => pure true

def checkGroupMembersAudit (config : Config) (auditEnabled : Option Bool) (role : Role) : Op Bool :=
  if auditEnabled = some true then
    Tx.forAll (fun member => checkGroupMemberAudit config member.memberName)
      (role.roleMembers.getD [])
  else pure true

/-- The audit reference for a domain that has been read. -/
def checkDomainAudit (config : Config) (ctx : Context) (domain : Domain) (objectType : AuditType) :
    Op Unit :=
  if config.auditRefSet objectType && domain.auditEnabled = some true then
    auditReferenceCheck config ctx domain.name
  else pure ()

/-- The domain of a system update, which has to be audited. -/
def checkSystemMeta (config : Config) (ctx : Context) (domainName : Str) (objectType : AuditType)
    (message : Str) : Op Unit := do
  match ← getDomain domainName with
  | none => Tx.abort (.resource 404 (ctx.caller ++ ": Unknown domain: ".toList ++ domainName))
  | some domain => do
    checkDomainAudit config ctx domain objectType
    Tx.permit (domain.auditEnabled = some true) (requestError message)

def putRoleSystemMetaBody (config : Config) (ctx : Context) (domainName roleName : Str)
    (auditEnabled : Option Bool) : Op Unit := do
  checkSystemMeta config ctx domainName .role (ctx.caller ++
    ": auditEnabled flag not set for domain: ".toList ++ domainName ++
    " to add it on the role: ".toList ++ roleName)
  match ← getRole domainName roleName with
  | none => Tx.raise .nullPointer
  | some originalRole => do
    let _ ← checkGroupMembersAudit config auditEnabled originalRole
    let _ ← updateRole domainName
      { copyForSystemMeta originalRole with auditEnabled := auditEnabled }

/-- The update of the audit flag of a role. -/
def executePutRoleSystemMeta (config : Config) (ctx : Context) (domainName roleName : Str)
    (auditEnabled : Option Bool) : Execution Unit :=
  execute config domainName (putRoleSystemMetaBody config ctx domainName roleName auditEnabled)

/-- What an update copies of a group. -/
def copyGroup (originalGroup : Group) : Group where
  name := originalGroup.name
  auditEnabled := originalGroup.auditEnabled
  selfServe := originalGroup.selfServe
  reviewEnabled := originalGroup.reviewEnabled
  notifyRoles := originalGroup.notifyRoles
  userAuthorityFilter := originalGroup.userAuthorityFilter
  userAuthorityExpiration := originalGroup.userAuthorityExpiration
  memberExpiryDays := originalGroup.memberExpiryDays
  serviceExpiryDays := originalGroup.serviceExpiryDays

def putGroupSystemMetaBody (config : Config) (ctx : Context) (domainName groupName : Str)
    (auditEnabled : Option Bool) : Op Unit := do
  checkSystemMeta config ctx domainName .group ("auditEnabled flag not set for domain: ".toList ++
    domainName ++ " to add it on the group: ".toList ++ groupName)
  match ← getGroup domainName groupName with
  | none => Tx.raise .nullPointer
  | some originalGroup => do
    let _ ← updateGroup domainName { copyGroup originalGroup with auditEnabled := auditEnabled }

/-- The update of the audit flag of a group. -/
def executePutGroupSystemMeta (config : Config) (ctx : Context) (domainName groupName : Str)
    (auditEnabled : Option Bool) : Execution Unit :=
  execute config domainName (putGroupSystemMetaBody config ctx domainName groupName auditEnabled)

/-- What an update copies of a role. -/
def copyRole (originalRole : Role) : Role :=
  { copyForSystemMeta originalRole with
    userAuthorityFilter := originalRole.userAuthorityFilter
    userAuthorityExpiration := originalRole.userAuthorityExpiration
    tags := originalRole.tags }

/-- The role with the attributes that the request has. -/
def updateRoleMetaFields (role : Role) (request : RoleMeta) : Role :=
  { role with
    selfServe := request.selfServe.or role.selfServe
    memberExpiryDays := request.memberExpiryDays.or role.memberExpiryDays
    serviceExpiryDays := request.serviceExpiryDays.or role.serviceExpiryDays
    groupExpiryDays := request.groupExpiryDays.or role.groupExpiryDays
    groupReviewDays := request.groupReviewDays.or role.groupReviewDays
    tokenExpiryMins := request.tokenExpiryMins.or role.tokenExpiryMins
    certExpiryMins := request.certExpiryMins.or role.certExpiryMins
    signAlgorithm := request.signAlgorithm.or role.signAlgorithm
    reviewEnabled := request.reviewEnabled.or role.reviewEnabled
    notifyRoles := request.notifyRoles.or role.notifyRoles
    memberReviewDays := request.memberReviewDays.or role.memberReviewDays
    serviceReviewDays := request.serviceReviewDays.or role.serviceReviewDays
    userAuthorityFilter := request.userAuthorityFilter.or role.userAuthorityFilter
    userAuthorityExpiration := request.userAuthorityExpiration.or role.userAuthorityExpiration
    tags := request.tags.or role.tags }

/-- The answer of the tag update is not looked at. -/
def putRoleMetaBody (config : Config) (ctx : Context) (domainName roleName : Str)
    (originalRole : Role) (request : RoleMeta) : Op Unit := do
  let updatedRole := updateRoleMetaFields (copyRole originalRole) request
  checkObjectAuditEnabled config ctx originalRole.auditEnabled originalRole.name
  let _ ← updateRole domainName updatedRole
  let _ ← processUpdateTags (roleTable.insertTags config.roleTagsLimit roleName domainName)
    (roleTable.deleteTags roleName domainName) updatedRole.tags originalRole.tags

/-- The update of a role as it was read before; the due dates and the state of its members follow
behind the transaction. -/
def executePutRoleMeta (config : Config) (ctx : Context) (now : Int) (domainName roleName : Str)
    (originalRole : Role) (request : RoleMeta) : Execution Unit :=
  let updatedRole := updateRoleMetaFields (copyRole originalRole) request
  Tx.attempts false shouldRetryOperation (do
      Tx.saved (stampDomain domainName)
        (putRoleMetaBody config ctx domainName roleName originalRole request)
      updateRoleMembersDueDates config ctx now domainName roleName originalRole updatedRole
      updateRoleMembersSystemDisabledState config ctx domainName roleName originalRole updatedRole)
    (config.defaultRetryCount - 1)

end RoleMetadata

section GroupMetadata

variable [CaseRules]

def updateGroupMetaFields (group : Group) (request : GroupMeta) : Group :=
  { group with
    selfServe := some request.selfServe
    reviewEnabled := some request.reviewEnabled
    notifyRoles := request.notifyRoles.or group.notifyRoles
    userAuthorityFilter := request.userAuthorityFilter.or group.userAuthorityFilter
    userAuthorityExpiration := request.userAuthorityExpiration.or group.userAuthorityExpiration
    memberExpiryDays := request.memberExpiryDays.or group.memberExpiryDays
    serviceExpiryDays := request.serviceExpiryDays.or group.serviceExpiryDays
    tags := request.tags.or group.tags }

def splitAttributes (list : Str) : List Str := (list.splitOn ',').rdropWhile (· = [])

/-- A text of the one list is not in the other. -/
def userAuthorityAttrMissing (origAttrList checkAttrList : Option Str) : Bool :=
  (emptyToNull origAttrList).any fun original => (emptyToNull checkAttrList).all fun check =>
    original ≠ check && (splitAttributes original).any (· ∉ splitAttributes check)

/-- A role with the group as a member asks for an attribute that the group gives up. -/
def violatesRequirement (updatedGroup : Group) (filterRemoved expiryRemoved : Bool)
    (domain : DomainRow) (role : Collection RoleSettings) : Bool :=
  updatedGroup.name ∈ role.members &&
    (filterRemoved && userAuthorityAttrMissing
        (combineUserAuthorityFilters (saveValue role.settings.userAuthorityFilter)
          (saveValue domain.settings.userAuthorityFilter)) updatedGroup.userAuthorityFilter ||
      expiryRemoved && userAuthorityAttrMissing (saveValue role.settings.userAuthorityExpiration)
        updatedGroup.userAuthorityExpiration)

def validateGroupUserAuthorityAttrRequirements (originalGroup updatedGroup : Group) : Op Unit := do
  let filterRemoved := userAuthorityAttrMissing originalGroup.userAuthorityFilter
    updatedGroup.userAuthorityFilter
  let expiryRemoved := userAuthorityAttrMissing originalGroup.userAuthorityExpiration
    updatedGroup.userAuthorityExpiration
  if !filterRemoved && !expiryRemoved then pure ()
  else do
    let violated ← Tx.query fun db => db.domains.entries.any fun domain =>
      domain.2.roles.entries.any fun role =>
        violatesRequirement updatedGroup filterRemoved expiryRemoved domain.2 role.2
    Tx.permit (!violated) (requestError
      "Setting user authority attributes on the group will not satisfy role requirements")

/-- The stored group and the group with the attributes of the request; the answer of the tag update
is not looked at. -/
def putGroupMetaBody (config : Config) (ctx : Context) (domainName groupName : Str)
    (request : GroupMeta) : Op (Group × Group) := do
  match ← getGroup domainName groupName with
  | none => Tx.abort (.resource 404 ("Unknown group: ".toList ++ groupName))
  | some originalGroup => do
    let updatedGroup := updateGroupMetaFields
      { copyGroup originalGroup with tags := originalGroup.tags } request
    checkObjectAuditEnabled config ctx originalGroup.auditEnabled originalGroup.name
    validateGroupUserAuthorityAttrRequirements originalGroup updatedGroup
    let _ ← updateGroup domainName updatedGroup
    let _ ← processUpdateTags (groupTable.insertTags config.groupTagsLimit groupName domainName)
      (groupTable.deleteTags groupName domainName) updatedGroup.tags originalGroup.tags
    pure (originalGroup, updatedGroup)

def executePutGroupMeta (config : Config) (ctx : Context) (now : Int) (domainName groupName : Str)
    (request : GroupMeta) : Execution Unit :=
  Tx.attempts false shouldRetryOperation (do
      let (originalGroup, updatedGroup) ← Tx.saved (stampDomain domainName)
        (putGroupMetaBody config ctx domainName groupName request)
      updateGroupMembersDueDates config ctx now domainName groupName originalGroup updatedGroup
      updateGroupMembersSystemDisabledState config ctx domainName groupName originalGroup
        updatedGroup)
    (config.defaultRetryCount - 1)

end GroupMetadata

section DomainMetadata

variable [CaseRules]

/-- The description and the application are always those of the request. -/
def updateDomainMetaFields (domain : Domain) (request : DomainMeta) : Domain :=
  { domain with
    applicationId := request.applicationId
    description := request.description
    memberExpiryDays := request.memberExpiryDays.or domain.memberExpiryDays
    serviceExpiryDays := request.serviceExpiryDays.or domain.serviceExpiryDays
    groupExpiryDays := request.groupExpiryDays.or domain.groupExpiryDays
    roleCertExpiryMins := request.roleCertExpiryMins.or domain.roleCertExpiryMins
    serviceCertExpiryMins := request.serviceCertExpiryMins.or domain.serviceCertExpiryMins
    tokenExpiryMins := request.tokenExpiryMins.or domain.tokenExpiryMins
    signAlgorithm := request.signAlgorithm.or domain.signAlgorithm
    businessService := request.businessService.or domain.businessService
    tags := request.tags.or domain.tags }

def isDeleteSystemMetaAllowed [DecidableEq α] (deleteAllowed : Bool) (empty : α)
    (oldValue newValue : Option α) : Bool :=
  deleteAllowed || oldValue.all (· = empty) || oldValue = newValue

/-- A value that is set may only be reset with the right to do so. -/
def resetAttribute [DecidableEq α] (deleteAllowed : Bool) (empty : α) (oldValue newValue : Option α)
    (updated : Domain) : Except Failure Domain :=
  if isDeleteSystemMetaAllowed deleteAllowed empty oldValue newValue then .ok updated
  else .error (.resource 403 "unauthorized to reset system meta attribute")

/-- The domain with one attribute of the request. -/
def updateSystemMetaFields (domain : Domain) (systemAttribute : SystemAttribute)
    (deleteAllowed : Bool) (request : DomainMeta) : Except Failure Domain :=
  match systemAttribute with
  | .account => resetAttribute deleteAllowed [] domain.account request.account
      { domain with account := request.account }
  | .azureSubscription =>
    resetAttribute deleteAllowed [] domain.azureSubscription request.azureSubscription
      { domain with azureSubscription := request.azureSubscription }
  | .productId => resetAttribute deleteAllowed 0 domain.ypmId request.ypmId
      { domain with ypmId := request.ypmId }
  | .certDnsDomain => resetAttribute deleteAllowed [] domain.certDnsDomain request.certDnsDomain
      { domain with certDnsDomain := request.certDnsDomain }
  | .org => resetAttribute deleteAllowed [] domain.org request.org
      { domain with org := request.org }
  | .auditEnabled => .ok { domain with auditEnabled := request.auditEnabled }
  | .userAuthorityFilter => .ok { domain with userAuthorityFilter := request.userAuthorityFilter }
  | .enabled => .ok { domain with enabled := request.enabled }
  | .businessService => .ok { domain with businessService := request.businessService }
  | .unknown name => .error (requestError ("unknown system meta attribute: ".toList ++ name))

/-- The domain as a request asks for it. -/
def updatedDomain (domain : Domain) (request : DomainMeta)
    (systemAttribute : Option SystemAttribute) (deleteAllowed : Bool) : Except Failure Domain :=
  match systemAttribute with
  | none => .ok (updateDomainMetaFields domain request)
  | some name => updateSystemMetaFields domain name deleteAllowed request

/-- The update of a domain as it was read before. -/
def putDomainMetaBody (config : Config) (ctx : Context) (domain : Domain) (request : DomainMeta)
    (systemAttribute : Option SystemAttribute) (deleteAllowed : Bool) : Op Domain := do
  checkDomainAudit config ctx domain .domain
  match updatedDomain domain request systemAttribute deleteAllowed with
  | .error e => Tx.raise e
  | .ok updated => do
    let _ ← updateDomain updated
    let done ← processDomainTags config request.tags domain.tags domain.name true
    Tx.ensure done (internalServerError (ctx.caller ++ "Unable to update tags".toList))
    pure updated

/-- The due dates of the members of every role or group of a domain. -/
def Table.updateAllDueDates (table : Table S) (config : Config) (ctx : Context) (now : Int)
    (domainName : Str) (limits : DueLimits) (members : Collection S → List Member) :
    List (Sigma fun _ : Str => Collection S) → Op Bool
  | [] => pure false
  | object :: objects => do
    let changed ← tryEach
      (fun member => table.insertMember domainName object.1 member ctx.principal)
      (getMembersWithUpdatedDueDates config now limits (members object.2))
    let _ ← if changed then table.updateModTimestamp domainName object.1 else pure false
    let others ← table.updateAllDueDates config ctx now domainName limits members objects
    pure (changed || others)

/-- Roles and groups with their own days, and delegated roles, are left alone. -/
def updateDomainMembersExpiration (config : Config) (ctx : Context) (now : Int)
    (domain updated : Domain) (view : Option DomainRow) : Op Unit :=
  let limits : DueLimits := {
    userExpiry := dueLimit now domain.memberExpiryDays updated.memberExpiryDays
    serviceExpiry := dueLimit now domain.serviceExpiryDays updated.serviceExpiryDays
    groupExpiry := dueLimit now domain.groupExpiryDays updated.groupExpiryDays }
  match view with
  | none => pure ()
  | some row =>
    if limits = {} then pure ()
    else do
      let roles ← roleTable.updateAllDueDates config ctx now domain.name limits
        (fun role =>
          if role.settings.memberExpiryDays = 0 ∧ role.settings.serviceExpiryDays = 0 ∧
              role.settings.groupExpiryDays = 0 ∧ role.settings.trust.1 = [] then role.listMembers
          else []) row.roles.entries
      let groups ← groupTable.updateAllDueDates config ctx now domain.name limits
        (fun group =>
          if group.settings.memberExpiryDays = 0 ∧ group.settings.serviceExpiryDays = 0 then
            group.listMembers
          else []) row.groups.entries
      let _ ← touchDomain domain.name (roles || groups)

/-- The state of the members of every role of a domain. -/
def updateAllDisabledStates (config : Config) (ctx : Context) (domainName : Str)
    (domainFilter : Option Str) : List (Sigma fun _ : Str => Collection RoleSettings) → Op Unit
  | [] => pure ()
  | role :: roles => do
    let members := if role.2.settings.trust.1 = [] then role.2.listMembers else []
    let changed ← tryEach
      (fun member => roleTable.updateMemberDisabledState domainName role.1 member.memberName
        ctx.principal (member.systemDisabled.getD 0))
      (getMembersWithUpdatedDisabledState config members (combineUserAuthorityFilters
        (saveValue role.2.settings.userAuthorityFilter) domainFilter))
    roleTable.touch domainName role.1 changed
    updateAllDisabledStates config ctx domainName domainFilter roles

def updateDomainMembersUserAuthorityFilter (config : Config) (ctx : Context)
    (domain updated : Domain) (view : Option DomainRow) : Op Unit :=
  match view with
  | none => pure ()
  | some row =>
    if isUserAuthorityFilterChanged config domain.userAuthorityFilter
        updated.userAuthorityFilter then
      updateAllDisabledStates config ctx domain.name updated.userAuthorityFilter row.roles.entries
    else pure ()

/-- The update of a domain as it was read before; the members follow behind the transaction, as
the cache or the store shows them. -/
def executePutDomainMeta (config : Config) (ctx : Context) (now : Int) (domain : Domain)
    (request : DomainMeta) (systemAttribute : Option SystemAttribute) (deleteAllowed : Bool)
    (expirationView filterView : Option DomainRow) : Execution Unit :=
  Tx.attempts false shouldRetryOperation (do
      let updated ← putDomainMetaBody config ctx domain request systemAttribute deleteAllowed
      Tx.commit
      updateDomainMembersExpiration config ctx now domain updated expirationView
      updateDomainMembersUserAuthorityFilter config ctx domain updated filterView)
    (config.defaultRetryCount - 1)

end DomainMetadata

end Athenz.ZmsServer
