import Athenz.DbServiceMeta

namespace Athenz.ZmsServer
open Lib Lib.Text Lib.Transaction
set_option autoImplicit true

section Answers

/-- What an operation answers over a connection that commits each statement. -/
def answer (body : Op α) (db : Database) (events : Nat → Event Failure) : Except Failure α :=
  (body ⟨db, db, true, events⟩).1

theorem answer_eq_ok {body : Op α} :
    answer body db events = .ok a ↔ ∃ c, body ⟨db, db, true, events⟩ = (.ok a, c) := by
  rw [answer]
  constructor
  · intro h
    exact ⟨_, Prod.ext h rfl⟩
  · rintro ⟨c, h⟩
    rw [h]

/-- The answer of a step, or another value behind a failure that is ignored. -/
def ignoring (other : α) (body : Op α) : Op α := fun c =>
  match body c with
  | (.ok a, c) => (.ok a, c)
  | (.error .nullPointer, c) => (.error .nullPointer, c)
  | (.error _, c) => (.ok other, c)

end Answers

section Principals

def groupResourceName (domainName groupName : Str) : Str :=
  domainName ++ ":group.".toList ++ groupName

/-- The domain and the group of a name, split at the first separator. -/
def groupParts (memberName : Str) : Option (Str × Str) :=
  (indexOf (":group." : Str) memberName).map fun idx =>
    (memberName.take idx, memberName.drop (idx + 7))

def invalidPrincipal (memberName : Str) : Failure :=
  requestError ("Principal ".toList ++ memberName ++ " is not valid".toList)

def validateUserPrincipal (config : Config) (memberName : Str) (userAuthorityFilter : Option Str) :
    Op Unit :=
  match config.userAuthority with
  | none => pure ()
  | some authority => do
    Tx.permit (!config.validateUserRoleMembers || authority.isValidUser memberName)
      (invalidPrincipal memberName)
    Tx.permit ((emptyToNull userAuthorityFilter).all fun filter =>
        authority.isUserAuthorityFilterValid filter memberName)
      (requestError ("Invalid member: ".toList ++ memberName ++
        ". Required user authority filter not valid for the member".toList))

variable [Collation]

def validateServicePrincipal (config : Config) (memberName : Str) : Op Unit :=
  match lastIndexOf '.' memberName with
  | none => Tx.raise (invalidPrincipal memberName)
  | some idx =>
    if memberName.take idx ∈ config.validateServiceMemberSkipDomains then pure ()
    else do
      let service ← getServiceIdentity (memberName.take idx) (memberName.drop (idx + 1))
      Tx.permit service.isSome (requestError
        ("Principal ".toList ++ memberName ++ " is not a valid service".toList))

/-- What a role asks of its members, with the filter of its domain. -/
structure Requirement where
  userAuthorityFilter : Option Str := none
  userAuthorityExpiration : Option Str := none
  auditEnabled : Option Bool := none
  disallowGroups : Bool := false

def validateGroupPrincipal (memberName : Str) (requirement : Requirement) : Op Unit :=
  match groupParts memberName with
  | none => Tx.raise .nullPointer
  | some (domainName, groupName) => do
    match ← getGroup domainName groupName with
    | none => Tx.raise (invalidPrincipal memberName)
    | some group => do
      Tx.permit (!userAuthorityAttrMissing requirement.userAuthorityFilter group.userAuthorityFilter)
        (requestError ("Group ".toList ++ memberName ++
          " does not have same user authority filter ".toList ++
          requirement.userAuthorityFilter.getD "null".toList ++ " configured".toList))
      Tx.permit (!userAuthorityAttrMissing requirement.userAuthorityExpiration
          group.userAuthorityExpiration)
        (requestError ("Group ".toList ++ memberName ++
          " does not have same user authority expiration ".toList ++
          requirement.userAuthorityExpiration.getD "null".toList ++ " configured".toList))
      Tx.permit (requirement.auditEnabled ≠ some true || group.auditEnabled = some true)
        (requestError ("Group ".toList ++ memberName ++ " must be audit enabled".toList))

def validateRoleMemberPrincipal (config : Config) (memberName : Str) (requirement : Requirement) :
    Op Unit :=
  match principalType config memberName with
  | .user => validateUserPrincipal config memberName requirement.userAuthorityFilter
  | .service =>
    if config.validateServiceRoleMembers && '*' ∉ memberName then
      validateServicePrincipal config memberName
    else pure ()
  | .group =>
    if requirement.disallowGroups then
      Tx.raise (requestError "Group principals are not allowed in the role")
    else validateGroupPrincipal memberName requirement

end Principals

section Memberships

/-- What a role or a group says about new members. -/
structure ReviewFlags where
  auditEnabled : Option Bool
  reviewEnabled : Option Bool
  selfServe : Option Bool

def Role.reviewFlags (role : Role) : ReviewFlags where
  auditEnabled := role.auditEnabled
  reviewEnabled := role.reviewEnabled
  selfServe := role.selfServe

def Group.reviewFlags (group : Group) : ReviewFlags where
  auditEnabled := group.auditEnabled
  reviewEnabled := group.reviewEnabled
  selfServe := group.selfServe

/-- The member as it may be put by a principal with or without access to the members; one that has
to be approved waits. -/
def isAllowedPutMembership (updateAccess : Bool) (flags : ReviewFlags) (member : Member) :
    Option Member :=
  if updateAccess then
    let auditEnabled := flags.auditEnabled = some true || flags.reviewEnabled = some true
    some { member with active := some (!auditEnabled), approved := some (!auditEnabled) }
  else if flags.selfServe = some true then
    some { member with active := some false, approved := some false }
  else none

/-- The request of a member that waits, unless it has expired. -/
def Table.getPendingMember (table : Table S) (domainName name memberName : Str) :
    Op (Option PendingRow) :=
  Tx.statement fun time db =>
    match table.find db domainName name with
    | none => .error (notFoundError table.objectType (domainName ++ table.separator ++ name))
    | some stored =>
      .ok ((stored.pending.lookup memberName).filter fun row => row.expiration.all (time ≤ ·), db)

variable [CaseRules]

/-- Who has asked for a member does not decide about it. -/
def Table.checkRequester (table : Table S) (domainName name memberName principal : Str) : Op Unit := do
  match ← table.getPendingMember domainName name memberName with
  | none => Tx.raise (.resource 404 ("pending member ".toList ++ memberName ++ " not found".toList))
  | some row =>
    Tx.permit (!equalsIgnoreCase row.reqPrincipal.1 principal) (.resource 403
      ("principal ".toList ++ principal ++ " cannot approve his/her own request".toList))

end Memberships

section Deletions

/-- A failure to list the roles counts as no roles. -/
def groupMemberConsistencyCheck (domainName groupResourceName : Str) (skipOwnerDomain : Bool) :
    Op Unit := do
  let roles ← ignoring [] (getPrincipalRoles groupResourceName)
  let others := roles.filter fun role => !(skipOwnerDomain && role.1 = domainName)
  Tx.permit (others = []) (requestError ("Remove group '".toList ++ groupResourceName ++
    "' membership from the following role(s):".toList ++
    others.flatMap fun role => ' ' :: roleResourceName role.1 role.2))

end Deletions

section Conditions

variable [Collation] [CaseRules]

/-- A request about the conditions of an assertion. -/
inductive ConditionRequest where
  | putAssertionConditions (conditions : List AssertionCondition)
  | putAssertionCondition (condition : AssertionCondition)
  | deleteAssertionConditions
  | deleteAssertionCondition (conditionId : Int)

def ConditionRequest.adminMessage : ConditionRequest → Str
  | .putAssertionConditions _ => "putAssertionConditions: admin policy cannot have conditions"
  | .putAssertionCondition _ => "deleteAssertionCondition: admin policy cannot be modified"
  | .deleteAssertionConditions => "deleteAssertionConditions: admin policy cannot be modified"
  | .deleteAssertionCondition _ => "deleteAssertionCondition: admin policy cannot be modified"

def ConditionRequest.execute (config : Config) (ctx : Context) (domainName policyName : Str)
    (assertionId : Nat) : ConditionRequest → Execution Unit
  | .putAssertionConditions conditions =>
    executePutAssertionConditions config ctx domainName policyName assertionId conditions
  | .putAssertionCondition condition =>
    executePutAssertionCondition config ctx domainName policyName assertionId condition
  | .deleteAssertionConditions =>
    executeDeleteAssertionConditions config ctx domainName policyName assertionId
  | .deleteAssertionCondition conditionId =>
    executeDeleteAssertionCondition config ctx domainName policyName assertionId conditionId

/-- The conditions of the admin policy are left alone. -/
def ConditionRequest.run (config : Config) (ctx : Context) (domainName policyName : Str)
    (assertionId : Nat) (request : ConditionRequest) : Execution Unit := fun db events =>
  if equalsIgnoreCase policyName "admin" then (.error (requestError request.adminMessage), db)
  else request.execute config ctx domainName policyName assertionId db events

end Conditions

end Athenz.ZmsServer
