import Athenz.ZmsModel
import Mathlib.Data.List.Dedup

namespace Athenz.ZmsServer
open Lib Lib.Text Lib.Transaction
set_option autoImplicit true

variable [Collation]

/-- Operations over a connection to the object store. -/
abbrev Op (α : Type) := Tx Database Failure α

def notFoundError (objectType objectName : Str) : Failure :=
  .resource 404 ("unknown ".toList ++ objectType ++ " - ".toList ++ objectName)

def requestError (message : Str) : Failure := .resource 400 message

def internalServerError (message : Str) : Failure := .resource 500 message

/-- The violation of a unique index. -/
def duplicateEntry : Failure := .resource 400 "Entry already exists"

/-- A statement about the row of one domain. -/
def onDomain (domainName : Str) (f : DomainRow → Except Failure (α × DomainRow)) : Op α :=
  Tx.statement fun _ db =>
    match db.domains.lookup domainName with
    | none => .error (notFoundError "domain" domainName)
    | some row => do
      let (a, row) ← f row
      return (a, { db with domains := db.domains.insert domainName row })

/-- A query about the row of one domain. -/
def readDomain (domainName : Str) (f : DomainRow → Except Failure α) : Op α :=
  Tx.statement fun _ db =>
    match db.domains.lookup domainName with
    | none => .error (notFoundError "domain" domainName)
    | some row => do return (← f row, db)

def extractObjectName (domainName fullName objType : Str) : Option Str :=
  if domainName ++ objType <+: fullName then some (fullName.drop (domainName ++ objType).length)
  else none

section Collections

/-- The role table or the group table. -/
structure Table (S : Type) where
  objectType : Str
  separator : Str
  keepsReview : Bool
  get : DomainRow → Map Str (Collection S)
  set : Map Str (Collection S) → DomainRow → DomainRow
  get_set : ∀ m row, get (set m row) = m
  set_set : ∀ m m' row, set m (set m' row) = set m row

def roleTable : Table RoleSettings where
  objectType := "role"
  separator := ":role."
  keepsReview := true
  get row := row.roles
  set m row := { row with roles := m }
  get_set _ _ := rfl
  set_set _ _ _ := rfl

def groupTable : Table GroupSettings where
  objectType := "group"
  separator := ":group."
  keepsReview := false
  get row := row.groups
  set m row := { row with groups := m }
  get_set _ _ := rfl
  set_set _ _ _ := rfl

def Table.find (table : Table S) (db : Database) (domainName name : Str) : Option (Collection S) :=
  (db.domains.lookup domainName).bind fun row => (table.get row).lookup name

/-- The change of one row of a table. -/
def Table.change (table : Table S) (domainName name : Str)
    (f : Collection S → Except Failure (α × Collection S)) (row : DomainRow) :
    Except Failure (α × DomainRow) :=
  match (table.get row).lookup name with
  | none => .error (notFoundError table.objectType (domainName ++ table.separator ++ name))
  | some collection => do
    let (a, collection) ← f collection
    return (a, table.set ((table.get row).insert name collection) row)

def Table.on (table : Table S) (domainName name : Str)
    (f : Collection S → Except Failure (α × Collection S)) : Op α :=
  onDomain domainName (table.change domainName name f)

def Table.insertRow (table : Table S) (domainName name : Str) (settings : S) : Op Bool :=
  onDomain domainName fun row =>
    match (table.get row).lookup name with
    | some _ => .error duplicateEntry
    | none => .ok (true, table.set ((table.get row).insert name { settings := settings }) row)

def Table.updateRow (table : Table S) (domainName name : Str) (settings : S) : Op Bool :=
  table.on domainName name fun collection => .ok (true, { collection with settings := settings })

def Role.settings (role : Role) : RoleSettings where
  trust := processInsertValue role.trust
  auditEnabled := role.auditEnabled.getD false
  selfServe := role.selfServe.getD false
  memberExpiryDays := role.memberExpiryDays.getD 0
  tokenExpiryMins := role.tokenExpiryMins.getD 0
  certExpiryMins := role.certExpiryMins.getD 0
  signAlgorithm := processInsertValue role.signAlgorithm
  serviceExpiryDays := role.serviceExpiryDays.getD 0
  memberReviewDays := role.memberReviewDays.getD 0
  serviceReviewDays := role.serviceReviewDays.getD 0
  groupReviewDays := role.groupReviewDays.getD 0
  reviewEnabled := role.reviewEnabled.getD false
  notifyRoles := processInsertValue role.notifyRoles
  userAuthorityFilter := processInsertValue role.userAuthorityFilter
  userAuthorityExpiration := processInsertValue role.userAuthorityExpiration
  groupExpiryDays := role.groupExpiryDays.getD 0

def retrieveRole (domainName roleName : Str) (row : RoleSettings) : Role where
  name := domainName ++ ":role.".toList ++ roleName
  trust := saveValue row.trust
  auditEnabled := nullIfDefaultValue row.auditEnabled false
  selfServe := nullIfDefaultValue row.selfServe false
  memberExpiryDays := nullIfDefaultValue row.memberExpiryDays 0
  tokenExpiryMins := nullIfDefaultValue row.tokenExpiryMins 0
  certExpiryMins := nullIfDefaultValue row.certExpiryMins 0
  signAlgorithm := saveValue row.signAlgorithm
  serviceExpiryDays := nullIfDefaultValue row.serviceExpiryDays 0
  memberReviewDays := nullIfDefaultValue row.memberReviewDays 0
  serviceReviewDays := nullIfDefaultValue row.serviceReviewDays 0
  groupReviewDays := nullIfDefaultValue row.groupReviewDays 0
  reviewEnabled := nullIfDefaultValue row.reviewEnabled false
  notifyRoles := saveValue row.notifyRoles
  userAuthorityFilter := saveValue row.userAuthorityFilter
  userAuthorityExpiration := saveValue row.userAuthorityExpiration
  groupExpiryDays := nullIfDefaultValue row.groupExpiryDays 0

def Group.settings (group : Group) : GroupSettings where
  auditEnabled := group.auditEnabled.getD false
  selfServe := group.selfServe.getD false
  reviewEnabled := group.reviewEnabled.getD false
  notifyRoles := processInsertValue group.notifyRoles
  userAuthorityFilter := processInsertValue group.userAuthorityFilter
  userAuthorityExpiration := processInsertValue group.userAuthorityExpiration
  memberExpiryDays := group.memberExpiryDays.getD 0
  serviceExpiryDays := group.serviceExpiryDays.getD 0

def retrieveGroup (domainName groupName : Str) (row : GroupSettings) : Group where
  name := domainName ++ ":group.".toList ++ groupName
  auditEnabled := nullIfDefaultValue row.auditEnabled false
  selfServe := nullIfDefaultValue row.selfServe false
  reviewEnabled := nullIfDefaultValue row.reviewEnabled false
  notifyRoles := saveValue row.notifyRoles
  userAuthorityFilter := saveValue row.userAuthorityFilter
  userAuthorityExpiration := saveValue row.userAuthorityExpiration
  memberExpiryDays := nullIfDefaultValue row.memberExpiryDays 0
  serviceExpiryDays := nullIfDefaultValue row.serviceExpiryDays 0

/-- The name of an object in its domain; a name of another domain stops the operation. -/
def objectName (domainName fullName separator : Str) : Op Str :=
  match extractObjectName domainName fullName separator with
  | none => Tx.abort (requestError ("domain name mismatch: ".toList ++ domainName))
  | some name => pure name

def insertRole (domainName : Str) (role : Role) : Op Bool := do
  let roleName ← objectName domainName role.name ":role."
  roleTable.insertRow domainName roleName role.settings

def updateRole (domainName : Str) (role : Role) : Op Bool := do
  let roleName ← objectName domainName role.name ":role."
  roleTable.updateRow domainName roleName role.settings

def insertGroup (domainName : Str) (group : Group) : Op Bool := do
  let groupName ← objectName domainName group.name ":group."
  groupTable.insertRow domainName groupName group.settings

def updateGroup (domainName : Str) (group : Group) : Op Bool := do
  let groupName ← objectName domainName group.name ":group."
  groupTable.updateRow domainName groupName group.settings

end Collections

section Members

/-- The domain of a principal is known. -/
def validatePrincipalDomain (db : Database) (principal : Str) : Bool :=
  if principal = "*" then true
  else
    match indexOf (":group." : Str) principal with
    | some idx => (db.domains.lookup (principal.take idx)).isSome
    | none =>
      match lastIndexOf '.' principal with
      | none => false
      | some idx =>
        if idx = 0 ∨ idx + 1 = principal.length then false
        else (db.domains.lookup (principal.take idx)).isSome

/-- The row of a member; an update keeps the flag that the system sets. -/
def memberRow (keepsReview : Bool) (member : Member) (stored : Option MemberRow) : MemberRow where
  expiration := member.expiration
  reviewReminder := if keepsReview then member.reviewReminder else none
  active := member.active.getD true
  systemDisabled := (stored.map (·.systemDisabled)).getD 0

/-- The row of a member that waits; each request replaces who has asked. -/
def pendingRow (keepsReview : Bool) (member : Member) (admin : Option Str) : PendingRow where
  expiration := member.expiration
  reviewReminder := if keepsReview then member.reviewReminder else none
  reqPrincipal := processInsertValue admin

/-- The insertion or update of a member, and the action that is logged. -/
def Collection.putMember (keepsReview : Bool) (member : Member) (admin : Option Str)
    (collection : Collection S) : Option Str × Collection S :=
  if member.approved = some false then
    (none, { collection with
      pending := collection.pending.insert member.memberName
        (pendingRow keepsReview member admin) })
  else
    let stored := collection.members.lookup member.memberName
    (some (if stored.isSome then ↑"UPDATE" else ↑"ADD"), { collection with
      members := collection.members.insert member.memberName
        (memberRow keepsReview member stored) })

def Table.insertAuditLog (table : Table S) (domainName name : Str) (admin : Option Str)
    (member action : Str) : Op Bool :=
  table.on domainName name fun collection =>
    .ok (true, { collection with
      auditLog := collection.auditLog ++ [⟨processInsertValue admin, member, action⟩] })

/-- The rows of a member; it answers the action that is logged. -/
def Table.putMember (table : Table S) (domainName name : Str) (member : Member)
    (admin : Option Str) : Op (Option Str) := do
  let known ← Tx.query fun db => validatePrincipalDomain db member.memberName
  if !known then Tx.abort (notFoundError "domain" member.memberName)
  else table.on domainName name fun collection =>
    .ok (collection.putMember table.keepsReview member admin)

def Table.logMember (table : Table S) (domainName name memberName : Str) (admin : Option Str) :
    Option Str → Op Bool
  | none => pure true
  | some action => table.insertAuditLog domainName name admin memberName action

def Table.insertMember (table : Table S) (domainName name : Str) (member : Member)
    (admin : Option Str) : Op Bool := do
  let action ← table.putMember domainName name member admin
  table.logMember domainName name member.memberName admin action

def Table.deleteMember (table : Table S) (domainName name memberName : Str)
    (admin : Option Str) : Op Bool := do
  let deleted ← table.on domainName name fun collection =>
    .ok ((collection.members.lookup memberName).isSome,
      { collection with members := collection.members.erase memberName })
  if !deleted then pure false
  else table.insertAuditLog domainName name admin memberName "DELETE"

def Table.updateMemberDisabledState (table : Table S) (domainName name memberName : Str)
    (admin : Option Str) (disabledState : Nat) : Op Bool := do
  let updated ← table.on domainName name fun collection =>
    match collection.members.lookup memberName with
    | none => .ok (false, collection)
    | some member => .ok (true, { collection with
        members := collection.members.insert memberName
          { member with systemDisabled := disabledState } })
  if !updated then pure false
  else
    table.insertAuditLog domainName name admin memberName
      (if disabledState = 0 then ↑"ENABLE" else ↑"DISABLE")

/-- The deletion of a member that waits. -/
def Table.erasePending (table : Table S) (domainName name memberName : Str) : Op Bool :=
  table.on domainName name fun collection =>
    .ok ((collection.pending.lookup memberName).isSome,
      { collection with pending := collection.pending.erase memberName })

def Table.deletePendingMember (table : Table S) (domainName name memberName : Str)
    (admin : Option Str) : Op Bool := do
  let deleted ← table.erasePending domainName name memberName
  if !deleted then pure false
  else table.insertAuditLog domainName name admin memberName "REJECT"

/-- The row of a member that is approved; only one that waits can be. -/
def Collection.approve (keepsReview : Bool) (member : Member) (collection : Collection S) :
    Collection S :=
  { collection with
    members := collection.members.insert member.memberName
      (memberRow keepsReview member (collection.members.lookup member.memberName)) }

/-- The decision about a member that waits. -/
def Table.confirmMember (table : Table S) (domainName name : Str) (member : Member)
    (admin : Option Str) : Op Bool := do
  table.on domainName name fun collection =>
    match collection.pending.lookup member.memberName with
    | none => .error (notFoundError "principal" member.memberName)
    | some _ =>
      .ok ((), if member.approved = some true then collection.approve table.keepsReview member
        else collection)
  if member.approved = some true then
    (table.insertAuditLog domainName name admin member.memberName "APPROVE").both do
      let _ ← table.erasePending domainName name member.memberName
      pure true
  else table.deletePendingMember domainName name member.memberName admin

def Table.updateModTimestamp (table : Table S) (domainName name : Str) : Op Bool :=
  table.on domainName name fun collection => .ok (true, collection)

def insertRoleMember := roleTable.insertMember

def deleteRoleMember := roleTable.deleteMember

def confirmRoleMember := roleTable.confirmMember

def deletePendingRoleMember := roleTable.deletePendingMember

def insertGroupMember := groupTable.insertMember

def deleteGroupMember := groupTable.deleteMember

def confirmGroupMember := groupTable.confirmMember

def deletePendingGroupMember := groupTable.deletePendingMember

/-- The roles that list a principal, each with its domain. -/
def Database.principalRoles (db : Database) (principal : Str) : List (Str × Str) :=
  db.domains.entries.flatMap fun domain =>
    (domain.2.roles.entries.filter fun role => (role.2.members.lookup principal).isSome).map
      fun role => (domain.1, role.1)

def getPrincipalRoles (principal : Str) : Op (List (Str × Str)) :=
  Tx.query fun db => db.principalRoles principal

def deleteGroup (domainName groupName : Str) : Op Bool :=
  onDomain domainName fun row =>
    .ok ((row.groups.lookup groupName).isSome, { row with groups := row.groups.erase groupName })

def MemberRow.toMember (entry : Sigma fun _ : Str => MemberRow) : Member where
  memberName := entry.1
  expiration := entry.2.expiration
  reviewReminder := entry.2.reviewReminder
  active := nullIfDefaultValue entry.2.active true
  approved := some true
  systemDisabled := nullIfDefaultValue entry.2.systemDisabled 0

/-- The approved members, in the order of the rows. -/
def Collection.listMembers (collection : Collection S) : List Member :=
  collection.members.entries.map MemberRow.toMember

end Members

section Tags

/-- The tags by name, in the order of the rows. -/
def tagsOf (rows : List TagRow) : Option Tags :=
  if rows = [] then none
  else some (rows.foldl (fun tags row => tags.appendTo row.key row.value) ∅)

def tagPairs (tags : Tags) : List TagRow :=
  tags.entries.flatMap fun entry => entry.2.map fun value => ⟨entry.1, value⟩

/-- The insertion of tags: the limit, and then one row after the other. -/
def insertTags (objectType : Str) (limit : Nat) (tags : Tags) (rows : List TagRow) :
    Except Failure (List TagRow) :=
  if rows.length + (tagPairs tags).length > limit then
    .error (.tagQuota objectType limit rows.length (tagPairs tags).length)
  else
    (tagPairs tags).foldlM
      (fun rows row =>
        if rows.any fun stored => sameText stored.key.1 row.key.1 &&
            sameText stored.value.1 row.value.1 then .error duplicateEntry
        else .ok (rows ++ [row])) rows

/-- The deletion of tags by name; it answers whether each name had rows. -/
def deleteTags (keys : List Column) (rows : List TagRow) : Bool × List TagRow :=
  keys.foldl
    (fun (res, rows) key => (res && rows.any fun row => sameText row.key.1 key.1,
      rows.filter fun row => !sameText row.key.1 key.1))
    (true, rows)

def Table.insertTags (table : Table S) (limit : Nat) (name domainName : Str) (tags : Tags) :
    Op Bool :=
  table.on domainName name fun collection => do
    let rows ← ZmsServer.insertTags table.objectType limit tags collection.tags
    return (true, { collection with tags := rows })

def Table.deleteTags (table : Table S) (name domainName : Str) (keys : List Column) : Op Bool :=
  table.on domainName name fun collection =>
    let (res, rows) := ZmsServer.deleteTags keys collection.tags
    .ok (res, { collection with tags := rows })

def insertDomainTags (limit : Nat) (domainName : Str) (tags : Tags) : Op Bool :=
  onDomain domainName fun row => do
    return (true, { row with tags := ← insertTags "domain" limit tags row.tags })

def deleteDomainTags (domainName : Str) (keys : List Column) : Op Bool :=
  onDomain domainName fun row =>
    let (res, rows) := deleteTags keys row.tags
    .ok (res, { row with tags := rows })

end Tags

section Policies

/-- A version that is missing or empty stands for the active one. -/
def isEmptyVersion (version : Option Str) : Bool := version.all (· = [])

def PolicyRow.isVersion (policyName : Str) (version : Option Str) (policy : PolicyRow) : Bool :=
  policy.name = policyName &&
    if isEmptyVersion version then policy.active else sameText policy.version (version.getD [])

def Database.policyRow (db : Database) (domainName policyName : Str) (version : Option Str) :
    Option PolicyRow :=
  (db.domains.lookup domainName).bind fun row =>
    row.policies.find? (·.isVersion policyName version)

/-- The change of one policy row, the first that matches. -/
def changePolicy (domainName policyName : Str) (version : Option Str)
    (f : PolicyRow → Except Failure (α × PolicyRow)) (row : DomainRow) :
    Except Failure (α × DomainRow) :=
  match row.policies.findIdx? (·.isVersion policyName version) with
  | none => .error (notFoundError "policy" (domainName ++ ":policy.".toList ++ policyName))
  | some i =>
    match row.policies[i]? with
    | none => .error .nullPointer
    | some policy => do
      let (a, policy) ← f policy
      return (a, { row with policies := row.policies.set i policy })

def insertPolicyRow (domainName policyName version : Str) (active : Bool) : Op Bool :=
  onDomain domainName fun row =>
    if row.policies.any fun p => p.name = policyName && sameText p.version version then
      .error duplicateEntry
    else .ok (true, { row with policies := row.policies ++ [⟨policyName, version, active, []⟩] })

/-- A versioned policy without an active flag is a null pointer. -/
def insertPolicy (domainName : Str) (policy : Policy) : Op Bool := do
  let policyName ← objectName domainName policy.name ":policy."
  if isEmptyVersion policy.version then insertPolicyRow domainName policyName "0" true
  else
    match policy.active with
    | none => do
      readDomain domainName fun _ => .ok ()
      Tx.raise .nullPointer
    | some active => insertPolicyRow domainName policyName (policy.version.getD []) active

def updatePolicy (domainName : Str) (policy : Policy) : Op Bool := do
  let policyName ← objectName domainName policy.name ":policy."
  onDomain domainName (changePolicy domainName policyName policy.version fun p => .ok (true, p))

def updatePolicyModTimestamp (domainName policyName : Str) (version : Option Str) : Op Bool :=
  onDomain domainName (changePolicy domainName policyName version fun p => .ok (true, p))

def setActivePolicyVersion (domainName policyName version : Str) : Op Bool :=
  onDomain domainName fun row =>
    .ok (row.policies.any (·.name = policyName), { row with
      policies := row.policies.map fun p =>
        if p.name = policyName then { p with active := sameText p.version version } else p })

def deletePolicy (domainName policyName : Str) : Op Bool :=
  onDomain domainName fun row =>
    .ok (row.policies.any (·.name = policyName),
      { row with policies := row.policies.filter (·.name ≠ policyName) })

def deletePolicyVersion (domainName policyName version : Str) : Op Bool :=
  onDomain domainName fun row =>
    let gone (p : PolicyRow) := p.name = policyName && sameText p.version version && !p.active
    .ok (row.policies.any gone, { row with policies := row.policies.filter (!gone ·) })

def AssertionRow.toAssertion (domainName : Str) (row : AssertionRow) : Assertion where
  role := domainName ++ ":role.".toList ++ row.role
  resource := row.resource
  action := row.action
  effect := some row.effect
  id := some row.id

/-- The statement that inserts an assertion, unless one with the same values is there; it answers
the identifier that a new row gets. -/
def insertAssertion (domainName policyName : Str) (version : Option Str) (assertion : Assertion) :
    Op (Option Nat) := do
  let roleName ← objectName domainName assertion.role ":role."
  Tx.statement fun _ db =>
    match db.domains.lookup domainName with
    | none => .error (notFoundError "domain" domainName)
    | some row => do
      let effect := assertion.effect.getD .ALLOW
      let (added, row) ← changePolicy domainName policyName version
        (fun p =>
          if p.assertions.any fun a => sameText a.role roleName &&
              sameText a.resource assertion.resource && sameText a.action assertion.action &&
              a.effect = effect then .ok (none, p)
          else .ok (some db.nextAssertionId, { p with
            assertions := p.assertions ++
              [⟨db.nextAssertionId, roleName, assertion.resource, assertion.action, effect, []⟩] }))
        row
      return (added, { db with
        domains := db.domains.insert domainName row
        nextAssertionId := if added.isSome then db.nextAssertionId + 1 else db.nextAssertionId })

def deleteAssertion (domainName policyName : Str) (version : Option Str) (id : Nat) : Op Bool :=
  onDomain domainName (changePolicy domainName policyName version fun p =>
    .ok (p.assertions.any (·.id = id), { p with assertions := p.assertions.filter (·.id ≠ id) }))

def listPolicyVersions (domainName policyName : Str) : Op (List Str) :=
  readDomain domainName fun row =>
    .ok ((row.policies.filter (·.name = policyName)).map (·.version))

/-- The policies of all domains. -/
def Database.policyRows (db : Database) : List PolicyRow :=
  db.domains.entries.flatMap fun entry => entry.2.policies

end Policies

section Conditions

/-- The rows of the conditions of an assertion, which is found by its number alone. -/
def Database.conditionRows (db : Database) (assertionId : Nat) : List ConditionRow :=
  ((db.policyRows.flatMap (·.assertions)).find? (·.id = assertionId)).elim [] (·.conditions)

def AssertionRow.setConditions (assertionId : Nat) (rows : List ConditionRow) (a : AssertionRow) :
    AssertionRow :=
  if a.id = assertionId then { a with conditions := rows } else a

def Database.setConditions (db : Database) (assertionId : Nat) (rows : List ConditionRow) :
    Database :=
  { db with
    domains := db.domains.mapValues fun row => { row with
      policies := row.policies.map fun p => { p with
        assertions := p.assertions.map (·.setConditions assertionId rows) } } }

/-- The condition with a number, of the rows that have it. -/
def conditionOf (rows : List ConditionRow) (conditionId : Int) : AssertionCondition where
  id := some conditionId
  conditionsMap := (rows.filter (·.id = conditionId)).foldl
    (fun keys row => keys.insert row.key row.data) ∅

/-- The conditions in the order of their numbers. -/
def conditionsOf (rows : List ConditionRow) : List AssertionCondition :=
  (((rows.map (·.id)).dedup).mergeSort (· ≤ ·)).map (conditionOf rows)

def getAssertionConditions (assertionId : Nat) : Op (List AssertionCondition) :=
  Tx.query fun db => conditionsOf (db.conditionRows assertionId)

def getAssertionCondition (assertionId : Nat) (conditionId : Int) :
    Op (Option AssertionCondition) :=
  Tx.query fun db =>
    let rows := db.conditionRows assertionId
    if rows.any (·.id = conditionId) then some (conditionOf rows conditionId) else none

def countAssertionConditions (assertionId : Nat) : Op Nat :=
  Tx.query fun db => (db.conditionRows assertionId).length

def nextConditionId (rows : List ConditionRow) : Int :=
  ((rows.map (·.id)).max?).elim 1 (· + 1)

def getNextConditionId (assertionId : Nat) : Op Int :=
  Tx.query fun db => nextConditionId (db.conditionRows assertionId)

/-- The rows with those of a condition; a number has each key once. -/
def addConditionRows (conditionId : Int) :
    List (Sigma fun _ : Str => AssertionConditionData) → List ConditionRow →
      Except Failure (List ConditionRow)
  | [], rows => .ok rows
  | entry :: entries, rows =>
    if rows.any fun row => row.id = conditionId && sameText row.key entry.1 then
      .error duplicateEntry
    else addConditionRows conditionId entries (rows ++ [⟨conditionId, entry.1, entry.2⟩])

def Database.storesAssertion (db : Database) (assertionId : Nat) : Bool :=
  (db.policyRows.flatMap (·.assertions)).any (·.id = assertionId)

/-- A condition without keys inserts nothing; the others need their assertion. -/
def insertConditionRows (assertionId : Nat) (conditionId : Int)
    (conditionsMap : Map Str AssertionConditionData) (db : Database) :
    Except Failure (Bool × Database) :=
  if conditionsMap.entries = [] then .ok (false, db)
  else if db.storesAssertion assertionId then do
    let rows ← addConditionRows conditionId conditionsMap.entries (db.conditionRows assertionId)
    return (true, db.setConditions assertionId rows)
  else .error (internalServerError "Cannot add or update a child row")

def insertSingleAssertionCondition (assertionId : Nat) (conditionId : Int)
    (conditionsMap : Map Str AssertionConditionData) : Op Bool :=
  Tx.statement fun _ db => insertConditionRows assertionId conditionId conditionsMap db

/-- Each condition gets a number of its own, also behind one that could not be inserted. -/
def insertNextCondition (assertionId : Nat) (result : Bool) (condition : AssertionCondition) :
    Op Bool := do
  let conditionId ← getNextConditionId assertionId
  if result then insertSingleAssertionCondition assertionId conditionId condition.conditionsMap
  else pure false

def insertConditionsFrom (assertionId : Nat) (result : Bool) : List AssertionCondition → Op Bool
  | [] => pure result
  | condition :: conditions => do
    let result ← insertNextCondition assertionId result condition
    insertConditionsFrom assertionId result conditions

def insertAssertionConditions (assertionId : Nat) (conditions : List AssertionCondition) : Op Bool :=
  insertConditionsFrom assertionId true conditions

/-- The deletion of some rows of an assertion. -/
def deleteConditionRows (assertionId : Nat) (gone : ConditionRow → Bool) : Op Bool :=
  Tx.statement fun _ db =>
    .ok ((db.conditionRows assertionId).any gone,
      db.setConditions assertionId ((db.conditionRows assertionId).filter (!gone ·)))

def deleteAssertionConditions (assertionId : Nat) : Op Bool :=
  deleteConditionRows assertionId fun _ => true

def deleteAssertionCondition (assertionId : Nat) (conditionId : Int) : Op Bool :=
  deleteConditionRows assertionId (·.id = conditionId)

end Conditions

section Services

def ServiceIdentity.row (service : ServiceIdentity) (stored : ServiceRow) : ServiceRow :=
  { stored with
    description := processInsertValue service.description
    providerEndpoint := processInsertValue service.providerEndpoint
    executable := processInsertValue service.executable
    user := processInsertValue service.user
    group := processInsertValue service.group }

def emptyServiceRow : ServiceRow where
  description := processInsertValue none
  providerEndpoint := processInsertValue none
  executable := processInsertValue none
  user := processInsertValue none
  group := processInsertValue none

/-- A statement about one service. -/
def onService (domainName serviceName : Str)
    (f : ServiceRow → Except Failure (α × ServiceRow)) : Op α :=
  onDomain domainName fun row =>
    match row.services.lookup serviceName with
    | none => .error (notFoundError "service" (domainName ++ '.' :: serviceName))
    | some service => do
      let (a, service) ← f service
      return (a, { row with services := row.services.insert serviceName service })

def insertServiceIdentity (domainName : Str) (service : ServiceIdentity) : Op Bool := do
  let serviceName ← objectName domainName service.name "."
  onDomain domainName fun row =>
    match row.services.lookup serviceName with
    | some _ => .error duplicateEntry
    | none =>
      .ok (true, { row with
        services := row.services.insert serviceName (service.row emptyServiceRow) })

def updateServiceIdentity (domainName : Str) (service : ServiceIdentity) : Op Bool := do
  let serviceName ← objectName domainName service.name "."
  onService domainName serviceName fun stored => .ok (true, service.row stored)

def insertPublicKeyEntry (domainName serviceName : Str) (publicKey : PublicKeyEntry) : Op Bool :=
  onService domainName serviceName fun service =>
    match service.publicKeys.lookup publicKey.id with
    | some _ => .error duplicateEntry
    | none =>
      .ok (true, { service with publicKeys := service.publicKeys.insert publicKey.id publicKey.key })

def deletePublicKeyEntry (domainName serviceName keyId : Str) : Op Bool :=
  onService domainName serviceName fun service =>
    .ok ((service.publicKeys.lookup keyId).isSome,
      { service with publicKeys := service.publicKeys.erase keyId })

def insertServiceHost (domainName serviceName host : Str) : Op Bool :=
  onService domainName serviceName fun service =>
    if host ∈ service.hosts then .error duplicateEntry
    else .ok (true, { service with hosts := service.hosts ++ [host] })

def deleteServiceHost (domainName serviceName host : Str) : Op Bool :=
  onService domainName serviceName fun service =>
    .ok (decide (host ∈ service.hosts), { service with hosts := service.hosts.filter (· ≠ host) })

end Services

section Entities

def insertEntity (domainName : Str) (entity : Entity) : Op Bool := do
  let entityName ← objectName domainName entity.name ":entity."
  onDomain domainName fun row =>
    match row.entities.lookup entityName with
    | some _ => .error duplicateEntry
    | none => .ok (true, { row with entities := row.entities.insert entityName entity.value })

def updateEntity (domainName : Str) (entity : Entity) : Op Bool := do
  let entityName ← objectName domainName entity.name ":entity."
  onDomain domainName fun row =>
    match row.entities.lookup entityName with
    | none => .ok (false, row)
    | some _ => .ok (true, { row with entities := row.entities.insert entityName entity.value })

end Entities

section Counts

def getQuota (domainName : Str) : Op (Option Quota) :=
  readDomain domainName fun row => .ok row.quota

def countRoles (domainName : Str) : Op Nat :=
  readDomain domainName fun row => .ok row.roles.entries.length

def countGroups (domainName : Str) : Op Nat :=
  readDomain domainName fun row => .ok row.groups.entries.length

/-- The policies are counted with all their versions. -/
def countPolicies (domainName : Str) : Op Nat :=
  readDomain domainName fun row => .ok row.policies.length

def countServiceIdentities (domainName : Str) : Op Nat :=
  readDomain domainName fun row => .ok row.services.entries.length

def countEntities (domainName : Str) : Op Nat :=
  readDomain domainName fun row => .ok row.entities.entries.length

/-- The members of a role or group are counted without the pending ones. -/
def Table.countMembers (table : Table S) (domainName name : Str) : Op Nat :=
  readDomain domainName fun row =>
    match (table.get row).lookup name with
    | none => .error (notFoundError table.objectType (domainName ++ table.separator ++ name))
    | some collection => .ok collection.members.entries.length

def countRoleMembers := roleTable.countMembers

def countGroupMembers := groupTable.countMembers

def listDomains ( namePrefix : Str) : Op (List Str) :=
  Tx.query fun db => db.domains.keys.filter (namePrefix <+: ·)

end Counts

section Templates

def listDomainTemplates (domainName : Str) : Op (List Str) :=
  readDomain domainName fun row => .ok row.templates.keys

def insertDomainTemplate (domainName templateName : Str) : Op Unit :=
  onDomain domainName fun row =>
    match row.templates.lookup templateName with
    | some _ => .error duplicateEntry
    | none => .ok ((), { row with templates := row.templates.insert templateName 0 })

def updateDomainTemplate (domainName templateName : Str) (version : Int) : Op Unit :=
  onDomain domainName fun row =>
    match row.templates.lookup templateName with
    | none => .ok ((), row)
    | some _ => .ok ((), { row with templates := row.templates.insert templateName version })

end Templates

section Domains

def Domain.settings (domain : Domain) : DomainSettings where
  description := processInsertValue domain.description
  org := processInsertValue domain.org
  uuid := processInsertValue domain.id
  enabled := domain.enabled.getD true
  auditEnabled := domain.auditEnabled.getD false
  account := processInsertValue domain.account
  ypmId := domain.ypmId.getD 0
  applicationId := processInsertValue domain.applicationId
  certDnsDomain := processInsertValue domain.certDnsDomain
  memberExpiryDays := domain.memberExpiryDays.getD 0
  tokenExpiryMins := domain.tokenExpiryMins.getD 0
  serviceCertExpiryMins := domain.serviceCertExpiryMins.getD 0
  roleCertExpiryMins := domain.roleCertExpiryMins.getD 0
  signAlgorithm := processInsertValue domain.signAlgorithm
  serviceExpiryDays := domain.serviceExpiryDays.getD 0
  userAuthorityFilter := processInsertValue domain.userAuthorityFilter
  groupExpiryDays := domain.groupExpiryDays.getD 0
  azureSubscription := processInsertValue domain.azureSubscription
  businessService := processInsertValue domain.businessService

def saveDomainSettings (domainName : Str) (row : DomainRow) : Domain where
  name := domainName
  description := saveValue row.settings.description
  org := saveValue row.settings.org
  id := saveValue row.settings.uuid
  enabled := some row.settings.enabled
  auditEnabled := some row.settings.auditEnabled
  account := saveValue row.settings.account
  ypmId := some row.settings.ypmId
  applicationId := saveValue row.settings.applicationId
  certDnsDomain := saveValue row.settings.certDnsDomain
  memberExpiryDays := nullIfDefaultValue row.settings.memberExpiryDays 0
  tokenExpiryMins := nullIfDefaultValue row.settings.tokenExpiryMins 0
  serviceCertExpiryMins := nullIfDefaultValue row.settings.serviceCertExpiryMins 0
  roleCertExpiryMins := nullIfDefaultValue row.settings.roleCertExpiryMins 0
  signAlgorithm := saveValue row.settings.signAlgorithm
  serviceExpiryDays := nullIfDefaultValue row.settings.serviceExpiryDays 0
  userAuthorityFilter := saveValue row.settings.userAuthorityFilter
  groupExpiryDays := nullIfDefaultValue row.settings.groupExpiryDays 0
  azureSubscription := saveValue row.settings.azureSubscription
  businessService := saveValue row.settings.businessService
  tags := tagsOf row.tags

def getDomain (domainName : Str) : Op (Option Domain) :=
  Tx.query fun db => (db.domains.lookup domainName).map (saveDomainSettings domainName)

/-- The first domain whose settings hold an identifier. -/
def lookupDomainById (db : Database) (holds : DomainSettings → Bool) : Option Str :=
  (db.domains.entries.find? fun entry => holds entry.2.settings).map (·.1)

/-- A domain is found by the text in a column and is another one, unless there is no text. -/
def assignedElsewhere (db : Database) (name : Str) (value : Option Str)
    (column : DomainSettings → Column) : Bool :=
  value.any (· ≠ []) && (lookupDomainById db fun settings =>
    sameText (column settings).1 (trim (value.getD []))).any (· ≠ name)

def verifyDomainAccountUniqueness (db : Database) (domain : Domain) : Except Failure Unit :=
  if assignedElsewhere db domain.name domain.account (·.account) then
    .error (requestError "Account Id is already assigned")
  else .ok ()

def verifyDomainSubscriptionUniqueness (db : Database) (domain : Domain) : Except Failure Unit :=
  if assignedElsewhere db domain.name domain.azureSubscription (·.azureSubscription) then
    .error (requestError "Subscription Id is already assigned")
  else .ok ()

def verifyDomainProductIdUniqueness (db : Database) (domain : Domain) : Except Failure Unit :=
  if domain.ypmId.any (· ≠ 0) && (lookupDomainById db fun settings =>
      settings.ypmId = domain.ypmId.getD 0).any (· ≠ domain.name) then
    .error (requestError "Product Id is already assigned")
  else .ok ()

def verifyUniqueness (db : Database) (domain : Domain) : Except Failure Unit := do
  verifyDomainAccountUniqueness db domain
  verifyDomainSubscriptionUniqueness db domain
  verifyDomainProductIdUniqueness db domain

/-- Whether a pattern of the store stands for a text. -/
def like : Str → Str → Bool
  | [], text => text = []
  | '%' :: pattern, text => text.tails.any fun rest => like pattern rest
  | '_' :: pattern, text => text ≠ [] && like pattern text.tail
  | '\\' :: c :: pattern, text => text.head?.any (sameText [c] [·]) && like pattern text.tail
  | c :: pattern, text => text.head?.any (sameText [c] [·]) && like pattern text.tail

/-- Names that differ in dots and dashes only have one form in certificates. -/
def dashed (name : Str) : Str := name.map fun c => if c = '.' then '-' else c

/-- The pattern of the names that may have one form with a name. -/
def domainQuery (name : Str) : Str := name.map fun c => if c = '.' ∨ c = '-' then '_' else c

def verifyDomainNameDashUniqueness (db : Database) (name : Str) : Except Failure Unit :=
  if (db.domains.keys.filter (like (domainQuery name))).any (dashed · = dashed name) then
    .error (requestError "Domain name conflict")
  else .ok ()

/-- The row that an insertion makes. -/
def Domain.newRow (domain : Domain) (time : Int) : DomainRow where
  settings := domain.settings
  modified := time

/-- What an update makes of a row. -/
def Domain.row (domain : Domain) (time : Int) (stored : DomainRow) : DomainRow :=
  { stored with
    settings := domain.settings
    modified := if stored.settings = domain.settings then stored.modified else time }

def insertDomain (domain : Domain) : Op Bool :=
  Tx.statement fun time db => do
    verifyUniqueness db domain
    verifyDomainNameDashUniqueness db domain.name
    return (true, { db with domains := db.domains.insert domain.name (domain.newRow time) })

def updateDomain (domain : Domain) : Op Bool :=
  Tx.statement fun time db => do
    verifyUniqueness db domain
    match db.domains.lookup domain.name with
    | none => return (false, db)
    | some row =>
      return (true, { db with domains := db.domains.insert domain.name (domain.row time row) })

def deleteDomain (domainName : Str) : Op Bool :=
  Tx.statement fun _ db =>
    .ok ((db.domains.lookup domainName).isSome,
      { db with domains := db.domains.erase domainName })

/-- The time of its last modification is set in the row of a domain. -/
def stampDomain (domainName : Str) (time : Int) (db : Database) : Database :=
  match db.domains.lookup domainName with
  | none => db
  | some row => { db with domains := db.domains.insert domainName { row with modified := time } }

def updateDomainModTimestamp (domainName : Str) : Op Unit :=
  Tx.statement fun time db => .ok ((), stampDomain domainName time db)

end Domains

end Athenz.ZmsServer
