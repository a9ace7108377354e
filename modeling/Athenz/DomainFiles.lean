import Athenz.Lib.Text
import Mathlib.Algebra.Group.Int.Defs

namespace Athenz.Zmscli
open Lib.Text
set_option autoImplicit true

section Data

/-- What the YAML library reads of a file. -/
inductive Node where
  | text (value : Str)
  | int (value : Int)
  | bool (value : Bool)
  | null
  | list (items : List Node)
  | map (entries : List (String × Node))

/-- Timestamps and their texts. -/
structure Rdl (T : Type) where
  string : T → Str
  timestampParse : Str → T

def Rdl.Lawful (rdl : Rdl T) : Prop := ∀ time, rdl.timestampParse (rdl.string time) = time

structure RoleMember (T : Type) where
  memberName : Str
  expiration : Option T := none
  reviewReminder : Option T := none
  approved : Option Bool := none
  systemDisabled : Option Int := none

structure Role (T : Type) where
  name : Str
  memberExpiryDays : Option Int := none
  serviceExpiryDays : Option Int := none
  tokenExpiryMins : Option Int := none
  certExpiryMins : Option Int := none
  memberReviewDays : Option Int := none
  serviceReviewDays : Option Int := none
  groupExpiryDays : Option Int := none
  groupReviewDays : Option Int := none
  auditEnabled : Option Bool := none
  reviewEnabled : Option Bool := none
  selfServe : Option Bool := none
  signAlgorithm : Str := []
  notifyRoles : Str := []
  userAuthorityFilter : Str := []
  userAuthorityExpiration : Str := []
  roleMembers : List (RoleMember T) := []
  tags : Option (List (Str × List Str)) := none
  trust : Str := []

inductive AssertionEffect where
  | allow
  | deny
  deriving DecidableEq

structure Assertion where
  role : Str
  resource : Str
  action : Str
  effect : Option AssertionEffect := none
  caseSensitive : Option Bool := none
  deriving DecidableEq

structure Policy where
  name : Str
  version : Str := []
  active : Option Bool := none
  assertions : List Assertion

structure PublicKeyEntry where
  key : Str
  keyId : Str
  deriving DecidableEq

structure ServiceIdentity (T : Type) where
  name : Str
  publicKeys : List PublicKeyEntry := []
  providerEndpoint : Str := []
  modified : Option T := none
  executable : Str := []
  hosts : Option (List Str) := none
  user : Str := []
  group : Str := []

structure Domain (T : Type) where
  name : Str
  description : Str := []
  account : Str := []
  azureSubscription : Str := []
  applicationId : Str := []
  businessService : Str := []
  ypmId : Option Int := none
  org : Str := []
  auditEnabled : Option Bool := none
  userAuthorityFilter : Str := []
  memberExpiryDays : Option Int := none
  serviceExpiryDays : Option Int := none
  tokenExpiryMins : Option Int := none
  serviceCertExpiryMins : Option Int := none
  roleCertExpiryMins : Option Int := none
  signAlgorithm : Str := []
  tags : Option (List (Str × List Str)) := none
  roles : List (Role T)
  policies : List Policy
  services : List (ServiceIdentity T) := []

end Data

section Export

abbrev Entries := List (String × Node)

def dumpStringValue (label : String) (value : Str) : Entries :=
  if value = [] then [] else [(label, .text value)]

def dumpInt32Value (label : String) (value : Option Int) : Entries :=
  match value with
  | some value => if value = 0 then [] else [(label, .int value)]
  | none => []

def dumpBoolValue (label : String) (value : Option Bool) : Entries :=
  match value with
  | some value => [(label, .bool value)]
  | none => []

def dumpTimestamp (rdl : Rdl T) (label : String) (value : Option T) : Entries :=
  match value with
  | some value => [(label, .text (rdl.string value))]
  | none => []

/-- A key with no items below it reads as null. -/
def itemList (items : List Node) : Node := if items.isEmpty then .null else .list items

/-- The text after the first occurrence. -/
def localName (fullResourceName objType : Str) : Str :=
  match indexOf objType fullResourceName with
  | some i => fullResourceName.drop (i + objType.length)
  | none => fullResourceName

def dumpTags (tags : Option (List (Str × List Str))) : Entries :=
  match tags with
  | some tags =>
    [("tags", itemList (tags.map fun tag =>
      .map [("key", .text tag.1), ("values", itemList (tag.2.map .text))]))]
  | none => []

def dumpFlag (label : String) (value : Bool) : Entries :=
  if value then [(label, .bool true)] else []

def dumpMember (rdl : Rdl T) (member : RoleMember T) : Entries :=
  [("name", .text member.memberName)] ++ dumpTimestamp rdl "expiration" member.expiration ++
    dumpTimestamp rdl "review" member.reviewReminder ++
    dumpFlag "pending" (member.approved = some false) ++
    dumpFlag "system-disabled" (member.systemDisabled.getD 0 ≠ 0)

def dumpMembers (rdl : Rdl T) (members : List (RoleMember T)) : Entries :=
  if members.isEmpty then []
  else [("members", .list (members.map fun member => .map (dumpMember rdl member)))]

def roleSettings (role : Role T) : Entries :=
  dumpInt32Value "member_expiry_days" role.memberExpiryDays ++
  dumpInt32Value "service_expiry_days" role.serviceExpiryDays ++
  dumpInt32Value "token_expiry_mins" role.tokenExpiryMins ++
  dumpInt32Value "cert_expiry_mins" role.certExpiryMins ++
  dumpInt32Value "member_review_days" role.memberReviewDays ++
  dumpInt32Value "service_review_days" role.serviceReviewDays ++
  dumpInt32Value "group_expiry_days" role.groupExpiryDays ++
  dumpInt32Value "group_review_days" role.groupReviewDays ++
  dumpBoolValue "audit_enabled" role.auditEnabled ++
  dumpBoolValue "review_enabled" role.reviewEnabled ++
  dumpBoolValue "self_serve" role.selfServe ++
  dumpStringValue "sign_algorithm" role.signAlgorithm ++
  dumpStringValue "notify_roles" role.notifyRoles ++
  dumpStringValue "user_authority_filter" role.userAuthorityFilter ++
  dumpStringValue "user_authority_expiration" role.userAuthorityExpiration

def dumpRole (rdl : Rdl T) (role : Role T) : Entries :=
  [("name", .text (localName role.name ":role.".toList))] ++ roleSettings role ++
    dumpMembers rdl role.roleMembers ++ dumpTags role.tags ++ dumpStringValue "trust" role.trust

def dumpEffect : Option AssertionEffect → Str
  | some .deny => "deny".toList
  | _ => "grant".toList

def dumpResource (dn resource : Str) : Str :=
  if dn ++ [':'] <+: resource then resource.drop (dn.length + 1) else resource

def dumpAssertion (dn : Str) (assertion : Assertion) : Str :=
  dumpEffect assertion.effect ++ ' ' :: assertion.action ++ " to ".toList ++
    localName assertion.role ":role.".toList ++ " on ".toList ++
    dumpResource dn assertion.resource

/-- The domain of a policy. -/
def policyDomain (policy : Policy) : Str :=
  policy.name.take ((lastIndexOf ':' policy.name).getD 0)

def dumpPolicy (policy : Policy) : Entries :=
  [("name", .text (localName policy.name ":policy.".toList))] ++
    dumpStringValue "version" policy.version ++ dumpBoolValue "active" policy.active ++
    [("assertions", .list (policy.assertions.map fun assertion =>
      .text (dumpAssertion (policyDomain policy) assertion)))]

def dumpPublicKey (publicKey : PublicKeyEntry) : Entries :=
  [("keyId", .text publicKey.keyId), ("value", .text publicKey.key)]

def dumpHosts (hosts : Option (List Str)) : Entries :=
  match hosts with
  | some hosts => [("hosts", .list (hosts.map .text))]
  | none => []

def dumpService (rdl : Rdl T) (service : ServiceIdentity T) : Entries :=
  [("name", .text service.name)] ++ dumpTimestamp rdl "modified" service.modified ++
    dumpStringValue "executable" service.executable ++ dumpStringValue "user" service.user ++
    dumpStringValue "group" service.group ++
    dumpStringValue "providerEndpoint" service.providerEndpoint ++ dumpHosts service.hosts ++
    [("publicKeys", .list (service.publicKeys.map fun key => .map (dumpPublicKey key)))]

def dumpDomain (domain : Domain T) : Entries :=
  dumpStringValue "name" domain.name ++ dumpStringValue "description" domain.description ++
  dumpStringValue "aws_account" domain.account ++
  dumpStringValue "azure_subscription" domain.azureSubscription ++
  dumpStringValue "application_id" domain.applicationId ++
  dumpStringValue "business_service" domain.businessService ++
  dumpInt32Value "product_id" domain.ypmId ++ dumpStringValue "org" domain.org ++
  dumpBoolValue "audit_enabled" domain.auditEnabled ++
  dumpStringValue "user_authority_filter" domain.userAuthorityFilter ++
  dumpInt32Value "member_expiry_days" domain.memberExpiryDays ++
  dumpInt32Value "service_expiry_days" domain.serviceExpiryDays ++
  dumpInt32Value "token_expiry_mins" domain.tokenExpiryMins ++
  dumpInt32Value "service_cert_expiry_mins" domain.serviceCertExpiryMins ++
  dumpInt32Value "role_cert_expiry_mins" domain.roleCertExpiryMins ++
  dumpStringValue "sign_algorithm" domain.signAlgorithm

def dumpServices (rdl : Rdl T) (services : List (ServiceIdentity T)) : Entries :=
  if services.isEmpty then []
  else [("services", .list (services.map fun service => .map (dumpService rdl service)))]

/-- A domain, without its groups and entities, which an import does not read. -/
def showDomain (rdl : Rdl T) (domain : Domain T) : Entries :=
  dumpDomain domain ++ dumpTags domain.tags ++
    [("roles", itemList (domain.roles.map fun role => .map (dumpRole rdl role)))] ++
    [("policies", itemList (domain.policies.map fun policy => .map (dumpPolicy policy)))] ++
    dumpServices rdl domain.services

def exportDomain (rdl : Rdl T) (domain : Domain T) : Entries :=
  [("domain", .map (showDomain rdl domain))]

end Export

section Requests

structure Cli where
  userDomain : Str
  homeDomain : Str
  identity : Str
  productIdSupport : Bool

inductive Failure where
  | panicked
  | failed (message : Str)
  deriving DecidableEq

inductive Request (T : Type) where
  | postTopLevelDomain (name : Str) (adminUsers : List Str) (ypmId : Int)
  | postUserDomain (name : Str)
  | postSubDomain (parent name : Str) (adminUsers : List Str)
  | putDomainMeta (dn description org : Str) (auditEnabled : Bool)
      (applicationId businessService : Str)
  | putServiceIdentity (service : ServiceIdentity T)
  | putServiceIdentitySystemMeta (service endpoint : Str)
  | putRole (role : Role T)
  | putMembership (role : Str) (member : Str) (expiration reviewReminder : Option T)
  | putPolicy (policy : Policy)

/-- The server: the members of the admin role that it creates with a domain, and the requests
that it has served since. -/
structure Server (T : Type) where
  adminMembers : List (RoleMember T)
  requests : List (Request T) := []

def Server.serve (server : Server T) (requests : List (Request T)) : Server T :=
  { server with requests := server.requests ++ requests }

def Request.createsRole (name : Str) : Request T → Bool
  | .putRole role => role.name = name
  | _ => false

def Request.createsPolicy (name : Str) : Request T → Bool
  | .putPolicy policy => policy.name = name
  | _ => false

def Server.hasRole (server : Server T) (dn rn : Str) : Bool :=
  rn = "admin".toList || server.requests.any (Request.createsRole (dn ++ ":role.".toList ++ rn))

def Server.hasPolicy (server : Server T) (dn pn : Str) : Bool :=
  pn = "admin".toList ||
    server.requests.any (Request.createsPolicy (dn ++ ":policy.".toList ++ pn))

/-- What a request makes of a service. -/
def Request.onService (name : Str) (service : Option (ServiceIdentity T)) :
    Request T → Option (ServiceIdentity T)
  | .putServiceIdentity put => if put.name = name then some put else service
  | .putServiceIdentitySystemMeta put endpoint =>
    if put = name then service.map fun service => { service with providerEndpoint := endpoint }
    else service
  | _ => service

def Server.getServiceIdentity (server : Server T) (name : Str) : Option (ServiceIdentity T) :=
  server.requests.foldl (Request.onService name) none

def Request.adminMember : Request T → Option (RoleMember T)
  | .putMembership role member expiration reviewReminder =>
    if role = "admin".toList then some { memberName := member, expiration, reviewReminder }
    else none
  | _ => none

/-- The members of the admin role. -/
def Server.getAdmins (server : Server T) : List (RoleMember T) :=
  server.adminMembers ++ server.requests.filterMap Request.adminMember

end Requests

section Casts

/-- `val.(string)`. -/
def asString : Node → Except Failure Str
  | .text value => .ok value
  | _ => .error .panicked

def asInt : Node → Except Failure Int
  | .int value => .ok value
  | _ => .error .panicked

def asBool : Node → Except Failure Bool
  | .bool value => .ok value
  | _ => .error .panicked

def asList : Node → Except Failure (List Node)
  | .list items => .ok items
  | _ => .error .panicked

def asMap : Node → Except Failure Entries
  | .map entries => .ok entries
  | _ => .error .panicked

/-- A key that is not there reads as nil. -/
def entry (entries : Entries) (key : String) : Node := (entries.lookup key).getD .null

def optionalString (entries : Entries) (key : String) : Except Failure Str :=
  match entries.lookup key with
  | some value => asString value
  | none => .ok []

end Casts

section Import

def Cli.validatedUser (cli : Cli) (user : Str) : Str :=
  if '.' ∉ user ∧ user ≠ "*".toList then cli.userDomain ++ '.' :: user else user

def Cli.validatedUsers (cli : Cli) (users : List Str) (forceSelf : Bool) : List Str :=
  let validated := users.map cli.validatedUser
  if forceSelf && cli.identity ∉ validated then validated ++ [cli.identity] else validated

def containsMember (roleMembers : List (RoleMember T)) (member : Str) : Bool :=
  roleMembers.any fun roleMember => roleMember.memberName = member

def Cli.validateRoleMembers (cli : Cli) (users : List (RoleMember T)) : List (RoleMember T) :=
  users.map fun user => { user with memberName := cli.validatedUser user.memberName }

/-- The request that creates a domain. -/
def Cli.createDomain (cli : Cli) (dn : Str) (productId : Int) (admins : List Str) : Request T :=
  match lastIndexOf '.' dn with
  | none => .postTopLevelDomain dn admins productId
  | some i =>
    if dn.take i = cli.homeDomain then .postUserDomain (dn.drop (i + 1))
    else .postSubDomain (dn.take i) (dn.drop (i + 1)) admins

def Cli.addDomain (cli : Cli) (server : Server T) (dn : Str) (productId : Int)
    (addSelf : Bool) (admins : List Str) : Server T :=
  server.serve [cli.createDomain dn productId (cli.validatedUsers admins addSelf)]

/-- A text that does not parse is reported and its value used nevertheless. -/
def optionalTimestamp (rdl : Rdl T) (entries : Entries) (key : String) :
    Except Failure (Option T) :=
  match entries.lookup key with
  | some value => do
    let text ← asString value
    return some (rdl.timestampParse text)
  | none => return none

def parseRoleMember (rdl : Rdl T) (memberStruct : Entries) : Except Failure (RoleMember T) := do
  let memberName ← asString (entry memberStruct "name")
  let expiration ← optionalTimestamp rdl memberStruct "expiration"
  let reviewReminder ← optionalTimestamp rdl memberStruct "review"
  return { memberName, expiration, reviewReminder }

def parseRoleMembers (rdl : Rdl T) (mem : List Node) : Except Failure (List (RoleMember T)) :=
  mem.mapM fun mbr => do parseRoleMember rdl (← asMap mbr)

def reservedAdmin : Str := "cannot replace reserved 'admin' role".toList

def addRole (server : Server T) (dn rn : Str) (role : Role T) :
    Except Failure (Server T) :=
  if server.hasRole dn rn then
    .error (.failed ("role already exists: ".toList ++ dn ++ ":role.".toList ++ rn))
  else if rn = "admin".toList then .error (.failed reservedAdmin)
  else .ok (server.serve [.putRole role])

def addDelegatedRole (server : Server T) (dn rn trusted : Str) :
    Except Failure (Server T) :=
  addRole server dn rn { name := dn ++ ":role.".toList ++ rn, trust := trusted }

def Cli.addRegularRole (cli : Cli) (server : Server T) (dn rn : Str)
    (roleMembers : List (RoleMember T)) : Except Failure (Server T) :=
  addRole server dn rn
    { name := dn ++ ":role.".toList ++ rn, roleMembers := cli.validateRoleMembers roleMembers }

/-- Only the expiration of a member is sent. -/
def Cli.addRoleMembers (cli : Cli) (server : Server T) (rn : Str)
    (members : List (RoleMember T)) : Server T :=
  server.serve ((cli.validateRoleMembers members).map fun mbr =>
    .putMembership rn mbr.memberName mbr.expiration none)

/-- The additional administrators after the members of the file. -/
def addAdmins (current roleMembers : List (RoleMember T)) : List Str → List (RoleMember T)
  | [] => roleMembers
  | admin :: admins =>
    addAdmins current
      (if !containsMember roleMembers admin && !containsMember current admin then
        roleMembers ++ [{ memberName := admin }]
      else roleMembers) admins

def Cli.importRoleOld (cli : Cli) (rdl : Rdl T) (dn : Str) (validatedAdmins : List Str)
    (server : Server T) (role : Node) : Except Failure (Server T) := do
  let roleMap ← asMap role
  let rn ← asString (entry roleMap "name")
  match roleMap.lookup "members" with
  | some val =>
    let mem ← asList val
    let roleMembers ← parseRoleMembers rdl mem
    if rn = "admin".toList then
      let current := server.getAdmins
      return cli.addRoleMembers server rn (addAdmins current
        (roleMembers.filter fun roleMember => !containsMember current roleMember.memberName)
        validatedAdmins)
    else cli.addRegularRole server dn rn roleMembers
  | none =>
    match roleMap.lookup "trust" with
    | some val => addDelegatedRole server dn rn (← asString val)
    | none => cli.addRegularRole server dn rn []

def Cli.importRolesOld (cli : Cli) (rdl : Rdl T) (dn : Str) (validatedAdmins : List Str)
    (server : Server T) (lstRoles : List Node) : Except Failure (Server T) :=
  lstRoles.foldlM (cli.importRoleOld rdl dn validatedAdmins) server

def badAssertion : Failure :=
  .failed "bad assertion syntax. should be '<effect> <action> to <role> on <resource>'".toList

def parseEffect (text : Str) : Except Failure AssertionEffect :=
  if text.map Char.toUpper = "GRANT".toList then .ok .allow
  else if text.map Char.toUpper = "DENY".toList then .ok .deny
  else .error badAssertion

def qualified (dn kind name : Str) : Str := if ':' ∈ name then name else dn ++ kind ++ name

/-- `strconv.ParseBool`. -/
def parseBool (text : Str) : Option Bool :=
  if text ∈ ["1", "t", "T", "TRUE", "true", "True"].map String.toList then some true
  else if text ∈ ["0", "f", "F", "FALSE", "false", "False"].map String.toList then some false
  else none

/-- A seventh word tells the case sensitivity. -/
def parseAssertion (dn : Str) : List Str → Except Failure Assertion
  | effect :: action :: toWord :: role :: onWord :: resource :: rest =>
    if rest.length ≤ 1 ∧ toWord.map Char.toLower = "to".toList ∧
        onWord.map Char.toLower = "on".toList then do
      let effect ← parseEffect effect
      return {
        role := qualified dn ":role.".toList role
        resource := qualified dn ":".toList resource
        action := action
        effect := some effect
        caseSensitive := rest.head?.bind parseBool }
    else .error badAssertion
  | _ => .error badAssertion

def addPolicyWithAssertions (server : Server T) (dn pn : Str)
    (assertions : List Assertion) : Except Failure (Server T) :=
  if server.hasPolicy dn pn then
    .error (.failed ("policy already exists: ".toList ++ dn ++ ":policy.".toList ++ pn))
  else .ok (server.serve [.putPolicy { name := dn ++ ":policy.".toList ++ pn, assertions }])

def importAssertions (dn name : Str) : List Node → Except Failure (List Assertion)
  | [] => .ok []
  | a :: lst => do
    let text ← asString a
    if name = "admin".toList ∧ text = "grant * to admin on *".toList then
      importAssertions dn name lst
    else
      let newAssertion ← parseAssertion dn (text.splitOn ' ')
      return newAssertion :: (← importAssertions dn name lst)

def importPolicyOld (dn : Str) (server : Server T) (policy : Node) :
    Except Failure (Server T) := do
  let policyMap ← asMap policy
  let name ← asString (entry policyMap "name")
  let addPolicy (assertions : List Assertion) : Except Failure (Server T) :=
    if name ≠ "admin".toList then addPolicyWithAssertions server dn name assertions
    else .ok server
  match policyMap.lookup "assertions" with
  | some .null => return server
  | some val => addPolicy (← importAssertions dn name (← asList val))
  | none => addPolicy []

def importPoliciesOld (dn : Str) (server : Server T) (lstPolicies : List Node) :
    Except Failure (Server T) :=
  lstPolicies.foldlM (importPolicyOld dn) server

def keyIdOf : Node → Except Failure Str
  | .int v => .ok (toString v).toList
  | .text v => .ok v
  | _ => .error .panicked

def generatePublicKey (pubKey : Node) : Except Failure PublicKeyEntry := do
  let publicKeyMap ← asMap pubKey
  let keyId ← keyIdOf (entry publicKeyMap "keyID")
  let value ← asString (entry publicKeyMap "value")
  return { key := value, keyId }

def generatePublicKeys (lstPublicKeys : List Node) : Except Failure (List PublicKeyEntry) :=
  lstPublicKeys.mapM generatePublicKey

def shortname (dn sn : Str) : Str :=
  if dn ++ ['.'] <+: sn then sn.drop (dn.length + 1) else sn

def longName (dn sn : Str) : Str := dn ++ '.' :: shortname dn sn

def addServiceWithKeys (server : Server T) (dn sn : Str) (publicKeys : List PublicKeyEntry) :
    Except Failure (Server T) :=
  match server.getServiceIdentity (longName dn sn) with
  | some service =>
    .error (.failed ("Service identity already exists: ".toList ++ service.name ++
      " - use add-public-key to add a key".toList))
  | none => .ok (server.serve [.putServiceIdentity { name := longName dn sn, publicKeys }])

def setServiceEndpoint (server : Server T) (dn sn endpoint : Str) : Server T :=
  server.serve [.putServiceIdentitySystemMeta (longName dn sn) endpoint]

def notFound : Failure := .failed "not found".toList

def setServiceExe (server : Server T) (dn sn exe user group : Str) : Except Failure (Server T) :=
  match server.getServiceIdentity (longName dn sn) with
  | some service =>
    .ok (server.serve [.putServiceIdentity { service with executable := exe, user, group }])
  | none => .error notFound

def addHosts (current : Option (List Str)) (hosts : List Str) : List Str :=
  match current with
  | none => hosts
  | some current =>
    hosts.foldl (fun kept host => if host ∈ kept then kept else kept ++ [host]) current

def addServiceHost (server : Server T) (dn sn : Str) (hosts : List Str) :
    Except Failure (Server T) :=
  match server.getServiceIdentity (longName dn sn) with
  | some service =>
    .ok (server.serve
      [.putServiceIdentity { service with hosts := some (addHosts service.hosts hosts) }])
  | none => .error notFound

def importServiceOld (dn : Str) (server : Server T) (service : Node) :
    Except Failure (Server T) := do
  let serviceMap ← asMap service
  let name ← asString (entry serviceMap "name")
  let lstPublicKeys ← match serviceMap.lookup "publicKeys" with
    | some val => asList val
    | none => pure []
  let publicKeys ← generatePublicKeys lstPublicKeys
  let server ← addServiceWithKeys server dn name publicKeys
  let endpoint ← optionalString serviceMap "providerEndpoint"
  let server := if endpoint ≠ [] then setServiceEndpoint server dn name endpoint else server
  let user ← optionalString serviceMap "user"
  let group ← optionalString serviceMap "group"
  let exe ← optionalString serviceMap "executable"
  let server ←
    if user ≠ [] ∨ group ≠ [] ∨ exe ≠ [] then setServiceExe server dn name exe user group
    else pure server
  match serviceMap.lookup "hosts" with
  | some val =>
    let hosts ← (← asList val).mapM asString
    addServiceHost server dn name hosts
  | none => return server

def importServicesOld (dn : Str) (server : Server T) (lstServices : List Node) :
    Except Failure (Server T) :=
  lstServices.foldlM (importServiceOld dn) server

def missingProductId : Failure :=
  .failed "top level domains require an integer number specified for the Product ID".toList

def Cli.productId (cli : Cli) (dn : Str) (dnSpec : Entries) : Except Failure Int :=
  match dnSpec.lookup "product_id" with
  | some val => asInt val
  | none =>
    if cli.productIdSupport = true ∧ '.' ∉ dn then .error missingProductId else .ok 0

def importDescription (dnSpec : Entries) : Str :=
  match dnSpec.lookup "description" with
  | some (.int val) => (toString val).toList
  | some (.text val) => val
  | _ => []

def importAuditEnabled (dnSpec : Entries) : Except Failure Bool :=
  match dnSpec.lookup "audit_enabled" with
  | some val => asBool val
  | none => .ok false

/-- The services, the roles and the policies of a file, in this order. -/
def Cli.importObjectsOld (cli : Cli) (rdl : Rdl T) (dn : Str) (dnSpec : Entries)
    (validatedAdmins : List Str) (server : Server T) : Except Failure (Server T) := do
  let server ← match dnSpec.lookup "services" with
    | some (.list lstServices) => importServicesOld dn server lstServices
    | _ => pure server
  let lstRoles ← asList (entry dnSpec "roles")
  let server ← cli.importRolesOld rdl dn validatedAdmins server lstRoles
  let lstPolicies ← asList (entry dnSpec "policies")
  importPoliciesOld dn server lstPolicies

def Cli.importDomainOld (cli : Cli) (rdl : Rdl T) (dn : Str) (spec : Entries)
    (admins : List Str) (server : Server T) : Except Failure (Server T) := do
  let validatedAdmins := cli.validatedUsers admins true
  let dnSpec ← asMap (entry spec "domain")
  let dn2 ← asString (entry dnSpec "name")
  if dn2 ≠ dn then
    throw (.failed ("Domain name mismatch. Expected ".toList ++ dn ++ ", encountered ".toList ++
      dn2))
  let productId ← cli.productId dn dnSpec
  let server := cli.addDomain server dn productId true admins
  let org ← optionalString dnSpec "org"
  let auditEnabled ← importAuditEnabled dnSpec
  let applicationId ← optionalString dnSpec "application_id"
  let businessService ← optionalString dnSpec "business_service"
  let server := server.serve [.putDomainMeta dn (importDescription dnSpec) org auditEnabled
    applicationId businessService]
  cli.importObjectsOld rdl dn dnSpec validatedAdmins server

end Import

end Athenz.Zmscli
