import Athenz.Membership

namespace Athenz.Zpe
open Lib Lib.Text Lib.Index Lib.Result Zts
set_option autoImplicit true

section Matchers

inductive ZpeMatch where
  | all
  | equal (matchValue : Str)
  | startsWith (start : Str)
  | regex (pattern : List GlobPiece)
deriving DecidableEq

def ZpeMatch.matches : ZpeMatch → Str → Bool
  | .all, _ => true
  | .equal matchValue, value => matchValue = value
  | .startsWith start, value => start <+: value
  | .regex pattern, value => matchesPattern pattern value

def getMatchObject (value : Str) : ZpeMatch :=
  if value = "*" then .all
  else
    match indexOf ['*'] value, indexOf ['?'] value with
    | none, none => .equal value
    | some anyCharMatch, none =>
      if anyCharMatch = value.length - 1 then .startsWith value.dropLast
      else .regex (patternFromGlob value)
    | _, some _ => .regex (patternFromGlob value)

end Matchers

section Loading

/-- The matchers of an assertion of a policy file. -/
structure ZpeAssertion where
  action : ZpeMatch
  resource : ZpeMatch
  role : ZpeMatch
deriving DecidableEq

abbrev RoleMap := Map Str (List ZpeAssertion)

structure PolicyData where
  domain : Str
  policies : List Policy
deriving DecidableEq

def stripDomainPrefix (assertString domain : Str) (defaultValue : Option Str) : Option Str :=
  match indexOf [':'] assertString with
  | none => some assertString
  | some index =>
    if assertString.take index ≠ domain then defaultValue else some (assertString.drop (index + 1))

/-- `replaceFirst("^role.", "")`: the dot stands for any character. -/
def stripRolePrefix (roleName : Str) : Str :=
  if ↑"role" <+: roleName then
    match roleName.drop 4 with
    | [] => roleName
    | c :: rest => if isLineTerminator c then roleName else rest
  else roleName

variable [CaseRules]

/-- The resource of an assertion without the name of its domain. -/
def assertResource (domainName : Str) (assertion : Assertion) : Str :=
  let resource := toLowerCase assertion.resource
  (stripDomainPrefix resource domainName (some resource)).getD resource

def assertRole (domainName : Str) (assertion : Assertion) : Str :=
  stripRolePrefix ((stripDomainPrefix assertion.role domainName (some assertion.role)).getD
    assertion.role)

def assertStruct (domainName : Str) (assertion : Assertion) : ZpeAssertion where
  action := getMatchObject (toLowerCase assertion.action)
  resource := getMatchObject (assertResource domainName assertion)
  role := getMatchObject (assertRole domainName assertion)

/-- The four maps of a domain. -/
structure RoleMaps where
  standardAllow : RoleMap := ∅
  wildcardAllow : RoleMap := ∅
  standardDeny : RoleMap := ∅
  wildcardDeny : RoleMap := ∅

def ZpeMatch.isEqual : ZpeMatch → Bool
  | .equal _ => true
  | _ => false

/-- The map of an assertion is chosen by its effect and by the kind of its role. -/
def addAssertion (domainName : Str) (maps : RoleMaps) (assertion : Assertion) : RoleMaps :=
  let roleName := assertRole domainName assertion
  let struct := assertStruct domainName assertion
  if assertion.effect = some .DENY then
    if struct.role.isEqual then
      { maps with standardDeny := maps.standardDeny.appendTo roleName struct }
    else { maps with wildcardDeny := maps.wildcardDeny.appendTo roleName struct }
  else
    if struct.role.isEqual then
      { maps with standardAllow := maps.standardAllow.appendTo roleName struct }
    else { maps with wildcardAllow := maps.wildcardAllow.appendTo roleName struct }

/-- The maps that a policy file leaves for its domain. -/
def roleMaps (policyData : PolicyData) : RoleMaps :=
  policyData.policies.foldl
    (fun maps policy => (policy.assertions.getD []).foldl (addAssertion policyData.domain) maps) {}

end Loading

section Loader

structure ZpeFileStatus where
  domain : Option Str := none
  modifyTimeMillis : Int
  validPolFile : Bool := false
deriving DecidableEq

structure ZpeUpdPolLoader where
  domStandardRoleAllowMap : Map Str RoleMap := ∅
  domWildcardRoleAllowMap : Map Str RoleMap := ∅
  domStandardRoleDenyMap : Map Str RoleMap := ∅
  domWildcardRoleDenyMap : Map Str RoleMap := ∅
  fileStatusRef : Map Str ZpeFileStatus := ∅

namespace ZpeUpdPolLoader

def getDomainCount (loader : ZpeUpdPolLoader) : Nat := loader.domWildcardRoleAllowMap.keys.length

/-- The maps of a domain are replaced. -/
def putMaps (domainName : Str) (maps : RoleMaps) (loader : ZpeUpdPolLoader) : ZpeUpdPolLoader :=
  { loader with
    domStandardRoleAllowMap := loader.domStandardRoleAllowMap.insert domainName maps.standardAllow
    domWildcardRoleAllowMap := loader.domWildcardRoleAllowMap.insert domainName maps.wildcardAllow
    domStandardRoleDenyMap := loader.domStandardRoleDenyMap.insert domainName maps.standardDeny
    domWildcardRoleDenyMap := loader.domWildcardRoleDenyMap.insert domainName maps.wildcardDeny }

end ZpeUpdPolLoader

end Loader

section Access

inductive AccessCheckStatus where
  | ALLOW | DENY | DENY_NO_MATCH | DENY_ROLETOKEN_EXPIRED | DENY_ROLETOKEN_INVALID
  | DENY_DOMAIN_MISMATCH | DENY_DOMAIN_NOT_FOUND | DENY_DOMAIN_EXPIRED | DENY_DOMAIN_EMPTY
  | DENY_INVALID_PARAMETERS | DENY_CERT_MISMATCH_ISSUER | DENY_CERT_MISSING_SUBJECT
  | DENY_CERT_MISSING_DOMAIN | DENY_CERT_MISSING_ROLE_NAME | DENY_CERT_HASH_MISMATCH
deriving DecidableEq

def matchAssertions (asserts : List ZpeAssertion) (action resource : Str) : Bool :=
  asserts.any fun struct => struct.action.matches action && struct.resource.matches resource

def actionByRole (action resource : Str) (roles : List Str) (roleMap : RoleMap) : Bool :=
  roles.any fun role => matchAssertions (roleMap.listAt role) action resource

/-- The role of a wildcard entry is that of its first assertion. -/
def actionByWildCardRole (action resource : Str) (roles : List Str) (roleMap : RoleMap) : Bool :=
  roles.any fun role => roleMap.keys.any fun roleName =>
    match roleMap.listAt roleName with
    | [] => false
    | struct :: asserts =>
      struct.role.matches role && matchAssertions (struct :: asserts) action resource

/-- One of the four steps of a decision: a hit ends it with a result. -/
def consult (hit : RoleMap → Bool) (roleMap : Option RoleMap) (result status : AccessCheckStatus) :
    Except AccessCheckStatus AccessCheckStatus :=
  match roleMap with
  | none => .ok status
  | some roleMap =>
    if roleMap.keys ≠ [] then if hit roleMap then .error result else .ok .DENY_NO_MATCH
    else if status ≠ .DENY_NO_MATCH then .ok .DENY_DOMAIN_EMPTY else .ok status

def decideAction (loader : ZpeUpdPolLoader) (domain action resource : Str) (roles : List Str) :
    Except AccessCheckStatus AccessCheckStatus := do
  let status ← consult (actionByRole action resource roles)
    (loader.domStandardRoleDenyMap.lookup domain) .DENY .DENY_DOMAIN_NOT_FOUND
  let status ← consult (actionByWildCardRole action resource roles)
    (loader.domWildcardRoleDenyMap.lookup domain) .DENY status
  let status ← consult (actionByRole action resource roles)
    (loader.domStandardRoleAllowMap.lookup domain) .ALLOW status
  consult (actionByWildCardRole action resource roles)
    (loader.domWildcardRoleAllowMap.lookup domain) .ALLOW status

variable [CaseRules]

def allowActionZPE (loader : ZpeUpdPolLoader) (action tokenDomain resource : Option Str)
    (roles : Option (List Str)) : AccessCheckStatus :=
  if roles.all (· = []) then .DENY_ROLETOKEN_INVALID
  else if isEmptyText tokenDomain then .DENY_ROLETOKEN_INVALID
  else if isEmptyText action then .DENY_INVALID_PARAMETERS
  else if isEmptyText resource then .DENY_INVALID_PARAMETERS
  else
    let domain := tokenDomain.getD []
    let resource := toLowerCase (resource.getD [])
    match stripDomainPrefix resource domain
        (if loader.getDomainCount = 1 then some resource else none) with
    | none => .DENY_DOMAIN_MISMATCH
    | some resource =>
      match decideAction loader domain (toLowerCase (action.getD [])) resource (roles.getD []) with
      | .error status => status
      | .ok status => status

end Access

end Athenz.Zpe
