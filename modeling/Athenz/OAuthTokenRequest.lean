import Athenz.DataModel

namespace Athenz.Zts
open Lib Lib.Text Lib.Result
set_option autoImplicit true

/-- What a scope asks for. -/
structure OAuthTokenRequest where
  domainName : Option Str := none
  serviceName : Option Str := none
  roleNames : Option (List Str) := none
  groupNames : Option (List Str) := none
  sendScopeResponse : Bool := false
  openIdScope : Bool := false
  groupsScope : Bool := false
  rolesScope : Bool := false
deriving DecidableEq

/-- The scan of the scope items, with the role and group names found so far. -/
structure ScopeScan extends OAuthTokenRequest where
  scopeRoleNames : List Str := []
  scopeGroupNames : List Str := []

def scopeError (message : Str) : Failure := .resource 400 message

namespace ScopeScan

/-- Every item that names a domain must name the same one. -/
def checkDomain (scan : ScopeScan) (scopeDomainName missing : Str) : Except Failure Unit := do
  refuse (scopeDomainName = []) (scopeError missing)
  refuse (scan.domainName.any (· ≠ scopeDomainName)) (scopeError "Multiple domains in scope")

def serviceItem (scan : ScopeScan) (scopeDomainName scopeServiceName : Str) :
    Except Failure ScopeScan := do
  scan.checkDomain scopeDomainName "Service name without domain name"
  refuse (scan.serviceName.any (· ≠ scopeServiceName)) (scopeError "Multiple services in scope")
  return { scan with domainName := some scopeDomainName, serviceName := some scopeServiceName }

def domainItem (scan : ScopeScan) (scopeDomainName : Str) : Except Failure ScopeScan := do
  scan.checkDomain scopeDomainName "Domain scope name without domain name"
  return { scan with domainName := some scopeDomainName, sendScopeResponse := true }

def roleItem (scan : ScopeScan) (scopeDomainName roleName : Str) : Except Failure ScopeScan := do
  scan.checkDomain scopeDomainName "Role name without domain name"
  return { scan with
    domainName := some scopeDomainName
    scopeRoleNames := scan.scopeRoleNames.insert roleName }

def groupItem (scan : ScopeScan) (scopeDomainName groupName : Str) : Except Failure ScopeScan := do
  scan.checkDomain scopeDomainName "Group name without domain name"
  return { scan with
    domainName := some scopeDomainName
    scopeGroupNames := scan.scopeGroupNames.insert groupName }

/-- The parts of an item around its first separator. -/
def splitItem (separator item : Str) : Option (Str × Str) :=
  (indexOf separator item).map fun idx => (item.take idx, item.drop (idx + separator.length))

variable [CaseRules]

def scanItem (scan : ScopeScan) (item : Str) : Except Failure ScopeScan :=
  if equalsIgnoreCase "openid" item then .ok { scan with openIdScope := true }
  else if equalsIgnoreCase "groups" item then .ok { scan with groupsScope := true }
  else if equalsIgnoreCase "roles" item then .ok { scan with rolesScope := true }
  else
    match splitItem ":service." item with
    | some (domain, service) => scan.serviceItem domain service
    | none =>
      if (":domain" : Str) <:+ item then
        scan.domainItem (item.take (item.length - (":domain" : Str).length))
      else
        match splitItem ":role." item with
        | some (domain, role) => scan.roleItem domain role
        | none =>
          match splitItem ":group." item with
          | some (domain, group) => scan.groupItem domain group
          | none => .ok scan

end ScopeScan

namespace OAuthTokenRequest

variable [CaseRules]

def ofScope (scope : Str) : Except Failure OAuthTokenRequest := do
  let scan ← (splitTrim ' ' scope).foldlM ScopeScan.scanItem {}
  let names (l : List Str) : Option (List Str) := if l = [] then none else some l
  if scan.sendScopeResponse then
    return { scan.toOAuthTokenRequest with
      rolesScope := scan.rolesScope || scan.scopeRoleNames ≠ []
      groupsScope := scan.groupsScope || scan.scopeGroupNames ≠ [] }
  else
    return { scan.toOAuthTokenRequest with
      roleNames := names scan.scopeRoleNames
      groupNames := names scan.scopeGroupNames }

/-- The scope of an access token request must name a domain, and a service with `openid`. -/
def ofAccessTokenScope (scope : Str) : Except Failure OAuthTokenRequest := do
  let request ← ofScope scope
  refuse (request.domainName.getD [] = []) (scopeError "No domains in scope")
  refuse (request.openIdScope ∧ request.serviceName.getD [] = [])
    (scopeError "No audience service name for openid scope")
  return request

end OAuthTokenRequest

end Athenz.Zts
