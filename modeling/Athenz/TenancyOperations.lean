import Athenz.DbServiceMeta

namespace Athenz.ZmsServer
open Lib Lib.Text Lib.Transaction
set_option autoImplicit true

section Prefixes

/-- The part of a name for a resource group, if there is one. -/
def resourceGroupPart (resourceGroup : Option Str) : Str :=
  match emptyToNull resourceGroup with
  | none => []
  | some group => "res_group.".toList ++ group ++ ".".toList

/-- A group without a name still has its part here. -/
def getTenantResourceGroupRolePrefix (provSvcName tenantDomain : Str) (resourceGroup : Option Str) :
    Str :=
  provSvcName ++ ".tenant.".toList ++ tenantDomain ++ ".".toList ++
    match resourceGroup with
    | none => []
    | some [] => "res_group."
    | some group => resourceGroupPart (some group)

def getProviderResourceGroupRolePrefix (provSvcDomain provSvcName : Str)
    (resourceGroup : Option Str) : Str :=
  provSvcDomain ++ ".".toList ++ provSvcName ++ ".".toList ++ resourceGroupPart resourceGroup

def getTrustedResourceGroupRolePrefix (provSvcDomain provSvcName tenantDomain : Str)
    (resourceGroup : Option Str) : Str :=
  provSvcDomain ++ ":role.".toList ++ provSvcName ++ ".tenant.".toList ++ tenantDomain ++
    ".".toList ++ resourceGroupPart resourceGroup

end Prefixes

section Statements

def listRoles (domainName : Str) : Op (List Str) :=
  readDomain domainName fun row => .ok row.roles.keys

variable [Collation]

/-- The active policies, or those with an assertion on a role in any of their versions. -/
def listPolicies (domainName : Str) (assertionRoleName : Option Str) : Op (List Str) :=
  readDomain domainName fun row => .ok (((row.policies.filter fun policy =>
    match assertionRoleName with
    | none => policy.active
    | some roleName => policy.assertions.any fun a => sameText a.role roleName)).map (·.name))

def deleteRole (domainName roleName : Str) : Op Bool :=
  onDomain domainName fun row =>
    .ok ((row.roles.lookup roleName).isSome, { row with roles := row.roles.erase roleName })

end Statements

section Loops

/-- The steps one after the other. -/
def forEach (step : α → Op Unit) : List α → Op Unit
  | [] => pure ()
  | a :: items => do
    step a
    forEach step items

end Loops

variable [Collation] [CaseRules]

section ProviderRoles

def assumeRoleAssertion (roleResourceName serviceRoleResourceName : Str) : Assertion where
  role := roleResourceName
  resource := serviceRoleResourceName
  action := "assume_role"
  effect := some .ALLOW

/-- The members of a role that exists and the assertions of its policy are those of the request as
well. -/
def addAssumeRolePolicy (config : Config) (ctx : Context) (rolePrefix trustedRolePrefix role : Str)
    (roleMembers : List Member) (tenantDomain : Str) : Op Unit := do
  let roleName := rolePrefix ++ role
  let originalRole ← getRole tenantDomain roleName
  let done ← processRole config originalRole tenantDomain roleName
    { name := roleResourceName tenantDomain roleName
      roleMembers := some (roleMembers ++ (originalRole.bind (·.roleMembers)).getD []) }
    ctx.principal false
  Tx.ensure done (internalServerError ("unable to put role: ".toList ++ roleName))
  let policyName := "tenancy.".toList ++ roleName
  let assertion := assumeRoleAssertion (roleResourceName tenantDomain roleName)
    (trustedRolePrefix ++ role)
  let originalPolicy ← getPolicy tenantDomain policyName none
  let assertions := (originalPolicy.bind (·.assertions)).getD []
  let done ← processPolicy originalPolicy tenantDomain policyName
    { name := policyResourceName tenantDomain policyName
      assertions := some (if assertion ∈ assertions then assertions else assertions ++ [assertion]) }
    false
  Tx.ensure done (internalServerError
    ("unable to put policy: ".toList ++ policyResourceName tenantDomain policyName))

/-- The caller, unless it is to be left out. -/
def principalMembers (ctx : Context) (skipPrincipalMember : Option Bool) : List Member :=
  match ctx.principal with
  | none => []
  | some principal => if skipPrincipalMember = some true then [] else [{ memberName := principal }]

def putProviderRolesBody (config : Config) (ctx : Context) (tenantDomain provSvcDomain
    provSvcName : Str) (resourceGroup : Option Str) (roles : List Str)
    (skipPrincipalMember : Option Bool) : Op Unit := do
  checkDomainAuditEnabled config ctx tenantDomain .tenancy
  forEach (fun role => addAssumeRolePolicy config ctx
    (getProviderResourceGroupRolePrefix provSvcDomain provSvcName resourceGroup)
    (getTrustedResourceGroupRolePrefix provSvcDomain provSvcName tenantDomain resourceGroup)
    (toLowerCase role) (principalMembers ctx skipPrincipalMember) tenantDomain) roles

def executePutProviderRoles (config : Config) (ctx : Context) (tenantDomain provSvcDomain
    provSvcName : Str) (resourceGroup : Option Str) (roles : List Str)
    (skipPrincipalMember : Option Bool) : Execution Unit :=
  execute config tenantDomain (putProviderRolesBody config ctx tenantDomain provSvcDomain
    provSvcName resourceGroup roles skipPrincipalMember)

end ProviderRoles

section TenantRoles

structure TenantRoleAction where
  role : Str
  action : Str

/-- The trust role of one action, and the policy of the same name. -/
def putTenantRole (config : Config) (ctx : Context) (provSvcDomain provSvcName tenantDomain : Str)
    (resourceGroup : Option Str) (ignoreDeletes : Bool) (roleAction : TenantRoleAction) :
    Op Unit := do
  let trustedRole := getTrustedResourceGroupRolePrefix provSvcDomain provSvcName tenantDomain
    resourceGroup ++ roleAction.role
  let trustedName := trustedRole.drop (provSvcDomain ++ ":role.".toList).length
  let originalRole ← getRole provSvcDomain trustedName
  let done ← processRole config originalRole provSvcDomain trustedName
    { name := trustedRole, trust := some tenantDomain } ctx.principal ignoreDeletes
  Tx.ensure done (internalServerError ("unable to put role: ".toList ++ trustedRole))
  let originalPolicy ← getPolicy provSvcDomain trustedName none
  let done ← processPolicy originalPolicy provSvcDomain trustedName
    { name := policyResourceName provSvcDomain trustedName
      assertions := some [{
        role := trustedRole
        resource := provSvcDomain ++ ":service.".toList ++
          getTenantResourceGroupRolePrefix provSvcName tenantDomain resourceGroup ++ "*".toList
        action := roleAction.action }] } ignoreDeletes
  Tx.ensure done (internalServerError
    ("unable to put policy: ".toList ++ policyResourceName provSvcDomain trustedName))

def putTenantRolesBody (config : Config) (ctx : Context) (provSvcDomain provSvcName
    tenantDomain : Str) (resourceGroup : Option Str) (roles : List TenantRoleAction)
    (ignoreDeletes : Bool) : Op Unit := do
  checkDomainAuditEnabled config ctx provSvcDomain .tenancy
  match ← getDomain tenantDomain with
  | none => Tx.abort (.resource 404 (ctx.caller ++ ": Unknown tenant domain: ".toList ++ tenantDomain))
  | some _ => forEach (putTenantRole config ctx provSvcDomain provSvcName tenantDomain resourceGroup
      ignoreDeletes) roles

def executePutTenantRoles (config : Config) (ctx : Context) (provSvcDomain provSvcName
    tenantDomain : Str) (resourceGroup : Option Str) (roles : List TenantRoleAction)
    (ignoreDeletes : Bool) : Execution Unit :=
  execute config provSvcDomain (putTenantRolesBody config ctx provSvcDomain provSvcName tenantDomain
    resourceGroup roles ignoreDeletes)

end TenantRoles

section Deletions

/-- Behind the prefix there is an action, which has no dots. -/
def validResourceGroupObjectToDelete (name namePrefix : Str) : Bool :=
  decide (namePrefix <+: name) && decide ('.' ∉ name.drop namePrefix.length)

/-- A role that a policy refers to is left. -/
def deleteTenancyRole (tenantDomain rnamePrefix rname : Str) : Op Unit :=
  if validResourceGroupObjectToDelete rname rnamePrefix then do
    let references ← listPolicies tenantDomain (some rname)
    if references = [] then do
      let _ ← deleteRole tenantDomain rname
      pure ()
    else pure ()
  else pure ()

def deleteTenancyPolicy (tenantDomain pnamePrefix pname : Str) : Op Unit :=
  if validResourceGroupObjectToDelete pname pnamePrefix then do
    let _ ← deletePolicy tenantDomain pname
    pure ()
  else pure ()

def deleteTenancyBody (config : Config) (ctx : Context) (tenantDomain provSvcDomain
    provSvcName : Str) (resourceGroup : Option Str) : Op Unit := do
  let rnamePrefix := getProviderResourceGroupRolePrefix provSvcDomain provSvcName resourceGroup
  checkDomainAuditEnabled config ctx tenantDomain .tenancy
  let pnames ← listPolicies tenantDomain none
  forEach (deleteTenancyPolicy tenantDomain ("tenancy.".toList ++ rnamePrefix)) pnames
  let rnames ← listRoles tenantDomain
  forEach (deleteTenancyRole tenantDomain rnamePrefix) rnames

def executeDeleteTenancy (config : Config) (ctx : Context) (tenantDomain provSvcDomain
    provSvcName : Str) (resourceGroup : Option Str) : Execution Unit :=
  execute config tenantDomain
    (deleteTenancyBody config ctx tenantDomain provSvcDomain provSvcName resourceGroup)

/-- The components of a name, without the empty ones at its end. -/
def splitName (name : Str) : List Str := (name.splitOn '.').rdropWhile (· = [])

/-- Two components behind the prefix can be a role of a subdomain. -/
def isTenantRolePrefixMatch (db : Database) (roleName rolePrefix : Str)
    (resourceGroup : Option Str) (tenantDomain : Str) : Bool :=
  decide (rolePrefix <+: roleName) &&
    match resourceGroup with
    | some _ => decide ('.' ∉ roleName.drop rolePrefix.length)
    | none =>
      match splitName (roleName.drop rolePrefix.length) with
      | [subdomain, _] => (db.domains.lookup (tenantDomain ++ ".".toList ++ subdomain)).isNone
      | comps => comps.length ≤ 2

def isTrustRoleForTenant (db : Database) (provSvcDomain roleName rolePrefix : Str)
    (resourceGroup : Option Str) (tenantDomain : Str) : Bool :=
  isTenantRolePrefixMatch db roleName rolePrefix resourceGroup tenantDomain &&
    (roleTable.find db provSvcDomain roleName).any fun stored =>
      saveValue stored.settings.trust = some tenantDomain

def deleteTenantRole (provSvcDomain rolePrefix : Str) (resourceGroup : Option Str)
    (tenantDomain rname : Str) : Op Unit := do
  let found ← Tx.query fun db =>
    isTrustRoleForTenant db provSvcDomain rname rolePrefix resourceGroup tenantDomain
  if found then do
    let _ ← deleteRole provSvcDomain rname
    let _ ← deletePolicy provSvcDomain rname
    pure ()
  else pure ()

def deleteTenantRolesBody (config : Config) (ctx : Context) (provSvcDomain provSvcName
    tenantDomain : Str) (resourceGroup : Option Str) : Op Unit := do
  let rolePrefix := getTenantResourceGroupRolePrefix provSvcName tenantDomain resourceGroup
  checkDomainAuditEnabled config ctx provSvcDomain .tenancy
  let rnames ← listRoles provSvcDomain
  forEach (deleteTenantRole provSvcDomain rolePrefix resourceGroup tenantDomain) rnames

def executeDeleteTenantRoles (config : Config) (ctx : Context) (provSvcDomain provSvcName
    tenantDomain : Str) (resourceGroup : Option Str) : Execution Unit :=
  execute config provSvcDomain
    (deleteTenantRolesBody config ctx provSvcDomain provSvcName tenantDomain resourceGroup)

end Deletions

end Athenz.ZmsServer
