import Athenz.DataModel

namespace Athenz.Zts
open Lib Lib.Text Lib.Result
set_option autoImplicit true

structure MemberRole where
  role : Str
  expiration : Int
deriving DecidableEq

structure RoleMeta where
  signAlgorithm : Option Str
  certExpiryMins : Option Int
  tokenExpiryMins : Option Int
deriving DecidableEq

/-- The indexes that are built from one domain; sets are lists without repetition. -/
structure DataCache where
  memberRoleCache : Map Str (List MemberRole) := ∅
  memberPrefixRoleCache : Map Str (List MemberRole) := ∅
  memberAllRoleCache : List MemberRole := []
  trustCache : Map Str (List Str) := ∅
  hostCache : Map Str (List Str) := ∅
  roleMetaCache : Map Str RoleMeta := ∅
  awsRoleCache : Map Str (List Str) := ∅
  publicKeyCache : Map Str Str := ∅
  providerDnsSuffixCache : Map Str (List Str) := ∅
  providerHostnameAllowedSuffixCache : Map Str (List Str) := ∅
  providerHostnameDeniedSuffixCache : Map Str (List Str) := ∅
  authzDetailsCache : Map Str (List AuthzDetailsEntity) := ∅
  transportRulesCache : Map Str (Map Str (List Str)) := ∅
  workloadStoreExcludeProvidersCache : List Str := []
deriving DecidableEq

/-- The indexes of a published domain, with its data. -/
structure PublishedCache extends DataCache where
  domainData : DomainData
deriving DecidableEq

/-- The decoders of the libraries; `none` is a failed decoding, which is logged and skipped. -/
structure Codec where
  ybase64DecodeString : Str → Option Str
  readAuthzDetails : Str → Option AuthzDetailsEntity

/-- The expiration that the caches keep; 0 stands for none. -/
def RoleMember.expirationMillis (member : RoleMember) : Int := member.expiration.getD 0

def isExpiredAt (expiration currentTime : Int) : Bool :=
  expiration ≠ 0 && expiration < currentTime

namespace DataCache

def processRoleMember (now : Int) (roleName : Str) (cache : DataCache) (member : RoleMember) :
    DataCache :=
  if isMemberDisabled member.systemDisabled then cache
  else if isExpiredAt member.expirationMillis now then cache
  else
    let entry : MemberRole := ⟨roleName, member.expirationMillis⟩
    if member.memberName = "*" then
      { cache with memberAllRoleCache := cache.memberAllRoleCache.insert entry }
    else if ['*'] <:+ member.memberName then
      { cache with
        memberPrefixRoleCache := cache.memberPrefixRoleCache.addTo member.memberName.dropLast entry }
    else { cache with memberRoleCache := cache.memberRoleCache.addTo member.memberName entry }

def processRoleMembers (now : Int) (roleName : Str) (members : Option (List RoleMember))
    (cache : DataCache) : DataCache :=
  (members.getD []).foldl (processRoleMember now roleName) cache

def processRoleTrustDomain (roleName : Str) (trustDomain : Option Str) (cache : DataCache) :
    DataCache :=
  match trustDomain with
  | none => cache
  | some trustDomain => { cache with trustCache := cache.trustCache.addTo trustDomain roleName }

def processRoleMeta (role : Role) (cache : DataCache) : DataCache :=
  match extractRoleName role.name with
  | none => cache
  | some roleName =>
    { cache with
      roleMetaCache := cache.roleMetaCache.insert roleName
        ⟨role.signAlgorithm, role.certExpiryMins, role.tokenExpiryMins⟩ }

def processRole (now : Int) (cache : DataCache) (role : Role) : DataCache :=
  processRoleMeta role
    (processRoleTrustDomain role.name role.trust
      (processRoleMembers now role.name role.roleMembers cache))

/-- The members of the role that an assertion names. -/
def assertionMembers (roles : Map Str Role) (assertion : Assertion) : Option (List RoleMember) :=
  (roles.lookup assertion.role).bind (·.roleMembers)

def processProviderSuffixAssertion (assertion : Assertion) (effect : AssertionEffect)
    (roles : Map Str Role) (resourceSuffix : Str) (cache : Map Str (List Str)) :
    Map Str (List Str) :=
  if effect ≠ assertion.effect.getD .ALLOW then cache
  else if ¬ resourceSuffix <+: assertion.resource then cache
  else
    ((assertionMembers roles assertion).getD []).foldl
      (fun cache member =>
        cache.appendTo member.memberName (assertion.resource.drop (resourceSuffix.length - 1)))
      cache

def processAssumeRoleAssertion (now : Int) (assertion : Assertion) (roles : Map Str Role)
    (cache : DataCache) : DataCache :=
  if assertion.effect = some .DENY then cache
  else
    match roles.lookup assertion.role with
    | none => cache
    | some role => processRoleMembers now assertion.resource role.roleMembers cache

def processAWSAssumeRoleAssertion (assertion : Assertion) (cache : DataCache) : DataCache :=
  if assertion.effect = some .DENY then cache
  else { cache with awsRoleCache := cache.awsRoleCache.addTo assertion.role assertion.resource }

def processLaunchAssertion (domainName : Str) (assertion : Assertion) (roles : Map Str Role)
    (cache : DataCache) : DataCache :=
  if domainName ≠ "sys.auth" then cache
  else { cache with
    providerDnsSuffixCache := processProviderSuffixAssertion assertion .ALLOW roles
      "sys.auth:dns." cache.providerDnsSuffixCache
    providerHostnameAllowedSuffixCache := processProviderSuffixAssertion assertion .ALLOW roles
      "sys.auth:hostname." cache.providerHostnameAllowedSuffixCache
    providerHostnameDeniedSuffixCache := processProviderSuffixAssertion assertion .DENY roles
      "sys.auth:hostname." cache.providerHostnameDeniedSuffixCache }

def processTransportRulesAssertion (domainName : Str) (assertion : Assertion)
    (roles : Map Str Role) (cache : DataCache) : Except Failure DataCache := do
  refuse (assertion.resource.length < domainName.length + 1) Failure.outOfBounds
  let mapKey := assertion.resource.drop (domainName.length + 1)
  let rules := (cache.transportRulesCache.lookup mapKey).getD ∅
  return { cache with
    transportRulesCache := cache.transportRulesCache.insert mapKey <|
      match assertionMembers roles assertion with
      | none => rules
      | some members => rules.insert assertion.action (members.map (·.memberName)) }

def processAssertion (now : Int) (domainName : Str) (roles : Map Str Role) (cache : DataCache)
    (assertion : Assertion) : Except Failure DataCache :=
  if assertion.action = "assume_aws_role" then .ok (processAWSAssumeRoleAssertion assertion cache)
  else if assertion.action = "assume_role" then
    .ok (processAssumeRoleAssertion now assertion roles cache)
  else if assertion.action = "launch" then
    .ok (processLaunchAssertion domainName assertion roles cache)
  else if isTransportRuleAction assertion.action then
    processTransportRulesAssertion domainName assertion roles cache
  else .ok cache

def processPolicy (now : Int) (domainName : Str) (roles : Map Str Role) (cache : DataCache)
    (policy : Policy) : Except Failure DataCache :=
  (policy.assertions.getD []).foldlM (processAssertion now domainName roles) cache

def processServiceIdentityHosts (serviceName : Str) (hosts : Option (List Str))
    (cache : DataCache) : DataCache :=
  { cache with
    hostCache := (hosts.getD []).foldl (fun hosts host => hosts.addTo host serviceName)
      cache.hostCache }

def generateServiceKeyName (service keyId : Str) : Str := service ++ '_' :: keyId

def processServiceIdentityPublicKey (codec : Codec) (serviceName : Str) (keys : Map Str Str)
    (entry : PublicKeyEntry) : Map Str Str :=
  match entry.key.bind codec.ybase64DecodeString with
  | none => keys
  | some keyValue => keys.insert (generateServiceKeyName serviceName entry.id) keyValue

def processServiceIdentityPublicKeys (codec : Codec) (serviceName : Str)
    (publicKeys : Option (List PublicKeyEntry)) (cache : DataCache) : DataCache :=
  { cache with
    publicKeyCache := (publicKeys.getD []).foldl
      (processServiceIdentityPublicKey codec serviceName) cache.publicKeyCache }

def processServiceIdentity (codec : Codec) (cache : DataCache) (service : ServiceIdentity) :
    DataCache :=
  processServiceIdentityPublicKeys codec service.name service.publicKeys
    (processServiceIdentityHosts service.name service.hosts cache)

/-- The JSON text of an authorization-details entity. -/
def authzDetailsText (entity : Entity) : Except Failure Str :=
  match entity.value with
  | none => .error (.resource 400 "Entity has no value")
  | some value =>
    match value.data with
    | none | some [] => .error (.resource 400 "Entity has no data field")
    | some data => .ok data

def processEntity (codec : Codec) (domainName : Str) (cache : DataCache) (entity : Entity) :
    Except Failure DataCache :=
  if ¬ domainName ++ ":entity.zts.authorization_details_".toList <+: entity.name then .ok cache
  else do
    let data ← authzDetailsText entity
    match codec.readAuthzDetails data with
    | none => return cache
    | some details =>
      match details.roles with
      | none => throw Failure.nullPointer
      | some roles =>
        return { cache with
          authzDetailsCache := roles.foldl (fun cache role => cache.appendTo role details)
            cache.authzDetailsCache }

/-- The members of the `workload.store.excluded.providers` roles of the system domain. -/
def excludedProviders : List Role → Except Failure (List Str)
  | [] => .ok []
  | role :: roles => do
    if role.name = "sys.auth:role.workload.store.excluded.providers" then
      match role.roleMembers with
      | none => throw Failure.nullPointer
      | some members => return members.map (·.memberName) ∪ (← excludedProviders roles)
    else excludedProviders roles

def processSystemBehaviorRoles (domainData : DomainData) (cache : DataCache) :
    Except Failure DataCache :=
  if domainData.name ≠ "sys.auth" then .ok cache
  else
    match domainData.roles with
    | none => .error .nullPointer
    | some roles => do
      let current ← excludedProviders roles
      let added := cache.workloadStoreExcludeProvidersCache ∪ current
      return { cache with workloadStoreExcludeProvidersCache := added.filter (· ∈ current) }

end DataCache

end Athenz.Zts
