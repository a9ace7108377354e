import Athenz.ZtsClient

namespace Athenz.ZtsClient
open Lib Lib.Text Lib.Exceptional
set_option autoImplicit true

section States

/-- An identity; without an authority it has no header to send its credentials in. -/
structure Principal where
  authority : Option Str
  credentials : Option Str
deriving DecidableEq

/-- SSL contexts stand for their text forms, identity providers for numbers. -/
structure Client where
  domain : Option Str := none
  service : Option Str := none
  sslContext : Option Str := none
  credsHeader : Option Str := none
  credsToken : Option Str := none
  principal : Option Principal := none
  siaProvider : Option Nat := none
  enablePrefetch : Bool := true
deriving DecidableEq

/-- What ZTS knows a client by. -/
structure Credentials where
  sslContext : Option Str
  header : Option Str
  token : Option Str
deriving DecidableEq

def Client.credentials (client : Client) : Credentials where
  sslContext := client.sslContext
  header := client.credsHeader
  token := client.credsToken

inductive TokenType where
  | role | access | aws
deriving DecidableEq

structure PrefetchTokenScheduledItem where
  object : Nat
  tokenType : TokenType
  domainName : Str
  roleName : Option Str := none
  roleNames : Option (List Str) := none
  proxyForPrincipal : Option Str := none
  externalId : Option Str := none
  authorizationDetails : Option Str := none
  idTokenServiceName : Option Str := none
  minDuration : Option Int := none
  maxDuration : Option Int := none
  expiresAtUTC : Int
  fetchTime : Int
  lastFailTime : Int := 0
  isInvalid : Bool := false
  identityDomain : Option Str := none
  identityName : Option Str := none
  siaProvider : Option Nat := none
  sslContext : Option Str := none
deriving DecidableEq

/-- `equals` of two scheduled items. -/
def PrefetchTokenScheduledItem.same (item other : PrefetchTokenScheduledItem) : Bool :=
  item.object = other.object ||
    (item.domainName = other.domainName && item.identityDomain = other.identityDomain &&
      item.identityName = other.identityName && item.roleName = other.roleName &&
      item.roleNames = other.roleNames && item.proxyForPrincipal = other.proxyForPrincipal &&
      item.externalId = other.externalId && item.idTokenServiceName = other.idTokenServiceName &&
      item.isInvalid = other.isInvalid && item.tokenType = other.tokenType &&
      item.sslContext = other.sslContext)

/-- What ZTS answers a call with. -/
inductive Answer where
  | granted (credential : Credential)
  | refused (code : Int)
  | broken

/-- A credential that ZTS issued, with the call and the credentials it was issued for. -/
structure Issue where
  credentials : Credentials
  call : ZtsCall
  credential : Credential

/-- The process as one call sees it: the client that makes the call, the static caches and queue,
the answers that ZTS still gives during the call, and what it has issued so far. -/
structure State where
  self : Client
  roleTokenCache : Map Str RoleToken := ∅
  accessTokenCache : Map Str AccessTokenResponseCacheEntry := ∅
  awsCredsCache : Map Str AWSTemporaryCredentials := ∅
  prefetchScheduledItems : List PrefetchTokenScheduledItem := []
  objects : Nat := 0
  roleNameMap : Map Str Str := ∅
  answers : List Answer := []
  issued : List Issue := []

/-- What a step meets: the time in milliseconds, the identities that the providers give, the token
files of each domain, and when the certificates were last refreshed. -/
structure World where
  now : Int
  identity : Nat → Option Str → Option Str → Option Principal := fun _ _ _ => none
  files : Str → Str → Option AccessTokenResponse := fun _ _ => none
  lastCertRefreshTime : Int := 0

inductive Failure where
  | resource (code : Int)
  | ztsClient (code : Int)
  | other
deriving DecidableEq

abbrev Op (α : Type) := Prog State Failure α

/-- Where a credential came from. -/
inductive Source where
  | cache | fallback | disk | zts
deriving DecidableEq

structure Served (α : Type) where
  credential : α
  source : Source

end States

section Clients

def Client.tenantDomain (client : Client) : Option Str :=
  client.domain.or client.sslContext

def Client.roleTokenCacheKey (client : Client) (domainName : Str)
    (roleName proxyForPrincipal : Option Str) : Option Str :=
  ZtsClient.roleTokenCacheKey client.tenantDomain client.service domainName roleName
    proxyForPrincipal

def Client.accessTokenCacheKey (settings : Settings) (client : Client)
    (request : AccessTokenRequest) : Option Str :=
  ZtsClient.accessTokenCacheKey settings client.tenantDomain client.service request.domainName
    request.roleNames request.idTokenServiceName request.proxyForPrincipal
    request.authorizationDetails request.proxyPrincipalSpiffeUris

def Client.addPrincipalCredentials (client : Client) (identity : Option Principal)
    (resetServiceDetails : Bool) : Client :=
  let client := match identity.bind fun identity => identity.authority.map (·, identity) with
    | some (header, identity) =>
      { client with credsHeader := some header, credsToken := identity.credentials }
    | none => client
  { client with
    siaProvider := if resetServiceDetails then none else client.siaProvider
    principal := identity }

def Client.clearCredentials (client : Client) : Client :=
  match client.principal with
  | some principal =>
    { client with credsHeader := principal.authority, credsToken := none, principal := none }
  | none => client

def Client.sameCredentialsAsBefore (client : Client) (svcPrincipal : Principal) : Bool :=
  match client.principal.bind (·.credentials) with
  | some creds => svcPrincipal.credentials = some creds
  | none => false

def updateServicePrincipal (world : World) : Op Unit := do
  let client ← Prog.read State.self
  match client.siaProvider with
  | none => pure ()
  | some provider =>
    match world.identity provider client.domain client.service with
    | none => Prog.raise .other
    | some svcPrincipal =>
      if client.sameCredentialsAsBefore svcPrincipal then pure ()
      else
        Prog.write fun s =>
          { s with self := client.addPrincipalCredentials (some svcPrincipal) false }

/-- One call to ZTS; an answer of another kind cannot be read. -/
def ask (call : ZtsCall) (pick : Credential → Option α) : Op α := fun s =>
  match s.answers with
  | [] => (.error .other, s)
  | .refused code :: answers => (.error (.resource code), { s with answers := answers })
  | .broken :: answers => (.error .other, { s with answers := answers })
  | .granted credential :: answers =>
    match pick credential with
    | none => (.error .other, { s with answers := answers })
    | some found =>
      (.ok found, { s with
        answers := answers
        issued := ⟨s.self.credentials, call, credential⟩ :: s.issued })

/-- The exception that a failed call to ZTS becomes. -/
def asClientException : Failure → Failure
  | .resource code => .ztsClient code
  | _ => .ztsClient 400

def Credential.role? : Credential → Option RoleToken
  | .role token => some token
  | _ => none

def Credential.access? : Credential → Option AccessTokenResponse
  | .access response => some response
  | _ => none

def Credential.aws? : Credential → Option AWSTemporaryCredentials
  | .aws credentials => some credentials
  | _ => none

end Clients

section Prefetching

/-- Schedule a request that was just answered, in place of the items that equal it. -/
def prefetchToken (item : PrefetchTokenScheduledItem) : Op Bool := do
  let client ← Prog.read State.self
  if client.sslContext.isNone && (isEmpty client.domain || isEmpty client.service) then pure false
  else
    Prog.write fun s =>
      let item := { item with
        object := s.objects
        identityDomain := client.domain
        identityName := client.service
        siaProvider := client.siaProvider
        sslContext := client.sslContext }
      { s with
        prefetchScheduledItems :=
          s.prefetchScheduledItems.eraseP item.same ++ [item]
        objects := s.objects + 1 }
    pure true

/-- The domain of a request to schedule must be named. -/
def requireDomain (domainName : Str) : Op Unit :=
  if domainName.all (·.toNat ≤ 32) then Prog.raise (.ztsClient 400) else pure ()

end Prefetching

variable (settings : Settings) (world : World)

section RoleTokens

def lookupRoleTokenInCache (cacheKey : Str) (minExpiryTime maxExpiryTime : Option Int)
    (serverMinExpiryTime : Int) : Op (Option RoleToken) := do
  let cache ← Prog.read State.roleTokenCache
  match cache.lookup cacheKey with
  | none => pure none
  | some roleToken =>
    let expiryTime := roleToken.expiryTime - seconds world.now
    if isExpiredToken settings expiryTime minExpiryTime maxExpiryTime serverMinExpiryTime then
      if expiryTime < 1 then
        Prog.write fun s => { s with roleTokenCache := s.roleTokenCache.erase cacheKey }
        pure none
      else pure none
    else pure (some roleToken)

/-- The part of `getRoleToken` behind the first lookups. -/
def requestRoleToken (request : RoleTokenRequest) (cacheKey : Option Str) (ignoreCache : Bool) :
    Op (Served RoleToken) := do
  updateServicePrincipal world
  match ← (ask (.role request) Credential.role?).caught with
  | .ok roleToken =>
    match cacheKey with
    | some cacheKey =>
      Prog.write fun s =>
        { s with roleTokenCache := s.roleTokenCache.insert cacheKey roleToken }
      pure ⟨roleToken, .zts⟩
    | none => pure ⟨roleToken, .zts⟩
  | .error failure =>
    match cacheKey, ignoreCache with
    | some cacheKey, false =>
      match ← lookupRoleTokenInCache settings world cacheKey none none 1 with
      | some roleToken => pure ⟨roleToken, .fallback⟩
      | none => Prog.raise (asClientException failure)
    | _, _ => Prog.raise (asClientException failure)

def roleRequestKey (client : Client) (request : RoleTokenRequest) : Option Str :=
  if settings.cacheDisabled then none
  else client.roleTokenCacheKey request.domainName request.roleNames request.proxyForPrincipal

/-- `getRoleToken` that ignores the cache. -/
def fetchRoleToken (request : RoleTokenRequest) : Op (Served RoleToken) := do
  let client ← Prog.read State.self
  requestRoleToken settings world request (roleRequestKey settings client request) true

def prefetchRoleToken (request : RoleTokenRequest) : Op Bool := do
  requireDomain request.domainName
  let token ← fetchRoleToken settings world request
  prefetchToken {
    object := 0
    tokenType := .role
    domainName := request.domainName
    roleName := request.roleNames
    proxyForPrincipal := request.proxyForPrincipal
    minDuration := request.minExpiryTime
    maxDuration := request.maxExpiryTime
    fetchTime := seconds world.now
    expiresAtUTC := token.credential.expiryTime }

def getRoleToken (request : RoleTokenRequest) (ignoreCache : Bool) : Op (Served RoleToken) := do
  let client ← Prog.read State.self
  match roleRequestKey settings client request, ignoreCache with
  | some cacheKey, false =>
    match ← lookupRoleTokenInCache settings world cacheKey request.minExpiryTime
      request.maxExpiryTime settings.tokenMinExpiryTime with
    | some roleToken => pure ⟨roleToken, .cache⟩
    | none =>
      if client.enablePrefetch && settings.prefetchAutoEnable then
        if ← prefetchRoleToken settings world request then
          match ← lookupRoleTokenInCache settings world cacheKey request.minExpiryTime
            request.maxExpiryTime settings.tokenMinExpiryTime with
          | some roleToken => pure ⟨roleToken, .cache⟩
          | none => requestRoleToken settings world request (some cacheKey) false
        else requestRoleToken settings world request (some cacheKey) false
      else requestRoleToken settings world request (some cacheKey) false
  | cacheKey, _ => requestRoleToken settings world request cacheKey ignoreCache

end RoleTokens

section AccessTokens

/-- The name that the roles of a domain have in the map of token files. -/
def getRolesStr (domain : Str) (roleNames : Option (List Str)) : Str :=
  if roleNames.getD [] = [] then domain ++ ":role:*"
  else domain ++ ":role:" ++ [','].intercalate ((roleNames.getD []).insertionSort unitsBefore)

/-- A file that cannot be read is as good as none. -/
def lookupAccessTokenFromDisk (domain : Str) (roleNames : Option (List Str)) :
    Op (Option AccessTokenResponse) :=
  Prog.read fun s =>
    (s.roleNameMap.lookup (getRolesStr domain roleNames)).bind fun fileName =>
      world.files domain fileName

/-- `preload` over the files of a listing; `scope` reads the roles of a token it can validate. -/
def preload (scope : Str → Option (List Str))
    (listing : List (Str × Str × AccessTokenResponse)) : Map Str Str :=
  listing.foldl (fun names file =>
    if (AccessTokenResponseCacheEntry.ofResponse world.now file.2.2).isExpired world.now (-1) then
      names
    else
      match scope file.2.2.access_token with
      | some roleNames => names.insert (getRolesStr file.1 (some roleNames)) file.2.1
      | none => names) ∅

def lookupAccessTokenResponseInCache (cacheKey : Str) (expiryTime : Int) :
    Op (Option AccessTokenResponse) := do
  let cache ← Prog.read State.accessTokenCache
  match cache.lookup cacheKey with
  | none => pure none
  | some entry =>
    if entry.isExpired world.now expiryTime then
      if entry.isExpired world.now (-1) then
        Prog.write fun s => { s with accessTokenCache := s.accessTokenCache.erase cacheKey }
        pure none
      else pure none
    else pure (some (entry.response world.now))

def keepAccessToken (cacheKey : Option Str) (response : AccessTokenResponse) : Op Unit :=
  match cacheKey with
  | some cacheKey =>
    Prog.write fun s => { s with
      accessTokenCache := s.accessTokenCache.insert cacheKey (.ofResponse world.now response) }
  | none => pure ()

/-- The part of `getAccessToken` behind the first lookups. -/
def requestAccessToken (request : AccessTokenRequest) (cacheKey : Option Str)
    (ignoreCache : Bool) : Op (Served AccessTokenResponse) := do
  match ← lookupAccessTokenFromDisk world request.domainName request.roleNames with
  | some response =>
    keepAccessToken world cacheKey response
    pure ⟨response, .disk⟩
  | none =>
    updateServicePrincipal world
    match ← (ask (.access request) Credential.access?).caught with
    | .ok response =>
      keepAccessToken world cacheKey response
      pure ⟨response, .zts⟩
    | .error failure =>
      match cacheKey, ignoreCache with
      | some cacheKey, false =>
        match ← lookupAccessTokenResponseInCache world cacheKey (-1) with
        | some response => pure ⟨response, .fallback⟩
        | none => Prog.raise (asClientException failure)
      | _, _ => Prog.raise (asClientException failure)

def accessRequestKey (client : Client) (request : AccessTokenRequest) : Option Str :=
  if settings.cacheDisabled then none else client.accessTokenCacheKey settings request

/-- `getAccessToken` that ignores the cache. -/
def fetchAccessToken (request : AccessTokenRequest) : Op (Served AccessTokenResponse) := do
  let client ← Prog.read State.self
  requestAccessToken world request (accessRequestKey settings client request) true

/-- The 32-bit value that a cast leaves. -/
def int (n : Int) : Int := n.bmod (2 ^ 32)

def prefetchAccessToken (request : AccessTokenRequest) : Op Bool := do
  requireDomain request.domainName
  let response ← fetchAccessToken settings world request
  prefetchToken {
    object := 0
    tokenType := .access
    domainName := request.domainName
    roleNames := request.roleNames
    maxDuration := some (int request.expiryTime)
    proxyForPrincipal := request.proxyForPrincipal
    idTokenServiceName := request.idTokenServiceName
    authorizationDetails := request.authorizationDetails
    fetchTime := seconds world.now
    expiresAtUTC := seconds world.now + response.credential.expires_in }

def getAccessToken (request : AccessTokenRequest) (ignoreCache : Bool) :
    Op (Served AccessTokenResponse) := do
  let client ← Prog.read State.self
  match accessRequestKey settings client request, ignoreCache with
  | some cacheKey, false =>
    match ← lookupAccessTokenResponseInCache world cacheKey request.expiryTime with
    | some response => pure ⟨response, .cache⟩
    | none =>
      if client.enablePrefetch && settings.prefetchAutoEnable then
        if ← prefetchAccessToken settings world request then
          match ← lookupAccessTokenResponseInCache world cacheKey request.expiryTime with
          | some response => pure ⟨response, .cache⟩
          | none => requestAccessToken world request (some cacheKey) false
        else requestAccessToken world request (some cacheKey) false
      else requestAccessToken world request (some cacheKey) false
  | cacheKey, _ => requestAccessToken world request cacheKey ignoreCache

end AccessTokens

section AwsCredentials

def lookupAwsCredInCache (cacheKey : Str) (minExpiryTime maxExpiryTime : Option Int) :
    Op (Option AWSTemporaryCredentials) := do
  let cache ← Prog.read State.awsCredsCache
  match cache.lookup cacheKey with
  | none => pure none
  | some awsCred =>
    let expiryTime := seconds (awsCred.expiration - world.now)
    if isExpiredToken settings expiryTime minExpiryTime maxExpiryTime
        settings.tokenMinExpiryTime then
      if expiryTime < 1 then
        Prog.write fun s => { s with awsCredsCache := s.awsCredsCache.erase cacheKey }
        pure none
      else pure none
    else pure (some awsCred)

/-- The part of `getAWSTemporaryCredentials` behind the first lookups, on the encoded role. -/
def requestAwsCredentials (request : AwsRequest) (cacheKey : Option Str) (ignoreCache : Bool) :
    Op (Served AWSTemporaryCredentials) := do
  updateServicePrincipal world
  match ← (ask (.aws request.domainName request.roleName request.maxExpiryTime request.externalId)
    Credential.aws?).caught with
  | .ok awsCred =>
    match cacheKey with
    | some cacheKey =>
      Prog.write fun s => { s with awsCredsCache := s.awsCredsCache.insert cacheKey awsCred }
      pure ⟨awsCred, .zts⟩
    | none => pure ⟨awsCred, .zts⟩
  | .error failure =>
    match cacheKey, ignoreCache with
    | some cacheKey, false =>
      match ← lookupAwsCredInCache settings world cacheKey none none with
      | some awsCred => pure ⟨awsCred, .fallback⟩
      | none => Prog.raise (asClientException failure)
    | _, _ => Prog.raise (asClientException failure)

def AwsRequest.encoded (request : AwsRequest) : AwsRequest :=
  { request with roleName := urlEncode request.roleName }

def awsRequestKey (client : Client) (request : AwsRequest) : Option Str :=
  client.roleTokenCacheKey request.domainName (some request.roleName) none

/-- `getAWSTemporaryCredentials` that ignores the cache. -/
def fetchAwsCredentials (request : AwsRequest) : Op (Served AWSTemporaryCredentials) := do
  let client ← Prog.read State.self
  requestAwsCredentials settings world request.encoded (awsRequestKey client request.encoded) true

/-- The role is encoded by the caller, and once more by the fetch. -/
def prefetchAwsCreds (request : AwsRequest) : Op Bool := do
  requireDomain request.domainName
  let awsCred ← fetchAwsCredentials settings world request
  prefetchToken {
    object := 0
    tokenType := .aws
    domainName := request.domainName
    roleName := some request.roleName
    externalId := request.externalId
    minDuration := request.minExpiryTime
    maxDuration := request.maxExpiryTime
    fetchTime := seconds world.now
    expiresAtUTC := seconds awsCred.credential.expiration }

def getAWSTemporaryCredentials (request : AwsRequest) (ignoreCache : Bool) :
    Op (Served AWSTemporaryCredentials) := do
  let client ← Prog.read State.self
  match awsRequestKey client request.encoded, ignoreCache with
  | some cacheKey, false =>
    match ← lookupAwsCredInCache settings world cacheKey request.minExpiryTime
      request.maxExpiryTime with
    | some awsCred => pure ⟨awsCred, .cache⟩
    | none =>
      if client.enablePrefetch && settings.prefetchAutoEnable then
        if ← prefetchAwsCreds settings world request.encoded then
          match ← lookupAwsCredInCache settings world cacheKey request.minExpiryTime
            request.maxExpiryTime with
          | some awsCred => pure ⟨awsCred, .cache⟩
          | none => requestAwsCredentials settings world request.encoded (some cacheKey) false
        else requestAwsCredentials settings world request.encoded (some cacheKey) false
      else requestAwsCredentials settings world request.encoded (some cacheKey) false
  | cacheKey, _ => requestAwsCredentials settings world request.encoded cacheKey ignoreCache

end AwsCredentials

section PrefetchRuns

/-- The client that a run makes for an item; without an SSL context it needs an identity provider. -/
def PrefetchTokenScheduledItem.client (item : PrefetchTokenScheduledItem) : Option Client :=
  match item.sslContext with
  | some sslContext => some { sslContext := some sslContext }
  | none =>
    if isEmpty item.identityDomain || isEmpty item.identityName || item.siaProvider.isNone then none
    else some {
      domain := item.identityDomain
      service := item.identityName
      siaProvider := item.siaProvider }

def shouldRefresh (item : PrefetchTokenScheduledItem) : Bool :=
  let currentTime := seconds world.now
  if item.tokenType = .access && item.fetchTime < world.lastCertRefreshTime then true
  else if (item.expiresAtUTC - item.fetchTime).tdiv 2 + item.fetchTime > currentTime then false
  else if item.lastFailTime = 0 then true
  else (item.expiresAtUTC - item.lastFailTime).tdiv 2 + item.lastFailTime ≤ currentTime

/-- Change a scheduled item in place. -/
def updateItem (object : Nat) (f : PrefetchTokenScheduledItem → PrefetchTokenScheduledItem) :
    Op Unit :=
  Prog.write fun s => { s with
    prefetchScheduledItems := s.prefetchScheduledItems.map fun item =>
      if item.object = object then f item else item }

/-- Make the fetch of an item once more; the result is when the new credential expires. -/
def refreshItem (item : PrefetchTokenScheduledItem) : Op Int :=
  match item.tokenType with
  | .role => do
    let token ← getRoleToken settings world {
      domainName := item.domainName
      roleNames := item.roleName
      minExpiryTime := item.minDuration
      maxExpiryTime := item.maxDuration
      proxyForPrincipal := item.proxyForPrincipal } true
    pure token.credential.expiryTime
  | .access => do
    let response ← getAccessToken settings world {
      domainName := item.domainName
      roleNames := item.roleNames
      idTokenServiceName := item.idTokenServiceName
      proxyForPrincipal := item.proxyForPrincipal
      authorizationDetails := item.authorizationDetails
      expiryTime := item.maxDuration.getD 0 } true
    pure (seconds world.now + response.credential.expires_in)
  | .aws => do
    let awsCred ← getAWSTemporaryCredentials settings world {
      domainName := item.domainName
      roleName := item.roleName.getD []
      externalId := item.externalId
      minExpiryTime := item.minDuration
      maxExpiryTime := item.maxDuration } true
    pure (seconds awsCred.credential.expiration)

/-- An item that ZTS refuses, or that fails otherwise than at ZTS, leaves the queue. -/
def removeItem (item : PrefetchTokenScheduledItem) : Op Unit := do
  let gone := { item with isInvalid := true, lastFailTime := seconds world.now }
  updateItem item.object fun item =>
    { item with isInvalid := true, lastFailTime := seconds world.now }
  Prog.write fun s =>
    { s with prefetchScheduledItems := s.prefetchScheduledItems.eraseP gone.same }

def processPrefetchTask (item : PrefetchTokenScheduledItem) : Op Unit := do
  match ← (refreshItem settings world item).caught with
  | .ok expiresAtUTC =>
    updateItem item.object fun item => { item with
      expiresAtUTC := expiresAtUTC, fetchTime := seconds world.now, lastFailTime := 0 }
  | .error (.ztsClient code) =>
    if code = 401 || code = 403 then removeItem world item
    else updateItem item.object fun item => { item with lastFailTime := seconds world.now }
  | .error _ => removeItem world item

/-- Each item gets a client of its own; an item that no client can be made for ends the run. -/
def processItems : List PrefetchTokenScheduledItem → Op Unit
  | [] => pure ()
  | item :: items => do
    match item.client with
    | none => Prog.raise .other
    | some client =>
      Prog.write fun s => { s with self := client }
      processPrefetchTask settings world item
      processItems items

/-- `TokenPrefetchTask.run`. -/
def runPrefetch : Op Unit := do
  let items ← Prog.read State.prefetchScheduledItems
  processItems settings world (items.filter (shouldRefresh world))

end PrefetchRuns

end Athenz.ZtsClient
