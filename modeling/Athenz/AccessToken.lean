import Athenz.ZtsImpl
import Athenz.OAuthTokenRequest
import Athenz.Lib.Decimal

namespace Athenz.Zts
open Lib Lib.Text Lib.Decimal Lib.Result
set_option autoImplicit true

/-- The top-level fields of one authorization detail of a request. -/
structure AuthzDetailsItem where
  type : Option Str
  fields : List Str

/-- The libraries behind a token request: URL decoding, URI syntax, the JSON reader and the
schema, which answers with an error text. -/
structure TokenLib where
  decodeString : Str → Option Str
  isURI : Str → Bool
  readAuthzDetails : Str → Option (List AuthzDetailsItem)
  validate : Str → Str → Option Str

structure TokenConfig extends ZtsConfig where
  roleTokenDefaultTimeout : Int := 7200
  roleTokenMaxTimeout : Int := 2592000
  idTokenMaxTimeout : Int := 43200
  maxAuthzDetailsLength : Nat := 1024
  systemAuthzDetails : Option (List AuthzDetailsEntity) := none
  supportOpenIdScope : Bool := false
  ztsOAuthIssuer : Str := []
  ztsOpenIDIssuer : Str := []

/-- The attributes of the request body. -/
structure TokenForm where
  grantType : Option Str := none
  scope : Option Str := none
  proxyForPrincipal : Option Str := none
  authzDetails : Option Str := none
  proxyPrincipalsSpiffeUris : Option (List Str) := none
  expiryTime : Int := 0
  useOpenIDIssuer : Bool := false
deriving DecidableEq

/-- The claims of an access token, apart from its random id and the hash of the certificate. -/
structure AccessToken where
  version : Nat
  audience : Str
  clientId : Str
  issueTime : Int
  authTime : Int
  expiryTime : Int
  userId : Str
  subject : Str
  issuer : Str
  proxyPrincipal : Option Str
  scope : List Str
  authorizationDetails : Option Str
  confirmX509Cert : Option X509Certificate
  confirmProxyPrincipalSpiffeUris : Option (List Str)
deriving DecidableEq

structure IdToken where
  version : Nat
  audience : Str
  subject : Str
  issuer : Str
  issueTime : Int
  authTime : Int
  expiryTime : Int
deriving DecidableEq

/-- The response; its tokens are shown before they are signed. -/
structure AccessTokenResponse where
  accessToken : AccessToken
  tokenType : Str
  expiresIn : Int
  idToken : Option IdToken
  scope : Option Str
deriving DecidableEq

def validateName (lib : TokenLib) (type value : Str) : Except Failure Unit :=
  match lib.validate type value with
  | none => .ok ()
  | some message => .error (requestError message)

/-- Leading and trailing characters up to the space are removed. -/
def trim (s : Str) : Str :=
  (s.dropWhile (· ≤ ' ')).rdropWhile (· ≤ ' ')

def getProxyPrincipalSpiffeUris (lib : TokenLib) (value : Str) :
    Except Failure (Option (List Str)) :=
  if value = [] then .ok none
  else do
    let uris := (splitTrim ',' value).map trim
    match uris.find? fun uri => !("spiffe://" : Str).isPrefixOf uri || !lib.isURI uri with
    | some uri => throw (requestError ("Invalid spiffe uri specified: " ++ uri))
    | none => return some uris

def getProxyForPrincipalValue (config : TokenConfig) (lib : TokenLib) (proxyName : Str)
    (principalName : Str) : Except Failure (Option Str) :=
  if proxyName = [] then .ok none
  else do
    validateName lib "EntityName" proxyName
    refuse (!isAuthorizedProxyUser config.authorizedProxyUsers principalName)
      (forbiddenError ("postAccessTokenRequest: Principal: " ++ principalName ++
        " not authorized for proxy access token request"))
    return some proxyName

section Form

variable [CaseRules] [DigitRules]

def assignAttribute (config : TokenConfig) (lib : TokenLib) (principalName : Str)
    (form : TokenForm) (key value : Str) : Except Failure TokenForm :=
  if key = "grant_type" then .ok { form with grantType := some (toLowerCase value) }
  else if key = "scope" then .ok { form with scope := some (toLowerCase value) }
  else if key = "expires_in" then .ok { form with expiryTime := (parseInteger 31 value).getD 0 }
  else if key = "proxy_for_principal" then do
    let proxy ← getProxyForPrincipalValue config lib (toLowerCase value) principalName
    return { form with proxyForPrincipal := proxy }
  else if key = "authorization_details" then .ok { form with authzDetails := some value }
  else if key = "proxy_principal_spiffe_uris" then do
    let uris ← getProxyPrincipalSpiffeUris lib (toLowerCase value)
    return { form with proxyPrincipalsSpiffeUris := uris }
  else if key = "openid_issuer" then
    .ok { form with useOpenIDIssuer := equalsIgnoreCase value "true" }
  else .ok form

def readComponent (config : TokenConfig) (lib : TokenLib) (principalName : Str)
    (form : TokenForm) (comp : Str) : Except Failure TokenForm :=
  match indexOf "=" comp with
  | none => .ok form
  | some idx =>
    match lib.decodeString (comp.take idx), lib.decodeString (comp.drop (idx + 1)) with
    | some key, some value => assignAttribute config lib principalName form key value
    | _, _ => .ok form

def readForm (config : TokenConfig) (lib : TokenLib) (principalName request : Str) :
    Except Failure TokenForm :=
  (splitTrim '&' request).foldlM (readComponent config lib principalName) {}

end Form

section Grant

def AuthzDetailsEntity.isValidField [CaseRules] (entity : AuthzDetailsEntity)
    (fieldName : Str) : Bool :=
  (entity.fields.getD []).any fun field => equalsIgnoreCase field fieldName

def validateAuthzDetailsAgainstConfig [CaseRules] (item : AuthzDetailsItem)
    (authzDetails : List AuthzDetailsEntity) : Bool :=
  match authzDetails.find? fun entity => some entity.type = item.type with
  | none => false
  | some entity => item.fields.all fun field => field = "type" || entity.isValidField field

def validateAuthorizationDetails [CaseRules] (config : TokenConfig) (lib : TokenLib)
    (authzDetails : Option Str) (requestedRoles : Option (List Str)) (data : PublishedCache) :
    Except Failure Unit :=
  match authzDetails with
  | none | some [] => .ok ()
  | some authzDetails => do
    refuse (authzDetails.length > config.maxAuthzDetailsLength)
      (requestError "Authorization Details exceeds configured length limit")
    let roleAuthzDetails := match requestedRoles with
      | some [role] => data.authzDetailsCache.lookup role
      | _ => none
    refuse (config.systemAuthzDetails.isNone ∧ roleAuthzDetails.isNone)
      (requestError "Authorization Details not valid for this request")
    match lib.readAuthzDetails authzDetails with
    | none => throw (requestError "Invalid Authorization Details data")
    | some items =>
      refuse (¬ items.all fun item =>
          roleAuthzDetails.any (validateAuthzDetailsAgainstConfig item) ||
            config.systemAuthzDetails.any (validateAuthzDetailsAgainstConfig item))
        (requestError "Authorization Details configuration mismatch")

/-- The domain of an authorized service must be the requested one. -/
def checkRoleTokenAuthorizedServiceRequest (principal : Principal) (domainName : Str) :
    Except Failure Unit :=
  match principal.authorizedService with
  | none | some [] => .ok ()
  | some service =>
    match lastIndexOf '.' service with
    | none => .error .outOfBounds
    | some idx => refuse (domainName ≠ service.take idx)
        (forbiddenError ("Authorized service domain " ++ service.take idx ++
          " does not match request domain " ++ domainName))

def isPrincipalRoleCertificateAccessValid (principal : Principal) (domainName : Str)
    (roles : List Str) : Bool :=
  match principal.roles with
  | none | some [] => true
  | some princRoles => roles.all fun role => domainName ++ ":role.".toList ++ role ∈ princRoles

def determineTokenTimeout (config : TokenConfig) (data : PublishedCache) (roles : List Str)
    (minExpiryTime maxExpiryTime : Option Int) : Int :=
  let asked := match maxExpiryTime.filter (· > 0) with
    | some maxExpiry => maxExpiry
    | none => (minExpiryTime.filter (· > config.roleTokenDefaultTimeout)).getD
        config.roleTokenDefaultTimeout
  let timeout := min asked config.roleTokenMaxTimeout
  let maxAllowedExpirySecs := Int.bmod (60 * configuredExpiryMins (·.tokenExpiryMins)
    data.domainData.tokenExpiryMins data roles) (2 ^ 32)
  if maxAllowedExpirySecs > 0 ∧ maxAllowedExpirySecs < timeout then maxAllowedExpirySecs
  else timeout

/-- The roles that the token is granted for. -/
def grantedRoles (store : DataStore) (now : Int) (data : PublishedCache) (domainName : Str)
    (requestedRoles : Option (List Str)) (principalName : Str) (proxyForPrincipal : Option Str) :
    List Str :=
  let find := accessibleRoles store now data domainName requestedRoles
  match proxyForPrincipal with
  | none => find principalName
  | some proxy => (find principalName).filter (· ∈ find proxy)

/-- The scope that the response spells out. -/
def responseScope (domainName : Str) (openId : Bool) (roles : List Str) : Str :=
  let domainRoles := roles.map fun role => domainName ++ ":role.".toList ++ role
  [' '].intercalate (if openId then domainRoles ++ ["openid".toList] else domainRoles)

end Grant

section Request

variable [CaseRules] [DigitRules]

/-- The part of a request that is read without the store. -/
def readTokenRequest (config : TokenConfig) (lib : TokenLib) (principal : Principal)
    (request : Str) : Except Failure (TokenForm × OAuthTokenRequest) := do
  refuse (request = []) (requestError "Empty request body")
  let form ← readForm config lib principal.fullName request
  refuse (form.grantType ≠ some "client_credentials")
    (requestError ("Invalid grant request: " ++ form.grantType.getD "null"))
  refuse (form.scope.getD [] = []) (requestError "Invalid request: no scope provided")
  let tokenRequest ← OAuthTokenRequest.ofAccessTokenScope (form.scope.getD [])
  validateName lib "DomainName" (tokenRequest.domainName.getD [])
  (tokenRequest.roleNames.getD []).forM (validateName lib "EntityName")
  return (form, tokenRequest)

def isOpenIdScope (config : TokenConfig) (tokenRequest : OAuthTokenRequest) : Bool :=
  config.supportOpenIdScope && tokenRequest.openIdScope

def tokenIssuer (config : TokenConfig) (form : TokenForm) : Str :=
  if form.useOpenIDIssuer then config.ztsOpenIDIssuer else config.ztsOAuthIssuer

/-- The name that the tokens are issued for. -/
def tokenPrincipalName (principal : Principal) (form : TokenForm) : Str :=
  form.proxyForPrincipal.getD principal.fullName

def accessTokenFor (config : TokenConfig) (iat timeout : Int) (principal : Principal)
    (form : TokenForm) (domainName : Str) (roles : List Str) : AccessToken where
  version := 1
  audience := domainName
  clientId := tokenPrincipalName principal form
  issueTime := iat
  authTime := iat
  expiryTime := iat + timeout
  userId := tokenPrincipalName principal form
  subject := tokenPrincipalName principal form
  issuer := tokenIssuer config form
  proxyPrincipal := form.proxyForPrincipal.map fun _ => principal.fullName
  scope := roles
  authorizationDetails := form.authzDetails
  confirmX509Cert := principal.x509Certificate
  confirmProxyPrincipalSpiffeUris :=
    principal.x509Certificate.bind fun _ => form.proxyPrincipalsSpiffeUris

def determineIdTokenTimeout (config : TokenConfig) (tokenTimeout : Int) : Int :=
  min tokenTimeout config.idTokenMaxTimeout

def idTokenFor (config : TokenConfig) (lib : TokenLib) (iat timeout : Int) (principal : Principal)
    (form : TokenForm) (domainName : Str) (tokenRequest : OAuthTokenRequest) :
    Except Failure (Option IdToken) :=
  if !isOpenIdScope config tokenRequest then .ok none
  else do
    let serviceName := tokenRequest.serviceName.getD []
    validateName lib "SimpleName" serviceName
    return some {
      version := 1
      audience := domainName ++ '.' :: serviceName
      subject := tokenPrincipalName principal form
      issuer := tokenIssuer config form
      issueTime := iat
      authTime := iat
      expiryTime := iat + determineIdTokenTimeout config timeout }

/-- Issue the tokens that a request asks for; `now` is in milliseconds. -/
def postAccessTokenRequest (config : TokenConfig) (lib : TokenLib) (store : DataStore) (now : Int)
    (caller : Str) (principal : Principal) (request : Str) :
    Except Failure AccessTokenResponse := do
  let (form, tokenRequest) ← readTokenRequest config lib principal request
  let domainName := tokenRequest.domainName.getD []
  let requestedRoles := tokenRequest.roleNames
  let openId := isOpenIdScope config tokenRequest
  let data ← getDataCache store domainName ("No such domain: " ++ domainName)
  validateAuthorizationDetails config lib form.authzDetails requestedRoles data
  checkRoleTokenAuthorizedServiceRequest principal domainName
  let refusal (identity : Str) := forbiddenError
    (tokenErrorMessage caller identity domainName requestedRoles)
  refuse (accessibleRoles store now data domainName requestedRoles principal.fullName = [])
    (refusal principal.fullName)
  refuse (form.proxyForPrincipal.isSome ∧ openId)
    (requestError "Proxy Principal cannot request id tokens")
  let roles := grantedRoles store now data domainName requestedRoles principal.fullName
    form.proxyForPrincipal
  refuse (roles = []) (refusal (tokenPrincipalName principal form))
  refuse (!isPrincipalRoleCertificateAccessValid principal domainName roles)
    (forbiddenError "Role based Principal does not include all roles")
  let timeout := determineTokenTimeout config data roles none (some form.expiryTime)
  let iat := now.tdiv 1000
  let idToken ← idTokenFor config lib iat timeout principal form domainName tokenRequest
  return {
    accessToken := accessTokenFor config iat timeout principal form domainName roles
    tokenType := "Bearer"
    expiresIn := timeout.bmod (2 ^ 32)
    idToken := idToken
    scope :=
      if tokenRequest.sendScopeResponse ∨
          requestedRoles.any (fun requested => requested.length ≠ roles.length) then
        some (responseScope domainName openId roles)
      else none }

end Request

/-- Every principal of a token request holds a role. -/
def HeldByAll (store : DataStore) (now : Int) (data : PublishedCache) (domainName : Str)
    (principal : Principal) (form : TokenForm) (roleName : Str) : Prop :=
  ∀ identity ∈ principal.fullName :: form.proxyForPrincipal.toList,
    HoldsRole store now data domainName identity roleName

theorem mem_grantedRoles {data : PublishedCache} :
    roleName ∈ grantedRoles store now data domainName (some requested) principal.fullName
        form.proxyForPrincipal ↔
      HeldByAll store now data domainName principal form roleName ∧
        ∃ r ∈ requested, r <:+ domainName ++ ":role.".toList ++ roleName := by
  unfold grantedRoles HeldByAll
  cases form.proxyForPrincipal with
  | none => simp only [mem_accessibleRoles, Option.toList_none, List.mem_singleton, forall_eq]
  | some proxy =>
    simp only [List.mem_filter, mem_accessibleRoles, decide_eq_true_eq, Option.toList_some,
      List.mem_cons, List.not_mem_nil, or_false, forall_eq_or_imp, forall_eq]
    constructor
    · rintro ⟨⟨h, hs⟩, h', _⟩
      exact ⟨⟨h, h'⟩, hs⟩
    · rintro ⟨⟨h, h'⟩, hs⟩
      exact ⟨⟨h, hs⟩, h', hs⟩

theorem nodup_grantedRoles {data : PublishedCache} :
    (grantedRoles store now data domainName requested principalName proxy).Nodup := by
  unfold grantedRoles
  cases proxy with
  | none => exact DataStore.nodup_getAccessibleRoles List.nodup_nil
  | some proxy => exact (DataStore.nodup_getAccessibleRoles List.nodup_nil).filter _

section Scope

variable [CaseRules] [DigitRules]

/-- What an issued response says about the granted roles. -/
theorem postAccessTokenRequest_ok
    (h : postAccessTokenRequest config lib store now caller principal request = .ok response)
    (hread : readTokenRequest config lib principal request = .ok (form, tokenRequest))
    (hdata : store.cacheStore.lookup (tokenRequest.domainName.getD []) = some data)
    (hrequested : tokenRequest.roleNames = some requested) :
    response.accessToken.scope = grantedRoles store now data (tokenRequest.domainName.getD [])
        (some requested) principal.fullName form.proxyForPrincipal ∧
      (response.scope = none → requested.length = response.accessToken.scope.length) := by
  unfold postAccessTokenRequest at h
  simp only [hread, bind_eq_ok, Except.ok.injEq, exists_eq_left', exists_unit, getDataCache_ok,
    hdata, Option.some.injEq, hrequested, pure_eq_ok] at h
  obtain ⟨_, _, _, _, _, _, _, _, rfl⟩ := h
  refine ⟨rfl, ?_⟩
  intro hscope
  by_contra hne
  revert hscope
  simp only [Option.any_some, ite_eq_right_iff, reduceCtorEq, imp_false, not_not]
  exact .inr (decide_eq_true hne)

/-- The granted roles stay within the requested ones, and are all of them when the response has no
scope, exactly when every role of the domain that the principals hold and whose full name ends in
a requested name is itself requested. -/
theorem access_token_scope_iff (config : TokenConfig) (lib : TokenLib) (store : DataStore)
    (now : Int) (caller : Str) (principal : Principal) (request : Str) (form : TokenForm)
    (tokenRequest : OAuthTokenRequest) (requested : List Str) (data : PublishedCache)
    (response : AccessTokenResponse)
    (hread : readTokenRequest config lib principal request = .ok (form, tokenRequest))
    (hrequested : tokenRequest.roleNames = some requested)
    (hdata : store.cacheStore.lookup (tokenRequest.domainName.getD []) = some data)
    (hissued :
      postAccessTokenRequest config lib store now caller principal request = .ok response) :
    (response.accessToken.scope ⊆ requested ∧
      (response.scope = none →
        ∀ roleName, roleName ∈ response.accessToken.scope ↔ roleName ∈ requested)) ↔
    ∀ roleName,
      HeldByAll store now data (tokenRequest.domainName.getD []) principal form roleName →
      (∃ r ∈ requested, r <:+ tokenRequest.domainName.getD [] ++ ":role.".toList ++ roleName) →
      roleName ∈ requested := by
  obtain ⟨hscope, hlength⟩ := postAccessTokenRequest_ok hissued hread hdata hrequested
  constructor
  · rintro ⟨hsubset, _⟩ roleName hheld hsuffix
    apply hsubset
    rw [hscope]
    exact mem_grantedRoles.2 ⟨hheld, hsuffix⟩
  · intro hcond
    have hsubset : response.accessToken.scope ⊆ requested := by
      intro roleName hmem
      rw [hscope] at hmem
      obtain ⟨hheld, hsuffix⟩ := mem_grantedRoles.1 hmem
      exact hcond roleName hheld hsuffix
    refine ⟨hsubset, ?_⟩
    intro hnone roleName
    have hnodup : response.accessToken.scope.Nodup := by
      rw [hscope]
      exact nodup_grantedRoles
    have hperm := (List.subperm_of_subset hnodup hsubset).perm_of_length_le (hlength hnone).le
    exact hperm.mem_iff

end Scope

section Sample

local instance tokenCaseRules : CaseRules := .ascii
local instance tokenDigitRules : DigitRules := .ascii

def plainTokenLib : TokenLib where
  decodeString := some
  isURI _ := true
  readAuthzDetails _ := none
  validate _ _ := none

/-- A domain in which `user.joe` is a member of `super-admin` only. -/
def sportsCache : PublishedCache where
  memberRoleCache := (∅ : Map Str (List MemberRole)).insert "user.joe"
    [⟨"sports:role.super-admin", 0⟩]
  domainData := { name := "sports" }

def tokenStore : DataStore where
  cacheStore := (∅ : Map Str PublishedCache).insert "sports" sportsCache

def joe : Principal where
  domain := "user"
  fullName := "user.joe"

def superAdminResponse : AccessTokenResponse where
  accessToken := accessTokenFor {} 1 7200 joe {} "sports" ["super-admin"]
  tokenType := "Bearer"
  expiresIn := 7200
  idToken := none
  scope := none

/-- The request for `admin` is answered with a token for `super-admin`, without a scope. -/
theorem admin_request_gets_super_admin :
    postAccessTokenRequest {} plainTokenLib tokenStore 1000 "postAccessTokenRequest" joe
      "grant_type=client_credentials&scope=sports:role.admin" = .ok superAdminResponse ∧
    superAdminResponse.scope = none ∧
    ¬ superAdminResponse.accessToken.scope ⊆ ["admin"] := by
  decide +kernel

theorem super_admin_request_within_scope :
    superAdminResponse.accessToken.scope ⊆ ["super-admin"] ∧
      (superAdminResponse.scope = none →
        ∀ roleName, roleName ∈ superAdminResponse.accessToken.scope ↔
          roleName ∈ [(↑"super-admin" : Str)]) := by
  refine (access_token_scope_iff {} plainTokenLib tokenStore 1000 "postAccessTokenRequest" joe
    "grant_type=client_credentials&scope=sports:role.super-admin"
    { grantType := some "client_credentials", scope := some "sports:role.super-admin" }
    { domainName := some "sports", roleNames := some ["super-admin"] } ["super-admin"]
    sportsCache superAdminResponse (by decide +kernel) rfl rfl (by decide +kernel)).2 ?_
  intro roleName hheld _
  have hjoe := hheld "user.joe" List.mem_cons_self
  have hroles : tokenStore.getAccessibleRoles 1000 ⟨"sports", none, true⟩
      (some sportsCache.toDataCache) "user.joe" [] =
      ["sports:role.super-admin".toList] := by
    decide +kernel
  have hname : "sports".toList ++ ":role.".toList ++ roleName =
      "sports".toList ++ ":role.".toList ++ "super-admin".toList :=
    List.mem_singleton.1 (hroles ▸ hjoe)
  exact List.mem_singleton.2 (List.append_cancel_left hname)

end Sample

end Athenz.Zts
