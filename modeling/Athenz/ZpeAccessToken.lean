import Athenz.ZpePolicies

namespace Athenz.Zpe
open Lib Lib.Text Lib.Index Lib.Result Zts
set_option autoImplicit true

section Tokens

/-- What the checks of a token read of a client certificate. -/
structure X509Certificate where
  hash : Option Str := none
  commonName : Option Str := none
  spiffeUri : Option Str := none
  issueTime : Int := 0
deriving DecidableEq

/-- The claims of an access token that are read here; the expiration is in milliseconds. -/
structure AccessToken where
  clientId : Option Str := none
  audience : Option Str := none
  scope : Option (List Str) := none
  issueTime : Int := 0
  expiration : Option Int := none
  confirmX509Hash : Option Str := none
  confirmProxySpiffe : Option (List Str) := none
deriving DecidableEq

structure TokenSettings where
  accessTokenCertOffset : Int := -1
  accessTokenProxyPrincipals : Option (List Str) := none

/-- The library that reads a token with a good signature; the keys stay the same. -/
structure Jwts where
  parseClaimsJws : Str → Option AccessToken

namespace AccessToken

def getExpiryTime (token : AccessToken) : Int := (token.expiration.getD 0).tdiv 1000

/-- The expiration check of the library, with the 60 seconds that it is told to allow. -/
def isRejectedAt (now : Int) (token : AccessToken) : Bool :=
  token.expiration.any fun expiration => now - 60000 > expiration

def confirmX509CertHash (cert : X509Certificate) (cnfHash : Str) : Bool := cert.hash = some cnfHash

def confirmX509CertPrincipal (settings : TokenSettings) (token : AccessToken) (cert : X509Certificate)
    (cn : Str) : Bool :=
  if settings.accessTokenCertOffset = 0 then false
  else if token.clientId ≠ some cn then false
  else if settings.accessTokenCertOffset = -1 then true
  else if cert.issueTime < token.issueTime - 3600 then false
  else if cert.issueTime > token.issueTime + settings.accessTokenCertOffset - 3600 then false
  else true

def confirmX509ProxyPrincipal (settings : TokenSettings) (cn : Str) (certHash : Option Str)
    (cnfHash : Str) : Bool :=
  if settings.accessTokenProxyPrincipals.any (cn ∉ ·) then false else certHash = some cnfHash

variable [CaseRules]

def confirmX509CertPrincipalAuthzDetails (token : AccessToken) (cert : X509Certificate) : Bool :=
  (token.confirmProxySpiffe.getD []).any fun spiffeUri =>
    cert.spiffeUri.any fun certSpiffeUri => equalsIgnoreCase spiffeUri certSpiffeUri

def confirmMTLSBoundToken (settings : TokenSettings) (token : AccessToken)
    (x509Cert : Option X509Certificate) (x509CertHash : Option Str) : Bool :=
  match x509Cert with
  | none => false
  | some cert =>
    match token.confirmX509Hash with
    | none => false
    | some cnfHash =>
      if confirmX509CertHash cert cnfHash then true
      else
        match cert.commonName with
        | none => false
        | some cn =>
          confirmX509CertPrincipal settings token cert cn ||
            confirmX509CertPrincipalAuthzDetails token cert ||
            confirmX509ProxyPrincipal settings cn x509CertHash cnfHash

/-- What a token is refused for. -/
inductive Refusal where
  | invalid | certHashMismatch
deriving DecidableEq

/-- The constructors: the one without certificate is taken when there is neither certificate nor hash. -/
def create (settings : TokenSettings) (jwts : Jwts) (now : Int) (accessToken : Str)
    (cert : Option X509Certificate) (certHash : Option Str) : Except Refusal AccessToken :=
  match jwts.parseClaimsJws accessToken with
  | none => .error .invalid
  | some token =>
    if token.isRejectedAt now then .error .invalid
    else if cert = none ∧ certHash = none then .ok token
    else if token.confirmMTLSBoundToken settings cert certHash then .ok token
    else .error .certHashMismatch

end AccessToken

end Tokens

section Client

/-- The cache of the tokens that were accepted, and the time of its last cleanup. -/
structure TokenCache where
  accessTokenCacheMap : Map Str AccessToken := ∅
  lastAccessTokenCleanup : Int := 0

def isTokenExpired (now : Int) (token : AccessToken) : Bool :=
  token.getExpiryTime ≠ 0 && token.getExpiryTime < now.tdiv 1000

def stripBearer (accessToken : Str) : Str :=
  if ↑"Bearer " <+: accessToken then accessToken.drop 7 else accessToken

def cleanupAccessTokenCache (cleanupTokenInterval now : Int) (cache : TokenCache) : TokenCache :=
  if now < cleanupTokenInterval + cache.lastAccessTokenCleanup then cache
  else
    { accessTokenCacheMap :=
        cache.accessTokenCacheMap.removeIf fun token => token.getExpiryTime < now.tdiv 1000
      lastAccessTokenCleanup := now }

variable [CaseRules]

/-- The access check with a token object. -/
def allowAccess (loader : ZpeUpdPolLoader) (now : Int) (token : AccessToken)
    (resource action : Option Str) : AccessCheckStatus :=
  if isTokenExpired now token then .DENY_ROLETOKEN_EXPIRED
  else allowActionZPE loader action token.audience resource token.scope

/-- What stays the same over the life of a client. -/
structure AuthZpeClient where
  settings : TokenSettings := {}
  jwts : Jwts
  cleanupTokenInterval : Int := 600000

namespace AuthZpeClient

def allowAccessTokenAccess (client : AuthZpeClient) (loader : ZpeUpdPolLoader) (now : Int)
    (accessToken : Str) (cert : Option X509Certificate) (certHash resource action : Option Str)
    (cache : TokenCache) : TokenCache × AccessCheckStatus :=
  let accessToken := stripBearer accessToken
  match cache.accessTokenCacheMap.lookup accessToken with
  | some acsToken =>
    if cert ≠ none ∧ acsToken.confirmMTLSBoundToken client.settings cert certHash = false then
      (cache, .DENY_CERT_HASH_MISMATCH)
    else (cache, allowAccess loader now acsToken resource action)
  | none =>
    match AccessToken.create client.settings client.jwts now accessToken cert certHash with
    | .error .certHashMismatch => (cache, .DENY_CERT_HASH_MISMATCH)
    | .error .invalid => (cache, .DENY_ROLETOKEN_INVALID)
    | .ok acsToken =>
      ({ cache with accessTokenCacheMap := cache.accessTokenCacheMap.insert accessToken acsToken },
        allowAccess loader now acsToken resource action)

def validateAccessToken (client : AuthZpeClient) (now : Int) (accessToken : Str)
    (cert : Option X509Certificate) (certHash : Option Str) (cache : TokenCache) :
    TokenCache × Option AccessToken :=
  let accessToken := stripBearer accessToken
  match cache.accessTokenCacheMap.lookup accessToken with
  | some acsToken =>
    if cert ≠ none ∧ acsToken.confirmMTLSBoundToken client.settings cert certHash = false then
      (cache, none)
    else (cache, some acsToken)
  | none =>
    match AccessToken.create client.settings client.jwts now accessToken cert certHash with
    | .error _ => (cache, none)
    | .ok acsToken =>
      ({ cache with accessTokenCacheMap := cache.accessTokenCacheMap.insert accessToken acsToken },
        some acsToken)

end AuthZpeClient

end Client

section Runs

variable [CaseRules]

/-- A call that reads or changes the cache; the policies are those loaded at its time. -/
inductive Call where
  | allowAccess (loader : ZpeUpdPolLoader) (accessToken : Str) (cert : Option X509Certificate)
    (certHash resource action : Option Str)
  | validateAccessToken (accessToken : Str) (cert : Option X509Certificate) (certHash : Option Str)
  | cleanup

inductive Answer where
  | status (status : AccessCheckStatus)
  | token (token : Option AccessToken)
  | done
deriving DecidableEq

namespace AuthZpeClient

def perform (client : AuthZpeClient) (now : Int) (cache : TokenCache) : Call → TokenCache × Answer
  | .allowAccess loader accessToken cert certHash resource action =>
    let result := client.allowAccessTokenAccess loader now accessToken cert certHash resource action cache
    (result.1, .status result.2)
  | .validateAccessToken accessToken cert certHash =>
    let result := client.validateAccessToken now accessToken cert certHash cache
    (result.1, .token result.2)
  | .cleanup => (cleanupAccessTokenCache client.cleanupTokenInterval now cache, .done)

/-- The answers of a run of calls, each made at a time of its own. -/
def answers (client : AuthZpeClient) : TokenCache → List (Int × Call) → List Answer
  | _, [] => []
  | cache, (now, call) :: calls =>
    (client.perform now cache call).2 :: client.answers (client.perform now cache call).1 calls

/-- Every token of the cache is one that the library reads. -/
def Genuine (client : AuthZpeClient) (cache : TokenCache) : Prop :=
  ∀ accessToken token, cache.accessTokenCacheMap.lookup accessToken = some token →
    client.jwts.parseClaimsJws accessToken = some token

/-- A call does not take a token from the cache that the library would reject by now or whose binding
has to be checked without a certificate. -/
def Undisturbed (client : AuthZpeClient) (now : Int) (cache : TokenCache) : Call → Prop
  | .allowAccess _ accessToken cert certHash _ _ =>
    ∀ token, cache.accessTokenCacheMap.lookup (stripBearer accessToken) = some token →
      token.isRejectedAt now = false ∧ (cert = none → certHash = none)
  | .validateAccessToken accessToken cert certHash =>
    ∀ token, cache.accessTokenCacheMap.lookup (stripBearer accessToken) = some token →
      cert ≠ none ∧ token.confirmMTLSBoundToken client.settings cert certHash = false ∨
        token.isRejectedAt now = false ∧ (cert = none → certHash = none)
  | .cleanup => True

/-- No call of a run is disturbed by what the calls before it left in the cache. -/
def UndisturbedRun (client : AuthZpeClient) : TokenCache → List (Int × Call) → Prop
  | _, [] => True
  | cache, (now, call) :: calls =>
    client.Undisturbed now cache call ∧ client.UndisturbedRun (client.perform now cache call).1 calls

end AuthZpeClient

end Runs

section Transparency

variable [CaseRules]

namespace AuthZpeClient

variable {client : AuthZpeClient} {cache : TokenCache}

theorem parse_of_create
    (h : AccessToken.create client.settings client.jwts now accessToken cert certHash = .ok token) :
    client.jwts.parseClaimsJws accessToken = some token := by
  unfold AccessToken.create at h
  cases hparse : client.jwts.parseClaimsJws accessToken with
  | none =>
    rw [hparse] at h
    exact nomatch h
  | some parsed =>
    rw [hparse] at h
    dsimp only at h
    split at h
    · exact nomatch h
    · split at h
      · exact congrArg some (Except.ok.inj h)
      · split at h
        · exact congrArg some (Except.ok.inj h)
        · exact nomatch h

omit [CaseRules] in
theorem Genuine.insert (h : client.Genuine cache)
    (hparse : client.jwts.parseClaimsJws accessToken = some token) :
    client.Genuine
      { cache with accessTokenCacheMap := cache.accessTokenCacheMap.insert accessToken token } := by
  intro other found hfound
  rw [Map.lookup_insert] at hfound
  split at hfound
  · rename_i hsame
    obtain rfl := Option.some.inj hfound
    rw [hsame]
    exact hparse
  · exact h other found hfound

omit [CaseRules] in
theorem Genuine.cleanup (h : client.Genuine cache) :
    client.Genuine (cleanupAccessTokenCache interval now cache) := by
  unfold cleanupAccessTokenCache
  split
  · exact h
  · intro accessToken token hfound
    exact h accessToken token (Map.lookup_removeIf.1 hfound).1

theorem Genuine.perform (h : client.Genuine cache) (call : Call) :
    client.Genuine (client.perform now cache call).1 := by
  cases call with
  | allowAccess loader accessToken cert certHash resource action =>
    unfold AuthZpeClient.perform allowAccessTokenAccess
    dsimp only
    split
    · split
      · exact h
      · exact h
    · split
      · exact h
      · exact h
      · rename_i hcreate
        exact h.insert (parse_of_create hcreate)
  | validateAccessToken accessToken cert certHash =>
    unfold AuthZpeClient.perform validateAccessToken
    dsimp only
    split
    · split
      · exact h
      · exact h
    · split
      · exact h
      · rename_i hcreate
        exact h.insert (parse_of_create hcreate)
  | cleanup => exact h.cleanup

/-- What the constructor says of a token that the library does not reject. -/
theorem create_of_parse (hparse : client.jwts.parseClaimsJws accessToken = some token)
    (hlive : token.isRejectedAt now = false) (hcert : cert = none → certHash = none) :
    AccessToken.create client.settings client.jwts now accessToken cert certHash =
      if cert ≠ none ∧ token.confirmMTLSBoundToken client.settings cert certHash = false then
        .error .certHashMismatch
      else .ok token := by
  unfold AccessToken.create
  rw [hparse]
  dsimp only
  rw [hlive, if_neg Bool.false_ne_true]
  cases cert with
  | none => rw [if_pos ⟨rfl, hcert rfl⟩, if_neg fun h => h.1 rfl]
  | some cert =>
    rw [if_neg fun h => nomatch h.1]
    cases token.confirmMTLSBoundToken client.settings (some cert) certHash with
    | true => rfl
    | false => rfl

/-- The status of an access check that finds no token in the cache. -/
def freshStatus (client : AuthZpeClient) (loader : ZpeUpdPolLoader) (now : Int) (accessToken : Str)
    (cert : Option X509Certificate) (certHash resource action : Option Str) : AccessCheckStatus :=
  match AccessToken.create client.settings client.jwts now (stripBearer accessToken) cert certHash with
  | .error .certHashMismatch => .DENY_CERT_HASH_MISMATCH
  | .error .invalid => .DENY_ROLETOKEN_INVALID
  | .ok acsToken => allowAccess loader now acsToken resource action

theorem allowAccessTokenAccess_of_none
    (h : cache.accessTokenCacheMap.lookup (stripBearer accessToken) = none) :
    (client.allowAccessTokenAccess loader now accessToken cert certHash resource action cache).2 =
      client.freshStatus loader now accessToken cert certHash resource action := by
  unfold allowAccessTokenAccess freshStatus
  dsimp only
  rw [h]
  dsimp only
  split <;> rfl

theorem allowAccessTokenAccess_transparent (hgenuine : client.Genuine cache)
    (h : client.Undisturbed now cache (.allowAccess loader accessToken cert certHash resource action)) :
    (client.allowAccessTokenAccess loader now accessToken cert certHash resource action cache).2 =
      client.freshStatus loader now accessToken cert certHash resource action := by
  cases hlookup : cache.accessTokenCacheMap.lookup (stripBearer accessToken) with
  | none => exact allowAccessTokenAccess_of_none hlookup
  | some token =>
    obtain ⟨hlive, hcert⟩ := h token hlookup
    unfold allowAccessTokenAccess freshStatus
    dsimp only
    rw [hlookup, create_of_parse (hgenuine _ _ hlookup) hlive hcert]
    dsimp only
    split
    · rfl
    · rfl

/-- The token of a validation that finds none in the cache. -/
def freshToken (client : AuthZpeClient) (now : Int) (accessToken : Str)
    (cert : Option X509Certificate) (certHash : Option Str) : Option AccessToken :=
  match AccessToken.create client.settings client.jwts now (stripBearer accessToken) cert certHash with
  | .error _ => none
  | .ok acsToken => some acsToken

theorem validateAccessToken_of_none
    (h : cache.accessTokenCacheMap.lookup (stripBearer accessToken) = none) :
    (client.validateAccessToken now accessToken cert certHash cache).2 =
      client.freshToken now accessToken cert certHash := by
  unfold validateAccessToken freshToken
  dsimp only
  rw [h]
  dsimp only
  split <;> rfl

/-- A certificate that does not fit a token is refused at any time. -/
theorem freshToken_of_mismatch (hparse : client.jwts.parseClaimsJws (stripBearer accessToken) = some token)
    (hcert : cert ≠ none)
    (hconfirm : token.confirmMTLSBoundToken client.settings cert certHash = false) :
    client.freshToken now accessToken cert certHash = none := by
  have hboth : ¬ (cert = none ∧ certHash = none) := fun hnone => hcert hnone.1
  unfold freshToken AccessToken.create
  rw [hparse]
  dsimp only
  rw [hconfirm, if_neg hboth]
  cases token.isRejectedAt now with
  | true => rfl
  | false => rfl

theorem validateAccessToken_transparent (hgenuine : client.Genuine cache)
    (h : client.Undisturbed now cache (.validateAccessToken accessToken cert certHash)) :
    (client.validateAccessToken now accessToken cert certHash cache).2 =
      client.freshToken now accessToken cert certHash := by
  cases hlookup : cache.accessTokenCacheMap.lookup (stripBearer accessToken) with
  | none => exact validateAccessToken_of_none hlookup
  | some token =>
    have hparse := hgenuine _ _ hlookup
    have hcached : (client.validateAccessToken now accessToken cert certHash cache).2 =
        if cert ≠ none ∧ token.confirmMTLSBoundToken client.settings cert certHash = false then none
        else some token := by
      unfold validateAccessToken
      dsimp only
      rw [hlookup]
      dsimp only
      split
      · rfl
      · rfl
    rw [hcached]
    obtain ⟨hcert, hconfirm⟩ | ⟨hlive, hcert⟩ := h token hlookup
    · rw [if_pos ⟨hcert, hconfirm⟩, freshToken_of_mismatch hparse hcert hconfirm]
    · unfold freshToken
      rw [create_of_parse hparse hlive hcert]
      split
      · rfl
      · rfl

theorem perform_transparent (hgenuine : client.Genuine cache) (h : client.Undisturbed now cache call) :
    (client.perform now cache call).2 = (client.perform now {} call).2 := by
  cases call with
  | allowAccess loader accessToken cert certHash resource action =>
    refine congrArg Answer.status ((allowAccessTokenAccess_transparent hgenuine h).trans ?_)
    exact (allowAccessTokenAccess_of_none rfl).symm
  | validateAccessToken accessToken cert certHash =>
    refine congrArg Answer.token ((validateAccessToken_transparent hgenuine h).trans ?_)
    exact (validateAccessToken_of_none rfl).symm
  | cleanup => rfl

theorem answers_transparent (hgenuine : client.Genuine cache) (h : client.UndisturbedRun cache calls) :
    client.answers cache calls = calls.map fun call => (client.perform call.1 {} call.2).2 := by
  induction calls generalizing cache with
  | nil => rfl
  | cons entry calls ih =>
    obtain ⟨now, call⟩ := entry
    obtain ⟨hcall, hcalls⟩ := h
    rw [answers, List.map_cons, perform_transparent hgenuine hcall, ih (hgenuine.perform call) hcalls]

omit [CaseRules] in
theorem genuine_empty : client.Genuine {} := by
  intro accessToken token hfound
  exact nomatch hfound

/-- In a run without disturbed calls every answer is the one of an empty cache at the same time. -/
theorem token_cache_transparent (client : AuthZpeClient) (calls : List (Int × Call))
    (h : client.UndisturbedRun {} calls) :
    client.answers {} calls = calls.map fun call => (client.perform call.1 {} call.2).2 :=
  answers_transparent genuine_empty h

end AuthZpeClient

end Transparency

section Sample

local instance tokenCacheCaseRules : CaseRules := .ascii

def boundToken : AccessToken where
  clientId := some "user.joe"
  audience := some "sports"
  scope := some ["readers"]
  expiration := some 1000000
  confirmX509Hash := some "hash"

def boundClient : AuthZpeClient where
  jwts := ⟨fun accessToken => if accessToken = "token" then some boundToken else none⟩

def readersLoader : ZpeUpdPolLoader :=
  ({} : ZpeUpdPolLoader).putMaps "sports" (roleMaps {
    domain := "sports"
    policies := [{ assertions := some [
      { role := "sports:role.readers", resource := "sports:*", action := "read" }] }] })

def boundCert : X509Certificate where
  hash := some "hash"

/-- A reading with a token at some time. -/
def readWith (now : Int) (cert : Option X509Certificate) (certHash : Option Str) : Int × Call :=
  (now, .allowAccess readersLoader "Bearer token" cert certHash (some "sports:news") (some "read"))

theorem cached_token_allows : boundClient.answers {}
    [readWith 900000 none none, readWith 950000 (some boundCert) none, (990000, .cleanup)] =
      [.status .ALLOW, .status .ALLOW, .done] := by
  rw [AuthZpeClient.token_cache_transparent boundClient _ ?_]
  · decide
  · refine ⟨fun _ hnone => (nomatch hnone), ?_, trivial, trivial⟩
    intro token hfound
    obtain rfl : boundToken = token := Option.some.inj hfound
    exact ⟨by decide, fun hnone => nomatch hnone⟩

/-- A token in the cache is accepted with a hash of no certificate and after it has expired. -/
theorem cached_token_bypasses_checks :
    boundClient.answers {} [readWith 900000 none none, readWith 900000 none (some "other"),
        (2000000, .validateAccessToken "token" none none)] =
        [.status .ALLOW, .status .ALLOW, .token (some boundToken)] ∧
      [readWith 900000 none none, readWith 900000 none (some "other"),
          ((2000000 : Int), Call.validateAccessToken "token" none none)].map
          (fun call => (boundClient.perform call.1 {} call.2).2) =
        [.status .ALLOW, .status .DENY_CERT_HASH_MISMATCH, .token none] := by
  refine ⟨?_, ?_⟩ <;> decide

end Sample

end Athenz.Zpe
