import Athenz.Lib.Exceptional
import Athenz.Lib.Map
import Athenz.JavaToken
import Mathlib.Data.List.Lex
import Mathlib.Data.List.Sort

namespace Athenz.ZtsClient
open Lib Lib.Text Lib.Exceptional
set_option autoImplicit true

section Credentials

structure RoleToken where
  token : Str
  expiryTime : Int
deriving DecidableEq

structure AccessTokenResponse where
  access_token : Str
  id_token : Option Str := none
  token_type : Option Str := none
  refresh_token : Option Str := none
  scope : Option Str := none
  expires_in : Int
deriving DecidableEq

/-- The expiration is in milliseconds. -/
structure AWSTemporaryCredentials where
  accessKeyId : Str
  sessionToken : Str
  secretAccessKey : Str
  expiration : Int
deriving DecidableEq

/-- The seconds of a time in milliseconds. -/
def seconds (now : Int) : Int := now.tdiv 1000

structure AccessTokenResponseCacheEntry where
  accessTokenResponse : AccessTokenResponse
  expiryTime : Int
  serverExpirySecs : Int
deriving DecidableEq

namespace AccessTokenResponseCacheEntry

def ofResponse (now : Int) (response : AccessTokenResponse) : AccessTokenResponseCacheEntry where
  accessTokenResponse := response
  expiryTime := seconds now + response.expires_in
  serverExpirySecs := response.expires_in

def isExpired (now : Int) (entry : AccessTokenResponseCacheEntry) (expirySeconds : Int) : Bool :=
  if expirySeconds = -1 then entry.expiryTime ≤ seconds now
  else
    let expirySeconds := if expirySeconds = 0 then entry.serverExpirySecs else expirySeconds
    entry.expiryTime < seconds now + expirySeconds.tdiv 4

/-- The response with what is left of its lifetime. -/
def response (now : Int) (entry : AccessTokenResponseCacheEntry) : AccessTokenResponse :=
  { entry.accessTokenResponse with expires_in := entry.expiryTime - seconds now }

end AccessTokenResponseCacheEntry

end Credentials

section Settings

/-- The static settings of the client, with the digest of authorization details that keys use. -/
structure Settings where
  cacheDisabled : Bool := false
  tokenMinExpiryTime : Nat := 900
  tokenMaxExpiryOffset : Int := 300
  prefetchAutoEnable : Bool := true
  digest : Str → Str

def isEmpty (value : Option Str) : Bool := value.getD [] = []

def isExpiredToken (settings : Settings) (expiryTime : Int)
    (minExpiryTime maxExpiryTime : Option Int) (tokenMinExpiryTime : Int) : Bool :=
  if minExpiryTime.any (expiryTime < ·) then true
  else if maxExpiryTime.any (· + settings.tokenMaxExpiryOffset < expiryTime) then true
  else minExpiryTime.isNone && maxExpiryTime.isNone && expiryTime < tokenMinExpiryTime

end Settings

section Keys

/-- The 16-bit units of a text, which its order goes by. -/
def units (text : Str) : List Nat :=
  text.flatMap fun c =>
    if c.toNat < 0x10000 then [c.toNat]
    else [0xD800 + (c.toNat - 0x10000) / 0x400, 0xDC00 + (c.toNat - 0x10000) % 0x400]

def unitsBefore (s t : Str) : Prop := units s ≤ units t

instance : DecidableRel unitsBefore := fun s t =>
  inferInstanceAs (Decidable (units s ≤ units t))

def multipleRoleKey (roles : List Str) : Option Str :=
  match roles with
  | [] => none
  | [role] => some role
  | roles => some ([','].intercalate (roles.insertionSort unitsBefore))

/-- An attribute of a key that is only written when it has a value. -/
def keyPart (name : Str) (value : Option Str) : Str :=
  if isEmpty value then [] else ';' :: (name ++ '=' :: value.getD [])

/-- The beginning of a key: the client and the domain it asks about. -/
def keyStart (tenantDomain : Str) (tenantService : Option Str) (domainName : Str) : Str :=
  "p=" ++ tenantDomain ++ (tenantService.elim [] ('.' :: ·)) ++ ";d=" ++ domainName

def accessTokenCacheKey (settings : Settings) (tenantDomain tenantService : Option Str)
    (domainName : Str) (roleNames : Option (List Str)) (idTokenServiceName proxyForPrincipal
    authorizationDetails proxyPrincipalSpiffeUris : Option Str) : Option Str :=
  tenantDomain.map fun tenantDomain =>
    keyStart tenantDomain tenantService domainName ++
      (if roleNames.getD [] = [] then [] else
        (";r=" : Str) ++ Java.orNull (multipleRoleKey (roleNames.getD []))) ++
      keyPart "o" idTokenServiceName ++ keyPart "u" proxyForPrincipal ++
      (if isEmpty authorizationDetails then [] else
        (";z=" : Str) ++ settings.digest (authorizationDetails.getD [])) ++
      keyPart "s" proxyPrincipalSpiffeUris

/-- The roles of a list in one text; several of them are sorted. -/
def roleTokenRoles (roleName : Str) : Str :=
  if ',' ∉ roleName then roleName
  else Java.orNull (multipleRoleKey (splitTrim ',' roleName))

def roleTokenCacheKey (tenantDomain tenantService : Option Str) (domainName : Str)
    (roleName proxyForPrincipal : Option Str) : Option Str :=
  tenantDomain.map fun tenantDomain =>
    keyStart tenantDomain tenantService domainName ++
      (if isEmpty roleName then [] else (";r=" : Str) ++ roleTokenRoles (roleName.getD [])) ++
      keyPart "u" proxyForPrincipal

def hexDigit (n : Nat) : Char := if n < 10 then Char.ofNat (48 + n) else Char.ofNat (55 + n)

/-- `URLEncoder.encode` of one character. -/
def encodeChar (c : Char) : Str :=
  if c.isAlphanum || c ∈ ['.', '-', '*', '_'] then [c]
  else if c = ' ' then ['+']
  else (String.utf8EncodeChar c).flatMap fun b =>
    ['%', hexDigit (b.toNat / 16), hexDigit (b.toNat % 16)]

def urlEncode (text : Str) : Str := text.flatMap encodeChar

end Keys

section Requests

structure RoleTokenRequest where
  domainName : Str
  roleNames : Option Str := none
  minExpiryTime : Option Int := none
  maxExpiryTime : Option Int := none
  proxyForPrincipal : Option Str := none
deriving DecidableEq

structure AccessTokenRequest where
  domainName : Str
  roleNames : Option (List Str) := none
  idTokenServiceName : Option Str := none
  proxyForPrincipal : Option Str := none
  authorizationDetails : Option Str := none
  proxyPrincipalSpiffeUris : Option Str := none
  expiryTime : Int := 0
deriving DecidableEq

structure AwsRequest where
  domainName : Str
  roleName : Str
  externalId : Option Str := none
  minExpiryTime : Option Int := none
  maxExpiryTime : Option Int := none
deriving DecidableEq

/-- What reaches ZTS: AWS roles are encoded. -/
inductive ZtsCall where
  | role (request : RoleTokenRequest)
  | access (request : AccessTokenRequest)
  | aws (domainName encodedRole : Str) (maxExpiryTime : Option Int) (externalId : Option Str)
deriving DecidableEq

inductive Credential where
  | role (token : RoleToken)
  | access (response : AccessTokenResponse)
  | aws (credentials : AWSTemporaryCredentials)
deriving DecidableEq

end Requests

end Athenz.ZtsClient
