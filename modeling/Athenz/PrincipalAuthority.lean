import Athenz.JavaPrincipalToken

namespace Athenz.Java
open Lib.Text Lib.Decimal Lib.Result
set_option autoImplicit true

inductive IpCheckMode where
  | OPS_ALL | OPS_WRITE | OPS_NONE
deriving DecidableEq

/-- The settings an authority is created with. -/
structure PrincipalAuthority where
  tokenOffset : Int := 300
  ipCheckMode : IpCheckMode := .OPS_WRITE
  userDomain : Str := "user"

/-- Whom a server trusts: the key store, by domain, service and key id, and the library that
checks signatures. -/
structure Trust (Key : Type) where
  getPublicKey : Str → Str → Str → Option Str
  crypto : Crypto Key

structure Principal where
  domain : Str
  name : Str
  creds : Str
  issueTime : Int
  unsignedCreds : Option Str
  authorizedService : Option Str
  originalRequestor : Option Str
  keyService : Option Str
  ip : Option Str
  keyId : Str
deriving DecidableEq

namespace PrincipalAuthority

def allowedOffset (authority : PrincipalAuthority) : Int :=
  if authority.tokenOffset < 0 then 300 else authority.tokenOffset

/-- The domain and the service whose key signs the token. -/
def keyOwner (tokenDomain tokenName : Str) (keyService : Option Str) (userToken : Bool) :
    Str × Str :=
  match keyService with
  | some (c :: cs) =>
    if c :: cs = ("zms" : Str) then ("sys.auth", "zms")
    else if c :: cs = ("zts" : Str) then ("sys.auth", "zts")
    else (tokenDomain, tokenName)
  | _ => if userToken then ("sys.auth", "zms") else (tokenDomain, tokenName)

def getPublicKey (trust : Trust Key) (tokenDomain tokenName : Str) (keyService : Option Str)
    (keyId : Str) (userToken : Bool) : Option Str :=
  let owner := keyOwner tokenDomain tokenName keyService userToken
  trust.getPublicKey owner.1 owner.2 keyId

def isWriteOperation [CaseRules] (httpMethod : Option Str) : Bool :=
  match httpMethod with
  | none => false
  | some httpMethod => equalsIgnoreCase httpMethod "PUT" || equalsIgnoreCase httpMethod "POST" ||
      equalsIgnoreCase httpMethod "DELETE"

def remoteIpCheck (authority : PrincipalAuthority) (remoteAddr : Str) (writeOp : Bool)
    (serviceToken : PrincipalToken) (authorizedServiceName : Option Str) : Bool :=
  match authority.ipCheckMode with
  | .OPS_ALL => serviceToken.ip = some remoteAddr
  | .OPS_WRITE => !(writeOp && serviceToken.ip ≠ some remoteAddr && authorizedServiceName.isNone)
  | .OPS_NONE => true

/-- The service that claims to have authorised the token. -/
def claimedServiceName (userToken : PrincipalToken) : Except Str Str :=
  match userToken.authorizedServiceName, userToken.authorizedServices with
  | some name, _ => .ok name
  | none, some [name] => .ok name
  | none, _ => .error ("PrincipalAuthority:validateAuthorizeService: " ++
      "No service name and services list empty OR contains multiple entries: token=" ++
      orNull userToken.unsignedToken)

/-- The domain and the name of that service. -/
def splitServiceName (userToken : PrincipalToken) (name : Str) : Except Str (Str × Str) :=
  match (lastIndexOf '.' name).filter fun idx => idx ≠ 0 ∧ idx + 1 ≠ name.length with
  | some idx => .ok (name.take idx, name.drop (idx + 1))
  | none => .error ("PrincipalAuthority:validateAuthorizeService: " ++ "failed: token=" ++
      orNull userToken.unsignedToken ++ " : Invalid authorized service name specified=" ++ name)

def validateAuthorizeService (trust : Trust Key) (userToken : PrincipalToken) :
    Except Str Str := do
  let name ← claimedServiceName userToken
  let (domain, service) ← splitServiceName userToken name
  let publicKey := trust.getPublicKey domain service userToken.authorizedServiceKeyId
  (userToken.validateForAuthorizedService trust.crypto publicKey).mapError fun errDetail =>
    "PrincipalAuthority:validateAuthorizeService: token validation for authorized service failed: "
      ++ errDetail
  return name

/-- The authorized service of a token, checked when the token carries its signature. -/
def checkAuthorizedService (trust : Trust Key) (serviceToken : PrincipalToken) :
    Except Str (Option Str) :=
  match serviceToken.authorizedServiceSignature with
  | some _ => (validateAuthorizeService trust serviceToken).map some
  | none => .ok none

variable [CaseRules]

/-- The principal of an accepted token; domain and name are kept in lower case. -/
def principalOf (signedToken : Str) (serviceToken : PrincipalToken)
    (authorizedServiceName : Option Str) : Principal where
  domain := toLowerCase (serviceToken.domain.getD [])
  name := toLowerCase (serviceToken.name.getD [])
  creds := signedToken
  issueTime := serviceToken.timestamp
  unsignedCreds := serviceToken.unsignedToken
  authorizedService := authorizedServiceName
  originalRequestor := serviceToken.originalRequestor
  keyService := serviceToken.keyService
  ip := serviceToken.ip
  keyId := serviceToken.keyId

def authenticate [DigitRules] (authority : PrincipalAuthority) (trust : Trust Key) (config : TokenConfig)
    (now : Int) (signedToken remoteAddr : Str) (httpMethod : Option Str) :
    Except Str Principal := do
  let failure (text errDetail : Str) : Str := "PrincipalAuthority:authenticate: " ++ text ++
    errDetail ++ " : credential=" ++ getUnsignedToken signedToken
  let serviceToken ← (PrincipalToken.ofSignedToken signedToken).mapError
    (failure "Invalid token: exc=")
  serviceToken.isValidAuthorizedServiceToken.mapError
    (failure "Invalid authorized service token: ")
  let tokenDomain := toLowerCase (serviceToken.domain.getD [])
  let tokenName := toLowerCase (serviceToken.name.getD [])
  let userToken : Bool := tokenDomain = authority.userDomain
  let publicKey := getPublicKey trust tokenDomain tokenName serviceToken.keyService
    serviceToken.keyId userToken
  let writeOp := isWriteOperation httpMethod
  (serviceToken.validate trust.crypto config now publicKey authority.allowedOffset
    !writeOp).mapError (failure "service token validation failure: ")
  let authorizedServiceName ← (checkAuthorizedService trust serviceToken).mapError
    (failure "validation of authorized service failure: ")
  refuse (userToken ∧
      !authority.remoteIpCheck remoteAddr writeOp serviceToken authorizedServiceName)
    ("PrincipalAuthority:authenticate: IP Mismatch - token (" ++ orNull serviceToken.ip ++
      ") request (" ++ remoteAddr ++ ")")
  return principalOf signedToken serviceToken authorizedServiceName

end PrincipalAuthority

end Athenz.Java
