import Athenz.NodeRoleToken
import Athenz.NodePolicies
import Athenz.Lib.Expiring

namespace Athenz.Node
open Lib Lib.Text Lib.Number Lib.Signature
set_option autoImplicit true

/-- The settings of the client. -/
structure ZpeConfig where
  tokenRefresh : Nat
  policyRefresh : Nat
  allowedOffset : JsNumber

/-- The offset that `init` keeps. -/
def ZpeConfig.offset (config : ZpeConfig) : JsNumber :=
  if lt config.allowedOffset 0 then 300 else config.allowedOffset

/-- What the client is set up with; `refuses` tells where a signature check throws. -/
structure AuthZPEClient (Key : Type) where
  crypto : Scheme Key
  refuses : Str → Key → Str → Bool
  auth : Config
  config : ZpeConfig
  ztsPublicKeyMap : Map Str Key
  zmsPublicKeyMap : Map Str Key

/-- A cached value: tokens and policies are kept by one cache. -/
inductive CacheEntry where
  | token (rToken : RoleToken)
  | policies (maps : RoleMaps)

abbrev Cache := Expiring Str CacheEntry

/-- A file of the policy directory with its parsed text; `none` is a text which is not JSON. -/
structure PolicyFile where
  fileName : Str
  content : Option Json

def PolicyFile.parse (file : PolicyFile) : Except Thrown Json :=
  match file.content with
  | none => .error .syntaxError
  | some json => .ok json

structure Params where
  roleToken : Option Str
  resource : Option Str
  action : Option Str

/-- All three members are there; null and the empty text are not. -/
def Params.complete (params : Params) : Bool :=
  truthy params.roleToken && truthy params.resource && truthy params.action

/-- What the callback is called with. -/
structure Answer where
  error : Option Str
  status : AccessCheckStatus
deriving DecidableEq

def CacheEntry.isPolicies : CacheEntry → Bool
  | .policies _ => true
  | .token _ => false

/-- The maps of an entry; a token has none. -/
def CacheEntry.maps : CacheEntry → Option RoleMaps
  | .policies maps => some maps
  | .token _ => none

/-- `Date.now() / 1000` -/
def seconds (now : Int) : JsNumber := ofRat (now / 1000)

def wholeSeconds (now : Int) : JsNumber :=
  match seconds now with
  | .fin q => .fin q.floor
  | x => x

section Keys

variable {Key : Type} (zpe : AuthZPEClient Key)

def getKey (keyMap : Map Str Key) (keyId : Option Json) : Option Key :=
  match keyId with
  | none => none
  | some keyId => if keyId.truthy then keyMap.lookup keyId.toText else none

def AuthZPEClient.getZtsPublicKey (keyId : Option Json) : Option Key := getKey zpe.ztsPublicKeyMap keyId

def AuthZPEClient.getZmsPublicKey (keyId : Option Json) : Option Key := getKey zpe.zmsPublicKeyMap keyId

/-- `Crypto.verify` throws without a key and on a signature which is no text. -/
def AuthZPEClient.verify (message : Str) (key : Option Key) (signature : Option Json) : Except Thrown Bool :=
  match signature, key with
  | some (.string signature), some key =>
    if zpe.refuses message key signature then .error .verifyError
    else .ok (zpe.crypto.verify message key signature)
  | _, _ => .error .verifyError

/-- The check of signed data; `missing` is the answer where there is none. -/
def AuthZPEClient.verifyData (missing : Bool) (key : Option Key) (signature data : Option Json) :
    Except Thrown Bool :=
  match data with
  | none => .ok missing
  | some value =>
    if value.truthy then do
      let message ← asCanonicalString value
      zpe.verify message key signature
    else .ok missing

end Keys

section Updater

variable {Key : Type} (zpe : AuthZPEClient Key)

/-- The policy data of a file whose signatures verify. -/
def AuthZPEClient.verifiedData (file : PolicyFile) : Except Thrown (Option (Option Json)) := do
  let spols ← file.parse
  if !spols.truthy then .ok none
  else
    let signedPolicyData ← Json.property "signedPolicyData" (some spols)
    let signature ← Json.property "signature" (some spols)
    let keyId ← Json.property "keyId" (some spols)
    if !(← zpe.verifyData false (zpe.getZtsPublicKey keyId) signature signedPolicyData) then .ok none
    else
      let policyData ← Json.property "policyData" signedPolicyData
      let signature ← Json.property "zmsSignature" signedPolicyData
      let keyId ← Json.property "zmsKeyId" signedPolicyData
      if !(← zpe.verifyData true (zpe.getZmsPublicKey keyId) signature policyData) then .ok none
      else .ok (some policyData)

/-- The key of the cache and the maps that a file brings, if it is valid. -/
def AuthZPEClient.loadFile (file : PolicyFile) : Except Thrown (Option (Str × RoleMaps)) := do
  match ← zpe.verifiedData file with
  | none => .ok none
  | some policyData => (loadPolicies policyData).map some

def AuthZPEClient.putPolicies (now : Int) (domainName : Str) (maps : RoleMaps) (cache : Cache) : Cache :=
  cache.put now domainName (.policies maps) (zpe.config.policyRefresh * 1000)

/-- The loop over the files, with the cache as the files before an exception leave it. -/
def AuthZPEClient.loadEach (now : Int) : List PolicyFile → Cache → Except Thrown Unit × Cache
  | [], cache => (.ok (), cache)
  | file :: files, cache =>
    match zpe.loadFile file with
    | .error thrown => (.error thrown, cache)
    | .ok none => AuthZPEClient.loadEach now files cache
    | .ok (some (domainName, maps)) =>
      AuthZPEClient.loadEach now files (zpe.putPolicies now domainName maps cache)

def isPolicyFile (file : PolicyFile) : Bool := ↑".pol" <:+ file.fileName

def AuthZPEClient.loadFiles (now : Int) (files : List PolicyFile) (cache : Cache) :
    Except Thrown Unit × Cache :=
  zpe.loadEach now (files.filter isPolicyFile) cache

/-- The maps of a domain; nothing where the cache has none for it. -/
def AuthZPEClient.lookupPolicyInCache (now : Int) (files : List PolicyFile) (domain : Str) (cache : Cache) :
    Except Thrown (Option RoleMaps) × Cache :=
  match cache.get now domain with
  | some entry => (.ok entry.maps, cache)
  | none =>
    match zpe.loadFiles now files cache with
    | (.error thrown, cache) => (.error thrown, cache)
    | (.ok _, cache) => (.ok ((cache.get now domain).bind CacheEntry.maps), cache)

end Updater

section Client

variable {Key : Type} (zpe : AuthZPEClient Key)

/-- One step of a decision: look a map up, consult it, and stop or go on. -/
def AuthZPEClient.consultNext (now : Int) (files : List PolicyFile) (domain : Str)
    (select : RoleMaps → RoleMap) (hit : RoleMap → Except Thrown Bool) (result : AccessCheckStatus)
    (next : AccessCheckStatus → Cache → Except Thrown Answer × Cache) (status : AccessCheckStatus)
    (cache : Cache) : Except Thrown Answer × Cache :=
  match zpe.lookupPolicyInCache now files domain cache with
  | (.error thrown, cache) => (.error thrown, cache)
  | (.ok maps, cache) =>
    match consult hit (maps.map select) status with
    | .error thrown => (.error thrown, cache)
    | .ok none => (.ok ⟨none, result⟩, cache)
    | .ok (some status) => next status cache

def AuthZPEClient.checkAllowAssertion (now : Int) (files : List PolicyFile) (action domain resource : Str)
    (roles : List Str) : AccessCheckStatus → Cache → Except Thrown Answer × Cache :=
  zpe.consultNext now files domain (·.standardRoleAllowMap)
    (fun roleMap => actionByRole action resource roleMap roles) .ALLOW <|
  zpe.consultNext now files domain (·.wildcardRoleAllowMap)
    (fun roleMap => actionByWildcardRole action resource roleMap roles) .ALLOW
    fun status cache => (.ok ⟨none, status⟩, cache)

def AuthZPEClient.checkDenyAssertion (now : Int) (files : List PolicyFile) (action domain resource : Str)
    (roles : List Str) : AccessCheckStatus → Cache → Except Thrown Answer × Cache :=
  zpe.consultNext now files domain (·.standardRoleDenyMap)
    (fun roleMap => actionByRole action resource roleMap roles) .DENY <|
  zpe.consultNext now files domain (·.wildcardRoleDenyMap)
    (fun roleMap => actionByWildcardRole action resource roleMap roles) .DENY <|
  zpe.checkAllowAssertion now files action domain resource roles

variable [CaseRules]

def AuthZPEClient.allowActionZPE (now : Int) (files : List PolicyFile) (action : Str) (domain : Option Str)
    (resource : Str) (roles : Option (List Str)) (cache : Cache) : Except Thrown Answer × Cache :=
  let msgPrefix : Str := "allowActionZPE: domain(".toList ++ domain.getD "null" ++
    ") resource(".toList ++ resource ++ ")".toList
  let refuse (message : String) (status : AccessCheckStatus) : Except Thrown Answer × Cache :=
    (.ok ⟨some (msgPrefix ++ message.toList), status⟩, cache)
  if roles.all (· = []) then refuse " ERROR: No roles so access denied" .DENY_ROLETOKEN_INVALID
  else if !truthy domain then refuse " ERROR: No domain so access denied" .DENY_ROLETOKEN_INVALID
  else if action = [] then refuse " ERROR: No action so access denied" .DENY_INVALID_PARAMETERS
  else if resource = [] then refuse " ERROR: No resource so access denied" .DENY_INVALID_PARAMETERS
  else
    let domain := domain.getD []
    match Zpe.stripDomainPrefix (toLowerCase resource) domain none with
    | none | some [] =>
      (.ok ⟨some (msgPrefix ++ " ERROR: Domain mismatch in token(".toList ++ domain ++
        ") and resource so access denied".toList), .DENY_DOMAIN_MISMATCH⟩, cache)
    | some resource =>
      zpe.checkDenyAssertion now files (toLowerCase action) domain resource (roles.getD [])
        .DENY_DOMAIN_NOT_FOUND cache

/-- The token of a string that the cache does not have, or the answer that refuses it. -/
def AuthZPEClient.authenticate (now : Int) (roleToken : Str) : Except Thrown (Except Answer RoleToken) :=
  match RoleToken.parseSignedToken roleToken with
  | .error message => .error (.error message)
  | .ok rToken =>
    if rToken.validate zpe.crypto zpe.auth (wholeSeconds now)
        (zpe.getZtsPublicKey (some (.string rToken.keyId))) zpe.config.offset true then
      .ok (.ok rToken)
    else if rToken.expiryTime ≠ 0 && lt rToken.expiryTime (seconds now) then
      .ok (.error ⟨some "ERROR: Role Token is Expired", .DENY_ROLETOKEN_EXPIRED⟩)
    else .ok (.error ⟨some "ERROR: Invalid Role Token", .DENY_ROLETOKEN_INVALID⟩)

/-- Only an answer about an expired token drops an entry. -/
def dropRefused (roleToken : Str) (answer : Answer) (cache : Cache) : Cache :=
  if answer.status = .DENY_ROLETOKEN_EXPIRED then cache.del roleToken else cache

def AuthZPEClient.allowToken (now : Int) (files : List PolicyFile) (action resource : Str)
    (rToken : RoleToken) (cache : Cache) : Except Thrown Answer × Cache :=
  zpe.allowActionZPE now files action rToken.domain resource rToken.roles cache

/-- The call once the cache was asked for the token. -/
def AuthZPEClient.allowAccessCached (now : Int) (files : List PolicyFile) (roleToken resource action : Str)
    (cached : Option CacheEntry) (cache : Cache) : Except Thrown Answer × Cache :=
  match cached with
  | some (.token rToken) => zpe.allowToken now files action resource rToken cache
  | some (.policies _) => (.error (.notFunction "rToken.getDomain"), cache)
  | none =>
    match zpe.authenticate now roleToken with
    | .error thrown => (.error thrown, cache)
    | .ok (.error answer) => (.ok answer, dropRefused roleToken answer cache)
    | .ok (.ok rToken) =>
      zpe.allowToken now files action resource rToken
        (cache.put now roleToken (.token rToken) (zpe.config.tokenRefresh * 1000))

/-- The call with what the token cache answers. -/
def AuthZPEClient.allowAccessWith (now : Int) (files : List PolicyFile) (params : Params)
    (cached : Option CacheEntry) (cache : Cache) : Except Thrown Answer × Cache :=
  if !params.complete then
    (.ok ⟨some "ERROR: paramater must include 3 members: roleToken, resource, action",
      .DENY_INVALID_PARAMETERS⟩, cache)
  else
    zpe.allowAccessCached now files (params.roleToken.getD []) (params.resource.getD [])
      (params.action.getD []) cached cache

def AuthZPEClient.allowAccess (now : Int) (files : List PolicyFile) (params : Params)
    (cache : Cache) : Except Thrown Answer × Cache :=
  zpe.allowAccessWith now files params (cache.get now (params.roleToken.getD [])) cache

end Client

end Athenz.Node
