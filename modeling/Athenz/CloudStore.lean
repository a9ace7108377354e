import Athenz.DataModel
import Athenz.Lib.Decimal

namespace Athenz.Zts.CloudStore
open Lib Lib.Text Lib.Decimal
set_option autoImplicit true

section Requests

structure AssumeRole where
  account : Str
  roleName : Str
  principal : Str
  durationSeconds : Option Int
  externalId : Option Str
deriving DecidableEq

structure AWSTemporaryCredentials where
  accessKeyId : Str
  secretAccessKey : Str
  sessionToken : Str
  expiration : Int
deriving DecidableEq

/-- What the token service is asked for. -/
structure AssumeRoleRequest where
  roleArn : Str
  roleSessionName : Str
  durationSeconds : Option Int
  externalId : Option Str

inductive StsOutcome where
  | credentials (creds : AWSTemporaryCredentials)
  | serviceException (statusCode : Nat) (errorMessage : Str)
  | exception (message : Str)
deriving DecidableEq

def getAssumeRoleRequest (request : AssumeRole) : AssumeRoleRequest where
  roleArn := "arn:aws:iam::" ++ request.account ++ ":role/" ++ request.roleName
  roleSessionName := "athenz-zts-service"
  durationSeconds := request.durationSeconds.filter (0 < ·)
  externalId := request.externalId.filter (· ≠ [])

/-- The seconds for which the token service grants a request. -/
def grantedSeconds (durationSeconds : Option Int) : Int :=
  (durationSeconds.filter (0 < ·)).getD 3600

end Requests

section Caches

/-- The settings, the timeouts in seconds. -/
structure Settings where
  awsEnabled : Bool
  cacheTimeout : Int
  invalidCacheTimeout : Int

structure State where
  awsCredsCache : Map Str AWSTemporaryCredentials
  awsInvalidCredsCache : Map Str Int

variable (settings : Settings)

def getCacheKey (request : AssumeRole) : Option Str :=
  if settings.cacheTimeout = 0 then none
  else some (request.account ++ ':' :: (request.roleName ++ ':' :: (request.principal ++ ':' ::
    ((request.durationSeconds.map fun n => n.repr.toList).getD [] ++ ':' ::
      request.externalId.getD []))))

def removeExpiredCredentials (now : Int) (s : State) : State :=
  { s with awsCredsCache := s.awsCredsCache.removeIf fun creds => creds.expiration < now }

def removeExpiredInvalidCredentials (now : Int) (s : State) : State :=
  { s with
    awsInvalidCredsCache := s.awsInvalidCredsCache.removeIf fun timeStamp =>
      timeStamp ≤ now - settings.invalidCacheTimeout * 1000 }

/-- A concurrent map has no entry for a null key and refuses to look for one. -/
def lookup (map : Map Str ν) : Option Str → Except Failure (Option ν)
  | none => .error .nullPointer
  | some key => .ok (map.lookup key)

def put (map : Map Str ν) (key : Option Str) (value : ν) : Except Failure (Map Str ν) :=
  match key with
  | none => .error .nullPointer
  | some key => .ok (map.insert key value)

def isFailedTempCredsRequest (now : Int) (cacheKey : Option Str) (s : State) :
    Except Failure Bool :=
  if settings.invalidCacheTimeout = 0 then .ok false
  else do
    match ← lookup s.awsInvalidCredsCache cacheKey with
    | none => .ok false
    | some timeStamp => .ok ((now - timeStamp).tdiv 1000 < settings.invalidCacheTimeout)

def putInvalidCacheCreds (now : Int) (key : Option Str) (s : State) : Except Failure State :=
  if settings.invalidCacheTimeout = 0 then .ok s
  else do
    let cache ← put s.awsInvalidCredsCache key now
    .ok { s with awsInvalidCredsCache := cache }

/-- One hour unless the request says how long. -/
def lifetimeSeconds : Option Int → Int
  | none => 3600
  | some durationSeconds => if durationSeconds ≤ 0 then 3600 else durationSeconds

def getCachedCreds (now : Int) (cacheKey : Option Str) (durationSeconds : Option Int) (s : State) :
    Except Failure (Option AWSTemporaryCredentials) :=
  if settings.cacheTimeout = 0 then .ok none
  else do
    match ← lookup s.awsCredsCache cacheKey with
    | none => .ok none
    | some tempCreds =>
      let diffSeconds := (tempCreds.expiration - now).tdiv 1000
      if lifetimeSeconds durationSeconds - diffSeconds > settings.cacheTimeout then .ok none
      else .ok (some tempCreds)

def putCacheCreds (key : Option Str) (tempCreds : AWSTemporaryCredentials) (s : State) :
    Except Failure State :=
  if settings.cacheTimeout = 0 then .ok s
  else do
    let cache ← put s.awsCredsCache key tempCreds
    .ok { s with awsCredsCache := cache }

end Caches

section Calls

/-- A call with the clock when the caches are looked at and when the token service has
answered, and with that answer. -/
structure Call where
  request : AssumeRole
  looked : Int
  checked : Int
  issued : Int
  answered : Int
  sts : AssumeRoleRequest → StsOutcome

/-- Credentials or a refusal with its message, each with the place it comes from. -/
inductive Answer where
  | cached (creds : AWSTemporaryCredentials)
  | assumed (creds : AWSTemporaryCredentials)
  | cachedRefusal (errorMessage : Str)
  | refused (errorMessage : Str)
deriving DecidableEq

variable (settings : Settings)

/-- The part of a call behind the caches. -/
def askTokenService (call : Call) (cacheKey : Option Str) (s : State) :
    Except Failure (Answer × State) :=
  match call.sts (getAssumeRoleRequest call.request) with
  | .credentials tempCreds => do
    let s ← putCacheCreds settings cacheKey tempCreds s
    .ok (.assumed tempCreds, s)
  | .serviceException statusCode errorMessage =>
    if statusCode = 403 then do
      let s ← putInvalidCacheCreds settings call.answered cacheKey s
      .ok (.refused errorMessage, s)
    else .ok (.refused errorMessage, s)
  | .exception message => .ok (.refused message, s)

def assumeAWSRole (call : Call) (s : State) : Except Failure (Answer × State) :=
  if settings.awsEnabled = false then .error (.resource 500 "AWS Support not enabled")
  else do
    let cacheKey := getCacheKey settings call.request
    match ← getCachedCreds settings call.looked cacheKey call.request.durationSeconds s with
    | some tempCreds => .ok (.cached tempCreds, s)
    | none =>
      if ← isFailedTempCredsRequest settings call.checked cacheKey s then
        .ok (.cachedRefusal ("Cached invalid request. Retry operation after ".toList ++
          settings.invalidCacheTimeout.repr.toList ++ " seconds.".toList), s)
      else askTokenService settings call cacheKey s

end Calls

section Runs

/-- What happens to a store: calls and the two regular cleanups. -/
inductive Event where
  | call (call : Call)
  | removeExpiredCredentials (now : Int)
  | removeExpiredInvalidCredentials (now : Int)

/-- A store with the calls it has answered. -/
structure History where
  state : State
  answers : List (Call × Answer)

def History.start : History where
  state :=
    { awsCredsCache := ∅
      awsInvalidCredsCache := ∅ }
  answers := []

variable (settings : Settings)

/-- A call that throws leaves the store as it is. -/
def History.step (h : History) : Event → History
  | .call call =>
    match assumeAWSRole settings call h.state with
    | .error _ => h
    | .ok (answer, s) =>
      { state := s
        answers := (call, answer) :: h.answers }
  | .removeExpiredCredentials now =>
    { h with state := CloudStore.removeExpiredCredentials now h.state }
  | .removeExpiredInvalidCredentials now =>
    { h with state := CloudStore.removeExpiredInvalidCredentials settings now h.state }

def run (events : List Event) : History := events.foldl (History.step settings) History.start

end Runs

end Athenz.Zts.CloudStore
