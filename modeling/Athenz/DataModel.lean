import Athenz.Lib.Text
import Athenz.Lib.Map
import Athenz.Lib.Result

namespace Athenz.Zts
open Lib Lib.Text
set_option autoImplicit true

structure RoleMember where
  memberName : Str
  expiration : Option Int := none
  systemDisabled : Option Int := none
  active : Option Bool := none
  approved : Option Bool := none
  principalType : Option Int := none
deriving DecidableEq

structure Role where
  name : Str
  roleMembers : Option (List RoleMember) := none
  trust : Option Str := none
  tags : Map Str (List Str) := ∅
  signAlgorithm : Option Str := none
  certExpiryMins : Option Int := none
  tokenExpiryMins : Option Int := none
deriving DecidableEq

structure GroupMember where
  memberName : Str
  groupName : Str
  expiration : Option Int := none
  systemDisabled : Option Int := none
  active : Option Bool := none
  approved : Option Bool := none
deriving DecidableEq

structure Group where
  name : Str
  groupMembers : Option (List GroupMember) := none
deriving DecidableEq

inductive AssertionEffect where
  | ALLOW | DENY
deriving DecidableEq

structure Assertion where
  role : Str
  resource : Str
  action : Str
  effect : Option AssertionEffect := none
deriving DecidableEq

structure Policy where
  active : Option Bool := none
  assertions : Option (List Assertion) := none
deriving DecidableEq

structure PublicKeyEntry where
  id : Str
  key : Option Str
deriving DecidableEq

structure ServiceIdentity where
  name : Str
  hosts : Option (List Str) := none
  publicKeys : Option (List PublicKeyEntry) := none
deriving DecidableEq

/-- The value of an entity, reduced to its `data` field. -/
structure EntityValue where
  data : Option Str
deriving DecidableEq

structure Entity where
  name : Str
  value : Option EntityValue
deriving DecidableEq

structure AuthzDetailsEntity where
  type : Str
  roles : Option (List Str)
  fields : Option (List Str)
deriving DecidableEq

/-- A domain as the change log delivers it; `policies` are the contents of its signed policies. -/
structure DomainData where
  name : Str
  enabled : Option Bool := none
  account : Option Str := none
  azureSubscription : Option Str := none
  certDnsDomain : Option Str := none
  roleCertExpiryMins : Option Int := none
  tokenExpiryMins : Option Int := none
  roles : Option (List Role) := none
  groups : Option (List Group) := none
  policies : Option (List Policy) := none
  services : Option (List ServiceIdentity) := none
  entities : Option (List Entity) := none
deriving DecidableEq

/-- What stops a request or the processing of a domain. -/
inductive Failure where
  | nullPointer
  | outOfBounds
  | arithmetic
  | resource (code : Nat) (message : Str)
deriving DecidableEq

def isMemberDisabled (systemDisabled : Option Int) : Bool :=
  systemDisabled.any (· ≠ 0)

def isMemberExpired (expiration : Option Int) (currentTime : Int) : Bool :=
  expiration.any (· < currentTime)

def shouldSkipGroupMember (member : GroupMember) (currentTime : Int) : Bool :=
  isMemberDisabled member.systemDisabled || isMemberExpired member.expiration currentTime

/-- The part of a resource name behind its separator, when both parts are there. -/
def extractNameFromArn (name separator : Str) : Option Str :=
  match indexOf separator name with
  | some idx =>
    if idx = 0 ∨ idx + separator.length = name.length then none
    else some (name.drop (idx + separator.length))
  | none => none

def extractRoleName (roleName : Str) : Option Str := extractNameFromArn roleName ":role."

def containsMatchCharacter (name : Str) : Bool := '*' ∈ name || '?' ∈ name

/-- The pieces of the regular expression that a glob is turned into. -/
inductive GlobPiece where
  | anyText | anyChar | literal (c : Char)
deriving DecidableEq

def patternFromGlob (glob : Str) : List GlobPiece :=
  glob.map fun c => if c = '*' then .anyText else if c = '?' then .anyChar else .literal c

/-- The dot of a regular expression does not match the end of a line. -/
def isLineTerminator (c : Char) : Bool :=
  c ∈ ['\n', '\r', '\u0085', '\u2028', '\u2029']

/-- A match of the whole text. -/
def matchesPattern : List GlobPiece → Str → Bool
  | [], s => s = []
  | .anyText :: ps, s => (List.range (s.length + 1)).any fun i =>
      (s.take i).all (!isLineTerminator ·) && matchesPattern ps (s.drop i)
  | .anyChar :: ps, s => match s with
    | [] => false
    | c :: t => !isLineTerminator c && matchesPattern ps t
  | .literal d :: ps, s => match s with
    | [] => false
    | c :: t => d = c && matchesPattern ps t

def takesPort (s : Str) : Option Str :=
  let digits := s.takeWhile Char.isDigit
  if digits.length = 0 ∨ digits.length > 5 then none else some (s.drop digits.length)

/-- The tail of a transport rule: one port or a range of source ports, and the port. -/
def takesPorts (s : Str) : Bool :=
  let lastPort (t : Str) := match t with
    | ':' :: c :: _ => c.isDigit
    | _ => false
  match takesPort s with
  | some ('-' :: t) => (takesPort t).any lastPort
  | some t => lastPort t
  | none => false

def isTransportRuleAction (action : Str) : Bool :=
  action.tails.any fun s =>
    ["TCP-IN:", "TCP-OUT:", "UDP-IN:", "UDP-OUT:"].any fun (start : String) =>
      start.toList <+: s && takesPorts (s.drop start.toList.length)

end Athenz.Zts
