import Athenz.Lib.Text
import Athenz.Lib.Map
import Athenz.Lib.Transaction

namespace Athenz.ZmsServer
open Lib Lib.Text
set_option autoImplicit true

/-- What an operation throws. -/
inductive Failure where
  | resource (code : Nat) (message : Str)
  | quotaLimit (what : Str) (limit actual : Nat)
  | tagQuota (objectType : Str) (limit current added : Nat)
  | nullPointer
deriving DecidableEq

def Failure.code : Failure → Option Nat
  | .resource code _ => some code
  | .quotaLimit _ _ _ => some 429
  | .tagQuota _ _ _ _ => some 400
  | .nullPointer => none

def Failure.message : Failure → Str
  | .resource _ message => message
  | .quotaLimit what limit actual =>
    what ++ " quota exceeded - limit: ".toList ++ (Nat.repr limit).toList ++
      " actual: ".toList ++ (Nat.repr actual).toList
  | .tagQuota objectType limit current added =>
    objectType ++ " tag quota exceeded - limit: ".toList ++ (Nat.repr limit).toList ++
      ", current tags count: ".toList ++ (Nat.repr current).toList ++
      ", new tags count: ".toList ++ (Nat.repr added).toList
  | .nullPointer => []

def isBlank (c : Char) : Bool := c ≤ ' '

def trim (s : Str) : Str := (s.dropWhile isBlank).rdropWhile isBlank

theorem trim_trim (s : Str) : trim (trim s) = trim s := by
  have hfront : (trim s).dropWhile isBlank = trim s := by
    rw [List.dropWhile_eq_self_iff]
    intro hl
    have hlonger : 0 < (s.dropWhile isBlank).length :=
      Nat.lt_of_lt_of_le hl (List.rdropWhile_prefix isBlank _).length_le
    have hhead := List.dropWhile_eq_self_iff.1 (List.dropWhile_idempotent isBlank s) hlonger
    have hsame := (List.rdropWhile_prefix isBlank (s.dropWhile isBlank)).getElem hl
    rw [show (trim s)[0] = (s.dropWhile isBlank)[0] from hsame]
    exact hhead
  rw [trim, hfront]
  exact List.rdropWhile_idempotent isBlank _

/-- A text column; the store trims what is written to it. -/
def Column := { s : Str // trim s = s }
deriving DecidableEq

/-- A text column that holds no text reads as missing. -/
def saveValue (value : Column) : Option Str := if value.1 = [] then none else some value.1

def processInsertValue (value : Option Str) : Column :=
  match value with
  | none => ⟨[], rfl⟩
  | some s => ⟨trim s, trim_trim s⟩

theorem processInsertValue_saveValue (value : Column) :
    processInsertValue (saveValue value) = value := by
  unfold saveValue
  split
  · rename_i hempty
    exact Subtype.ext hempty.symm
  · exact Subtype.ext value.2

/-- How the store compares texts, by the keys of its collation. -/
class Collation where
  key : Str → Str

/-- Texts that the store takes for the same. -/
def sameText [Collation] (s t : Str) : Bool := Collation.key s = Collation.key t

/-- The collation that tells all texts apart. -/
@[reducible] def Collation.binary : Collation := ⟨id⟩

/-- The collation that ignores the case of ASCII letters. -/
@[reducible] def Collation.caseInsensitive : Collation := ⟨List.map Char.toLower⟩

theorem sameText_iff [Collation] {s t : Str} :
    sameText s t = true ↔ Collation.key s = Collation.key t := decide_eq_true_iff

theorem sameText_refl [Collation] (s : Str) : sameText s s = true := sameText_iff.2 rfl

def nullIfDefaultValue [DecidableEq α] (value defaultValue : α) : Option α :=
  if value = defaultValue then none else some value

theorem getD_nullIfDefaultValue [DecidableEq α] (value defaultValue : α) :
    (nullIfDefaultValue value defaultValue).getD defaultValue = value := by
  unfold nullIfDefaultValue
  split
  · rename_i hsame
    exact hsame.symm
  · rfl

section Requests

structure Member where
  memberName : Str
  expiration : Option Int := none
  reviewReminder : Option Int := none
  active : Option Bool := none
  approved : Option Bool := none
  systemDisabled : Option Nat := none
deriving DecidableEq

/-- Tags of a request; their names and values have no blanks around them. -/
abbrev Tags := Map Column (List Column)

structure Role where
  name : Str
  trust : Option Str := none
  auditEnabled : Option Bool := none
  selfServe : Option Bool := none
  memberExpiryDays : Option Int := none
  tokenExpiryMins : Option Int := none
  certExpiryMins : Option Int := none
  signAlgorithm : Option Str := none
  serviceExpiryDays : Option Int := none
  memberReviewDays : Option Int := none
  serviceReviewDays : Option Int := none
  groupReviewDays : Option Int := none
  reviewEnabled : Option Bool := none
  notifyRoles : Option Str := none
  userAuthorityFilter : Option Str := none
  userAuthorityExpiration : Option Str := none
  groupExpiryDays : Option Int := none
  roleMembers : Option (List Member) := none
  tags : Option Tags := none
deriving DecidableEq

structure Group where
  name : Str
  auditEnabled : Option Bool := none
  selfServe : Option Bool := none
  reviewEnabled : Option Bool := none
  notifyRoles : Option Str := none
  userAuthorityFilter : Option Str := none
  userAuthorityExpiration : Option Str := none
  memberExpiryDays : Option Int := none
  serviceExpiryDays : Option Int := none
  groupMembers : Option (List Member) := none
  tags : Option Tags := none
deriving DecidableEq

inductive AssertionEffect where
  | ALLOW | DENY
deriving DecidableEq

structure Assertion where
  role : Str
  resource : Str
  action : Str
  effect : Option AssertionEffect := none
  id : Option Nat := none
deriving DecidableEq

inductive AssertionConditionOperator where
  | EQUALS
deriving DecidableEq

/-- The operator and the value that a condition asks of a key. -/
structure AssertionConditionData where
  operator : AssertionConditionOperator := .EQUALS
  value : Str
deriving DecidableEq

structure AssertionCondition where
  id : Option Int := none
  conditionsMap : Map Str AssertionConditionData

structure Policy where
  name : Str
  version : Option Str := none
  active : Option Bool := none
  assertions : Option (List Assertion) := none
deriving DecidableEq

structure Domain where
  name : Str
  description : Option Str := none
  org : Option Str := none
  id : Option Str := none
  enabled : Option Bool := none
  auditEnabled : Option Bool := none
  account : Option Str := none
  ypmId : Option Int := none
  applicationId : Option Str := none
  certDnsDomain : Option Str := none
  memberExpiryDays : Option Int := none
  tokenExpiryMins : Option Int := none
  serviceCertExpiryMins : Option Int := none
  roleCertExpiryMins : Option Int := none
  signAlgorithm : Option Str := none
  serviceExpiryDays : Option Int := none
  userAuthorityFilter : Option Str := none
  groupExpiryDays : Option Int := none
  azureSubscription : Option Str := none
  businessService : Option Str := none
  tags : Option Tags := none
deriving DecidableEq

structure PublicKeyEntry where
  id : Str
  key : Str
deriving DecidableEq

structure ServiceIdentity where
  name : Str
  description : Option Str := none
  providerEndpoint : Option Str := none
  executable : Option Str := none
  user : Option Str := none
  group : Option Str := none
  publicKeys : Option (List PublicKeyEntry) := none
  hosts : Option (List Str) := none
deriving DecidableEq

structure Entity where
  name : Str
  value : Str
deriving DecidableEq

structure TemplateParam where
  name : Str
  value : Str

structure TemplateMetaData where
  latestVersion : Option Int := none

structure Template where
  roles : Option (List Role) := none
  policies : Option (List Policy) := none
  services : Option (List ServiceIdentity) := none
  metadata : Option TemplateMetaData := none

structure Quota where
  role : Nat
  roleMember : Nat
  policy : Nat
  assertion : Nat
  service : Nat
  serviceHost : Nat
  publicKey : Nat
  entity : Nat
  subdomain : Nat
  group : Nat
  groupMember : Nat
deriving DecidableEq

end Requests

section Rows

structure MemberRow where
  expiration : Option Int
  reviewReminder : Option Int
  active : Bool
  systemDisabled : Nat := 0
deriving DecidableEq

structure AuditEntry where
  admin : Column
  member : Str
  action : Str
deriving DecidableEq

/-- A member that waits for a decision, with who has asked for it. -/
structure PendingRow where
  expiration : Option Int
  reviewReminder : Option Int
  reqPrincipal : Column
deriving DecidableEq

/-- A row of the tag tables. -/
structure TagRow where
  key : Column
  value : Column
deriving DecidableEq

/-- A role or group row with the rows that belong to it. -/
structure Collection (S : Type) where
  settings : S
  members : Map Str MemberRow := ∅
  pending : Map Str PendingRow := ∅
  auditLog : List AuditEntry := []
  tags : List TagRow := []

structure RoleSettings where
  trust : Column
  auditEnabled : Bool
  selfServe : Bool
  memberExpiryDays : Int
  tokenExpiryMins : Int
  certExpiryMins : Int
  signAlgorithm : Column
  serviceExpiryDays : Int
  memberReviewDays : Int
  serviceReviewDays : Int
  groupReviewDays : Int
  reviewEnabled : Bool
  notifyRoles : Column
  userAuthorityFilter : Column
  userAuthorityExpiration : Column
  groupExpiryDays : Int
deriving DecidableEq

structure GroupSettings where
  auditEnabled : Bool
  selfServe : Bool
  reviewEnabled : Bool
  notifyRoles : Column
  userAuthorityFilter : Column
  userAuthorityExpiration : Column
  memberExpiryDays : Int
  serviceExpiryDays : Int
deriving DecidableEq

/-- A key of a condition of an assertion. -/
structure ConditionRow where
  id : Int
  key : Str
  data : AssertionConditionData
deriving DecidableEq

structure AssertionRow where
  id : Nat
  role : Str
  resource : Str
  action : Str
  effect : AssertionEffect
  conditions : List ConditionRow := []
deriving DecidableEq

structure PolicyRow where
  name : Str
  version : Str
  active : Bool
  assertions : List AssertionRow := []
deriving DecidableEq

structure ServiceRow where
  description : Column
  providerEndpoint : Column
  executable : Column
  user : Column
  group : Column
  publicKeys : Map Str Str := ∅
  hosts : List Str := []

structure DomainSettings where
  description : Column
  org : Column
  uuid : Column
  enabled : Bool
  auditEnabled : Bool
  account : Column
  ypmId : Int
  applicationId : Column
  certDnsDomain : Column
  memberExpiryDays : Int
  tokenExpiryMins : Int
  serviceCertExpiryMins : Int
  roleCertExpiryMins : Int
  signAlgorithm : Column
  serviceExpiryDays : Int
  userAuthorityFilter : Column
  groupExpiryDays : Int
  azureSubscription : Column
  businessService : Column
deriving DecidableEq

structure DomainRow where
  settings : DomainSettings
  modified : Int
  tags : List TagRow := []
  roles : Map Str (Collection RoleSettings) := ∅
  groups : Map Str (Collection GroupSettings) := ∅
  policies : List PolicyRow := []
  services : Map Str ServiceRow := ∅
  entities : Map Str Str := ∅
  templates : Map Str Int := ∅
  quota : Option Quota := none

/-- The tables, by domain; assertions are numbered in the order they are inserted. -/
structure Database where
  domains : Map Str DomainRow := ∅
  nextAssertionId : Nat := 1

end Rows

end Athenz.ZmsServer
