import Athenz.ZpePolicies
import Mathlib.Data.List.Lex
import Mathlib.Data.List.Sort

namespace Athenz.Node
open Lib Lib.Text
set_option autoImplicit true

/-- What JavaScript code throws; a type error names the expression it stops at. -/
inductive Thrown where
  | syntaxError
  | notObject
  | notFunction (expression : Str)
  | notIterable (expression : Str)
  | noProperties (property : Str)
  | verifyError
  | error (message : Str)
deriving DecidableEq

section Values

/-- What `JSON.parse` yields; a number is kept by the text that `String` gives for it. -/
inductive Json where
  | null
  | boolean (value : Bool)
  | number (text : Str)
  | string (text : Str)
  | array (items : List Json)
  | object (fields : List (Str × Json))

namespace Json

def truthy : Json → Bool
  | .null => false
  | .boolean value => value
  | .number text => text ≠ "0"
  | .string text => text ≠ []
  | .array _ => true
  | .object _ => true

mutual

/-- The text that a value is turned into, as a key or in a concatenation. -/
def toText : Json → Str
  | .null => "null"
  | .boolean true => "true"
  | .boolean false => "false"
  | .number text => text
  | .string text => text
  | .array items => [','].intercalate (itemTexts items)
  | .object _ => "[object Object]"

def itemTexts : List Json → List Str
  | [] => []
  | .null :: items => [] :: itemTexts items
  | item :: items => toText item :: itemTexts items

end

/-- The items that a `for` loop visits. -/
def iterate (expression : Str) : Option Json → Except Thrown (List Json)
  | some (.array items) => .ok items
  | some (.string text) => .ok (text.map fun c => .string [c])
  | _ => .error (.notIterable expression)

/-- A property of a value; `none` is undefined, which has no properties. -/
def property (name : Str) : Option Json → Except Thrown (Option Json)
  | none => .error (.noProperties name)
  | some .null => .error (.noProperties name)
  | some (.object fields) => .ok (fields.lookup name)
  | some _ => .ok none

def isTruthy (value : Option Json) : Bool := value.any truthy

end Json

/-- The 16-bit units of a text. -/
def codeUnits (text : Str) : List Nat :=
  text.flatMap fun c =>
    if c.toNat < 0x10000 then [c.toNat]
    else [0xD800 + (c.toNat - 0x10000) / 0x400, 0xDC00 + (c.toNat - 0x10000) % 0x400]

end Values

section Canonical

def deleteEndSeparator (str : Str) : Str :=
  if str.getLast? = some ',' then str.dropLast else str

def byCodeUnits (a b : Str × Str) : Prop := codeUnits a.1 ≤ codeUnits b.1

instance : DecidableRel byCodeUnits := fun a b =>
  inferInstanceAs (Decidable (codeUnits a.1 ≤ codeUnits b.1))

/-- The fields of an object in the order of their names. -/
def canonicalObject (texts : List (Str × Str)) : Str :=
  deleteEndSeparator ('{' :: (texts.insertionSort byCodeUnits).flatMap fun field =>
    '"' :: field.1 ++ '"' :: ':' :: field.2 ++ [',']) ++ ['}']

def canonicalArray (texts : List Str) : Str :=
  deleteEndSeparator ('[' :: texts.flatMap (· ++ [','])) ++ [']']

mutual

/-- `_asCanonicalString`; null is an object without keys to list. -/
def asCanonicalString : Json → Except Thrown Str
  | .null => .error .notObject
  | .boolean _ => .ok []
  | .number text => .ok text
  | .string text => .ok ('"' :: text ++ ['"'])
  | .array items => (canonicalItems items).map canonicalArray
  | .object fields => (canonicalFields fields).map canonicalObject

def canonicalFields : List (Str × Json) → Except Thrown (List (Str × Str))
  | [] => .ok []
  | (key, value) :: fields => do
    let text ← asCanonicalString value
    let texts ← canonicalFields fields
    .ok ((key, text) :: texts)

def canonicalItems : List Json → Except Thrown (List Str)
  | [] => .ok []
  | item :: items => do
    let text ← asCanonicalString item
    let texts ← canonicalItems items
    .ok (text :: texts)

end

end Canonical

section Matchers

/-- The matchers of a pattern: `never` and `broken` stand for patterns that are lists. -/
inductive ZPEMatch where
  | equal (value : Str)
  | startswith (value : Str)
  | all
  | regex (value : Str)
  | never
  | broken
deriving DecidableEq

/-- The dot of a regular expression does not match these units. -/
def isLineEnd (unit : Nat) : Bool := unit ∈ [0x0A, 0x0D, 0x2028, 0x2029]

/-- The match of a whole text against units in which the star and the question mark are special. -/
def unitsMatch : List Nat → List Nat → Bool
  | [], s => s = []
  | p :: ps, s =>
    if p = '*'.toNat then
      (List.range (s.length + 1)).any fun i =>
        (s.take i).all (!isLineEnd ·) && unitsMatch ps (s.drop i)
    else
      match s with
      | [] => false
      | u :: t => (if p = '?'.toNat then !isLineEnd u else p = u) && unitsMatch ps t

def regexMatches (value val : Str) : Bool := unitsMatch (codeUnits value) (codeUnits val)

def ZPEMatch.matches : ZPEMatch → Str → Except Thrown Bool
  | .equal value, val => .ok (val = value)
  | .startswith value, val => .ok (value.dropLast <+: val)
  | .all, _ => .ok true
  | .regex value, val => .ok (regexMatches value val)
  | .never, _ => .ok false
  | .broken, _ => .error (.notFunction "value.substring")

def ZPEMatch.isEqual : ZPEMatch → Bool
  | .equal _ => true
  | .never => true
  | _ => false

/-- The choice by the places of the first star and the first question mark. -/
def matcherAt (anyCharMatch singleCharMatch : Option Nat) (length : Nat)
    (equal startswith regex : ZPEMatch) : ZPEMatch :=
  match anyCharMatch, singleCharMatch with
  | none, none => equal
  | some i, none => if i + 1 = length then startswith else regex
  | _, some _ => regex

def getMatchText (value : Str) : ZPEMatch :=
  if value = "*" then .all
  else matcherAt (indexOf ['*'] value) (indexOf ['?'] value) value.length
    (.equal value) (.startswith value) (.regex value)

/-- The place of a text among the items of a list. -/
def textIndex (text : Str) (items : List Json) : Option Nat :=
  items.findIdx? fun item => match item with
    | .string value => value = text
    | _ => false

/-- `_getMatchObject`; lists have places of their items, other values none. -/
def getMatchObject : Option Json → Except Thrown ZPEMatch
  | none => .error (.noProperties "indexOf")
  | some .null => .error (.noProperties "indexOf")
  | some (.string value) => .ok (getMatchText value)
  | some (.array items) => .ok (matcherAt (textIndex "*" items) (textIndex "?" items) items.length
      .never .broken (.regex (Json.toText (.array items))))
  | some _ => .error (.notFunction "value.indexOf")

end Matchers

section Loading

/-- The matchers of an assertion, under its role. -/
structure Assert where
  actionMatchStruct : ZPEMatch
  resourceMatchStruct : ZPEMatch
  role : Str
  roleMatchStruct : ZPEMatch
deriving DecidableEq

/-- The own properties of a role map, in the order in which they were added. -/
abbrev RoleMap := List (Str × List Assert)

/-- The properties that every object inherits; some of them are functions without parameters. -/
def inherited : List Str :=
  ["constructor", "__defineGetter__", "__defineSetter__", "hasOwnProperty", "__lookupGetter__",
    "__lookupSetter__", "isPrototypeOf", "propertyIsEnumerable", "toString", "valueOf",
    "__proto__", "toLocaleString"]

def inheritedEmpty : List Str := ["toString", "valueOf", "toLocaleString"]

/-- `stripDomainPrefix` with the text itself as default. -/
def stripAssertString (domainName : Option Json) : Option Json → Except Thrown (Option Json)
  | none => .error (.noProperties "indexOf")
  | some .null => .error (.noProperties "indexOf")
  | some (.string assertString) =>
    match indexOf [':'] assertString with
    | none => .ok (some (.string assertString))
    | some index =>
      match domainName with
      | some (.string domain) =>
        if assertString.take index ≠ domain then .ok (some (.string assertString))
        else .ok (some (.string (assertString.drop (index + 1))))
      | _ => .ok (some (.string assertString))
  | some (.array items) =>
    match textIndex ":" items with
    | none => .ok (some (.array items))
    | some _ => .error (.notFunction "assertString.substring")
  | some _ => .error (.notFunction "assertString.indexOf")

/-- `replace(/^role\./, '')` -/
def stripRole : Option Json → Except Thrown Str
  | some (.string role) => .ok (if ↑"role." <+: role then role.drop 5 else role)
  | _ => .error (.notFunction "assert.role.replace")

structure RoleMaps where
  standardRoleAllowMap : RoleMap := []
  wildcardRoleAllowMap : RoleMap := []
  standardRoleDenyMap : RoleMap := []
  wildcardRoleDenyMap : RoleMap := []
deriving DecidableEq

/-- An inherited property stands in the way of a role of its name. -/
def pushAssert (assert : Assert) (roleMap : RoleMap) : Except Thrown RoleMap :=
  match roleMap.lookup assert.role with
  | some _ => .ok (roleMap.map fun entry =>
      if entry.1 = assert.role then (entry.1, entry.2 ++ [assert]) else entry)
  | none =>
    if assert.role ∈ inherited then .error (.notFunction "roleMap[assert.role].push")
    else .ok (roleMap ++ [(assert.role, [assert])])

def makeAssert (domainName assertion : Option Json) : Except Thrown Assert := do
  let actionMatchStruct ← getMatchObject (← Json.property "action" assertion)
  let resource ← stripAssertString domainName (← Json.property "resource" assertion)
  let resourceMatchStruct ← getMatchObject resource
  let role ← stripRole (← stripAssertString domainName (← Json.property "role" assertion))
  .ok ⟨actionMatchStruct, resourceMatchStruct, role, getMatchText role⟩

def isDeny : Option Json → Bool
  | some (.string effect) => effect = "DENY"
  | _ => false

def pushAssertion (deny : Bool) (assert : Assert) (maps : RoleMaps) : Except Thrown RoleMaps :=
  if deny then
    if assert.roleMatchStruct.isEqual then
      (pushAssert assert maps.standardRoleDenyMap).map
        fun roleMap => { maps with standardRoleDenyMap := roleMap }
    else
      (pushAssert assert maps.wildcardRoleDenyMap).map
        fun roleMap => { maps with wildcardRoleDenyMap := roleMap }
  else
    if assert.roleMatchStruct.isEqual then
      (pushAssert assert maps.standardRoleAllowMap).map
        fun roleMap => { maps with standardRoleAllowMap := roleMap }
    else
      (pushAssert assert maps.wildcardRoleAllowMap).map
        fun roleMap => { maps with wildcardRoleAllowMap := roleMap }

def addAssertion (domainName : Option Json) (maps : RoleMaps) (assertion : Json) :
    Except Thrown RoleMaps := do
  let assert ← makeAssert domainName (some assertion)
  pushAssertion (isDeny (← Json.property "effect" (some assertion))) assert maps

def addPolicy (domainName : Option Json) (maps : RoleMaps) (policy : Json) :
    Except Thrown RoleMaps := do
  let assertions ← Json.property "assertions" (some policy)
  if !Json.isTruthy assertions then .ok maps
  else (← Json.iterate "assertions" assertions).foldlM (addAssertion domainName) maps

/-- The key of the cache and the maps that `_loadPolicies` puts there. -/
def loadPolicies (policyData : Option Json) : Except Thrown (Str × RoleMaps) := do
  let domainName ← Json.property "domain" policyData
  let policies ← Json.iterate "policies" (← Json.property "policies" policyData)
  let maps ← policies.foldlM (addPolicy domainName) {}
  .ok ((domainName.map Json.toText).getD "undefined", maps)

end Loading

section Access

inductive AccessCheckStatus where
  | ALLOW | DENY | DENY_NO_MATCH | DENY_ROLETOKEN_EXPIRED | DENY_ROLETOKEN_INVALID
  | DENY_DOMAIN_MISMATCH | DENY_DOMAIN_NOT_FOUND | DENY_DOMAIN_EXPIRED | DENY_DOMAIN_EMPTY
  | DENY_INVALID_PARAMETERS
deriving DecidableEq

def matchAssertion (action resource : Str) : List Assert → Except Thrown Bool
  | [] => .ok false
  | assert :: asserts => do
    if !(← assert.actionMatchStruct.matches action) then matchAssertion action resource asserts
    else if !(← assert.resourceMatchStruct.matches resource) then
      matchAssertion action resource asserts
    else .ok true

/-- The assertions under a role; an inherited property with parameters is no list of assertions. -/
def assertsOf (roleMap : RoleMap) (role : Str) : Except Thrown (List Assert) :=
  match roleMap.lookup role with
  | some asserts => .ok asserts
  | none =>
    if role ∈ inherited ∧ role ∉ inheritedEmpty then .error (.notIterable "asserts") else .ok []

def actionByRole (action resource : Str) (roleMap : RoleMap) : List Str → Except Thrown Bool
  | [] => .ok false
  | role :: roles => do
    if ← matchAssertion action resource (← assertsOf roleMap role) then .ok true
    else actionByRole action resource roleMap roles

/-- The role of a wildcard entry is that of its first assertion. -/
def actionByEntries (action resource role : Str) : RoleMap → Except Thrown Bool
  | [] => .ok false
  | (_, []) :: entries => actionByEntries action resource role entries
  | (_, assert :: asserts) :: entries => do
    if !(← assert.roleMatchStruct.matches role) then actionByEntries action resource role entries
    else if ← matchAssertion action resource (assert :: asserts) then .ok true
    else actionByEntries action resource role entries

def actionByWildcardRole (action resource : Str) (roleMap : RoleMap) :
    List Str → Except Thrown Bool
  | [] => .ok false
  | role :: roles => do
    if ← actionByEntries action resource role roleMap then .ok true
    else actionByWildcardRole action resource roleMap roles

/-- One of the four steps of a decision: a hit ends it, else the status is revised. -/
def consult (hit : RoleMap → Except Thrown Bool) (roleMap : Option RoleMap)
    (status : AccessCheckStatus) : Except Thrown (Option AccessCheckStatus) :=
  match roleMap with
  | none => .ok (some status)
  | some roleMap =>
    if roleMap ≠ [] then (hit roleMap).map fun found => if found then none else some .DENY_NO_MATCH
    else .ok (some (if status ≠ .DENY_NO_MATCH then .DENY_DOMAIN_EMPTY else status))

end Access

end Athenz.Node
