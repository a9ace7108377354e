import Athenz.Lib.Signature
import Athenz.Lib.Number
import Athenz.Lib.Assign

namespace Athenz.Node
open Lib.Text Lib.Number Lib.Assign Lib.Signature
set_option autoImplicit true

/-- The settings of `auth_core` that the token classes read. -/
structure Config where
  tokenMaxExpiry : JsNumber
  tokenNoExpiry : Bool

/-- The configured maximum, cut at thirty days. -/
def Config.ATHENZ_TOKEN_MAX_EXPIRY (config : Config) : JsNumber :=
  if lt 2592000 config.tokenMaxExpiry then 2592000 else config.tokenMaxExpiry

/-- The fields of the base class, as its constructor leaves them. -/
structure Token where
  unsignedToken : Option Str := none
  signedToken : Option Str := none
  version : Option Str := none
  salt : Option Str := none
  host : Option Str := none
  ip : Option Str := none
  domain : Option Str := none
  signature : Option Str := none
  keyId : Str := "0"
  expiryTime : JsNumber := 0
  timestamp : JsNumber := 0

/-- Null and the empty text are both falsy. -/
def truthy (s : Option Str) : Bool := s.any (· ≠ [])

/-- `Token.validate` at a time in seconds; `verify` answers false where `Crypto.verify` throws. -/
def Token.validate (crypto : Scheme Key) (config : Config) (now : JsNumber) (publicKey : Option Key)
    (allowedOffset : JsNumber) (allowNoExpiry : Bool) (token : Token) : Bool :=
  match token.unsignedToken, token.signature, publicKey with
  | some unsignedToken, some signature, some key =>
    if !truthy token.unsignedToken || !truthy token.signature then false
    else if token.timestamp ≠ 0 && lt now (sub token.timestamp allowedOffset) then false
    else if (token.expiryTime ≠ 0 || !config.tokenNoExpiry || !allowNoExpiry) &&
        (lt token.expiryTime now ||
          lt (add (add now config.ATHENZ_TOKEN_MAX_EXPIRY) allowedOffset) token.expiryTime) then
      false
    else crypto.verify unsignedToken key signature
  | _, _, _ => false

theorem Token.validate_signed {crypto : Scheme Key} {token : Token}
    (h : token.validate crypto config now publicKey allowedOffset allowNoExpiry = true) :
    ∃ m key, token.unsignedToken = some m ∧ publicKey = some key ∧ crypto.signed key m := by
  unfold validate at h
  split at h
  · rename_i m signature key hm hs
    split at h
    · cases h
    · split at h
      · cases h
      · split at h
        · cases h
        · exact ⟨m, key, hm, rfl, crypto.sound h⟩
  · cases h

/-- The `key=value` pieces between semicolons; `split` keeps every empty piece. -/
def items (text : Str) : List (Str × Str) :=
  (text.splitOn ';').filterMap fun item =>
    match item.splitOn '=' with
    | [key, value] => some (key, value)
    | _ => none

/-- The text in front of the first `;s=`. -/
def signedMessage (signedToken : Str) : Option Str :=
  (indexOf ";s=" signedToken).map signedToken.take

/-- The text behind the semicolon of the first `;s=`. -/
def trailer (signedToken : Str) : Option Str :=
  (indexOf ";s=" signedToken).map fun i => signedToken.drop (i + 1)

theorem mem_of_items {text : Str} {item : Str × Str} (h : item ∈ items text)
    (hc : c ∈ item.2) : c ∈ text := by
  obtain ⟨piece, hpiece, hitem⟩ := List.mem_filterMap.1 h
  split at hitem
  · rename_i key value hsplit
    cases hitem
    have hvalue : value ∈ piece.splitOn '=' := by
      rw [hsplit]
      exact List.mem_cons_of_mem _ List.mem_cons_self
    exact mem_of_mem_splitOn hpiece (mem_of_mem_splitOn hvalue hc)
  · cases hitem

theorem items_append (u v : Str) : items (u ++ ';' :: v) = items u ++ items v := by
  rw [items, List.splitOn_append_cons_self, List.filterMap_append]
  rfl

theorem truthy_iff {s : Option Str} : truthy s = true ↔ s.getD [] ≠ [] := by
  cases s with
  | none => exact ⟨nofun, fun h => absurd rfl h⟩
  | some s => exact decide_eq_true_iff

/-- The scan of a signed token first goes over its signed message, then over the rest. -/
theorem items_signedToken (hm : signedMessage t = some m) (ht : trailer t = some r) :
    items t = items m ++ items r := by
  obtain ⟨i, hi, rfl⟩ := Option.map_eq_some_iff.1 hm
  simp only [trailer, hi, Option.map_some, Option.some.injEq] at ht
  obtain ⟨v, hv⟩ := indexOf_prefix_drop hi
  have hd : t.drop i = ';' :: r := by
    rw [← ht, ← List.drop_drop, ← hv]
    rfl
  rw [← items_append, ← hd, List.take_append_drop]

/-- A single field without further separators. -/
theorem items_field {key value : Str} (hsep : ';' ∉ key ++ '=' :: value) (hkey : '=' ∉ key)
    (hvalue : '=' ∉ value) : items (key ++ '=' :: value) = [(key, value)] := by
  rw [items, List.splitOn_eq_singleton hsep, List.filterMap_cons, List.filterMap_nil,
    List.splitOn_append_cons_self, List.splitOn_eq_singleton hkey,
    List.splitOn_eq_singleton hvalue]
  rfl

theorem trailer_of_signedMessage (hm : signedMessage t = some m) : ∃ r, trailer t = some r := by
  obtain ⟨i, hi, rfl⟩ := Option.map_eq_some_iff.1 hm
  exact ⟨_, by rw [trailer, hi, Option.map_some]⟩

/-- What an attribute text stands for: a number with default zero, the key id with its default,
or the text itself. -/
inductive Reading where
  | number
  | keyId
  | text

def Reading.read : Reading → Option Str → JsNumber ⊕ Option Str
  | .number, raw => .inl ((raw.map ofText).getD 0)
  | .keyId, raw => .inr (some (raw.getD "0"))
  | .text, raw => .inr raw

/-- An item behind the signature is harmless when it repeats what the signed message says. -/
def Harmless [DecidableEq κ] (key : κ) (reading : Reading) (signed rest : List (κ × Str)) : Prop :=
  ∀ value, lastValue key rest = some value →
    reading.read (some value) = reading.read (lastValue key signed)

theorem splitOn_injective (sep : Char) : Function.Injective fun s : Str => s.splitOn sep :=
  Function.LeftInverse.injective (g := [sep].intercalate) fun _ => List.intercalate_splitOn sep

theorem harmless_iff [DecidableEq κ] {key : κ} {reading : Reading}
    {signed rest : List (κ × Str)} :
    Harmless key reading signed rest ↔
      reading.read (lastValue key (signed ++ rest)) = reading.read (lastValue key signed) := by
  rw [lastValue_append, Harmless]
  cases lastValue key rest with
  | none => simp only [reduceCtorEq, false_implies, implies_true, Option.none_or]
  | some value => simp only [Option.some.injEq, forall_eq', Option.some_or]

end Athenz.Node
