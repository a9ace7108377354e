import Mathlib.Algebra.Group.Nat.Defs
import Mathlib.Data.List.DropRight
import Mathlib.Data.Rat.Defs

namespace Lib.Number
set_option autoImplicit true

/-- Values of a binary64 number. The two zeros compare equal and are not told apart. -/
inductive JsNumber where
  | nan
  | inf (negative : Bool)
  | fin (value : ℚ)
deriving DecidableEq

instance (n : Nat) : OfNat JsNumber n := ⟨.fin n⟩

instance : Inhabited JsNumber := ⟨0⟩

/-- The nearest integer, ties to the even one. -/
def roundHalfEven (q : ℚ) : ℤ :=
  let below := q.floor
  let rest := q - below
  if rest < 1 / 2 then below
  else if 1 / 2 < rest then below + 1
  else if below % 2 = 0 then below else below + 1

def scale (q : ℚ) (k : ℤ) : ℚ :=
  if 0 ≤ k then q * (2 ^ k.toNat : ℕ) else q / (2 ^ (-k).toNat : ℕ)

/-- The exponent `k` with `2 ^ k ≤ q < 2 ^ (k + 1)`, for positive `q`. -/
def binaryExponent (q : ℚ) : ℤ :=
  let k := (q.num.natAbs.log2 : ℤ) - q.den.log2
  if scale 1 k ≤ q then k else k - 1

/-- Rounding to the nearest binary64 number: 53 significant bits, the smallest step
`2 ^ -1074`, overflow to an infinity. -/
def ofRat (q : ℚ) : JsNumber :=
  if q = 0 then 0
  else
    let size := if q < 0 then -q else q
    let step := max (binaryExponent size - 52) (-1074)
    let rounded := scale (roundHalfEven (scale size (-step))) step
    if scale 1 1024 ≤ rounded then .inf (q < 0)
    else .fin (if q < 0 then -rounded else rounded)

def neg : JsNumber → JsNumber
  | .nan => .nan
  | .inf s => .inf !s
  | .fin q => .fin (-q)

def add : JsNumber → JsNumber → JsNumber
  | .nan, _ => .nan
  | _, .nan => .nan
  | .inf s, .inf s' => if s = s' then .inf s else .nan
  | .inf s, .fin _ => .inf s
  | .fin _, .inf s => .inf s
  | .fin p, .fin q => ofRat (p + q)

def sub (x y : JsNumber) : JsNumber := add x (neg y)

/-- The order of numbers; nothing is below or above `nan`. -/
def lt : JsNumber → JsNumber → Bool
  | .nan, _ => false
  | _, .nan => false
  | .inf s, .inf s' => s && !s'
  | .inf s, .fin _ => s
  | .fin _, .inf s => !s
  | .fin p, .fin q => p < q

/-- Characters that conversion from a text strips at both ends. -/
def isSpace (c : Char) : Bool :=
  c.toNat ∈ [0x9, 0xA, 0xB, 0xC, 0xD, 0x20, 0xA0, 0x1680, 0x2028, 0x2029, 0x202F, 0x205F,
    0x3000, 0xFEFF] || (0x2000 ≤ c.toNat && c.toNat ≤ 0x200A)

def digit (base : Nat) (c : Char) : Option Nat :=
  let v :=
    if '0' ≤ c ∧ c ≤ '9' then some (c.toNat - '0'.toNat)
    else if 'a' ≤ c ∧ c ≤ 'z' then some (c.toNat - 'a'.toNat + 10)
    else if 'A' ≤ c ∧ c ≤ 'Z' then some (c.toNat - 'A'.toNat + 10)
    else none
  v.filter (· < base)

/-- The value of a possibly empty row of digits. -/
def digits (base : Nat) (s : List Char) : Option Nat :=
  s.foldlM (fun n c => (digit base c).map (base * n + ·)) 0

def digits1 (base : Nat) (s : List Char) : Option Nat :=
  if s = [] then none else digits base s

def signed (value : List Char → Option ℤ) : List Char → Option ℤ
  | '-' :: s => (value s).map (- ·)
  | '+' :: s => value s
  | s => value s

/-- `ddd`, `ddd.ddd`, `ddd.` or `.ddd`, as an integer and the number of its decimals. -/
def mantissa (s : List Char) : Option (Nat × Nat) :=
  match s.splitOn '.' with
  | [whole] => (digits1 10 whole).map (·, 0)
  | [whole, part] => (digits1 10 (whole ++ part)).map (·, part.length)
  | _ => none

def decimal (s : List Char) : Option ℚ :=
  let head := s.takeWhile fun c => c ≠ 'e' ∧ c ≠ 'E'
  let tail := s.drop head.length
  let exponent :=
    match tail with
    | [] => some 0
    | _ :: t => signed (fun t => (digits1 10 t).map (↑·)) t
  match mantissa head, exponent with
  | some (m, decimals), some e =>
    let k := e - decimals
    some (if 0 ≤ k then (m * 10 ^ k.toNat : ℕ) else (m : ℚ) / (10 ^ (-k).toNat : ℕ))
  | _, _ => none

def signedDecimal (s : List Char) : JsNumber :=
  let value := fun t =>
    if t = "Infinity".toList then JsNumber.inf false
    else
      match decimal t with
      | some q => ofRat q
      | none => .nan
  match s with
  | '-' :: t => neg (value t)
  | '+' :: t => value t
  | t => value t

/-- Conversion of a text to a number: blanks at the ends are ignored, the empty text is zero,
and what is not a literal is `nan`. -/
def ofText (s : List Char) : JsNumber :=
  let radix := fun base t =>
    match digits1 base t with
    | some n => ofRat n
    | none => JsNumber.nan
  match (s.dropWhile isSpace).rdropWhile isSpace with
  | [] => 0
  | '0' :: 'x' :: t => radix 16 t
  | '0' :: 'X' :: t => radix 16 t
  | '0' :: 'o' :: t => radix 8 t
  | '0' :: 'O' :: t => radix 8 t
  | '0' :: 'b' :: t => radix 2 t
  | '0' :: 'B' :: t => radix 2 t
  | t => signedDecimal t

example : ofText "0x10".toList = 16 ∧ ofText " 12.50e1 ".toList = 125 ∧
    ofText "9007199254740993".toList = 9007199254740992 ∧ ofText "-".toList = .nan := by
  decide +kernel

end Lib.Number
