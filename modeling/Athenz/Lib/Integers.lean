import Athenz.Lib.Number
import Athenz.Lib.Decimal
import Mathlib.Data.Rat.Floor
import Mathlib.Tactic.Positivity
import Mathlib.Tactic.FieldSimp

namespace Lib.Number
set_option autoImplicit true

theorem roundHalfEven_int (z : ℤ) : roundHalfEven z = z := by
  unfold roundHalfEven
  simp

theorem scale_natCast (m k : Nat) : scale m k = ((m * 2 ^ k : ℕ) : ℤ) := by
  unfold scale
  simp

theorem scale_neg_natCast (m k : Nat) : scale (((m * 2 ^ k : ℕ) : ℤ) : ℚ) (-(k : ℤ)) = m := by
  unfold scale
  split
  · have hk : k = 0 := by omega
    subst hk
    simp
  · simp

theorem binaryExponent_natCast {m : Nat} (hm : m ≠ 0) : binaryExponent (m : ℚ) = (m.log2 : ℤ) := by
  have hle : scale 1 (m.log2 : ℤ) ≤ (m : ℚ) := by
    have hpow := Nat.log2_self_le hm
    unfold scale
    rw [if_pos (Int.natCast_nonneg _), Int.toNat_natCast, one_mul]
    exact_mod_cast hpow
  have hone : Nat.log2 1 = 0 := rfl
  unfold binaryExponent
  rw [Rat.num_natCast, Rat.den_natCast, hone, Int.natAbs_natCast]
  simp [hle]

theorem not_scale_le {m k : Nat} (h : m < 2 ^ 53) (hk : 53 ≤ k) : ¬ scale 1 (k : ℤ) ≤ (m : ℚ) := by
  have hlt : m < 2 ^ k := h.trans_le (Nat.pow_le_pow_right (by decide) hk)
  unfold scale
  rw [if_pos (Int.natCast_nonneg _), Int.toNat_natCast, one_mul]
  exact not_le.2 (by exact_mod_cast hlt)

/-- Integers of at most 53 bits are numbers. -/
theorem ofRat_int {n : ℤ} (h : n.natAbs < 2 ^ 53) : ofRat n = .fin n := by
  by_cases hn : n = 0
  · subst hn
    rfl
  have hm : n.natAbs ≠ 0 := Int.natAbs_ne_zero.2 hn
  have hsize : (if (n : ℚ) < 0 then -(n : ℚ) else n) = (n.natAbs : ℚ) := by
    rw [Nat.cast_natAbs]
    split
    · rename_i hneg
      rw [abs_of_neg (by exact_mod_cast hneg), Int.cast_neg]
    · rename_i hneg
      rw [abs_of_nonneg (by exact_mod_cast not_lt.1 hneg)]
  have hlog : n.natAbs.log2 ≤ 52 := Nat.le_of_lt_succ ((Nat.log2_lt hm).2 h)
  have hstep : max ((n.natAbs.log2 : ℤ) - 52) (-1074) = -((52 - n.natAbs.log2 : ℕ) : ℤ) := by
    omega
  have hne : (n : ℚ) ≠ 0 := Int.cast_ne_zero.2 hn
  have hlimit : ¬ scale 1 1024 ≤ (n.natAbs : ℚ) := not_scale_le h (k := 1024) (by decide)
  unfold ofRat
  rw [if_neg hne]
  dsimp only
  rw [hsize, binaryExponent_natCast hm, hstep, neg_neg, scale_natCast, roundHalfEven_int,
    scale_neg_natCast, if_neg hlimit, ← hsize]
  split
  · rw [neg_neg]
  · rfl

section Texts

open Lib.Decimal Lib.Text

/-- The ten digits are digits everywhere, and no other ASCII character is one. -/
def AsciiDigits [DigitRules] : Prop :=
  ∀ c : Char, c.toNat < 128 → DigitRules.digit c = digit 10 c

theorem le_iff_toNat (a b : Char) : a ≤ b ↔ a.toNat ≤ b.toNat := Iff.rfl

theorem digit_ten (c : Char) :
    digit 10 c = if 48 ≤ c.toNat ∧ c.toNat ≤ 57 then some (c.toNat - 48) else none := by
  unfold digit
  simp only [le_iff_toNat, show '0'.toNat = 48 from rfl, show '9'.toNat = 57 from rfl]
  by_cases hdigit : 48 ≤ c.toNat ∧ c.toNat ≤ 57
  · have hlt : c.toNat - 48 < 10 := by omega
    rw [if_pos hdigit, if_pos hdigit, Option.filter_some, if_pos (decide_eq_true hlt)]
  · rw [if_neg hdigit, if_neg hdigit]
    split
    · rw [Option.filter_some, if_neg]
      simp
    · split
      · rw [Option.filter_some, if_neg]
        simp
      · rfl

theorem ascii_asciiDigits : @AsciiDigits .ascii := by
  intro c _
  rw [digit_ten]
  rfl

/-- A digit is no blank and no other sign of a number. -/
theorem digit_not {c : Char} (h : digit 10 c = some d) :
    isSpace c = false ∧ c ∉ ['x', 'X', 'o', 'O', 'b', 'B', 'e', 'E', '.', '-', '+', 'I'] := by
  rw [digit_ten] at h
  split at h
  · rename_i hdigit
    constructor
    · unfold isSpace
      simp
      omega
    · simp only [List.mem_cons, List.not_mem_nil, or_false, not_or]
      refine ⟨?_, ?_, ?_, ?_, ?_, ?_, ?_, ?_, ?_, ?_, ?_, ?_⟩ <;>
      · rintro rfl
        revert hdigit
        decide
  · cases h

theorem digits1_mem {s : List Char} (h : digits1 10 s = some n) :
    s ≠ [] ∧ ∀ c ∈ s, ∃ d, digit 10 c = some d := by
  unfold digits1 at h
  split at h
  · cases h
  · refine ⟨‹_›, ?_⟩
    clear * - h
    unfold digits at h
    generalize (0 : Nat) = acc at h
    induction s generalizing acc with
    | nil => exact fun c hc => absurd hc List.not_mem_nil
    | cons c s ih =>
      rw [List.foldlM_cons] at h
      obtain ⟨next, hnext, h⟩ := Option.bind_eq_some_iff.1 h
      obtain ⟨d, hd, _⟩ := Option.map_eq_some_iff.1 hnext
      intro c' hc'
      rcases List.mem_cons.1 hc' with rfl | hc'
      · exact ⟨d, hd⟩
      · exact ih next h c' hc'

theorem decimal_digits {s : List Char} (h : digits1 10 s = some n) : decimal s = some (n : ℚ) := by
  obtain ⟨hne, hs⟩ := digits1_mem h
  have hnot {c : Char} (hc : c ∈ s) := digit_not (hs c hc).choose_spec
  have hhead : (s.takeWhile fun c => c ≠ 'e' ∧ c ≠ 'E') = s := by
    rw [List.takeWhile_eq_self_iff]
    intro c hc
    have := (hnot hc).2
    simp only [List.mem_cons, not_or] at this
    simp [this]
  have hsplit : s.splitOn '.' = [s] :=
    List.splitOn_eq_singleton fun hdot => (hnot hdot).2 (by decide)
  have hmantissa : mantissa s = some (n, 0) := by
    rw [mantissa, hsplit]
    dsimp only
    rw [h, Option.map_some]
  unfold decimal
  dsimp only
  rw [hhead, List.drop_length, hmantissa]
  simp

theorem ofText_of_notMem {s : List Char} (hne : s ≠ []) (hspace : ∀ c ∈ s, isSpace c = false)
    (hletters : ∀ c ∈ ['x', 'X', 'o', 'O', 'b', 'B'], c ∉ s) : ofText s = signedDecimal s := by
  have hleft : s.dropWhile isSpace = s := by
    rw [List.dropWhile_eq_self_iff]
    intro hlen
    rw [hspace _ (List.getElem_mem hlen)]
    exact Bool.false_ne_true
  have hright : s.rdropWhile isSpace = s := by
    rw [List.rdropWhile_eq_self_iff]
    intro hne
    rw [hspace _ (List.getLast_mem hne)]
    exact Bool.false_ne_true
  unfold ofText
  dsimp only
  rw [hleft, hright]
  split
  · exact absurd rfl hne
  all_goals
    first
      | rfl
      | exact absurd (List.mem_cons_of_mem _ List.mem_cons_self) (hletters _ (by decide))

theorem value_digits {s : List Char} (h : digits1 10 s = some m) (hm : m < 2 ^ 53) :
    (if s = "Infinity".toList then JsNumber.inf false
      else match decimal s with
        | some q => ofRat q
        | none => .nan) = .fin m := by
  have hinfinity : s ≠ "Infinity".toList := by
    rintro rfl
    cases h
  have hfin := ofRat_int (n := m) hm
  rw [if_neg hinfinity, decimal_digits h]
  exact hfin

/-- What a possibly signed row of digits stands for. -/
theorem ofText_digits {s : List Char} (h : digits1 10 s = some m) (hm : m < 2 ^ 53) :
    ofText s = .fin m ∧ ofText ('+' :: s) = .fin m ∧ ofText ('-' :: s) = .fin (-m) := by
  obtain ⟨hne, hs⟩ := digits1_mem h
  have hnot {c : Char} (hc : c ∈ s) := digit_not (hs c hc).choose_spec
  have hvalue := value_digits h hm
  have hletters : ∀ c ∈ ['x', 'X', 'o', 'O', 'b', 'B'], c ∉ s := by
    intro c hc hmem
    exact (hnot hmem).2 (List.mem_append_left ['e', 'E', '.', '-', '+', 'I'] hc)
  have hsigned (sign : Char) (hsign : sign = '+' ∨ sign = '-') :
      ofText (sign :: s) = signedDecimal (sign :: s) := by
    refine ofText_of_notMem (List.cons_ne_nil _ _) (fun c hc => ?_) fun c hc hmem => ?_
    · rcases List.mem_cons.1 hc with rfl | hc
      · rcases hsign with rfl | rfl <;> decide
      · exact (hnot hc).1
    · rcases List.mem_cons.1 hmem with rfl | hmem
      · rcases hsign with rfl | rfl <;> exact absurd hc (by decide)
      · exact hletters c hc hmem
  refine ⟨?_, ?_, ?_⟩
  · rw [ofText_of_notMem hne (fun c hc => (hnot hc).1) hletters]
    unfold signedDecimal
    split
    · exact absurd (by decide) (hnot List.mem_cons_self).2
    · exact absurd (by decide) (hnot List.mem_cons_self).2
    · exact hvalue
  · rw [hsigned '+' (.inl rfl)]
    exact hvalue
  · rw [hsigned '-' (.inr rfl)]
    exact congrArg neg hvalue

variable [DigitRules]

theorem digits_eq_parseDigits (hdigits : AsciiDigits) {s : Str}
    (hs : ∀ c ∈ s, c.toNat < 128) : digits1 10 s = parseDigits s := by
  unfold digits1 digits parseDigits
  congr 1
  generalize (0 : Nat) = acc
  induction s generalizing acc with
  | nil => rfl
  | cons c s ih =>
    rw [List.foldlM_cons, List.foldlM_cons, hdigits c (hs c List.mem_cons_self)]
    congr
    funext next
    exact ih (fun c hc => hs c (List.mem_cons_of_mem _ hc)) next

theorem ofText_integer (hdigits : AsciiDigits) {s : Str} (hs : ∀ c ∈ s, c.toNat < 128) {n : ℤ}
    (hparse : parseInteger bits s = some n) (hn : n.natAbs < 2 ^ 53) : ofText s = .fin n := by
  have hrow {ds : Str} {m : Nat} (hds : ∀ c ∈ ds, c.toNat < 128) (h : parseDigits ds = some m) :
      digits1 10 ds = some m := (digits_eq_parseDigits hdigits hds).trans h
  unfold parseInteger at hparse
  obtain ⟨hvalue, _⟩ := Option.mem_filter_iff.1 hparse
  rw [Option.mem_def] at hvalue
  have hread {ds : Str} {k : ℤ} (h : (parseDigits ds >>= fun m => pure (m : ℤ)) = some k) :
      ∃ m : Nat, parseDigits ds = some m ∧ (m : ℤ) = k := by
    obtain ⟨m, hm, hk⟩ := Option.bind_eq_some_iff.1 h
    exact ⟨m, hm, Option.some.inj hk⟩
  split at hvalue
  · obtain ⟨k, hk, rfl⟩ := Option.map_eq_some_iff.1 hvalue
    obtain ⟨m, hm, rfl⟩ := hread hk
    have hrow := hrow (fun c hc => hs c (List.mem_cons_of_mem _ hc)) hm
    rw [(ofText_digits hrow (by omega)).2.2]
    simp
  · obtain ⟨k, hk, rfl⟩ := Option.map_eq_some_iff.1 hvalue
    obtain ⟨m, hm, rfl⟩ := hread hk
    have hrow := hrow (fun c hc => hs c (List.mem_cons_of_mem _ hc)) hm
    rw [(ofText_digits hrow (by omega)).2.1]
    simp
  · obtain ⟨k, hk, rfl⟩ := Option.map_eq_some_iff.1 hvalue
    obtain ⟨m, hm, rfl⟩ := hread hk
    rw [(ofText_digits (hrow hs hm) (by omega)).1]
    simp

end Texts

end Lib.Number
