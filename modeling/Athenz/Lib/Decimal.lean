import Athenz.Lib.Text
import Mathlib.Algebra.Group.Int.Defs
import Mathlib.Algebra.Group.Nat.Defs

namespace Lib.Decimal
open Lib.Text
set_option autoImplicit true

/-- The decimal digits the platform recognises. -/
class DigitRules where
  digit : Char → Option Nat

@[reducible] def DigitRules.ascii : DigitRules where
  digit c := if '0' ≤ c ∧ c ≤ '9' then some (c.toNat - '0'.toNat) else none

export DigitRules (digit)

variable [DigitRules]

def parseDigits (ds : Str) : Option Nat :=
  if ds = [] then none else ds.foldlM (fun n c => (digit c).map (10 * n + ·)) 0

/-- A signed decimal number of the given number of bits, the sign bit not counted. -/
def parseInteger (bits : Nat) (s : Str) : Option Int :=
  let value : Option Int := match s with
    | '-' :: ds => (parseDigits ds).map fun n => -(n : Int)
    | '+' :: ds => (parseDigits ds).map fun n => (n : Int)
    | ds => (parseDigits ds).map fun n => (n : Int)
  value.filter fun n => -2 ^ bits ≤ n ∧ n < 2 ^ bits

/-- The ten decimal digits have their usual values. -/
def DigitRules.Lawful : Prop := ∀ n < 10, digit n.digitChar = some n

omit [DigitRules] in
theorem DigitRules.ascii_lawful : @DigitRules.Lawful .ascii := by
  unfold Lawful
  decide

theorem foldlM_toDigits (hlawful : DigitRules.Lawful) (n : Nat) :
    (Nat.toDigits 10 n).foldlM (fun n c => (digit c).map (10 * n + ·)) 0 = some n := by
  induction n using Nat.strongRecOn with
  | ind n ih =>
    by_cases hlt : n < 10
    · rw [Nat.toDigits_of_lt_base hlt, List.foldlM_cons, hlawful n hlt]
      simp
    · have hdigit := hlawful (n % 10) (Nat.mod_lt n (by decide))
      rw [Nat.toDigits_of_base_le (by decide) (by omega), List.foldlM_append,
        ih (n / 10) (by omega)]
      simp [hdigit]
      omega

theorem parseDigits_toDigits (hlawful : DigitRules.Lawful) (n : Nat) :
    parseDigits (Nat.toDigits 10 n) = some n := by
  rw [parseDigits, if_neg Nat.toDigits_ne_nil, foldlM_toDigits hlawful]

omit [DigitRules] in
theorem isDigit_or_sign {n : Int} (h : c ∈ n.repr.toList) : c.isDigit ∨ c = '-' := by
  have hdigits {m : Nat} (h : c ∈ m.repr.toList) : c.isDigit := by
    rw [Nat.toList_repr] at h
    exact Nat.isDigit_of_mem_toDigits (by decide) (by decide) h
  rw [Int.repr_eq_if] at h
  split at h
  · exact .inl (hdigits h)
  · rw [String.toList_append, List.mem_append] at h
    exact h.symm.imp hdigits List.mem_singleton.1

/-- A number is read as it is printed. -/
theorem parseInteger_repr (hlawful : DigitRules.Lawful) {n : Int}
    (h : -2 ^ bits ≤ n ∧ n < 2 ^ bits) : parseInteger bits n.repr.toList = some n := by
  have hfilter : (some n).filter (fun n => -2 ^ bits ≤ n ∧ n < 2 ^ bits) = some n := by
    rw [Option.filter_some, if_pos (decide_eq_true h)]
  by_cases hn : 0 ≤ n
  · obtain ⟨m, rfl⟩ := Int.eq_ofNat_of_zero_le hn
    have hparse := parseDigits_toDigits hlawful m
    rw [Int.repr_eq_if, if_pos hn, Int.toNat_natCast, Nat.toList_repr]
    unfold parseInteger
    split
    · rename_i ds hds
      have hmem : '-' ∈ Nat.toDigits 10 m := hds ▸ List.mem_cons_self
      exact absurd (Nat.isDigit_of_mem_toDigits (by decide) (by decide) hmem) (by decide)
    · rename_i ds hds
      have hmem : '+' ∈ Nat.toDigits 10 m := hds ▸ List.mem_cons_self
      exact absurd (Nat.isDigit_of_mem_toDigits (by decide) (by decide) hmem) (by decide)
    · rw [hparse]
      exact hfilter
  · have hneg : -((-n).toNat : Int) = n := by omega
    have hparse := parseDigits_toDigits hlawful (-n).toNat
    rw [Int.repr_eq_if, if_neg hn, String.toList_append, Nat.toList_repr]
    change parseInteger bits ('-' :: Nat.toDigits 10 (-n).toNat) = _
    unfold parseInteger
    split
    · rename_i ds hds
      obtain ⟨_, rfl⟩ := List.cons.inj hds
      rw [hparse]
      dsimp only [Option.pure_def, Option.bind_eq_bind, Option.bind_some, Option.map_some]
      rw [hneg]
      exact hfilter
    · rename_i hds
      exact absurd (List.cons.inj hds).1 (by decide)
    · rename_i hminus _
      exact absurd rfl (hminus _)

end Lib.Decimal
