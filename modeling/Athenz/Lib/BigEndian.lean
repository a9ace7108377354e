import Athenz.Lib.Text
import Mathlib.Algebra.Group.Nat.Defs

namespace Lib.BigEndian
set_option autoImplicit true

section Bytes

/-- The lowest bytes of a number, the most significant one first. -/
def bigEndian : Nat → Nat → List (BitVec 8)
  | 0, _ => []
  | k + 1, m => bigEndian k (m / 256) ++ [BitVec.ofNat 8 m]

/-- The number that bytes stand for. -/
def value (bytes : List (BitVec 8)) : Nat := bytes.foldl (fun n byte => 256 * n + byte.toNat) 0

theorem length_bigEndian (k m : Nat) : (bigEndian k m).length = k := by
  induction k generalizing m with
  | zero => rfl
  | succ k ih => rw [bigEndian, List.length_append, ih, List.length_singleton]

theorem value_append_singleton (bytes : List (BitVec 8)) (byte : BitVec 8) :
    value (bytes ++ [byte]) = 256 * value bytes + byte.toNat := by
  rw [value, List.foldl_append]
  rfl

theorem value_lt (bytes : List (BitVec 8)) : value bytes < 256 ^ bytes.length := by
  induction bytes using List.reverseRecOn with
  | nil => exact Nat.one_pos
  | append_singleton bytes byte ih =>
    have hbyte := byte.isLt
    rw [value_append_singleton, List.length_append, List.length_singleton, Nat.pow_succ]
    omega

/-- Bytes are the bytes of their number. -/
theorem bigEndian_value (bytes : List (BitVec 8)) : bigEndian bytes.length (value bytes) = bytes := by
  induction bytes using List.reverseRecOn with
  | nil => rfl
  | append_singleton bytes byte ih =>
    have hbyte := byte.isLt
    have hquotient : (256 * value bytes + byte.toNat) / 256 = value bytes := by omega
    have hlast : BitVec.ofNat 8 (256 * value bytes + byte.toNat) = byte := by
      apply BitVec.eq_of_toNat_eq
      rw [BitVec.toNat_ofNat]
      omega
    rw [value_append_singleton, List.length_append, List.length_singleton, bigEndian, hquotient, ih,
      hlast]

theorem bigEndian_zero (k : Nat) : bigEndian k 0 = List.replicate k 0 := by
  induction k with
  | zero => rfl
  | succ k ih => rw [bigEndian, Nat.zero_div, ih, List.replicate_succ']; rfl

/-- A number that fits in fewer bytes has zero bytes in front of them. -/
theorem bigEndian_add {m : Nat} (j k : Nat) (hm : m < 256 ^ k) :
    bigEndian (j + k) m = List.replicate j 0 ++ bigEndian k m := by
  induction k generalizing m with
  | zero =>
    have hzero : m = 0 := by simpa only [Nat.pow_zero, Nat.lt_one_iff] using hm
    rw [hzero, Nat.add_zero, bigEndian_zero, bigEndian, List.append_nil]
  | succ k ih =>
    rw [Nat.pow_succ] at hm
    rw [← Nat.add_assoc, bigEndian, ih (by omega), bigEndian, List.append_assoc]

/-- The lowest bytes of a longer number. -/
theorem drop_bigEndian (j k m : Nat) : (bigEndian (j + k) m).drop j = bigEndian k m := by
  induction k generalizing m with
  | zero =>
    apply List.drop_eq_nil_of_le
    rw [length_bigEndian]
    exact Nat.le_refl _
  | succ k ih =>
    have hlength := length_bigEndian (j + k) (m / 256)
    rw [← Nat.add_assoc, bigEndian, List.drop_append_of_le_length (by omega), ih, bigEndian]

end Bytes

end Lib.BigEndian
