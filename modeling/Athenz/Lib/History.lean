import Mathlib.Data.Int.Order.Basic

namespace Lib
set_option autoImplicit true

/-- A value with the time stamp it was written at. -/
structure Version (ν : Type) where
  value : ν
  stamp : Int

/-- What is stored under each key at each moment. -/
abbrev History (κ ν : Type) := Nat → κ → Option (Version ν)

namespace History

variable {κ ν : Type} {history : History κ ν} {v w : Version ν}

/-- The stamp under a key grows with every change. -/
structure Advancing (history : History κ ν) : Prop where
  stamp_le {k k' : Nat} {key : κ} {v w : Version ν} : k ≤ k' → history k key = some v →
    history k' key = some w → v.stamp ≤ w.stamp
  eq_of_stamp {k k' : Nat} {key : κ} {v w : Version ν} : history k key = some v →
    history k' key = some w → v.stamp = w.stamp → v = w

theorem Advancing.eq_of_le (h : history.Advancing) (hk : k ≤ k') (hv : history k key = some v)
    (hw : history k' key = some w) (hle : w.stamp ≤ v.stamp) : v = w :=
  h.eq_of_stamp hv hw (Int.le_antisymm (h.stamp_le hk hv hw) hle)

theorem Advancing.lt_of_ne (h : history.Advancing) (hk : k ≤ k') (hv : history k key = some v)
    (hw : history k' key = some w) (hne : v ≠ w) : v.stamp < w.stamp :=
  Int.lt_of_not_ge fun hle => hne (h.eq_of_le hk hv hw hle)

/-- All keys share one clock: a change has a later stamp than all that was there before it. -/
def Clocked (history : History κ ν) : Prop :=
  ∀ ⦃j k k' key other v w⦄, j ≤ k → k ≤ k' → history j other = some w →
    history k key ≠ some v → history k' key = some v → w.stamp < v.stamp

/-- A version that is not later than one that was there at some moment was there at that moment. -/
theorem Clocked.unchanged (h : history.Clocked) (hj : j ≤ k) (hw : history j other = some w)
    (hv : history k key = some v) (hle : v.stamp ≤ w.stamp) : history j key = some v := by
  by_contra hne
  exact absurd (h (Nat.le_refl j) hj hw hne hv) (Int.not_lt.2 hle)

/-- What is there at two moments was there all the time between them. -/
theorem Clocked.between (h : history.Clocked) (hj : j ≤ k) (hk : k ≤ k')
    (hv : history j key = some v) (hv' : history k' key = some v) : history k key = some v := by
  by_contra hne
  exact absurd (h hj hk hv hne hv') (Int.lt_irrefl _)

end History

end Lib
