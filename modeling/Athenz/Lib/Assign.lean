import Mathlib.Data.Option.Basic

namespace Lib.Assign
set_option autoImplicit true

/-- The value of the last item that carries a key. -/
def lastValue [DecidableEq κ] (key : κ) : List (κ × ν) → Option ν
  | [] => none
  | item :: items => (lastValue key items).or (if item.1 = key then some item.2 else none)

theorem lastValue_append [DecidableEq κ] (key : κ) (xs ys : List (κ × ν)) :
    lastValue key (xs ++ ys) = (lastValue key ys).or (lastValue key xs) := by
  induction xs with
  | nil => exact (Option.or_none).symm
  | cons x xs ih => rw [List.cons_append, lastValue, ih, lastValue, Option.or_assoc]

theorem mem_of_lastValue [DecidableEq κ] {key : κ} {items : List (κ × ν)}
    (h : lastValue key items = some value) : (key, value) ∈ items := by
  induction items with
  | nil => cases h
  | cons item items ih =>
    rw [lastValue, Option.or_eq_some_iff] at h
    obtain h | ⟨_, h⟩ := h
    · exact List.mem_cons_of_mem _ (ih h)
    · split at h
      · rename_i hkey
        cases h
        rw [← hkey]
        exact List.mem_cons_self
      · cases h

/-- Run a list of assignments from left to right. -/
def assignAll (assign : σ → κ → ν → σ) (s : σ) (items : List (κ × ν)) : σ :=
  items.foldl (fun s item => assign s item.1 item.2) s

/-- A field that one key alone overwrites holds the last value given to that key. -/
theorem field_assignAll [DecidableEq κ] {assign : σ → κ → ν → σ} {field : σ → τ} {key : κ} {read : ν → τ}
    (h : ∀ s k v, field (assign s k v) = if k = key then read v else field s)
    (s : σ) (items : List (κ × ν)) :
    field (assignAll assign s items) = ((lastValue key items).map read).getD (field s) := by
  induction items generalizing s with
  | nil => rfl
  | cons item items ih =>
    rw [assignAll, List.foldl_cons, ← assignAll, ih, lastValue, h]
    cases lastValue key items with
    | some v => rfl
    | none => by_cases hk : item.1 = key <;> simp [hk]

theorem optional_assignAll [DecidableEq κ] {assign : σ → κ → ν → σ} {field : σ → Option ν}
    {key : κ} (h : ∀ s k v, field (assign s k v) = if k = key then some v else field s)
    {s : σ} (hs : field s = none) (items : List (κ × ν)) :
    field (assignAll assign s items) = lastValue key items := by
  rw [field_assignAll h, hs]
  cases lastValue key items <;> rfl

end Lib.Assign
