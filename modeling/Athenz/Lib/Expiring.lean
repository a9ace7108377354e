import Mathlib.Data.Set.Function

namespace Lib
set_option autoImplicit true

/-- A value with the last moment at which it may be read. -/
structure Record (ν : Type) where
  value : ν
  expire : Int

/-- A map whose entries have a time to live. -/
structure Expiring (κ ν : Type) where
  records : κ → Option (Record ν)

namespace Expiring

variable {κ ν : Type}

instance : EmptyCollection (Expiring κ ν) := ⟨⟨fun _ => none⟩⟩

def get (now : Int) (key : κ) (cache : Expiring κ ν) : Option ν :=
  match cache.records key with
  | none => none
  | some record => if now ≤ record.expire then some record.value else none

/-- The records that a test on keys and values passes. -/
def filter (p : κ → ν → Bool) (cache : Expiring κ ν) : Expiring κ ν :=
  ⟨fun key => (cache.records key).filter fun record => p key record.value⟩

/-- Every record satisfies a property of its key and its value. -/
def All (P : κ → ν → Prop) (cache : Expiring κ ν) : Prop :=
  ∀ key record, cache.records key = some record → P key record.value

theorem record_of_get {cache : Expiring κ ν} (h : cache.get now key = some value) :
    ∃ expire, cache.records key = some ⟨value, expire⟩ := by
  unfold get at h
  split at h
  · cases h
  · rename_i record hrecord
    split at h
    · cases h
      exact ⟨record.expire, hrecord⟩
    · cases h

theorem get_filter {p : κ → ν → Bool} {cache : Expiring κ ν}
    (h : ∀ record, cache.records key = some record → p key record.value = true) (now : Int) :
    (cache.filter p).get now key = cache.get now key := by
  simp only [filter, get]
  cases hrecord : cache.records key with
  | none => rfl
  | some record => rw [Option.filter_some, if_pos (h record hrecord)]

theorem All.empty : All P (∅ : Expiring κ ν) := nofun

theorem All.get {cache : Expiring κ ν} (h : All P cache) (hget : cache.get now key = some value) :
    P key value := by
  obtain ⟨expire, hrecord⟩ := record_of_get hget
  exact h key _ hrecord

section Updates

variable [DecidableEq κ]

def put (now : Int) (key : κ) (value : ν) (timeToLive : Nat) (cache : Expiring κ ν) : Expiring κ ν :=
  ⟨fun k => if k = key then some ⟨value, now + timeToLive⟩ else cache.records k⟩

def del (key : κ) (cache : Expiring κ ν) : Expiring κ ν :=
  ⟨fun k => if k = key then none else cache.records k⟩

@[simp] theorem get_put (now : Int) (key : κ) (value : ν) (timeToLive : Nat)
    (cache : Expiring κ ν) : (cache.put now key value timeToLive).get now key = some value := by
  have hlive : now ≤ now + timeToLive := by omega
  simp only [put, get, ↓reduceIte, if_pos hlive]

theorem get_put_ne (h : k ≠ key) (now now' : Int) (value : ν) (timeToLive : Nat)
    (cache : Expiring κ ν) : (cache.put now key value timeToLive).get now' k = cache.get now' k := by
  simp only [put, get, if_neg h]

theorem All.put {cache : Expiring κ ν} (h : All P cache) (hvalue : P key value) (now : Int)
    (timeToLive : Nat) : All P (cache.put now key value timeToLive) := by
  intro k record hrecord
  by_cases hk : k = key
  · simp only [Expiring.put, if_pos hk, Option.some.injEq] at hrecord
    rw [← hrecord, hk]
    exact hvalue
  · simp only [Expiring.put, if_neg hk] at hrecord
    exact h k record hrecord

theorem All.del {cache : Expiring κ ν} (h : All P cache) (key : κ) : All P (cache.del key) := by
  intro k record hrecord
  by_cases hk : k = key
  · simp only [Expiring.del, if_pos hk, reduceCtorEq] at hrecord
  · simp only [Expiring.del, if_neg hk] at hrecord
    exact h k record hrecord

end Updates

end Expiring

end Lib
