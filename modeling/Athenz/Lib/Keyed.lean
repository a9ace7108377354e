import Mathlib.Logic.Function.Basic
import Mathlib.Data.Set.Defs
import Athenz.Lib.Map

namespace Lib.Keyed
set_option autoImplicit true

variable [DecidableEq ι]

/-- A table holds a function on some keys, under an encoding of the keys and of the values. -/
def Represents (encode : κ → ι) (view : ν → Option ω) (keys : Set κ) (table : Map ι ν)
    (spec : κ → Option ω) : Prop :=
  ∀ k ∈ keys, (table.lookup (encode k)).bind view = spec k

theorem represents_empty (encode : κ → ι) (view : ν → Option ω) (keys : Set κ) :
    Represents encode view keys (∅ : Map ι ν) fun _ => none := by
  intro k _
  rw [AList.lookup_empty, Option.bind_none]

variable [DecidableEq κ] {encode : κ → ι} {view : ν → Option ω} {keys : Set κ} {table : Map ι ν}

theorem Represents.insert (h : Represents encode view keys table spec)
    (hapart : ∀ k ∈ keys, encode k = encode key → k = key) (hview : key ∈ keys → view value = some written) :
    Represents encode view keys (table.insert (encode key) value)
      (Function.update spec key (some written)) := by
  intro k hk
  by_cases heq : k = key
  · subst heq
    rw [AList.lookup_insert, Option.bind_some, hview hk, Function.update_self]
  · rw [AList.lookup_insert_ne fun hsame => heq (hapart k hk hsame), Function.update_of_ne heq]
    exact h k hk

theorem Represents.erase (h : Represents encode view keys table spec)
    (hapart : ∀ k ∈ keys, encode k = encode key → k = key) :
    Represents encode view keys (table.erase (encode key)) (Function.update spec key none) := by
  intro k hk
  by_cases heq : k = key
  · subst heq
    rw [AList.lookup_erase, Option.bind_none, Function.update_self]
  · rw [AList.lookup_erase_ne fun hsame => heq (hapart k hk hsame), Function.update_of_ne heq]
    exact h k hk

end Lib.Keyed
