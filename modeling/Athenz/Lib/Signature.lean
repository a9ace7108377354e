import Athenz.Lib.Text

namespace Lib.Signature
open Lib.Text
set_option autoImplicit true

/-- An ideal signature check: it accepts a message only when the key's owner signed it. -/
structure Scheme (Key : Type) where
  signed : Key → Str → Prop
  verify : Str → Key → Str → Bool
  sound : verify message key signature = true → signed key message

/-- The scheme whose owners made exactly the listed signatures. -/
def Scheme.ofSignatures [DecidableEq Key] (made : List (Key × Str × Str)) : Scheme Key where
  signed key message := ∃ signature, (key, message, signature) ∈ made
  verify message key signature := (key, message, signature) ∈ made
  sound h := ⟨_, of_decide_eq_true h⟩

end Lib.Signature
