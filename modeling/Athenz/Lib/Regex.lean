import Athenz.Lib.Text

namespace Lib.Regex
open Lib.Text
set_option autoImplicit true

section Syntax

/-- Regular expressions of anchors, dots, characters and stars. -/
inductive Expression where
  | empty | start | stop | any
  | char (c : Char)
  | seq (first second : Expression)
  | star (body : Expression)
deriving DecidableEq

inductive Token where
  | atom (regex : Expression) | star
deriving DecidableEq

/-- The characters outside the fragment when they are not escaped. -/
def unsupported : Str := "+?\x7b[()|\\".toList

def charToken (c : Char) : Option Token :=
  if c = '*' then some .star
  else if c = '^' then some (.atom .start)
  else if c = '$' then some (.atom .stop)
  else if c = '.' then some (.atom .any)
  else if c ∈ unsupported then none
  else some (.atom (.char c))

/-- A backslash makes a character literal, unless it is a letter or a digit. -/
def tokens : Str → Option (List Token)
  | [] => some []
  | '\\' :: c :: rest =>
    if c.isAlphanum then none else (tokens rest).map (.atom (.char c) :: ·)
  | c :: rest => (charToken c).bind fun token => (tokens rest).map (token :: ·)

/-- One token in front of the expression behind it; the flag says that a star waits for
its atom. -/
def attach (token : Token) (behind : Option (Bool × Expression)) : Option (Bool × Expression) :=
  match token, behind with
  | .star, some (false, regex) => some (true, regex)
  | .atom atom, some (true, regex) => some (false, .seq (.star atom) regex)
  | .atom atom, some (false, regex) => some (false, .seq atom regex)
  | _, _ => none

def build (ts : List Token) : Option Expression :=
  match ts.foldr attach (some (false, .empty)) with
  | some (false, regex) => some regex
  | _ => none

/-- The expression that a pattern text stands for, where the fragment has it. -/
def compile (pattern : Str) : Option Expression := (tokens pattern).bind build

end Syntax

section Meaning

variable (newline : Char → Bool)

/-- The end of the text, or the place in front of its last line break. -/
def AtEnd (before after : Str) : Prop :=
  after = [] ∨ after = ['\r', '\n'] ∨
    ∃ c, after = [c] ∧ newline c = true ∧ ¬ (c = '\n' ∧ before.getLast? = some '\r')

/-- An expression matches a text between the two texts around it. -/
inductive Matches : Expression → Str → Str → Str → Prop
  | empty : Matches .empty before [] after
  | start : Matches .start [] [] after
  | stop : AtEnd newline before after → Matches .stop before [] after
  | any : newline c = false → Matches .any before [c] after
  | char : Matches (.char c) before [c] after
  | seq : Matches r before s (t ++ after) → Matches r' (before ++ s) t after →
      Matches (.seq r r') before (s ++ t) after
  | starNil : Matches (.star r) before [] after
  | starCons : Matches r before s (t ++ after) → Matches (.star r) (before ++ s) t after →
      Matches (.star r) before (s ++ t) after

/-- A pattern matches the whole of a text. -/
def FullMatch (pattern s : Str) : Prop :=
  ∃ regex, compile pattern = some regex ∧ Matches newline regex [] s []

end Meaning

section Inversion

variable {newline : Char → Bool}

theorem matches_empty_iff : Matches newline .empty before s after ↔ s = [] := by
  constructor
  · intro h
    cases h
    rfl
  · rintro rfl
    exact .empty

theorem matches_start_iff : Matches newline .start before s after ↔ before = [] ∧ s = [] := by
  constructor
  · intro h
    cases h
    exact ⟨rfl, rfl⟩
  · rintro ⟨rfl, rfl⟩
    exact .start

theorem matches_stop_iff :
    Matches newline .stop before s after ↔ s = [] ∧ AtEnd newline before after := by
  constructor
  · intro h
    cases h with
    | stop hend => exact ⟨rfl, hend⟩
  · rintro ⟨rfl, hend⟩
    exact .stop hend

theorem matches_any_iff :
    Matches newline .any before s after ↔ ∃ c, s = [c] ∧ newline c = false := by
  constructor
  · intro h
    cases h with
    | any hc => exact ⟨_, rfl, hc⟩
  · rintro ⟨c, rfl, hc⟩
    exact .any hc

theorem matches_char_iff : Matches newline (.char c) before s after ↔ s = [c] := by
  constructor
  · intro h
    cases h
    rfl
  · rintro rfl
    exact .char

theorem matches_seq_iff :
    Matches newline (.seq r r') before s after ↔ ∃ t u, s = t ++ u ∧
      Matches newline r before t (u ++ after) ∧ Matches newline r' (before ++ t) u after := by
  constructor
  · intro h
    cases h with
    | seq hfirst hsecond => exact ⟨_, _, rfl, hfirst, hsecond⟩
  · rintro ⟨t, u, rfl, hfirst, hsecond⟩
    exact .seq hfirst hsecond

/-- A starred dot matches the texts without line breaks. -/
theorem matches_star_any_iff :
    Matches newline (.star .any) before s after ↔ ∀ c ∈ s, newline c = false := by
  constructor
  · intro h
    generalize hr : Expression.star .any = r at h
    induction h with
    | starNil => exact fun c hc => absurd hc List.not_mem_nil
    | starCons hfirst _ _ ih =>
      cases hr
      obtain ⟨d, rfl, hd⟩ := matches_any_iff.1 hfirst
      exact List.forall_mem_cons.2 ⟨hd, ih rfl⟩
    | _ => cases hr
  · intro h
    induction s generalizing before with
    | nil => exact .starNil
    | cons c s ih =>
      obtain ⟨hc, hs⟩ := List.forall_mem_cons.1 h
      exact .starCons (s := [c]) (.any hc) (ih hs)

/-- The start of a text and then an expression. -/
theorem matches_start_seq_iff :
    Matches newline (.seq .start r) [] s after ↔ Matches newline r [] s after := by
  constructor
  · intro h
    obtain ⟨t, u, rfl, hstart, hrest⟩ := matches_seq_iff.1 h
    obtain ⟨_, rfl⟩ := matches_start_iff.1 hstart
    exact hrest
  · intro h
    exact .seq (s := []) .start h

/-- An expression that ends with the end of the text. -/
theorem matches_stop_seq_iff :
    Matches newline (.seq .stop .empty) before s [] ↔ s = [] := by
  constructor
  · intro h
    obtain ⟨t, u, rfl, hstop, hempty⟩ := matches_seq_iff.1 h
    rw [(matches_stop_iff.1 hstop).1, matches_empty_iff.1 hempty]
    rfl
  · rintro rfl
    exact .seq (s := []) (.stop (.inl rfl)) .empty

end Inversion

section Compilation

theorem tokens_escape (hc : c.isAlphanum = false) :
    tokens ('\\' :: c :: rest) = (tokens rest).map (.atom (.char c) :: ·) := by
  simp only [tokens, hc, Bool.false_eq_true, if_false]

theorem tokens_cons (hc : c ≠ '\\') :
    tokens (c :: rest) = (charToken c).bind fun token => (tokens rest).map (token :: ·) := by
  cases rest with
  | nil => simp only [tokens]
  | cons d rest =>
    rw [tokens]
    intro d' rest' heq
    exact absurd heq hc

/-- Compiling is one step for each token, from the last one on. -/
theorem compile_of_tokens (h : tokens pattern = some ts)
    (hbuild : ts.foldr attach (some (false, .empty)) = some (false, r)) :
    compile pattern = some r := by
  rw [compile, h, Option.bind_some, build, hbuild]

end Compilation

end Lib.Regex
