import Athenz.Lib.Regex
import Athenz.ZpeDecision

namespace Athenz.StringUtils
open Lib Lib.Text Lib.Regex Zts
set_option autoImplicit true

section Patterns

def isRegexMetaCharacter (regexChar : Char) : Bool := regexChar ∈ "^$.|[+\\()\x7b".toList

/-- What one character of a glob adds to the regular expression. -/
def charPattern (c : Char) : Str :=
  if c = '*' then ".*".toList
  else if c = '?' then ".".toList
  else if isRegexMetaCharacter c then ['\\', c]
  else [c]

def patternFromGlob (glob : Str) : Str := '^' :: (glob.flatMap charPattern ++ ['$'])

end Patterns

section Compiled

/-- The expression that the pattern of a glob compiles to, behind its first anchor. -/
def globExpression : Str → Expression
  | [] => .seq .stop .empty
  | c :: glob =>
    if c = '*' then .seq (.star .any) (globExpression glob)
    else if c = '?' then .seq .any (globExpression glob)
    else .seq (.char c) (globExpression glob)

/-- The tokens of the pattern of one character. -/
def charTokens (c : Char) : List Token :=
  if c = '*' then [.atom .any, .star]
  else if c = '?' then [.atom .any]
  else [.atom (.char c)]

theorem metaCharacter_not_alphanum (hc : isRegexMetaCharacter c = true) : c.isAlphanum = false := by
  have hall : "^$.|[+\\()\x7b".toList.all (! ·.isAlphanum) = true := by decide
  have hc := List.all_eq_true.1 hall c (of_decide_eq_true hc)
  rwa [Bool.not_eq_true'] at hc

/-- A character that is neither special in a glob nor in an expression is its own token. -/
theorem charToken_plain (hstar : c ≠ '*') (hmark : c ≠ '?') (hc : isRegexMetaCharacter c = false) :
    charToken c = some (.atom (.char c)) := by
  have hplain : c ∉ "^$.|[+\\()\x7b".toList := of_decide_eq_false hc
  have hcaret : c ≠ '^' := fun h => hplain (h ▸ by decide)
  have hdollar : c ≠ '$' := fun h => hplain (h ▸ by decide)
  have hdot : c ≠ '.' := fun h => hplain (h ▸ by decide)
  have hsupported : c ∉ unsupported := by
    intro h
    have hall : unsupported.all (fun d => decide (d = '?' ∨ d ∈ "^$.|[+\\()\x7b".toList)) = true := by
      decide
    exact (of_decide_eq_true (List.all_eq_true.1 hall c h)).elim hmark hplain
  simp only [charToken, hstar, hcaret, hdollar, hdot, hsupported, if_false]

theorem tokens_charPattern (c : Char) (rest : Str) :
    tokens (charPattern c ++ rest) = (tokens rest).map (charTokens c ++ ·) := by
  unfold charPattern charTokens
  split
  · have htext : ".*".toList ++ rest = '.' :: '*' :: rest := rfl
    have hdot : charToken '.' = some (.atom .any) := by decide
    have hstar : charToken '*' = some .star := by decide
    rw [htext, tokens_cons (by decide), tokens_cons (by decide), hdot, hstar]
    cases tokens rest <;> rfl
  split
  · have htext : ".".toList ++ rest = '.' :: rest := rfl
    have hdot : charToken '.' = some (.atom .any) := by decide
    rw [htext, tokens_cons (by decide), hdot]
    rfl
  · rename_i hstar hmark
    split
    · rename_i hmeta
      exact tokens_escape (metaCharacter_not_alphanum hmeta)
    · rename_i hmeta
      have hmeta := eq_false_of_ne_true hmeta
      have hescape : c ≠ '\\' := by
        rintro rfl
        exact Bool.noConfusion (hmeta.symm.trans (by decide : isRegexMetaCharacter '\\' = true))
      exact (tokens_cons hescape).trans (by rw [charToken_plain hstar hmark hmeta]; rfl)

theorem tokens_glob (glob : Str) :
    tokens (glob.flatMap charPattern ++ ['$']) =
      some (glob.flatMap charTokens ++ [.atom .stop]) := by
  induction glob with
  | nil => decide
  | cons c glob ih =>
    rw [List.flatMap_cons, List.append_assoc, tokens_charPattern, ih, List.flatMap_cons,
      List.append_assoc]
    rfl

theorem attach_glob (glob : Str) :
    (glob.flatMap charTokens ++ [Token.atom .stop]).foldr attach (some (false, .empty)) =
      some (false, globExpression glob) := by
  induction glob with
  | nil => rfl
  | cons c glob ih =>
    rw [List.flatMap_cons, List.append_assoc, List.foldr_append, ih, charTokens, globExpression]
    split
    · rfl
    split <;> rfl

theorem compile_patternFromGlob (glob : Str) :
    compile (patternFromGlob glob) = some (.seq .start (globExpression glob)) := by
  have htokens : tokens (patternFromGlob glob) =
      some (.atom .start :: (glob.flatMap charTokens ++ [.atom .stop])) := by
    rw [patternFromGlob, tokens_cons (by decide), tokens_glob]
    rfl
  apply compile_of_tokens htokens
  rw [List.foldr_cons, attach_glob]
  rfl

end Compiled

section Matching

/-- The expression of a glob accepts what the pieces of the glob accept. -/
theorem matches_globExpression (glob before s : Str) :
    Matches isLineTerminator (globExpression glob) before s [] ↔
      matchesPattern (Zts.patternFromGlob glob) s = true := by
  induction glob generalizing before s with
  | nil => rw [globExpression, matches_stop_seq_iff, Zts.patternFromGlob, List.map_nil,
      matchesPattern, decide_eq_true_iff]
  | cons d glob ih =>
    unfold globExpression
    split
    · rename_i hstar
      have hpattern : Zts.patternFromGlob (d :: glob) = .anyText :: Zts.patternFromGlob glob := by
        rw [hstar]
        rfl
      rw [hpattern, matches_seq_iff]
      simp only [matchesPattern, List.any_eq_true, List.mem_range, Bool.and_eq_true,
        matches_star_any_iff, ih, List.all_eq_true, Bool.not_eq_true']
      constructor
      · rintro ⟨t, u, rfl, ht, hu⟩
        refine ⟨t.length, ?_, ?_⟩
        · rw [List.length_append]
          omega
        · rw [List.take_left, List.drop_left]
          exact ⟨ht, hu⟩
      · rintro ⟨i, _, ht, hu⟩
        exact ⟨s.take i, s.drop i, (List.take_append_drop i s).symm, ht, hu⟩
    split
    · rename_i hmark
      have hpattern : Zts.patternFromGlob (d :: glob) = .anyChar :: Zts.patternFromGlob glob := by
        rw [hmark]
        rfl
      rw [hpattern, matches_seq_iff]
      simp only [matches_any_iff, ih]
      constructor
      · rintro ⟨_, u, rfl, ⟨c, rfl, hc⟩, hu⟩
        simp only [List.singleton_append, matchesPattern, hc, hu, Bool.not_false, Bool.and_self]
      · intro h
        cases s with
        | nil => exact Bool.noConfusion h
        | cons c s =>
          simp only [matchesPattern, Bool.and_eq_true, Bool.not_eq_true'] at h
          exact ⟨[c], s, rfl, ⟨c, rfl, h.1⟩, h.2⟩
    · rename_i hstar hmark
      have hpattern : Zts.patternFromGlob (d :: glob) = .literal d :: Zts.patternFromGlob glob := by
        simp only [Zts.patternFromGlob, List.map_cons, hstar, hmark, if_false]
      rw [hpattern, matches_seq_iff]
      simp only [matches_char_iff, ih]
      constructor
      · rintro ⟨_, u, rfl, rfl, hu⟩
        simp only [List.singleton_append, matchesPattern, hu, decide_true, Bool.and_self]
      · intro h
        cases s with
        | nil => exact Bool.noConfusion h
        | cons c s =>
          simp only [matchesPattern, Bool.and_eq_true, decide_eq_true_eq] at h
          exact ⟨[d], s, by rw [h.1]; rfl, rfl, h.2⟩

/-- The text of the pattern and its pieces match the same texts. -/
theorem fullMatch_patternFromGlob (glob s : Str) :
    FullMatch isLineTerminator (patternFromGlob glob) s ↔
      matchesPattern (Zts.patternFromGlob glob) s = true := by
  rw [← matches_globExpression glob [] s, ← matches_start_seq_iff]
  constructor
  · intro h
    obtain ⟨regex, hregex, hmatches⟩ := h
    rw [compile_patternFromGlob] at hregex
    cases hregex
    exact hmatches
  · intro h
    exact ⟨_, compile_patternFromGlob glob, h⟩

/-- The pattern of a glob means the glob, and so does the matcher chosen for it. -/
theorem glob_matchers_agree (glob s : Str) (hs : OneLine s) :
    (FullMatch isLineTerminator (patternFromGlob glob) s ↔ GlobMatch glob s) ∧
      ((Zpe.getMatchObject glob).matches s = true ↔
        FullMatch isLineTerminator (patternFromGlob glob) s) := by
  have hregex : FullMatch isLineTerminator (patternFromGlob glob) s ↔ GlobMatch glob s :=
    (fullMatch_patternFromGlob glob s).trans (matchesPattern_iff hs)
  exact ⟨hregex, (Zpe.matches_getMatchObject hs).trans hregex.symm⟩

theorem glob_matchers_agree_meta :
    (FullMatch isLineTerminator (patternFromGlob "a.b[*$".toList) "a.b[x^$".toList ↔
        GlobMatch "a.b[*$".toList "a.b[x^$".toList) ∧
      ((Zpe.getMatchObject "a.b[*$".toList).matches "a.b[x^$".toList = true ↔
        FullMatch isLineTerminator (patternFromGlob "a.b[*$".toList) "a.b[x^$".toList) :=
  glob_matchers_agree _ _ (by decide)

end Matching

end Athenz.StringUtils
