import Mathlib.Data.List.DropRight
import Mathlib.Data.List.Infix

namespace Lib.Text
set_option autoImplicit true

/-- Texts are lists of characters. -/
abbrev Str := List Char

instance : Coe String Str := ⟨String.toList⟩

instance lawfulBEqStr : LawfulBEq Str := List.instLawfulBEq

variable [DecidableEq α]

/-- Position of the first occurrence of a pattern, as `indexOf` reports it. -/
def indexOf (pat : List α) : List α → Option Nat
  | [] => if pat = [] then some 0 else none
  | c :: s => if pat <+: c :: s then some 0 else (indexOf pat s).map (· + 1)

/-- `indexOf` with a start position. -/
def indexOfFrom (pat s : List α) (start : Nat) : Option Nat :=
  (indexOf pat (s.drop start)).map (start + ·)

/-- Position of the last occurrence of one character. -/
def lastIndexOf (c : α) : List α → Option Nat
  | [] => none
  | d :: s =>
    match lastIndexOf c s with
    | some i => some (i + 1)
    | none => if d = c then some 0 else none

/-- Splitting on one character with the trailing empty pieces dropped; a text without the
separator is its own only piece, even when it is empty. -/
def splitTrim (sep : α) (s : List α) : List (List α) :=
  if sep ∈ s then (s.splitOn sep).rdropWhile (· = []) else [s]

theorem indexOf_eq_none_iff {pat s : List α} : indexOf pat s = none ↔ ¬ pat <:+: s := by
  induction s with
  | nil => simp only [indexOf, List.infix_nil, ite_eq_right_iff, reduceCtorEq, imp_false]
  | cons c s ih =>
    rw [indexOf, List.infix_cons_iff]
    by_cases hp : pat <+: c :: s
    · simp only [hp, ↓reduceIte, reduceCtorEq, true_or, not_true_eq_false]
    · simp only [hp, ↓reduceIte, Option.map_eq_none_iff, ih, false_or]

theorem indexOf_eq_some_iff {pat s : List α} {i : Nat} :
    indexOf pat s = some i ↔ pat <+: s.drop i ∧ ∀ j < i, ¬ pat <+: s.drop j := by
  induction s generalizing i with
  | nil =>
    simp only [indexOf, List.drop_nil, List.prefix_nil]
    by_cases hp : pat = []
    · cases i with
      | zero => simp [hp]
      | succ i =>
        simp only [hp, ↓reduceIte, Option.some.injEq, reduceCtorEq, false_iff, not_and]
        exact fun _ h => h 0 (by omega) trivial
    · simp [hp]
  | cons c s ih =>
    rw [indexOf]
    by_cases hp : pat <+: c :: s
    · cases i with
      | zero => simp [hp]
      | succ i =>
        rw [if_pos hp]
        constructor
        · rintro ⟨⟩
        · rintro ⟨_, h⟩
          exact (h 0 (by omega) hp).elim
    · cases i with
      | zero => simp [hp]
      | succ i =>
        simp only [hp, ↓reduceIte, Option.map_eq_some_iff, Nat.add_right_cancel_iff,
          exists_eq_right, ih, List.drop_succ_cons]
        refine and_congr_right fun _ => ⟨fun h j hj => ?_, fun h j hj => h (j + 1) (by omega)⟩
        cases j with
        | zero => exact hp
        | succ j => exact h j (by omega)

theorem indexOf_prefix_drop {pat s : List α} (h : indexOf pat s = some i) : pat <+: s.drop i :=
  (indexOf_eq_some_iff.1 h).1

theorem infix_of_indexOf {pat s : List α} (h : indexOf pat s = some i) : pat <:+: s :=
  (indexOf_prefix_drop h).isInfix.trans (List.drop_suffix _ _).isInfix

/-- The text around the first occurrence. -/
theorem indexOf_decompose {pat s : List α} (h : indexOf pat s = some i) :
    s = s.take i ++ pat ++ s.drop (i + pat.length) := by
  obtain ⟨t, ht⟩ := indexOf_prefix_drop h
  have hd : t = s.drop (i + pat.length) := by
    rw [← List.drop_drop, ← ht, List.drop_left]
  rw [List.append_assoc, ← hd, ht, List.take_append_drop]

theorem indexOf_lt_length {pat s : List α} (hpat : pat ≠ []) (h : indexOf pat s = some i) :
    i + pat.length ≤ s.length := by
  have hl := (indexOf_prefix_drop h).length_le
  have hpos := List.length_pos_iff.2 hpat
  rw [List.length_drop] at hl
  omega

/-- Nothing before the first occurrence contains the pattern. -/
theorem not_infix_take_indexOf {pat s : List α} (h : indexOf pat s = some i) (hpat : pat ≠ []) :
    ¬ pat <:+: s.take i := by
  rintro ⟨u, v, huv⟩
  have hlen : u.length + pat.length + v.length ≤ i := by
    have hl := congrArg List.length huv
    simp only [List.length_append, List.length_take] at hl
    omega
  have hpos := List.length_pos_iff.2 hpat
  refine (indexOf_eq_some_iff.1 h).2 u.length (by omega) ⟨v ++ s.drop i, ?_⟩
  have hs : s = u ++ (pat ++ (v ++ s.drop i)) := by
    conv_lhs => rw [← List.take_append_drop i s, ← huv]
    simp only [List.append_assoc]
  conv_rhs => rw [hs, List.drop_left]

omit [DecidableEq α] in
theorem prefix_append_cons {c : α} {pat u v : List α} (hc : c ∉ pat) (h : pat <+: u ++ c :: v) :
    pat <+: u := by
  induction pat generalizing u with
  | nil => exact List.nil_prefix
  | cons p pat ih =>
    have hp : p ≠ c := (List.ne_of_not_mem_cons hc).symm
    have hpat : c ∉ pat := List.not_mem_of_not_mem_cons hc
    cases u with
    | nil => exact absurd (List.cons_prefix_cons.1 h).1 hp
    | cons a u =>
      obtain ⟨ha, ht⟩ := List.cons_prefix_cons.1 h
      exact List.cons_prefix_cons.2 ⟨ha, ih hpat ht⟩

omit [DecidableEq α] in
/-- A pattern that repeats its first character nowhere does not straddle that character. -/
theorem infix_append_cons {c : α} {pat u v : List α} (hc : c ∉ pat)
    (h : c :: pat <:+: u ++ c :: v) : c :: pat <:+: u ∨ c :: pat <:+: c :: v := by
  induction u with
  | nil => exact .inr h
  | cons a u ih =>
    obtain hp | hi := List.infix_cons_iff.1 h
    · obtain ⟨ha, ht⟩ := List.cons_prefix_cons.1 hp
      exact .inl (List.cons_prefix_cons.2 ⟨ha, prefix_append_cons hc ht⟩).isInfix
    · exact (ih hi).imp_left List.infix_cons

theorem length_le_indexOf {c : α} {pat u v : List α} (hc : c ∉ pat) (hu : ¬ c :: pat <:+: u)
    (h : indexOf (c :: pat) (u ++ c :: v) = some i) : u.length ≤ i := by
  by_contra hlt
  have hp := indexOf_prefix_drop h
  rw [List.drop_append_of_le_length (by omega)] at hp
  cases hd : u.drop i with
  | nil => exact hlt (List.drop_eq_nil_iff.1 hd)
  | cons a w =>
    rw [hd, List.cons_append] at hp
    obtain ⟨ha, ht⟩ := List.cons_prefix_cons.1 hp
    have hw : c :: pat <+: u.drop i := by
      rw [hd]
      exact List.cons_prefix_cons.2 ⟨ha, prefix_append_cons hc ht⟩
    exact hu (hw.isInfix.trans (List.drop_suffix i u).isInfix)

theorem indexOf_append_self {c : α} {pat u : List α} (hc : c ∉ pat) (hu : ¬ c :: pat <:+: u)
    (v : List α) : indexOf (c :: pat) (u ++ (c :: pat ++ v)) = some u.length := by
  have hpre : c :: pat <+: (u ++ (c :: pat ++ v)).drop u.length := by
    rw [List.drop_left]
    exact List.prefix_append _ _
  obtain ⟨k, hk⟩ := Option.ne_none_iff_exists'.1 fun hn => indexOf_eq_none_iff.1 hn
    (hpre.isInfix.trans (List.drop_suffix _ _).isInfix)
  have hle := length_le_indexOf hc hu hk
  have hge : k ≤ u.length := by
    by_contra hlt
    exact (indexOf_eq_some_iff.1 hk).2 u.length (by omega) hpre
  rw [hk, Nat.le_antisymm hge hle]

/-- An occurrence in a leading part bounds the first occurrence. -/
theorem indexOf_append_lt {pat u : List α} (hpat : pat ≠ []) (h : pat <:+: u) (v : List α) :
    ∃ i, indexOf pat (u ++ v) = some i ∧ i < u.length := by
  obtain ⟨i, hi⟩ := Option.ne_none_iff_exists'.1 (fun hn => indexOf_eq_none_iff.1 hn h)
  have hlen := indexOf_lt_length hpat hi
  have hpos := List.length_pos_iff.2 hpat
  have hpre : pat <+: (u ++ v).drop i := by
    rw [List.drop_append_of_le_length (by omega)]
    exact (indexOf_prefix_drop hi).trans (List.prefix_append _ _)
  obtain ⟨k, hk⟩ := Option.ne_none_iff_exists'.1 (fun hn => indexOf_eq_none_iff.1 hn
    (hpre.isInfix.trans (List.drop_suffix _ _).isInfix))
  refine ⟨k, hk, ?_⟩
  by_contra hlt
  exact (indexOf_eq_some_iff.1 hk).2 i (by omega) hpre

theorem notMem_of_lastIndexOf_eq_none {c : α} {s : List α} (h : lastIndexOf c s = none) :
    c ∉ s := by
  induction s with
  | nil => exact List.not_mem_nil
  | cons d s ih =>
    rw [lastIndexOf] at h
    cases hs : lastIndexOf c s with
    | some j =>
      rw [hs] at h
      cases h
    | none =>
      rw [hs] at h
      dsimp only at h
      split at h
      · cases h
      · rename_i hd
        exact List.not_mem_cons_of_ne_of_not_mem (Ne.symm hd) (ih hs)

theorem lastIndexOf_eq_some {c : α} {s : List α} (h : lastIndexOf c s = some i) :
    s = s.take i ++ c :: s.drop (i + 1) ∧ c ∉ s.drop (i + 1) := by
  induction s generalizing i with
  | nil => cases h
  | cons d s ih =>
    rw [lastIndexOf] at h
    cases hs : lastIndexOf c s with
    | some j =>
      rw [hs] at h
      cases h
      obtain ⟨hsplit, hmem⟩ := ih hs
      exact ⟨congrArg (d :: ·) hsplit, hmem⟩
    | none =>
      rw [hs] at h
      dsimp only at h
      split at h
      · rename_i hd
        cases h
        refine ⟨by rw [hd]; rfl, ?_⟩
        exact notMem_of_lastIndexOf_eq_none hs
      · cases h

omit [DecidableEq α] in
/-- A list is cut in one way only at the last occurrence of an element. -/
theorem append_cons_inj_last {c : α} {a b s t : List α} (hs : c ∉ s) (ht : c ∉ t)
    (h : a ++ c :: s = b ++ c :: t) : a = b ∧ s = t := by
  have hcut : ∀ {l s t : List α}, c ∉ s → c :: s = l ++ c :: t → l = [] := by
    intro l s t hs hl
    cases l with
    | nil => rfl
    | cons x l =>
      have htail : s = l ++ c :: t := (List.cons.inj hl).2
      rw [htail] at hs
      exact absurd (List.mem_append_right l List.mem_cons_self) hs
  obtain ⟨l, rfl, hl⟩ | ⟨l, rfl, hl⟩ := List.append_eq_append_iff.1 h
  · obtain rfl := hcut hs hl
    exact ⟨(List.append_nil a).symm, (List.cons.inj hl).2⟩
  · obtain rfl := hcut ht hl
    exact ⟨List.append_nil b, (List.cons.inj hl).2.symm⟩

omit [DecidableEq α] in
/-- A list is cut in one way only at the first occurrence of an element. -/
theorem append_cons_inj_first {c : α} {a b s t : List α} (ha : c ∉ a) (hb : c ∉ b)
    (h : a ++ c :: s = b ++ c :: t) : a = b ∧ s = t := by
  have hreversed := congrArg List.reverse h
  simp only [List.reverse_append, List.reverse_cons, List.append_assoc, List.singleton_append]
    at hreversed
  obtain ⟨hs, ha⟩ := append_cons_inj_last (mt List.mem_reverse.1 ha) (mt List.mem_reverse.1 hb)
    hreversed
  exact ⟨List.reverse_injective ha, List.reverse_injective hs⟩

omit [DecidableEq α] in
/-- A list is cut in one way only where a property ends. -/
theorem append_inj_of_head {p : α → Prop} {a b s t : List α} (ha : ∀ c ∈ a, p c) (hb : ∀ c ∈ b, p c)
    (hs : ∀ c ∈ s.head?, ¬ p c) (ht : ∀ c ∈ t.head?, ¬ p c) (h : a ++ s = b ++ t) :
    a = b ∧ s = t := by
  induction a generalizing b with
  | nil =>
    cases b with
    | nil => exact ⟨rfl, h⟩
    | cons x b =>
      rw [List.nil_append] at h
      rw [h] at hs
      exact absurd (hb x List.mem_cons_self) (hs x rfl)
  | cons x a ih =>
    cases b with
    | nil =>
      rw [List.nil_append] at h
      rw [← h] at ht
      exact absurd (ha x List.mem_cons_self) (ht x rfl)
    | cons y b =>
      obtain ⟨hxy, htail⟩ := List.cons.inj h
      obtain ⟨hab, hst⟩ := ih (fun c hc => ha c (.tail _ hc)) (fun c hc => hb c (.tail _ hc)) htail
      exact ⟨by rw [hxy, hab], hst⟩

theorem splitTrim_of_notMem {sep : α} {s : List α} (h : sep ∉ s) : splitTrim sep s = [s] := by
  rw [splitTrim, if_neg h]

omit [DecidableEq α] in
theorem filterMap_rdropWhile_nil {f : List α → Option β} (hf : f [] = none)
    (l : List (List α)) : (l.rdropWhile (· = [])).filterMap f = l.filterMap f := by
  induction l using List.reverseRecOn with
  | nil => rfl
  | append_singleton l x ih =>
    by_cases hx : x = []
    · subst hx
      rw [List.rdropWhile_concat, if_pos (decide_eq_true rfl), ih, List.filterMap_append]
      simp only [List.filterMap_cons, hf, List.filterMap_nil, List.append_nil]
    · rw [List.rdropWhile_concat, if_neg (by simpa using hx)]

/-- Joining texts and splitting them again keeps what is read from the pieces. -/
theorem filterMap_splitTrim_intercalate {sep : α} {l : List (List α)} {f : List α → Option β}
    (hf : f [] = none) (hl : ∀ s ∈ l, sep ∉ s) :
    (splitTrim sep ([sep].intercalate l)).filterMap f = l.filterMap f := by
  cases l with
  | nil =>
    rw [List.intercalate_nil, splitTrim_of_notMem List.not_mem_nil]
    simp only [List.filterMap_cons, hf, List.filterMap_nil]
  | cons s l =>
    have hsplit := List.splitOn_intercalate sep hl (List.cons_ne_nil s l)
    by_cases hmem : sep ∈ [sep].intercalate (s :: l)
    · rw [splitTrim, if_pos hmem, hsplit, filterMap_rdropWhile_nil hf]
    · rw [splitTrim_of_notMem hmem, ← List.splitOn_eq_singleton hmem, hsplit]

omit [DecidableEq α] in
theorem intercalate_append {sep : α} {l m : List (List α)} (hl : l ≠ []) (hm : m ≠ []) :
    [sep].intercalate (l ++ m) = [sep].intercalate l ++ sep :: [sep].intercalate m := by
  induction l with
  | nil => exact absurd rfl hl
  | cons s l ih =>
    cases l with
    | nil =>
      rw [List.singleton_append, List.intercalate_cons_of_ne_nil hm, List.intercalate_singleton,
        List.append_assoc, List.singleton_append]
    | cons t l =>
      have hne : t :: l ++ m ≠ [] := List.append_ne_nil_of_left_ne_nil (List.cons_ne_nil t l) m
      rw [List.cons_append, List.intercalate_cons_of_ne_nil hne, ih (List.cons_ne_nil t l),
        List.intercalate_cons_of_ne_nil (List.cons_ne_nil t l)]
      simp only [List.append_assoc, List.cons_append]

omit [DecidableEq α] in
theorem notMem_intercalate {c sep : α} {l : List (List α)} (hsep : c ≠ sep)
    (h : ∀ s ∈ l, c ∉ s) : c ∉ [sep].intercalate l := by
  induction l with
  | nil => exact List.not_mem_nil
  | cons s l ih =>
    have ih := ih fun t ht => h t (List.mem_cons_of_mem s ht)
    have hs := h s List.mem_cons_self
    cases l with
    | nil => rwa [List.intercalate_singleton]
    | cons t l =>
      rw [List.intercalate_cons_of_ne_nil (List.cons_ne_nil _ _), List.mem_append, List.mem_append,
        List.mem_singleton, not_or, not_or]
      exact ⟨⟨hs, hsep⟩, ih⟩

/-- A text that does not end in the separator has no trailing empty pieces. -/
theorem splitTrim_eq_splitOn {sep : α} {s : List α} (h : ¬ [sep] <:+ s) :
    splitTrim sep s = s.splitOn sep := by
  by_cases hmem : sep ∈ s
  · rw [splitTrim, if_pos hmem, List.rdropWhile_eq_self_iff]
    intro hne hlast
    apply h
    have hjoin : [sep].intercalate (s.splitOn sep) = s := List.intercalate_splitOn sep
    have hsplit := List.dropLast_append_getLast hne
    rw [of_decide_eq_true hlast] at hsplit
    rw [← hjoin, ← hsplit]
    have hinit : (s.splitOn sep).dropLast ≠ [] := by
      intro hnil
      rw [hnil, List.nil_append] at hsplit
      rw [← hsplit, List.intercalate_singleton] at hjoin
      rw [← hjoin] at hmem
      exact absurd hmem List.not_mem_nil
    rw [intercalate_append hinit (List.cons_ne_nil [] []), List.intercalate_singleton]
    exact List.suffix_append _ _
  · rw [splitTrim_of_notMem hmem, List.splitOn_eq_singleton hmem]

/-- Trimming drops pieces at the end alone. -/
theorem splitTrim_startsWith (sep : α) (s : List α) : splitTrim sep s <+: s.splitOn sep := by
  by_cases hmem : sep ∈ s
  · rw [splitTrim, if_pos hmem]
    exact List.rdropWhile_prefix _ _
  · rw [splitTrim_of_notMem hmem, List.splitOn_eq_singleton hmem]

/-- Joined pieces that are not empty are found again. -/
theorem splitTrim_intercalate {sep : α} {l : List (List α)} (hne : l ≠ [])
    (hl : ∀ s ∈ l, s ≠ [] ∧ sep ∉ s) : splitTrim sep ([sep].intercalate l) = l := by
  have hsplit := List.splitOn_intercalate sep (fun s hs => (hl s hs).2) hne
  by_cases hmem : sep ∈ [sep].intercalate l
  · rw [splitTrim, if_pos hmem, hsplit, List.rdropWhile_eq_self_iff]
    intro hne hlast
    exact (hl _ (List.getLast_mem hne)).1 (of_decide_eq_true hlast)
  · rw [splitTrim_of_notMem hmem, ← List.splitOn_eq_singleton hmem, hsplit]

omit [DecidableEq α] in
theorem mem_intercalate {c sep : α} {piece : List α} {l : List (List α)} (h : piece ∈ l)
    (hc : c ∈ piece) : c ∈ [sep].intercalate l := by
  induction l with
  | nil => exact absurd h List.not_mem_nil
  | cons s l ih =>
    cases l with
    | nil =>
      rw [List.intercalate_singleton, ← List.mem_singleton.1 h]
      exact hc
    | cons t l =>
      rw [List.intercalate_cons_of_ne_nil (List.cons_ne_nil _ _)]
      rcases List.mem_cons.1 h with rfl | h
      · exact List.mem_append_left _ (List.mem_append_left _ hc)
      · exact List.mem_append_right _ (ih h)

theorem mem_of_mem_splitOn {c sep : α} {s piece : List α} (h : piece ∈ s.splitOn sep)
    (hc : c ∈ piece) : c ∈ s := by
  have hjoin : [sep].intercalate (s.splitOn sep) = s := List.intercalate_splitOn sep
  rw [← hjoin]
  exact mem_intercalate h hc

/-- The pieces of a text have no separator. -/
theorem notMem_of_mem_splitOn {sep : α} {s piece : List α} (h : piece ∈ s.splitOn sep) :
    sep ∉ piece := by
  induction s generalizing piece with
  | nil =>
    rw [List.splitOn_nil, List.mem_singleton] at h
    rw [h]
    exact List.not_mem_nil
  | cons c s ih =>
    rw [List.splitOn_cons_eq_if_modifyHead] at h
    split at h
    · obtain rfl | h := List.mem_cons.1 h
      · exact List.not_mem_nil
      · exact ih h
    · rename_i hc
      obtain ⟨first, rest, hsplit⟩ := List.exists_cons_of_ne_nil (List.splitOn_ne_nil sep s)
      rw [hsplit] at h ih
      obtain rfl | h := List.mem_cons.1 h
      · rw [List.mem_cons, not_or]
        refine ⟨?_, ih List.mem_cons_self⟩
        rintro rfl
        exact hc (beq_self_eq_true _)
      · exact ih (List.mem_cons_of_mem _ h)

/-- Case rules of the platform: its lower-casing of texts and the folding of characters that
its case-insensitive comparison uses. -/
class CaseRules where
  toLowerCase : List Char → List Char
  foldCase : Char → Char

/-- The rules restricted to ASCII. -/
@[reducible] def CaseRules.ascii : CaseRules where
  toLowerCase := List.map Char.toLower
  foldCase := Char.toLower

/-- Rules under which ASCII text without capital letters stays as it is, whatever follows it. -/
def CaseRules.KeepsLowerCase [CaseRules] : Prop :=
  ∀ s t : List Char, (∀ c ∈ s, c.toLower = c ∧ c.toNat < 128) →
    s <+: CaseRules.toLowerCase (s ++ t)

theorem CaseRules.ascii_keepsLowerCase : @CaseRules.KeepsLowerCase .ascii := by
  intro s t hs
  have hmap : s.map Char.toLower = s := by
    rw [List.map_congr_left fun c hc => (hs c hc).1]
    exact List.map_id s
  refine ⟨t.map Char.toLower, ?_⟩
  change s ++ t.map Char.toLower = (s ++ t).map Char.toLower
  rw [List.map_append, hmap]

section CaseInsensitive

variable [CaseRules]

export CaseRules (toLowerCase foldCase)

/-- Comparison of two texts character by character after folding the case. -/
def equalsIgnoreCase (s t : List Char) : Bool :=
  s.map foldCase = t.map foldCase

theorem equalsIgnoreCase_iff {s t : List Char} :
    equalsIgnoreCase s t = true ↔ s.map foldCase = t.map foldCase :=
  decide_eq_true_iff

@[simp] theorem equalsIgnoreCase_refl (s : List Char) : equalsIgnoreCase s s = true :=
  equalsIgnoreCase_iff.2 rfl

theorem equalsIgnoreCase_comm {s t : List Char} (h : equalsIgnoreCase s t = true) :
    equalsIgnoreCase t s = true :=
  equalsIgnoreCase_iff.2 (equalsIgnoreCase_iff.1 h).symm

theorem equalsIgnoreCase_trans {s t u : List Char} (h : equalsIgnoreCase s t = true)
    (h' : equalsIgnoreCase t u = true) : equalsIgnoreCase s u = true :=
  equalsIgnoreCase_iff.2 ((equalsIgnoreCase_iff.1 h).trans (equalsIgnoreCase_iff.1 h'))

theorem equalsIgnoreCase_length {s t : List Char} (h : equalsIgnoreCase s t = true) :
    s.length = t.length := by
  have hl := congrArg List.length (equalsIgnoreCase_iff.1 h)
  rwa [List.length_map, List.length_map] at hl

end CaseInsensitive

end Lib.Text
