import Athenz.RequireRoleCertCache

namespace Athenz.Zts
open Lib Lib.Text Lib.Index
set_option autoImplicit true

namespace RolePrefixTrie

/-- The path of a wildcard reaches a principal: it ends above the last section, or it ends in a
pattern for that section. -/
def pathMatches (path : List Str) : List Str → Prop
  | [] => False
  | [service] => ∃ pattern, path = [pattern] ∧ ['*'] <:+ pattern ∧ pattern.dropLast <+: service
  | first :: second :: sections =>
    ∃ rest, path = first :: rest ∧ (rest = [] ∨ pathMatches rest (second :: sections))

theorem mem_lastSection {t : Trie Str Str} : role ∈ findMatchingSections [service] t ↔
    ∃ pattern, role ∈ t.valuesAt [pattern] ∧ ['*'] <:+ pattern ∧ pattern.dropLast <+: service := by
  have hstep : ∀ (acc : List Str) (pattern role : Str),
      (role ∈ if ['*'] <:+ pattern ∧ pattern.dropLast <+: service then
        acc ∪ ((t.child pattern).map (·.values)).getD [] else acc) ↔
      role ∈ acc ∨ role ∈ t.valuesAt [pattern] ∧ ['*'] <:+ pattern ∧ pattern.dropLast <+: service := by
    intro acc pattern role
    have hvalues : t.valuesAt [pattern] = ((t.child pattern).map (·.values)).getD [] := rfl
    split
    · rename_i hmatch
      rw [List.mem_union_iff, hvalues, and_iff_left hmatch]
    · rename_i hmatch
      rw [or_iff_left fun h => hmatch h.2]
  rw [findMatchingSections, mem_foldl hstep, or_iff_right List.not_mem_nil]
  refine exists_congr fun pattern => and_iff_right_of_imp ?_
  exact fun hrole => Trie.mem_children_of_mem_valuesAt hrole.1

theorem mem_findMatchingSections {sections : List Str} {t : Trie Str Str} :
    role ∈ findMatchingSections sections t ↔
      ∃ path, role ∈ t.valuesAt path ∧ pathMatches path sections := by
  induction sections generalizing t with
  | nil => simp only [findMatchingSections, List.not_mem_nil, pathMatches, and_false, exists_false]
  | cons first sections ih =>
    cases sections with
    | nil =>
      rw [mem_lastSection]
      constructor
      · rintro ⟨pattern, hrole, hmatch⟩
        exact ⟨[pattern], hrole, pattern, rfl, hmatch⟩
      · rintro ⟨_, hrole, pattern, rfl, hmatch⟩
        exact ⟨pattern, hrole, hmatch⟩
    | cons second sections =>
      have hpath : (∃ path, role ∈ t.valuesAt path ∧ pathMatches path (first :: second :: sections)) ↔
          ∃ rest, role ∈ t.valuesAt (first :: rest) ∧
            (rest = [] ∨ pathMatches rest (second :: sections)) := by
        constructor
        · rintro ⟨_, hrole, rest, rfl, hmatch⟩
          exact ⟨rest, hrole, hmatch⟩
        · rintro ⟨rest, hrole, hmatch⟩
          exact ⟨first :: rest, hrole, rest, rfl, hmatch⟩
      rw [hpath, findMatchingSections.eq_3 _ _ _ (List.cons_ne_nil second sections)]
      cases hchild : t.child first with
      | none =>
        simp only [Trie.valuesAt, hchild, Option.map_none, Option.getD_none, List.not_mem_nil,
          false_and, exists_false]
      | some node =>
        simp only [Trie.valuesAt, hchild, Option.map_some, Option.getD_some]
        rw [List.mem_union_iff, ih]
        constructor
        · rintro (hrole | ⟨path, hrole, hmatch⟩)
          · exact ⟨[], hrole, .inl rfl⟩
          · exact ⟨path, hrole, .inr hmatch⟩
        · rintro ⟨path, hrole, rfl | hmatch⟩
          · exact .inl hrole
          · exact .inr ⟨path, hrole, hmatch⟩

section Paths

theorem pathMatches_cons {first : Str} {rest sections : List Str} (hsections : sections ≠ [])
    (h : rest = [] ∨ pathMatches rest sections) : pathMatches (first :: rest) (first :: sections) := by
  cases sections with
  | nil => exact absurd rfl hsections
  | cons second sections => exact ⟨rest, rfl, h⟩

theorem pathMatches_above {path rest : List Str} (hpath : path ≠ []) (hrest : rest ≠ []) :
    pathMatches path (path ++ rest) := by
  induction path with
  | nil => exact absurd rfl hpath
  | cons first path ih =>
    apply pathMatches_cons (List.append_ne_nil_of_right_ne_nil path hrest)
    cases path with
    | nil => exact .inl rfl
    | cons second path => exact .inr (ih (List.cons_ne_nil second path))

theorem pathMatches_pattern {pattern service : Str} (above : List Str)
    (h : ['*'] <:+ pattern ∧ pattern.dropLast <+: service) :
    pathMatches (above ++ [pattern]) (above ++ [service]) := by
  induction above with
  | nil => exact ⟨pattern, rfl, h⟩
  | cons first above ih =>
    exact pathMatches_cons (List.append_ne_nil_of_right_ne_nil above (List.cons_ne_nil service []))
      (.inr ih)

/-- A path that matches ends above the last section, or in a pattern for it. -/
theorem pathMatches_cases {path sections : List Str} (h : pathMatches path sections) :
    (∃ rest, rest ≠ [] ∧ sections = path ++ rest) ∨
      ∃ above pattern service, path = above ++ [pattern] ∧ sections = above ++ [service] ∧
        ['*'] <:+ pattern ∧ pattern.dropLast <+: service := by
  induction sections generalizing path with
  | nil => exact absurd h id
  | cons first sections ih =>
    cases sections with
    | nil =>
      obtain ⟨pattern, rfl, hpattern⟩ := h
      exact .inr ⟨[], pattern, first, rfl, rfl, hpattern⟩
    | cons second sections =>
      obtain ⟨rest, rfl, rfl | hrest⟩ := h
      · exact .inl ⟨second :: sections, List.cons_ne_nil second sections, rfl⟩
      · obtain ⟨below, hbelow, hsections⟩ | ⟨above, pattern, service, rfl, hsections, hpattern⟩ := ih hrest
        · exact .inl ⟨below, hbelow, congrArg (first :: ·) hsections⟩
        · exact .inr ⟨first :: above, pattern, service, rfl, congrArg (first :: ·) hsections, hpattern⟩

end Paths

section Wildcards

/-- Sections of a name: neither empty nor with a dot or a star. -/
def Sections (sections : List Str) : Prop :=
  sections ≠ [] ∧ ∀ s ∈ sections, s ≠ [] ∧ '.' ∉ s ∧ '*' ∉ s

/-- The wildcards that ZMS allows next to `*`: a domain name with `.*`, or a service name with `*`. -/
inductive Wildcard : Str → Prop where
  | domain (sections : List Str) (h : Sections sections) :
    Wildcard (['.'].intercalate sections ++ ['.', '*'])
  | service (above : List Str) (name : Str) (h : Sections (above ++ [name])) :
    Wildcard (['.'].intercalate (above ++ [name]) ++ ['*'])

theorem Sections.splitTrim (h : Sections sections) :
    Text.splitTrim '.' (['.'].intercalate sections) = sections :=
  splitTrim_intercalate h.1 fun s hs => ⟨(h.2 s hs).1, (h.2 s hs).2.1⟩

theorem dropLast_domain (name : Str) : (name ++ ['.', '*']).dropLast = name ++ ['.'] := by
  rw [List.dropLast_append_of_ne_nil (List.cons_ne_nil _ _)]
  rfl

theorem triePath_domain (h : Sections sections) :
    triePath (['.'].intercalate sections ++ ['.', '*']) = sections := by
  have hdrop : (['.'].intercalate sections ++ ['.', '*']).dropLast.dropLast =
      ['.'].intercalate sections := by
    rw [dropLast_domain, List.dropLast_concat]
  rw [triePath, if_pos (List.suffix_append _ _), hdrop, h.splitTrim]

theorem intercalate_append_last (above : List Str) (name rest : Str) :
    ['.'].intercalate (above ++ [name]) ++ rest = ['.'].intercalate (above ++ [name ++ rest]) := by
  cases above with
  | nil => rw [List.nil_append, List.nil_append, List.intercalate_singleton, List.intercalate_singleton]
  | cons first above =>
    rw [intercalate_append (List.cons_ne_nil first above) (List.cons_ne_nil name []),
      intercalate_append (List.cons_ne_nil first above) (List.cons_ne_nil _ []),
      List.intercalate_singleton, List.intercalate_singleton, List.append_assoc, List.cons_append]

/-- A joined name ends as its last section does. -/
theorem suffix_intercalate (above : List Str) (name : Str) :
    name <:+ ['.'].intercalate (above ++ [name]) := by
  cases above with
  | nil =>
    rw [List.nil_append, List.intercalate_singleton]
  | cons first above =>
    rw [intercalate_append (List.cons_ne_nil first above) (List.cons_ne_nil name []),
      List.intercalate_singleton]
    exact (List.suffix_cons '.' name).trans (List.suffix_append _ _)

theorem not_suffix_service (h : Sections (above ++ [name])) :
    ¬ ['.', '*'] <:+ ['.'].intercalate (above ++ [name]) ++ ['*'] := by
  have hname := h.2 name (List.mem_append_right above List.mem_cons_self)
  rintro ⟨start, hstart⟩
  have hjoin : start ++ ['.'] ++ ['*'] = ['.'].intercalate (above ++ [name]) ++ ['*'] := by
    rw [← hstart, List.append_assoc]
    rfl
  have hdot : ['.'] <:+ ['.'].intercalate (above ++ [name]) :=
    ⟨start, List.append_cancel_right hjoin⟩
  have hlast : ['.'] <:+ name :=
    List.suffix_of_suffix_length_le hdot (suffix_intercalate above name)
      (List.length_pos_iff.2 hname.1)
  exact hname.2.1 (hlast.subset List.mem_cons_self)

theorem triePath_service (h : Sections (above ++ [name])) :
    triePath (['.'].intercalate (above ++ [name]) ++ ['*']) = above ++ [name ++ ['*']] := by
  have hname := h.2 name (List.mem_append_right above List.mem_cons_self)
  have hsections : above ++ [name ++ ['*']] ≠ [] :=
    List.append_ne_nil_of_right_ne_nil above (List.cons_ne_nil _ [])
  rw [triePath, if_neg (not_suffix_service h), intercalate_append_last]
  refine splitTrim_intercalate hsections ?_
  intro s hs
  obtain hs | hs := List.mem_append.1 hs
  · have hsection := h.2 s (List.mem_append_left _ hs)
    exact ⟨hsection.1, hsection.2.1⟩
  · rw [List.mem_singleton.1 hs]
    refine ⟨List.append_ne_nil_of_right_ne_nil name (by decide), ?_⟩
    rw [List.mem_append, not_or]
    exact ⟨hname.2.1, by decide⟩

/-- Different wildcards have different paths. -/
theorem Wildcard.eq_of_triePath_eq (ha : Wildcard a) (hb : Wildcard b)
    (h : triePath a = triePath b) : a = b := by
  have hstar : ∀ {sections above : List Str} {name : Str}, Sections sections →
      sections ≠ above ++ [name ++ ['*']] := by
    rintro _ above name hsections rfl
    have hname := hsections.2 _ (List.mem_append_right above List.mem_cons_self)
    exact hname.2.2 (List.mem_append_right name List.mem_cons_self)
  cases ha with
  | domain sections hsections =>
    rw [triePath_domain hsections] at h
    cases hb with
    | domain others hothers => rw [h, triePath_domain hothers]
    | service above name hname =>
      rw [triePath_service hname] at h
      exact absurd h (hstar hsections)
  | service above name hname =>
    rw [triePath_service hname] at h
    cases hb with
    | domain sections hsections =>
      rw [triePath_domain hsections] at h
      exact absurd h.symm (hstar hsections)
    | service others other hother =>
      rw [triePath_service hother] at h
      obtain ⟨rfl, hlast⟩ := List.append_inj' h rfl
      rw [List.append_cancel_right (List.cons.inj hlast).1]

theorem prefix_intercalate {above l : List Str} (hl : l ≠ [])
    (h : name <+: ['.'].intercalate l) :
    ['.'].intercalate (above ++ [name]) <+: ['.'].intercalate (above ++ l) := by
  cases above with
  | nil =>
    rw [List.nil_append, List.nil_append, List.intercalate_singleton]
    exact h
  | cons first above =>
    rw [intercalate_append (List.cons_ne_nil first above) (List.cons_ne_nil name []),
      intercalate_append (List.cons_ne_nil first above) hl, List.intercalate_singleton]
    exact List.prefix_append_right_inj _ |>.2 (List.cons_prefix_cons.2 ⟨rfl, h⟩)

theorem prefix_intercalate_cons (s : Str) (l : List Str) : s <+: ['.'].intercalate (s :: l) := by
  cases l with
  | nil => rw [List.intercalate_singleton]
  | cons t l =>
    rw [List.intercalate_cons_of_ne_nil (List.cons_ne_nil t l), List.append_assoc]
    exact List.prefix_append _ _

/-- A wildcard is found only for principals that start as it does. -/
theorem Wildcard.prefix_of_pathMatches (h : Wildcard wildcard)
    (hmatch : pathMatches (triePath wildcard) (Text.splitTrim '.' principal)) :
    wildcard.dropLast <+: principal := by
  obtain ⟨tail, htail⟩ := splitTrim_startsWith '.' principal
  have hjoin : ['.'].intercalate (principal.splitOn '.') = principal := List.intercalate_splitOn '.'
  rw [← htail] at hjoin
  cases h with
  | domain sections hsections =>
    rw [triePath_domain hsections] at hmatch
    rw [dropLast_domain]
    obtain ⟨rest, hrest, hsplit⟩ | ⟨above, pattern, service, rfl, _, hstar, _⟩ :=
      pathMatches_cases hmatch
    · rw [hsplit, List.append_assoc, intercalate_append hsections.1
        (List.append_ne_nil_of_left_ne_nil hrest tail)] at hjoin
      exact ⟨_, by rw [List.append_assoc]; exact hjoin⟩
    · have hpattern := hsections.2 pattern (List.mem_append_right above List.mem_cons_self)
      exact absurd (hstar.subset List.mem_cons_self) hpattern.2.2
  | service above name hname =>
    rw [triePath_service hname] at hmatch
    rw [List.dropLast_concat, ← hjoin]
    obtain ⟨rest, hrest, hsplit⟩ | ⟨others, pattern, service, hpath, hsplit, _, hstarts⟩ :=
      pathMatches_cases hmatch
    · rw [hsplit, List.append_assoc, List.append_assoc]
      apply prefix_intercalate (List.cons_ne_nil _ _)
      exact (List.prefix_append name ['*']).trans (prefix_intercalate_cons _ _)
    · obtain ⟨rfl, hlast⟩ := List.append_inj' hpath rfl
      rw [← (List.cons.inj hlast).1, List.dropLast_concat] at hstarts
      rw [hsplit, List.append_assoc]
      apply prefix_intercalate (List.cons_ne_nil _ _)
      exact hstarts.trans (prefix_intercalate_cons _ _)

/-- A wildcard is found for principals that start as it does, when they have no further dot behind
it. -/
theorem Wildcard.pathMatches_of_starts (h : Wildcard wildcard) (hprincipal : ¬ ['.'] <:+ principal)
    (hstarts : wildcard.dropLast <+: principal)
    (hplain : ¬ ['.', '*'] <:+ wildcard → ∀ rest, principal = wildcard.dropLast ++ rest → '.' ∉ rest) :
    pathMatches (triePath wildcard) (Text.splitTrim '.' principal) := by
  rw [splitTrim_eq_splitOn hprincipal]
  obtain ⟨rest, rfl⟩ := hstarts
  cases h with
  | domain sections hsections =>
    rw [triePath_domain hsections, dropLast_domain, List.append_assoc, List.singleton_append,
      List.splitOn_append_cons_self,
      List.splitOn_intercalate '.' (fun s hs => (hsections.2 s hs).2.1) hsections.1]
    exact pathMatches_above hsections.1 (List.splitOn_ne_nil '.' rest)
  | service above name hname =>
    have hrest := hplain (not_suffix_service hname) rest rfl
    have hpieces : ∀ s ∈ above ++ [name ++ rest], '.' ∉ s := by
      intro s hs
      obtain hs | hs := List.mem_append.1 hs
      · exact (hname.2 s (List.mem_append_left _ hs)).2.1
      · rw [List.mem_singleton.1 hs, List.mem_append, not_or]
        exact ⟨(hname.2 name (List.mem_append_right above List.mem_cons_self)).2.1, hrest⟩
    rw [triePath_service hname, List.dropLast_concat, intercalate_append_last,
      List.splitOn_intercalate '.' hpieces
        (List.append_ne_nil_of_right_ne_nil above (List.cons_ne_nil _ _))]
    apply pathMatches_pattern
    rw [List.dropLast_concat]
    exact ⟨List.suffix_append _ _, List.prefix_append _ _⟩

end Wildcards

end RolePrefixTrie

end Athenz.Zts
