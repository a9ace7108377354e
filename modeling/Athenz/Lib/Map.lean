import Mathlib.Data.List.AList

namespace Lib
set_option autoImplicit true

/-- Finite maps; a key has at most one value. -/
abbrev Map (κ ν : Type) := AList fun _ : κ => ν

namespace Map

variable {κ ν : Type} [DecidableEq κ]

theorem lookup_insert (m : Map κ ν) (k j : κ) (v : ν) :
    (m.insert k v).lookup j = if j = k then some v else m.lookup j := by
  by_cases h : j = k
  · subst h
    rw [AList.lookup_insert, if_pos rfl]
  · rw [AList.lookup_insert_ne h, if_neg h]

theorem lookup_erase (m : Map κ ν) (k j : κ) :
    (m.erase k).lookup j = if j = k then none else m.lookup j := by
  by_cases h : j = k
  · subst h
    rw [AList.lookup_erase, if_pos rfl]
  · rw [AList.lookup_erase_ne h, if_neg h]

/-- The list kept under a key, empty when there is none. -/
def listAt (m : Map κ (List ν)) (k : κ) : List ν := (m.lookup k).getD []

/-- Add an element to the set kept under a key. -/
def addTo [DecidableEq ν] (m : Map κ (List ν)) (k : κ) (v : ν) : Map κ (List ν) :=
  m.insert k ((m.listAt k).insert v)

/-- Append an element to the list kept under a key. -/
def appendTo (m : Map κ (List ν)) (k : κ) (v : ν) : Map κ (List ν) :=
  m.insert k (m.listAt k ++ [v])

@[simp] theorem listAt_empty (k : κ) : listAt (∅ : Map κ (List ν)) k = [] := rfl

theorem listAt_of_lookup {m : Map κ (List ν)} (h : m.lookup k = some l) : m.listAt k = l := by
  rw [listAt, h, Option.getD_some]

theorem listAt_of_lookup_none {m : Map κ (List ν)} (h : m.lookup k = none) : m.listAt k = [] := by
  rw [listAt, h, Option.getD_none]

theorem mem_listAt_iff {m : Map κ (List ν)} :
    v ∈ m.listAt k ↔ ∃ l, m.lookup k = some l ∧ v ∈ l := by
  unfold listAt
  cases m.lookup k with
  | none => simp only [Option.getD_none, List.not_mem_nil, reduceCtorEq, false_and, exists_false]
  | some l => simp only [Option.getD_some, Option.some.injEq, exists_eq_left']

theorem listAt_insert (m : Map κ (List ν)) (k j : κ) (l : List ν) :
    listAt (m.insert k l) j = if j = k then l else m.listAt j := by
  unfold listAt
  rw [lookup_insert]
  split <;> rfl

theorem listAt_erase (m : Map κ (List ν)) (k j : κ) :
    listAt (m.erase k) j = if j = k then [] else m.listAt j := by
  unfold listAt
  rw [lookup_erase]
  split <;> rfl

theorem mem_listAt_addTo [DecidableEq ν] {m : Map κ (List ν)} :
    w ∈ (m.addTo k v).listAt j ↔ j = k ∧ w = v ∨ w ∈ m.listAt j := by
  rw [addTo, listAt_insert]
  split
  · rename_i h
    subst h
    simp only [List.mem_insert_iff, true_and]
  · rename_i h
    simp only [h, false_and, false_or]

theorem mem_listAt_appendTo {m : Map κ (List ν)} :
    w ∈ (m.appendTo k v).listAt j ↔ w ∈ m.listAt j ∨ j = k ∧ w = v := by
  rw [appendTo, listAt_insert]
  by_cases hj : j = k
  · rw [if_pos hj, hj, List.mem_append, List.mem_singleton]
    simp only [true_and]
  · simp only [hj, if_false, false_and, or_false]

/-- Items gathered under a key of their own, in their order. -/
theorem listAt_foldl_appendTo {key : α → κ} {value : α → ν} (items : List α)
    (m : Map κ (List ν)) (k : κ) :
    (items.foldl (fun m a => m.appendTo (key a) (value a)) m).listAt k =
      m.listAt k ++ (items.filter fun a => key a = k).map value := by
  induction items generalizing m with
  | nil => exact (List.append_nil _).symm
  | cons a items ih =>
    rw [List.foldl_cons, ih, appendTo, listAt_insert, List.filter_cons]
    by_cases hk : key a = k
    · rw [if_pos hk.symm, if_pos (decide_eq_true hk), List.map_cons, hk, List.append_assoc,
        List.singleton_append]
    · rw [if_neg (Ne.symm hk), if_neg (by rw [decide_eq_true_eq]; exact hk)]

theorem isSome_lookup_foldl_appendTo {key : α → κ} {value : α → ν} {items : List α}
    {m : Map κ (List ν)} :
    ((items.foldl (fun m a => m.appendTo (key a) (value a)) m).lookup k).isSome ↔
      k ∈ items.map key ∨ (m.lookup k).isSome := by
  induction items generalizing m with
  | nil => simp only [List.foldl_nil, List.map_nil, List.not_mem_nil, false_or]
  | cons a items ih =>
    rw [List.foldl_cons, ih, appendTo, lookup_insert, List.map_cons, List.mem_cons]
    by_cases hk : k = key a
    · simp only [hk, if_true, Option.isSome_some, or_true, true_or]
    · simp only [hk, if_false, false_or]

theorem nodup_listAt_addTo [DecidableEq ν] {m : Map κ (List ν)} (h : ∀ j, (m.listAt j).Nodup)
    (k : κ) (v : ν) (j : κ) : ((m.addTo k v).listAt j).Nodup := by
  rw [addTo, listAt_insert]
  split
  · exact (h k).insert
  · exact h j

/-- Items indexed by a key of their own; with distinct keys every one of them is found. -/
theorem lookup_foldl_insert {key : α → κ} {value : α → ν} {items : List α} {m : Map κ ν}
    (hnodup : (items.map key).Nodup) :
    (items.foldl (fun m a => m.insert (key a) (value a)) m).lookup k = some w ↔
      (∃ a ∈ items, key a = k ∧ value a = w) ∨ k ∉ items.map key ∧ m.lookup k = some w := by
  induction items generalizing m with
  | nil => simp only [List.foldl_nil, List.not_mem_nil, false_and, exists_false, List.map_nil,
      not_false_eq_true, true_and, false_or]
  | cons a items ih =>
    rw [List.map_cons, List.nodup_cons] at hnodup
    rw [List.foldl_cons, ih hnodup.2, lookup_insert, List.map_cons, List.exists_mem_cons_iff]
    by_cases hk : k = key a
    · subst hk
      have hnot : ¬ ∃ b ∈ items, key b = key a ∧ value b = w := fun ⟨b, hb, he, _⟩ =>
        hnodup.1 (he ▸ List.mem_map_of_mem hb)
      simp only [hnot, hnodup.1, if_true, Option.some.injEq, List.mem_cons,
        not_true_eq_false, not_false_eq_true, false_and, true_and, or_false, false_or]
    · have hne : ¬ (key a = k ∧ value a = w) := fun h => hk h.1.symm
      simp only [hne, hk, if_false, List.mem_cons, false_or]

theorem lookup_foldl_erase (keys : List κ) (m : Map κ ν) (k : κ) :
    (keys.foldl (fun m key => m.erase key) m).lookup k = if k ∈ keys then none else m.lookup k := by
  induction keys generalizing m with
  | nil => rfl
  | cons key keys ih =>
    rw [List.foldl_cons, ih, lookup_erase]
    by_cases hk : k ∈ keys
    · rw [if_pos hk, if_pos (List.mem_cons_of_mem _ hk)]
    · simp only [hk, if_false, List.mem_cons, or_false]

/-- Put an entry, when it has a value. -/
def putPresent (m : Map κ ν) (entry : κ × Option ν) : Map κ ν :=
  match entry.2 with
  | none => m
  | some v => m.insert entry.1 v

/-- The map of the entries that have a value. -/
def ofEntries (entries : List (κ × Option ν)) : Map κ ν := entries.foldl putPresent ∅

theorem lookup_putPresent {m : Map κ ν} {entry : κ × Option ν} :
    (m.putPresent entry).lookup k = if k = entry.1 then entry.2.or (m.lookup k) else m.lookup k := by
  unfold putPresent
  cases entry.2 with
  | none => simp only [Option.none_or, ite_self]
  | some v => rw [lookup_insert, Option.some_or]

theorem lookup_foldl_putPresent {entries : List (κ × Option ν)} {m : Map κ ν}
    (h : k ∉ entries.map Prod.fst) : (entries.foldl putPresent m).lookup k = m.lookup k := by
  induction entries generalizing m with
  | nil => rfl
  | cons entry entries ih =>
    rw [List.map_cons, List.mem_cons, not_or] at h
    rw [List.foldl_cons, ih h.2, lookup_putPresent, if_neg h.1]

/-- What is found was put there, or was there before. -/
theorem mem_of_lookup_foldl_putPresent {entries : List (κ × Option ν)} {m : Map κ ν}
    (h : (entries.foldl putPresent m).lookup k = some v) :
    (k, some v) ∈ entries ∨ m.lookup k = some v := by
  induction entries generalizing m with
  | nil => exact .inr h
  | cons entry entries ih =>
    obtain hmem | hbefore := ih h
    · exact .inl (.tail _ hmem)
    rw [lookup_putPresent] at hbefore
    split at hbefore
    · rename_i hk
      obtain hvalue | ⟨_, hm⟩ := Option.or_eq_some_iff.1 hbefore
      · rw [hk, ← hvalue]
        exact .inl List.mem_cons_self
      · exact .inr hm
    · exact .inr hbefore

theorem isSome_lookup_foldl_putPresent {entries : List (κ × Option ν)} {m : Map κ ν}
    (h : (k, some v) ∈ entries ∨ (m.lookup k).isSome) :
    ((entries.foldl putPresent m).lookup k).isSome := by
  induction entries generalizing m with
  | nil => exact h.resolve_left List.not_mem_nil
  | cons entry entries ih =>
    apply ih
    rw [lookup_putPresent]
    obtain hmem | hm := h
    · obtain rfl | hmem := List.mem_cons.1 hmem
      · rw [if_pos rfl]
        exact .inr rfl
      · exact .inl hmem
    · right
      split
      · rw [Option.isSome_or, hm, Bool.or_true]
      · exact hm

/-- When no key has two values, the entries are what is found. -/
theorem lookup_ofEntries_iff {entries : List (κ × Option ν)}
    (h : ∀ k v v', (k, some v) ∈ entries → (k, some v') ∈ entries → v = v') :
    (ofEntries entries).lookup k = some v ↔ (k, some v) ∈ entries := by
  constructor
  · intro hlookup
    exact (mem_of_lookup_foldl_putPresent hlookup).resolve_right nofun
  · intro hmem
    obtain ⟨v', hlookup⟩ := Option.isSome_iff_exists.1
      (isSome_lookup_foldl_putPresent (m := ∅) (.inl hmem))
    have hmem' := (mem_of_lookup_foldl_putPresent hlookup).resolve_right nofun
    rw [h k v v' hmem hmem']
    exact hlookup

/-- With distinct keys every entry is found again. -/
theorem lookup_ofEntries {entries : List (κ × Option ν)} (hnodup : (entries.map Prod.fst).Nodup)
    (hmem : (k, v) ∈ entries) : (ofEntries entries).lookup k = v := by
  obtain ⟨before, after, rfl⟩ := List.append_of_mem hmem
  rw [List.map_append, List.map_cons, List.nodup_append] at hnodup
  obtain ⟨_, hafter, hdisjoint⟩ := hnodup
  have hbefore : k ∉ before.map Prod.fst := by
    intro hk
    exact hdisjoint k hk k List.mem_cons_self rfl
  rw [ofEntries, List.foldl_append, List.foldl_cons,
    lookup_foldl_putPresent (List.nodup_cons.1 hafter).1, lookup_putPresent, if_pos rfl,
    lookup_foldl_putPresent hbefore, AList.lookup_empty, Option.or_none]

theorem mem_entries_iff {m : Map κ ν} : ⟨k, v⟩ ∈ m.entries ↔ m.lookup k = some v :=
  AList.mem_lookup_iff.symm

/-- A loop over the entries of a map in which every entry changes the value at its key alone. -/
theorem lookup_foldl_entries {μ : Type} {f : Map κ μ → (Sigma fun _ : κ => ν) → Map κ μ}
    {c : ν → Option μ → Option μ}
    (hstep : ∀ m entry k, (f m entry).lookup k =
      if k = entry.1 then c entry.2 (m.lookup k) else m.lookup k)
    (source : Map κ ν) (m : Map κ μ) (k : κ) :
    (source.entries.foldl f m).lookup k =
      ((source.lookup k).map fun v => c v (m.lookup k)).getD (m.lookup k) := by
  have hloop : ∀ (entries : List (Sigma fun _ : κ => ν)) (m : Map κ μ), entries.NodupKeys →
      (entries.foldl f m).lookup k =
        ((entries.dlookup k).map fun v => c v (m.lookup k)).getD (m.lookup k) := by
    intro entries
    induction entries with
    | nil => exact fun m _ => rfl
    | cons entry entries ih =>
      intro m hnodup
      rw [List.nodupKeys_cons] at hnodup
      rw [List.foldl_cons, ih _ hnodup.2, hstep]
      obtain ⟨key, v⟩ := entry
      by_cases hk : k = key
      · subst hk
        rw [List.dlookup_eq_none.2 hnodup.1, List.dlookup_cons_eq, if_pos rfl]
        rfl
      · rw [List.dlookup_cons_ne _ _ hk, if_neg hk]
  exact hloop source.entries m source.nodupKeys

/-- The map without the values that have a property. -/
def removeIf (m : Map κ ν) (p : ν → Bool) : Map κ ν where
  entries := m.entries.filter fun entry => !p entry.2
  nodupKeys := m.nodupKeys.sublist List.filter_sublist

theorem lookup_removeIf {m : Map κ ν} {p : ν → Bool} :
    (m.removeIf p).lookup k = some v ↔ m.lookup k = some v ∧ p v = false := by
  rw [← mem_entries_iff, ← mem_entries_iff, removeIf, List.mem_filter, Bool.not_eq_true']

/-- The entries that have a property. -/
def filter (m : Map κ ν) (p : κ → ν → Bool) : Map κ ν where
  entries := m.entries.filter fun entry => p entry.1 entry.2
  nodupKeys := m.nodupKeys.sublist List.filter_sublist

theorem lookup_filter {m : Map κ ν} {p : κ → ν → Bool} :
    (m.filter p).lookup k = some v ↔ m.lookup k = some v ∧ p k v = true := by
  rw [← mem_entries_iff, ← mem_entries_iff, filter, List.mem_filter]

/-- The same keys, with a function applied to their values. -/
def mapValues (f : ν → μ) (m : Map κ ν) : Map κ μ where
  entries := m.entries.map fun e => ⟨e.1, f e.2⟩
  nodupKeys := by
    rw [List.NodupKeys, List.keys, List.map_map]
    exact m.nodupKeys

@[simp] theorem lookup_mapValues {m : Map κ ν} {f : ν → μ} :
    (mapValues f m).lookup k = (m.lookup k).map f := by
  apply Option.ext
  intro v
  rw [← mem_entries_iff, mapValues, List.mem_map, Option.map_eq_some_iff]
  constructor
  · rintro ⟨⟨k', v'⟩, hmem, heq⟩
    cases heq
    exact ⟨v', mem_entries_iff.1 hmem, rfl⟩
  · rintro ⟨v', hlookup, rfl⟩
    exact ⟨⟨k, v'⟩, mem_entries_iff.2 hlookup, rfl⟩

end Map

end Lib
