import Mathlib.Data.List.Basic

namespace Lib
set_option autoImplicit true

/-- A tree of sections; each node keeps a set of values. -/
inductive Trie (κ ν : Type) where
  | node (children : List (κ × Trie κ ν)) (values : List ν)

namespace Trie

variable {κ ν : Type}

def empty : Trie κ ν := .node [] []

def children : Trie κ ν → List (κ × Trie κ ν)
  | .node cs _ => cs

def values : Trie κ ν → List ν
  | .node _ vs => vs

/-- A node that holds nothing may be removed. -/
def isEmpty (t : Trie κ ν) : Bool := t.values.isEmpty && t.children.isEmpty

variable [DecidableEq κ] [DecidableEq ν]

def child (t : Trie κ ν) (k : κ) : Option (Trie κ ν) := t.children.lookup k

def setChild (t : Trie κ ν) (k : κ) (c : Trie κ ν) : Trie κ ν :=
  .node ((k, c) :: t.children.filter (·.1 ≠ k)) t.values

def removeChild (t : Trie κ ν) (k : κ) : Trie κ ν :=
  .node (t.children.filter (·.1 ≠ k)) t.values

def insert : List κ → ν → Trie κ ν → Trie κ ν
  | [], v, t => .node t.children (t.values.insert v)
  | k :: ks, v, t => t.setChild k (insert ks v ((t.child k).getD empty))

/-- Remove a value at a path; the answer says whether this left the node itself empty, which
the node above then removes. -/
def delete : List κ → ν → Trie κ ν → Trie κ ν × Bool
  | [], v, t =>
    let t' : Trie κ ν := .node t.children (t.values.filter (· ≠ v))
    (t', t'.isEmpty)
  | k :: ks, v, t =>
    match t.child k with
    | none => (t, false)
    | some c =>
      match delete ks v c with
      | (_, true) => (t.removeChild k, (t.removeChild k).isEmpty)
      | (c', false) => (t.setChild k c', false)

def valuesAt : List κ → Trie κ ν → List ν
  | [], t => t.values
  | k :: ks, t => ((t.child k).map (valuesAt ks)).getD []

omit [DecidableEq ν] in
theorem lookup_filter_ne (children : List (κ × Trie κ ν)) (k j : κ) :
    (children.filter (·.1 ≠ k)).lookup j = if j = k then none else children.lookup j := by
  induction children with
  | nil => rw [List.filter_nil, List.lookup_nil, ite_self]
  | cons c children ih =>
    obtain ⟨i, c⟩ := c
    by_cases hi : i = k
    · rw [List.filter_cons_of_neg (by simpa using hi), ih, List.lookup_cons, hi]
      by_cases hj : j = k
      · rw [if_pos hj, if_pos hj]
      · rw [if_neg hj, if_neg hj, beq_false_of_ne hj]
    · rw [List.filter_cons_of_pos (by simpa using hi), List.lookup_cons, List.lookup_cons, ih]
      by_cases hj : j = i
      · simp only [hj, beq_self_eq_true, if_neg hi]
      · simp only [beq_false_of_ne hj]

omit [DecidableEq ν] in
theorem child_setChild (t : Trie κ ν) (k j : κ) (c : Trie κ ν) :
    (t.setChild k c).child j = if j = k then some c else t.child j := by
  unfold setChild child
  simp only [children, List.lookup_cons, lookup_filter_ne]
  by_cases hj : j = k
  · simp only [hj, beq_self_eq_true, if_true]
  · simp only [beq_false_of_ne hj, if_neg hj]

omit [DecidableEq ν] in
theorem child_removeChild (t : Trie κ ν) (k j : κ) :
    (t.removeChild k).child j = if j = k then none else t.child j :=
  lookup_filter_ne t.children k j

omit [DecidableEq ν] in
theorem valuesAt_empty (path : List κ) : valuesAt path (empty : Trie κ ν) = [] := by
  cases path with
  | nil => rfl
  | cons k ks => rfl

omit [DecidableEq ν] in
/-- A node that holds nothing has no values below it. -/
theorem valuesAt_of_isEmpty {t : Trie κ ν} (h : t.isEmpty = true) (path : List κ) :
    valuesAt path t = [] := by
  cases t with
  | node children values =>
    obtain ⟨hvalues, hchildren⟩ := Bool.and_eq_true_iff.1 h
    obtain rfl : values = [] := List.isEmpty_iff.1 hvalues
    obtain rfl : children = [] := List.isEmpty_iff.1 hchildren
    exact valuesAt_empty path

omit [DecidableEq ν] in
theorem valuesAt_cons (k : κ) (path : List κ) (t : Trie κ ν) :
    valuesAt (k :: path) t = valuesAt path ((t.child k).getD empty) := by
  rw [valuesAt]
  cases t.child k with
  | none => exact (valuesAt_empty path).symm
  | some c => rfl

omit [DecidableEq ν] in
/-- A value below a section is reached through a child for the section. -/
theorem mem_children_of_mem_valuesAt {t : Trie κ ν} (h : v ∈ valuesAt (k :: path) t) :
    k ∈ t.children.map (·.1) := by
  by_contra hnot
  have hchild : t.child k = none := by
    rw [child, List.lookup_eq_none_iff]
    intro entry hentry
    have hne : k ≠ entry.1 := by
      rintro rfl
      exact hnot (List.mem_map_of_mem hentry)
    exact bne_iff_ne.2 hne
  rw [valuesAt, hchild] at h
  exact absurd h List.not_mem_nil

theorem valuesAt_insert (path other : List κ) (v : ν) (t : Trie κ ν) :
    valuesAt other (insert path v t) =
      if other = path then (valuesAt other t).insert v else valuesAt other t := by
  induction path generalizing other t with
  | nil =>
    cases other with
    | nil => rfl
    | cons k ks => rw [if_neg (List.cons_ne_nil k ks)]; rfl
  | cons k path ih =>
    cases other with
    | nil => rw [if_neg (List.cons_ne_nil k path).symm]; rfl
    | cons j other =>
      rw [insert, valuesAt_cons, child_setChild, valuesAt_cons]
      by_cases hj : j = k
      · subst hj
        rw [if_pos rfl, Option.getD_some, ih]
        simp only [List.cons.injEq, true_and]
      · rw [if_neg hj, if_neg fun h => hj (List.cons.inj h).1]

/-- The answer of a removal is true only for a node that holds nothing any more. -/
theorem isEmpty_of_delete (path : List κ) (v : ν) (t : Trie κ ν)
    (h : (delete path v t).2 = true) : (delete path v t).1.isEmpty = true := by
  cases path with
  | nil => exact h
  | cons k path =>
    rw [delete] at h ⊢
    split at h
    · cases h
    · split at h
      · exact h
      · cases h

theorem valuesAt_delete (path other : List κ) (v : ν) (t : Trie κ ν) :
    valuesAt other (delete path v t).1 =
      if other = path then (valuesAt other t).filter (· ≠ v) else valuesAt other t := by
  induction path generalizing other t with
  | nil =>
    cases other with
    | nil => rfl
    | cons k ks => rw [if_neg (List.cons_ne_nil k ks)]; rfl
  | cons k path ih =>
    cases other with
    | nil =>
      rw [if_neg (List.cons_ne_nil k path).symm, delete]
      split
      · rfl
      · split <;> rfl
    | cons j other =>
      rw [delete]
      cases hk : t.child k with
      | none =>
        by_cases hj : j = k
        · rw [hj, valuesAt_cons, hk, Option.getD_none, valuesAt_empty, List.filter_nil, ite_self]
        · rw [if_neg fun h => hj (List.cons.inj h).1]
      | some c =>
        have hbelow := isEmpty_of_delete path v c
        have hvalues := fun other => ih other c
        cases hdelete : delete path v c with
        | mk c' gone =>
          rw [hdelete] at hbelow hvalues
          cases gone with
          | true =>
            have hnone := valuesAt_of_isEmpty (hbelow rfl)
            simp only [hdelete]
            rw [valuesAt_cons, child_removeChild, valuesAt_cons]
            by_cases hj : j = k
            · subst hj
              rw [if_pos rfl, hk, Option.getD_none, Option.getD_some, valuesAt_empty,
                ← hnone other, hvalues other]
              simp only [List.cons.injEq, true_and]
            · rw [if_neg hj, if_neg fun h => hj (List.cons.inj h).1]
          | false =>
            simp only [hdelete]
            rw [valuesAt_cons, child_setChild, valuesAt_cons]
            by_cases hj : j = k
            · subst hj
              rw [if_pos rfl, hk, Option.getD_some, Option.getD_some, hvalues other]
              simp only [List.cons.injEq, true_and]
            · rw [if_neg hj, if_neg fun h => hj (List.cons.inj h).1]

end Trie

end Lib
