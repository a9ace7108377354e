import Athenz.Lib.Trie
import Mathlib.Data.List.Induction

namespace Lib
set_option autoImplicit true

namespace Trie

section Nodes

variable {κ ν : Type} [DecidableEq κ]

def nodeAt : List κ → Trie κ ν → Option (Trie κ ν)
  | [], t => some t
  | k :: path, t => (t.child k).bind (nodeAt path)

/-- The same nodes with the same values, in whatever order they are kept. -/
def Same (t u : Trie κ ν) : Prop :=
  ∀ path, ((t.nodeAt path).isSome ↔ (u.nodeAt path).isSome) ∧
    ∀ v, v ∈ t.valuesAt path ↔ v ∈ u.valuesAt path

/-- No node below the root holds nothing. -/
def Pruned (t : Trie κ ν) : Prop :=
  ∀ path node, path ≠ [] → t.nodeAt path = some node → node.isEmpty = false

theorem pruned_empty : Pruned (empty : Trie κ ν) := by
  intro path node hpath hnode
  cases path with
  | nil => exact absurd rfl hpath
  | cons k path => cases hnode

/-- A trie is pruned when each child holds something and is pruned itself. -/
theorem pruned_iff {t : Trie κ ν} :
    t.Pruned ↔ ∀ k c, t.child k = some c → c.isEmpty = false ∧ c.Pruned := by
  constructor
  · intro h k c hchild
    constructor
    · apply h [k] c (List.cons_ne_nil k [])
      rw [nodeAt, hchild]
      rfl
    · intro path node _ hnode
      apply h (k :: path) node (List.cons_ne_nil k path)
      rw [nodeAt, hchild]
      exact hnode
  · intro h path node hpath hnode
    cases path with
    | nil => exact absurd rfl hpath
    | cons k path =>
      obtain ⟨c, hchild, hnode⟩ := Option.bind_eq_some_iff.1 hnode
      obtain ⟨hempty, hpruned⟩ := h k c hchild
      cases path with
      | nil =>
        cases hnode
        exact hempty
      | cons j path => exact hpruned (j :: path) node (List.cons_ne_nil j path) hnode

theorem valuesAt_append (path below : List κ) (t : Trie κ ν) :
    t.valuesAt (path ++ below) = ((t.nodeAt path).map (valuesAt below)).getD [] := by
  induction path generalizing t with
  | nil => rfl
  | cons k path ih =>
    rw [List.cons_append, valuesAt, nodeAt]
    cases t.child k with
    | none => rfl
    | some c => exact ih c

theorem isSome_nodeAt_of_mem {t : Trie κ ν} (h : v ∈ t.valuesAt (path ++ below)) :
    (t.nodeAt path).isSome := by
  rw [valuesAt_append] at h
  cases hnode : t.nodeAt path with
  | none =>
    rw [hnode] at h
    exact absurd h List.not_mem_nil
  | some node => rfl

theorem Pruned.nodeAt {t node : Trie κ ν} (h : t.Pruned) (hnode : t.nodeAt path = some node) : node.Pruned := by
  induction path generalizing t with
  | nil =>
    cases hnode
    exact h
  | cons k path ih =>
    obtain ⟨c, hchild, hnode⟩ := Option.bind_eq_some_iff.1 hnode
    exact ih (pruned_iff.1 h k c hchild).2 hnode

omit [DecidableEq κ] in
theorem sizeOf_lt_of_mem {t : Trie κ ν} (h : (k, c) ∈ t.children) : sizeOf c < sizeOf t := by
  cases t with
  | node children values =>
    have hentry : sizeOf (k, c) < sizeOf children := List.sizeOf_lt_of_mem h
    rw [Prod.mk.sizeOf_spec] at hentry
    rw [node.sizeOf_spec]
    omega

/-- A pruned trie that holds something holds a value. -/
theorem Pruned.exists_value {t : Trie κ ν} (h : t.Pruned) (hempty : t.isEmpty = false) :
    ∃ path v, v ∈ t.valuesAt path := by
  induction hsize : sizeOf t using Nat.strongRecOn generalizing t with
  | _ size ih =>
  cases t with
  | node children values =>
    cases values with
    | cons v values => exact ⟨[], v, List.mem_cons_self⟩
    | nil =>
      cases children with
      | nil => cases hempty
      | cons entry children =>
        obtain ⟨k, c⟩ := entry
        have hchild : (node ((k, c) :: children) ([] : List ν)).child k = some c :=
          List.lookup_cons_self
        obtain ⟨hchildEmpty, hchildPruned⟩ := pruned_iff.1 h k c hchild
        have hless : sizeOf c < size := hsize ▸ sizeOf_lt_of_mem List.mem_cons_self
        obtain ⟨path, v, hv⟩ := ih (sizeOf c) hless hchildPruned hchildEmpty rfl
        refine ⟨k :: path, v, ?_⟩
        rw [valuesAt, hchild]
        exact hv

/-- The nodes of a pruned trie are the ways to its values. -/
theorem Pruned.isSome_nodeAt {t : Trie κ ν} (h : t.Pruned) (path : List κ) :
    (t.nodeAt path).isSome ↔ path = [] ∨ ∃ below v, v ∈ t.valuesAt (path ++ below) := by
  constructor
  · intro hsome
    obtain ⟨node, hnode⟩ := Option.isSome_iff_exists.1 hsome
    by_cases hpath : path = []
    · exact .inl hpath
    · obtain ⟨below, v, hv⟩ := (h.nodeAt hnode).exists_value (h path node hpath hnode)
      refine .inr ⟨below, v, ?_⟩
      rw [valuesAt_append, hnode]
      exact hv
  · rintro (rfl | ⟨below, v, hv⟩)
    · rfl
    · exact isSome_nodeAt_of_mem hv

/-- Pruned tries with the same values have the same nodes. -/
theorem Pruned.same {t u : Trie κ ν} (ht : t.Pruned) (hu : u.Pruned)
    (h : ∀ path v, v ∈ t.valuesAt path ↔ v ∈ u.valuesAt path) : t.Same u := by
  intro path
  refine ⟨?_, h path⟩
  rw [ht.isSome_nodeAt, hu.isSome_nodeAt]
  simp only [h]

end Nodes

section Changes

variable {κ ν : Type} [DecidableEq κ] [DecidableEq ν]

theorem isEmpty_insert (path : List κ) (v : ν) (t : Trie κ ν) :
    (insert path v t).isEmpty = false := by
  cases path with
  | nil =>
    have hvalues : t.values.insert v ≠ [] := List.ne_nil_of_mem List.mem_insert_self
    rw [insert, isEmpty, values, List.isEmpty_eq_false_iff.2 hvalues, Bool.false_and]
  | cons k path => exact Bool.and_false _

theorem Pruned.insert {t : Trie κ ν} (h : t.Pruned) (path : List κ) (v : ν) :
    (insert path v t).Pruned := by
  induction path generalizing t with
  | nil => exact pruned_iff.2 fun k c hchild => pruned_iff.1 h k c hchild
  | cons k path ih =>
    rw [pruned_iff]
    intro j c hchild
    rw [Trie.insert, child_setChild] at hchild
    split at hchild
    · cases hchild
      refine ⟨isEmpty_insert path v _, ih ?_⟩
      cases hold : t.child k with
      | none => exact pruned_empty
      | some old => exact (pruned_iff.1 h k old hold).2
    · exact pruned_iff.1 h j c hchild

/-- A removal that leaves a node empty says so, unless it was empty before. -/
theorem isEmpty_delete (path : List κ) (v : ν) (t : Trie κ ν) (h : t.isEmpty = false)
    (hkept : (delete path v t).2 = false) : (delete path v t).1.isEmpty = false := by
  cases path with
  | nil => exact hkept
  | cons k path =>
    rw [delete] at hkept ⊢
    cases hchild : t.child k with
    | none => exact h
    | some c =>
      cases hdelete : delete path v c with
      | mk rest gone =>
        simp only [hchild, hdelete] at hkept ⊢
        cases gone with
        | true => exact hkept
        | false => exact Bool.and_false _

theorem Pruned.delete {t : Trie κ ν} (h : t.Pruned) (path : List κ) (v : ν) :
    (delete path v t).1.Pruned := by
  induction path generalizing t with
  | nil => exact pruned_iff.2 fun k c hchild => pruned_iff.1 h k c hchild
  | cons k path ih =>
    rw [Trie.delete]
    cases hold : t.child k with
    | none => exact h
    | some old =>
      obtain ⟨holdEmpty, holdPruned⟩ := pruned_iff.1 h k old hold
      have hkept := isEmpty_delete path v old holdEmpty
      have hpruned := ih holdPruned
      cases hdelete : Trie.delete path v old with
      | mk rest gone =>
        rw [hdelete] at hkept hpruned
        cases gone with
        | true =>
          rw [pruned_iff]
          intro j c hchild
          simp only [hdelete, child_removeChild] at hchild
          split at hchild
          · cases hchild
          · exact pruned_iff.1 h j c hchild
        | false =>
          rw [pruned_iff]
          intro j c hchild
          simp only [hdelete, child_setChild] at hchild
          split at hchild
          · cases hchild
            exact ⟨hkept rfl, hpruned⟩
          · exact pruned_iff.1 h j c hchild

inductive Change (κ ν : Type) where
  | insert (path : List κ) (v : ν)
  | delete (path : List κ) (v : ν)

def apply (t : Trie κ ν) : Change κ ν → Trie κ ν
  | .insert path v => t.insert path v
  | .delete path v => (t.delete path v).1

def run (changes : List (Change κ ν)) : Trie κ ν := changes.foldl apply empty

/-- The value was inserted at the path, and not deleted there since. -/
def Stands (changes : List (Change κ ν)) (path : List κ) (v : ν) : Prop :=
  ∃ before after, changes = before ++ .insert path v :: after ∧ .delete path v ∉ after

theorem pruned_foldl (changes : List (Change κ ν)) {t : Trie κ ν} (h : t.Pruned) :
    (changes.foldl apply t).Pruned := by
  induction changes generalizing t with
  | nil => exact h
  | cons change changes ih =>
    apply ih
    cases change with
    | insert path v => exact h.insert path v
    | delete path v => exact h.delete path v

theorem pruned_run (changes : List (Change κ ν)) : (run changes).Pruned :=
  pruned_foldl changes pruned_empty

theorem mem_valuesAt_apply {t : Trie κ ν} {change : Change κ ν} :
    v ∈ (t.apply change).valuesAt path ↔
      change = .insert path v ∨ change ≠ .delete path v ∧ v ∈ t.valuesAt path := by
  cases change with
  | insert other w =>
    simp only [apply, valuesAt_insert, Change.insert.injEq, ne_eq, reduceCtorEq, not_false_iff,
      true_and]
    split
    · rename_i hpath
      rw [List.mem_insert_iff, eq_comm, eq_comm (a := other), and_iff_right hpath]
    · rename_i hpath
      rw [or_iff_right fun h => hpath h.1.symm]
  | delete other w =>
    simp only [apply, valuesAt_delete, ne_eq, Change.delete.injEq, reduceCtorEq, false_or]
    split
    · rename_i hpath
      rw [List.mem_filter, decide_eq_true_eq, and_comm, and_iff_right hpath.symm, eq_comm]
    · rename_i hpath
      rw [and_iff_right fun h => hpath h.1.symm]

omit [DecidableEq κ] [DecidableEq ν] in
theorem stands_nil : ¬ Stands ([] : List (Change κ ν)) path v := by
  rintro ⟨before, after, h, _⟩
  exact List.append_ne_nil_of_right_ne_nil before (List.cons_ne_nil _ after) h.symm

omit [DecidableEq κ] [DecidableEq ν] in
theorem stands_concat {changes : List (Change κ ν)} {change : Change κ ν} :
    Stands (changes ++ [change]) path v ↔
      change = .insert path v ∨ change ≠ .delete path v ∧ Stands changes path v := by
  constructor
  · rintro ⟨before, after, h, hafter⟩
    obtain rfl | ⟨rest, last, rfl⟩ := after.eq_nil_or_concat'
    · exact .inl (List.cons.inj (List.append_inj' h rfl).2).1
    · rw [← List.cons_append, ← List.append_assoc] at h
      obtain ⟨hchanges, hlast⟩ := List.append_inj' h rfl
      rw [(List.cons.inj hlast).1]
      refine .inr ⟨?_, before, rest, hchanges, fun hmem => hafter (List.mem_append_left _ hmem)⟩
      rintro rfl
      exact hafter (List.mem_append_right rest List.mem_cons_self)
  · rintro (rfl | ⟨hchange, before, after, rfl, hafter⟩)
    · exact ⟨changes, [], rfl, List.not_mem_nil⟩
    · refine ⟨before, after ++ [change], List.append_assoc _ _ _, ?_⟩
      rw [List.mem_append, List.mem_singleton, not_or]
      exact ⟨hafter, hchange.symm⟩

/-- After any changes exactly the values that stand are kept. -/
theorem mem_valuesAt_run {changes : List (Change κ ν)} :
    v ∈ (run changes).valuesAt path ↔ Stands changes path v := by
  induction changes using List.reverseRecOn with
  | nil =>
    rw [run, List.foldl_nil, valuesAt_empty]
    exact iff_of_false List.not_mem_nil stands_nil
  | append_singleton changes change ih =>
    rw [run, List.foldl_concat, mem_valuesAt_apply, stands_concat]
    exact or_congr_right (and_congr_right fun _ => ih)

end Changes

end Trie

end Lib
