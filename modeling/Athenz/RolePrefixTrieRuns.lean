import Athenz.Lib.TrieNodes
import Athenz.RolePrefixTrie

namespace Athenz.Zts
open Lib Lib.Text
set_option autoImplicit true

namespace RolePrefixTrie

inductive Call where
  | insert (pattern value : Str)
  | delete (pattern value : Str)

def insert (t : Trie Str Str) (pattern value : Str) : Trie Str Str :=
  t.insert (triePath pattern) value

def delete (t : Trie Str Str) (pattern value : Str) : Trie Str Str :=
  (t.delete (triePath pattern) value).1

def apply (t : Trie Str Str) : Call → Trie Str Str
  | .insert pattern value => insert t pattern value
  | .delete pattern value => delete t pattern value

def run (calls : List Call) : Trie Str Str := calls.foldl apply .empty

/-- The value was inserted at the path, and has not been deleted there since. -/
def Stored (calls : List Call) (path : List Str) (value : Str) : Prop :=
  ∃ before pattern after, calls = before ++ .insert pattern value :: after ∧
    triePath pattern = path ∧ ∀ other, triePath other = path → .delete other value ∉ after

/-- The path leads to a section above the last one, or to a pattern for the last one. -/
def Reaches (path sections : List Str) : Prop :=
  (path ≠ [] ∧ ∃ rest, rest ≠ [] ∧ sections = path ++ rest) ∨
    ∃ above pattern service, path = above ++ [pattern] ∧ sections = above ++ [service] ∧
      ['*'] <:+ pattern ∧ pattern.dropLast <+: service

def Call.change : Call → Trie.Change Str Str
  | .insert pattern value => .insert (triePath pattern) value
  | .delete pattern value => .delete (triePath pattern) value

theorem run_eq (calls : List Call) : run calls = Trie.run (calls.map Call.change) := by
  have happly : apply = fun t call => t.apply call.change := by
    funext t call
    cases call with
    | insert pattern value => rfl
    | delete pattern value => rfl
  rw [run, Trie.run, List.foldl_map, happly]

theorem change_eq_insert {call : Call} : call.change = .insert path value ↔
    ∃ pattern, call = .insert pattern value ∧ triePath pattern = path := by
  cases call with
  | insert pattern v =>
    simp only [Call.change, Trie.Change.insert.injEq, Call.insert.injEq]
    constructor
    · rintro ⟨hpath, hvalue⟩
      exact ⟨pattern, ⟨rfl, hvalue⟩, hpath⟩
    · rintro ⟨_, ⟨rfl, hvalue⟩, hpath⟩
      exact ⟨hpath, hvalue⟩
  | delete pattern v => simp only [Call.change, reduceCtorEq, false_and, exists_false]

theorem change_eq_delete {call : Call} : call.change = .delete path value ↔
    ∃ pattern, call = .delete pattern value ∧ triePath pattern = path := by
  cases call with
  | insert pattern v => simp only [Call.change, reduceCtorEq, false_and, exists_false]
  | delete pattern v =>
    simp only [Call.change, Trie.Change.delete.injEq, Call.delete.injEq]
    constructor
    · rintro ⟨hpath, hvalue⟩
      exact ⟨pattern, ⟨rfl, hvalue⟩, hpath⟩
    · rintro ⟨_, ⟨rfl, hvalue⟩, hpath⟩
      exact ⟨hpath, hvalue⟩

theorem stands_iff {calls : List Call} :
    Trie.Stands (calls.map Call.change) path value ↔ Stored calls path value := by
  constructor
  · rintro ⟨before, after, hchanges, hafter⟩
    obtain ⟨front, back, rfl, rfl, hback⟩ := List.map_eq_append_iff.1 hchanges
    obtain ⟨call, rest, rfl, hcall, rfl⟩ := List.map_eq_cons_iff.1 hback
    obtain ⟨pattern, rfl, hpath⟩ := change_eq_insert.1 hcall
    refine ⟨front, pattern, rest, rfl, hpath, ?_⟩
    intro other hother hmem
    exact hafter (List.mem_map.2 ⟨_, hmem, change_eq_delete.2 ⟨other, rfl, hother⟩⟩)
  · rintro ⟨before, pattern, after, rfl, rfl, hafter⟩
    refine ⟨before.map Call.change, after.map Call.change, List.map_append, ?_⟩
    intro hmem
    obtain ⟨call, hcall, hchange⟩ := List.mem_map.1 hmem
    obtain ⟨other, rfl, hother⟩ := change_eq_delete.1 hchange
    exact hafter other hother hcall

theorem mem_valuesAt_run {calls : List Call} :
    value ∈ (run calls).valuesAt path ↔ Stored calls path value := by
  rw [run_eq, Trie.mem_valuesAt_run, stands_iff]

theorem pruned_run (calls : List Call) : (run calls).Pruned :=
  run_eq calls ▸ Trie.pruned_run (calls.map Call.change)

theorem ne_nil_of_pathMatches {path sections : List Str} (h : pathMatches path sections) :
    path ≠ [] := by
  cases sections with
  | nil => exact absurd h id
  | cons first sections =>
    cases sections with
    | nil =>
      obtain ⟨pattern, rfl, _⟩ := h
      exact List.cons_ne_nil pattern []
    | cons second sections =>
      obtain ⟨rest, rfl, _⟩ := h
      exact List.cons_ne_nil first rest

theorem pathMatches_iff {path sections : List Str} :
    pathMatches path sections ↔ Reaches path sections := by
  constructor
  · intro h
    obtain habove | hlast := pathMatches_cases h
    · exact .inl ⟨ne_nil_of_pathMatches h, habove⟩
    · exact .inr hlast
  · rintro (⟨hpath, rest, hrest, rfl⟩ | ⟨above, pattern, service, rfl, rfl, hpattern⟩)
    · exact pathMatches_above hpath hrest
    · exact pathMatches_pattern above hpattern

end RolePrefixTrie

open RolePrefixTrie in
/-- After any calls the trie keeps exactly the pairs that are stored, its nodes are the ways to
them, calls that store the same pairs leave the same trie, and a principal finds the values on the
way to its last section and those of the patterns for it. -/
theorem rolePrefixTrie_exact (calls : List Call) :
    (∀ path value, value ∈ (run calls).valuesAt path ↔ Stored calls path value) ∧
    (∀ path, ((run calls).nodeAt path).isSome ↔
      path = [] ∨ ∃ below value, Stored calls (path ++ below) value) ∧
    (∀ others, (∀ path value, Stored calls path value ↔ Stored others path value) →
      (run calls).Same (run others)) ∧
    ∀ text value, value ∈ findMatchingValues (run calls) text ↔
      ∃ path, Stored calls path value ∧ Reaches path (splitTrim '.' text) := by
  refine ⟨fun _ _ => mem_valuesAt_run, ?_, ?_, ?_⟩
  · intro path
    rw [(pruned_run calls).isSome_nodeAt]
    simp only [mem_valuesAt_run]
  · intro others hsame
    apply (pruned_run calls).same (pruned_run others)
    intro path value
    rw [mem_valuesAt_run, mem_valuesAt_run]
    exact hsame path value
  · intro text value
    rw [findMatchingValues, mem_findMatchingSections]
    simp only [mem_valuesAt_run, pathMatches_iff]

example : findMatchingValues (RolePrefixTrie.run [.insert "sports.*" "readers",
    .insert "sports.api*" "writers", .delete "sports.*" "readers"]) "sports.api2" =
    ["writers".toList] := by decide

end Athenz.Zts
