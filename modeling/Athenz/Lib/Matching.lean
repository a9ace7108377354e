import Mathlib.Data.List.Basic

namespace Lib
set_option autoImplicit true

variable {answers : β → α → Bool}

/-- The requests that no item answers, where an item answers one request at most, and the items
that are left over. -/
def unmatched (answers : β → α → Bool) : List β → List α → List β × List α
  | [], items => ([], items)
  | b :: requests, items =>
    let rest := unmatched answers requests (items.eraseP (answers b))
    (if items.any (answers b) then rest.1 else b :: rest.1, rest.2)

/-- No two items answer the same request. -/
def Apart (answers : β → α → Bool) (items : List α) : Prop :=
  items.Pairwise fun a a' => ∀ b, answers b a = true → answers b a' = false

theorem Apart.sublist (h : Apart answers items) (hsub : items'.Sublist items) :
    Apart answers items' :=
  List.Pairwise.sublist hsub h

theorem Apart.mem_eraseP (h : Apart answers items) (b : β) :
    a ∈ items.eraseP (answers b) ↔ a ∈ items ∧ answers b a = false := by
  induction items with
  | nil => exact ⟨fun ha => (nomatch ha), fun ha => (nomatch ha.1)⟩
  | cons item items ih =>
    obtain ⟨hitem, hitems⟩ := List.pairwise_cons.1 h
    by_cases hb : answers b item = true
    · rw [List.eraseP_cons_of_pos hb]
      refine ⟨fun ha => ⟨List.mem_cons_of_mem item ha, hitem a ha b hb⟩, ?_⟩
      rintro ⟨ha, hfalse⟩
      obtain rfl | ha := List.mem_cons.1 ha
      · rw [hb] at hfalse
        cases hfalse
      · exact ha
    · rw [List.eraseP_cons_of_neg hb, List.mem_cons, List.mem_cons, ih hitems]
      constructor
      · rintro (rfl | ⟨ha, hfalse⟩)
        · exact ⟨.inl rfl, Bool.eq_false_iff.2 hb⟩
        · exact ⟨.inr ha, hfalse⟩
      · rintro ⟨rfl | ha, hfalse⟩
        · exact .inl rfl
        · exact .inr ⟨ha, hfalse⟩

theorem mem_leftOver (h : Apart answers items) :
    a ∈ (unmatched answers requests items).2 ↔
      a ∈ items ∧ ∀ b ∈ requests, answers b a = false := by
  induction requests generalizing items with
  | nil => exact ⟨fun ha => ⟨ha, fun _ hb => (nomatch hb)⟩, And.left⟩
  | cons b requests ih =>
    rw [unmatched]
    dsimp only
    rw [ih (h.sublist List.eraseP_sublist), h.mem_eraseP, List.forall_mem_cons, and_assoc]

theorem mem_of_mem_unmatched (h : b ∈ (unmatched answers requests items).1) : b ∈ requests := by
  induction requests generalizing items with
  | nil => exact h
  | cons other requests ih =>
    rw [unmatched] at h
    dsimp only at h
    split at h
    · exact List.mem_cons_of_mem other (ih h)
    · obtain rfl | h := List.mem_cons.1 h
      · exact List.mem_cons_self
      · exact List.mem_cons_of_mem other (ih h)

/-- A request is answered, or it is among those that are not. -/
theorem mem_unmatched_or (answers : β → α → Bool) (items : List α) (h : b ∈ requests) :
    b ∈ (unmatched answers requests items).1 ∨ ∃ a ∈ items, answers b a = true := by
  induction requests generalizing items with
  | nil => cases h
  | cons other requests ih =>
    rw [unmatched]
    dsimp only
    obtain rfl | h := List.mem_cons.1 h
    · split
      · rename_i hany
        exact .inr (List.any_eq_true.1 hany)
      · exact .inl List.mem_cons_self
    · obtain hmem | ⟨a, ha, hb⟩ := ih (items.eraseP (answers other)) h
      · left
        split
        · exact hmem
        · exact List.mem_cons_of_mem other hmem
      · exact .inr ⟨a, List.mem_of_mem_eraseP ha, hb⟩

end Lib
