import Mathlib.Data.List.Basic

namespace Lib.Rearrangement
set_option autoImplicit true

/-- The items of one list are those of another in some order, each up to a relation. -/
def Rearranged (r : α → β → Prop) (xs : List α) (ys : List β) : Prop :=
  ∃ zs, xs.Perm zs ∧ List.Forall₂ r zs ys

theorem forall₂_refl {r : α → α → Prop} (hr : ∀ a, r a a) (xs : List α) : List.Forall₂ r xs xs := by
  induction xs with
  | nil => exact .nil
  | cons a xs ih => exact .cons (hr a) ih

theorem Rearranged.of_perm {r : α → α → Prop} (hr : ∀ a, r a a) (h : xs.Perm ys) :
    Rearranged r xs ys :=
  ⟨ys, h, forall₂_refl hr ys⟩

theorem exists_of_forall₂ {r : α → β → Prop} (h : List.Forall₂ r xs ys) (hy : y ∈ ys) :
    ∃ x ∈ xs, r x y := by
  induction h with
  | nil => exact absurd hy List.not_mem_nil
  | cons hr _ ih =>
    rcases List.mem_cons.1 hy with rfl | hy
    · exact ⟨_, List.mem_cons_self, hr⟩
    · obtain ⟨x, hx, hxy⟩ := ih hy
      exact ⟨x, List.mem_cons_of_mem _ hx, hxy⟩

theorem exists_of_forall₂_left {r : α → β → Prop} (h : List.Forall₂ r xs ys) (hx : x ∈ xs) :
    ∃ y ∈ ys, r x y := by
  induction h with
  | nil => exact absurd hx List.not_mem_nil
  | cons hr _ ih =>
    rcases List.mem_cons.1 hx with rfl | hx
    · exact ⟨_, List.mem_cons_self, hr⟩
    · obtain ⟨y, hy, hxy⟩ := ih hx
      exact ⟨y, List.mem_cons_of_mem _ hy, hxy⟩

theorem Rearranged.exists_left {r : α → β → Prop} (h : Rearranged r xs ys) (hy : y ∈ ys) :
    ∃ x ∈ xs, r x y := by
  obtain ⟨zs, hperm, hall⟩ := h
  obtain ⟨x, hx, hxy⟩ := exists_of_forall₂ hall hy
  exact ⟨x, hperm.mem_iff.2 hx, hxy⟩

theorem Rearranged.exists_right {r : α → β → Prop} (h : Rearranged r xs ys) (hx : x ∈ xs) :
    ∃ y ∈ ys, r x y := by
  obtain ⟨zs, hperm, hall⟩ := h
  exact exists_of_forall₂_left hall (hperm.mem_iff.1 hx)

/-- What relates to alike items holds of one list when it holds of the other. -/
theorem Rearranged.exists_iff {r : α → β → Prop} {p : α → Prop} {q : β → Prop}
    (h : Rearranged r xs ys) (hpq : ∀ x y, r x y → (p x ↔ q y)) :
    (∃ x ∈ xs, p x) ↔ ∃ y ∈ ys, q y := by
  constructor
  · rintro ⟨x, hx, hp⟩
    obtain ⟨y, hy, hxy⟩ := h.exists_right hx
    exact ⟨y, hy, (hpq x y hxy).1 hp⟩
  · rintro ⟨y, hy, hq⟩
    obtain ⟨x, hx, hxy⟩ := h.exists_left hy
    exact ⟨x, hx, (hpq x y hxy).2 hq⟩

theorem Rearranged.forall_iff {r : α → β → Prop} {p : α → Prop} {q : β → Prop}
    (h : Rearranged r xs ys) (hpq : ∀ x y, r x y → (p x ↔ q y)) :
    (∀ x ∈ xs, p x) ↔ ∀ y ∈ ys, q y := by
  constructor
  · intro hall y hy
    obtain ⟨x, hx, hxy⟩ := h.exists_left hy
    exact (hpq x y hxy).1 (hall x hx)
  · intro hall x hx
    obtain ⟨y, hy, hxy⟩ := h.exists_right hx
    exact (hpq x y hxy).2 (hall y hy)

end Lib.Rearrangement
