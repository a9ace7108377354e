import Athenz.Lib.Transaction

namespace Lib
open Transaction
set_option autoImplicit true

/-- A part of a state that may be missing, and its replacement. -/
structure Focus (σ τ : Type) where
  get : σ → Option τ
  put : σ → τ → σ
  get_put : ∀ {s t}, get s = some t → ∀ t', get (put s t') = some t'
  put_put : ∀ s t t', put (put s t) t' = put s t'

namespace Focus

variable {σ τ ε : Type} (F : Focus σ τ)

/-- The part is what it is said to be, and nothing else has changed. -/
def Reaches (s : σ) (t : τ) (s' : σ) : Prop := s' = F.put s t ∨ s' = s ∧ F.get s = some t

variable {F}

theorem Reaches.rfl (h : F.get s = some t) : F.Reaches s t s := .inr ⟨Eq.refl s, h⟩

theorem Reaches.put : F.Reaches s t (F.put s t) := .inl (Eq.refl _)

theorem Reaches.get (hs : F.get s = some u) (h : F.Reaches s t s') : F.get s' = some t := by
  obtain rfl | ⟨rfl, h⟩ := h
  · exact F.get_put hs t
  · exact h

theorem Reaches.trans (hs : F.get s = some u) (h : F.Reaches s t s') (h' : F.Reaches s' t' s'') :
    F.Reaches s t' s'' := by
  obtain rfl | ⟨rfl, hget⟩ := h
  · obtain rfl | ⟨rfl, hget⟩ := h'
    · rw [F.put_put]
      exact .put
    · rw [F.get_put hs] at hget
      cases hget
      exact .put
  · exact h'

variable (F)

/-- A program that answers true takes the part from one value to another and leaves the rest. -/
def Accepts (p : Tx σ ε Bool) (Q : τ → τ → Prop) : Prop :=
  Tx.Accepts p fun s s' => ∀ t, F.get s = some t → ∃ t', Q t t' ∧ F.Reaches s t' s'

variable {F} {Q Q' : τ → τ → Prop}

theorem Accepts.mono {p : Tx σ ε Bool} (hp : F.Accepts p Q) (h : ∀ t t', Q t t' → Q' t t') :
    F.Accepts p Q' := by
  refine Tx.Accepts.mono hp fun s s' hs t ht => ?_
  obtain ⟨t', hQ, hreach⟩ := hs t ht
  exact ⟨t', h t t' hQ, hreach⟩

theorem Accepts.pure : F.Accepts (Pure.pure true : Tx σ ε Bool) fun t t' => t' = t := by
  refine Tx.Accepts.pure.mono fun s s' hs t ht => ?_
  rw [hs]
  exact ⟨t, rfl, .rfl ht⟩

theorem Accepts.both {p q : Tx σ ε Bool} (hp : F.Accepts p Q) (hq : F.Accepts q Q') :
    F.Accepts (Tx.both p q) fun t t'' => ∃ t', Q t t' ∧ Q' t' t'' := by
  refine (Tx.Accepts.both hp hq).mono ?_
  rintro s s'' ⟨s', hs, hs'⟩ t ht
  obtain ⟨t', hQ, hreach⟩ := hs t ht
  obtain ⟨t'', hQ', hreach'⟩ := hs' t' (hreach.get ht)
  exact ⟨t'', ⟨t', hQ, hQ'⟩, hreach.trans ht hreach'⟩

theorem Accepts.ite {b : Prop} [Decidable b] {p q : Tx σ ε Bool} (hp : b → F.Accepts p Q)
    (hq : ¬ b → F.Accepts q Q) : F.Accepts (if b then p else q) Q :=
  Tx.Accepts.ite hp hq

/-- A loop takes the part through its steps. -/
theorem Accepts.steps {step : α → Tx σ ε Bool} {T : α → τ → τ → Prop} {items : List α}
    (h : ∀ a ∈ items, F.Accepts (step a) (T a)) :
    F.Accepts (Tx.forAll step items) (Tx.Steps T items) := by
  induction items with
  | nil => exact .pure
  | cons a items ih =>
    exact (h a List.mem_cons_self).both (ih fun b hb => h b (List.mem_cons_of_mem a hb))

/-- A loop whose steps are functions of the part. -/
theorem Accepts.forAll {step : α → Tx σ ε Bool} {g : α → τ → τ} {items : List α}
    (h : ∀ a ∈ items, F.Accepts (step a) fun t t' => t' = g a t) :
    F.Accepts (Tx.forAll step items) fun t t' => t' = items.foldl (fun t a => g a t) t := by
  induction items with
  | nil => exact .pure
  | cons a items ih =>
    refine ((h a List.mem_cons_self).both
      (ih fun b hb => h b (List.mem_cons_of_mem a hb))).mono ?_
    rintro t t'' ⟨t', rfl, rfl⟩
    rfl

end Focus

end Lib
