import Mathlib.Data.List.Basic

namespace Lib.Result
set_option autoImplicit true

/-- Stop with an error when the condition holds. -/
def refuse (c : Prop) [Decidable c] (e : ε) : Except ε Unit :=
  if c then .error e else .ok ()

theorem refuse_eq_ok {c : Prop} [Decidable c] {e : ε} : refuse c e = .ok u ↔ ¬ c := by
  by_cases h : c <;> simp [refuse, h]

/-- Go on with a value that must be there. -/
def require (x : Option α) (e : ε) : Except ε α :=
  match x with
  | none => .error e
  | some a => .ok a

theorem require_eq_ok {x : Option α} {e : ε} : require x e = .ok a ↔ x = some a := by
  cases x with
  | none => simp only [require, reduceCtorEq]
  | some b => simp only [require, Except.ok.injEq, Option.some.injEq]

theorem bind_eq_ok {x : Except ε α} {f : α → Except ε β} :
    (x >>= f) = .ok b ↔ ∃ a, x = .ok a ∧ f a = .ok b := by
  cases x with
  | error e => simp only [bind, Except.bind, reduceCtorEq, false_and, exists_false]
  | ok a => simp only [bind, Except.bind, Except.ok.injEq, exists_eq_left']

theorem exists_unit {p : Unit → Prop} : (∃ u, p u) ↔ p () :=
  ⟨fun ⟨_, h⟩ => h, fun h => ⟨(), h⟩⟩

theorem unit_bind_eq_ok {x : Except ε Unit} {f : Unit → Except ε β} :
    (x >>= f) = .ok b ↔ x = .ok () ∧ f () = .ok b := by
  rw [bind_eq_ok, exists_unit]

theorem pure_eq_ok {a b : α} : (pure a : Except ε α) = .ok b ↔ a = b :=
  ⟨fun h => Except.ok.inj h, congrArg _⟩

theorem map_eq_ok {x : Except ε α} {f : α → β} : x.map f = .ok b ↔ ∃ a, x = .ok a ∧ f a = b := by
  cases x with
  | error e => simp only [Except.map, reduceCtorEq, false_and, exists_false]
  | ok a => simp only [Except.map, Except.ok.injEq, exists_eq_left']

theorem mapError_eq_ok {x : Except ε α} {f : ε → ε'} : x.mapError f = .ok a ↔ x = .ok a := by
  cases x with
  | error e => simp only [Except.mapError, reduceCtorEq]
  | ok b => simp only [Except.mapError, Except.ok.injEq]

/-- A loop whose steps commute with an injection of states commutes with it as a whole. -/
theorem foldlM_map {step : σ → α → Except ε σ} {f : σ → σ}
    (h : ∀ s a, step (f s) a = (step s a).map f) (s : σ) (items : List α) :
    items.foldlM step (f s) = (items.foldlM step s).map f := by
  induction items generalizing s with
  | nil => rfl
  | cons a items ih =>
    rw [List.foldlM_cons, List.foldlM_cons, h]
    cases step s a with
    | error e => rfl
    | ok s' => exact ih s'

/-- What every step keeps, the loop keeps. -/
theorem foldlM_invariant {step : σ → α → Except ε σ} {P : σ → Prop}
    (h : ∀ s a s', step s a = .ok s' → P s → P s') {items : List α}
    (hs : items.foldlM step s = .ok s') (hP : P s) : P s' := by
  induction items generalizing s with
  | nil =>
    cases hs
    exact hP
  | cons a items ih =>
    rw [List.foldlM_cons] at hs
    obtain ⟨s₁, h₁, h₂⟩ := bind_eq_ok.1 hs
    exact ih h₂ (h _ _ _ h₁ hP)

/-- A property that each step may add is added by the loop when one of its steps adds it. -/
theorem foldlM_adds {step : σ → α → Except ε σ} {Q : σ → Prop} {P : α → Prop}
    (h : ∀ s a s', step s a = .ok s' → (Q s' ↔ Q s ∨ P a)) {items : List α}
    (hs : items.foldlM step s = .ok s') : Q s' ↔ Q s ∨ ∃ a ∈ items, P a := by
  induction items generalizing s with
  | nil =>
    cases hs
    simp only [List.not_mem_nil, false_and, exists_false, or_false]
  | cons a items ih =>
    rw [List.foldlM_cons] at hs
    obtain ⟨s₁, h₁, h₂⟩ := bind_eq_ok.1 hs
    rw [ih h₂, h _ _ _ h₁, List.exists_mem_cons_iff, or_assoc]

theorem mem_mapM {f : α → Except ε β} {l : List α} (h : l.mapM f = .ok ys) :
    b ∈ ys ↔ ∃ a ∈ l, f a = .ok b := by
  induction l generalizing ys with
  | nil =>
    rw [List.mapM_nil] at h
    cases h
    simp only [List.not_mem_nil, false_and, exists_false]
  | cons a l ih =>
    rw [List.mapM_cons] at h
    obtain ⟨c, hc, h⟩ := bind_eq_ok.1 h
    obtain ⟨cs, hcs, h⟩ := bind_eq_ok.1 h
    cases h
    rw [List.mem_cons, List.exists_mem_cons_iff, ih hcs, hc, Except.ok.injEq, eq_comm]

/-- Results that a value tells apart as the items are told apart. -/
theorem nodup_mapM {f : α → Except ε β} {g : β → γ} {l : List α} (h : l.mapM f = .ok ys)
    (hl : l.Nodup) (hg : ∀ a ∈ l, ∀ a' ∈ l, ∀ b b', f a = .ok b → f a' = .ok b' → g b = g b' →
      a = a') : (ys.map g).Nodup := by
  induction l generalizing ys with
  | nil =>
    rw [List.mapM_nil] at h
    cases h
    exact List.nodup_nil
  | cons a l ih =>
    rw [List.mapM_cons] at h
    obtain ⟨b, hb, h⟩ := bind_eq_ok.1 h
    obtain ⟨bs, hbs, h⟩ := bind_eq_ok.1 h
    cases h
    rw [List.nodup_cons] at hl
    rw [List.map_cons, List.nodup_cons]
    refine ⟨fun hmem => ?_, ih hbs hl.2 fun c hc c' hc' =>
      hg c (List.mem_cons_of_mem a hc) c' (List.mem_cons_of_mem a hc')⟩
    obtain ⟨b', hb', hsame⟩ := List.mem_map.1 hmem
    obtain ⟨a', ha', hfa'⟩ := (mem_mapM hbs).1 hb'
    have heq := hg a' (List.mem_cons_of_mem a ha') a List.mem_cons_self b' b hfa' hb hsame
    exact hl.1 (heq ▸ ha')

theorem mapM_terminates {f : α → Except ε β} {l : List α} (h : ∀ a ∈ l, ∃ b, f a = .ok b) :
    ∃ ys, l.mapM f = .ok ys := by
  induction l with
  | nil => exact ⟨[], rfl⟩
  | cons a l ih =>
    obtain ⟨b, hb⟩ := h a List.mem_cons_self
    obtain ⟨ys, hys⟩ := ih fun c hc => h c (List.mem_cons_of_mem a hc)
    refine ⟨b :: ys, ?_⟩
    rw [List.mapM_cons, hb, hys]
    rfl

theorem mapM_ok_of_mem {f : α → Except ε β} {l : List α} (h : l.mapM f = .ok ys) (ha : a ∈ l) :
    ∃ b, f a = .ok b := by
  induction l generalizing ys with
  | nil => exact absurd ha List.not_mem_nil
  | cons c l ih =>
    rw [List.mapM_cons] at h
    obtain ⟨b, hb, h⟩ := bind_eq_ok.1 h
    obtain ⟨bs, hbs, _⟩ := bind_eq_ok.1 h
    rcases List.mem_cons.1 ha with rfl | ha
    · exact ⟨b, hb⟩
    · exact ih hbs ha

/-- A search in which no test fails. -/
theorem anyM_ok {test : α → Except ε Bool} {f : α → Bool} {l : List α}
    (h : ∀ a ∈ l, test a = .ok (f a)) : l.anyM test = .ok (l.any f) := by
  induction l with
  | nil => rfl
  | cons a l ih =>
    rw [List.anyM, List.any_cons, h a List.mem_cons_self]
    cases f a with
    | true => rfl
    | false => exact ih fun b hb => h b (.tail a hb)

theorem exists_of_anyM {test : α → Except ε Bool} {l : List α} (h : l.anyM test = .ok true) :
    ∃ a ∈ l, test a = .ok true := by
  induction l with
  | nil => exact nomatch h
  | cons a l ih =>
    rw [List.anyM] at h
    obtain ⟨found, htest, hrest⟩ := bind_eq_ok.1 h
    cases found with
    | true => exact ⟨a, List.mem_cons_self, htest⟩
    | false =>
      obtain ⟨b, hb, htest⟩ := ih hrest
      exact ⟨b, .tail a hb, htest⟩

/-- A search without failures ends with an element that passes the test. -/
theorem anyM_of_exists {test : α → Except ε Bool} {l : List α} (hmem : a ∈ l)
    (htest : test a = .ok true) (hok : ∀ b ∈ l, ∃ found, test b = .ok found) :
    l.anyM test = .ok true := by
  induction l with
  | nil => exact absurd hmem List.not_mem_nil
  | cons b l ih =>
    obtain ⟨found, hfound⟩ := hok b List.mem_cons_self
    rw [List.anyM, hfound]
    cases found with
    | true => rfl
    | false =>
      obtain rfl | hmem := List.mem_cons.1 hmem
      · rw [htest] at hfound
        exact nomatch hfound
      · exact ih hmem fun c hc => hok c (.tail b hc)

theorem anyM_terminates {test : α → Except ε Bool} {l : List α}
    (h : ∀ a ∈ l, ∃ found, test a = .ok found) : ∃ found, l.anyM test = .ok found := by
  induction l with
  | nil => exact ⟨false, rfl⟩
  | cons a l ih =>
    obtain ⟨found, hfound⟩ := h a List.mem_cons_self
    rw [List.anyM, hfound]
    cases found with
    | true => exact ⟨true, rfl⟩
    | false => exact ih fun b hb => h b (.tail a hb)

/-- Every error of a computation satisfies a property. -/
def Only (P : ε → Prop) (x : Except ε α) : Prop := ∀ e, x = .error e → P e

section Only

variable {P : ε → Prop}

@[simp] theorem Only.ok (a : α) : Only P (.ok a) := nofun

@[simp] theorem Only.error_iff {e : ε} : Only P (.error e : Except ε α) ↔ P e := by
  constructor
  · intro h
    exact h e rfl
  · rintro h _ ⟨⟩
    exact h

theorem Only.bind {x : Except ε α} {f : α → Except ε β} (hx : Only P x) (hf : ∀ a, Only P (f a)) :
    Only P (x >>= f) := by
  cases x with
  | error e => exact Only.error_iff.2 (hx e rfl)
  | ok a => exact hf a

theorem Only.map {x : Except ε α} {f : α → β} (hx : Only P x) : Only P (x.map f) := by
  cases x with
  | error e => exact Only.error_iff.2 (hx e rfl)
  | ok a => exact Only.ok _

theorem Only.foldlM {step : σ → α → Except ε σ} (h : ∀ s a, Only P (step s a)) (s : σ)
    (items : List α) : Only P (items.foldlM step s) := by
  induction items generalizing s with
  | nil => exact Only.ok s
  | cons a items ih =>
    rw [List.foldlM_cons]
    exact (h s a).bind ih

end Only

end Lib.Result
