import Athenz.Lib.Map

namespace Lib.Index
set_option autoImplicit true

/-- Apply a change to the first element that satisfies a test. -/
def modifyFirst (p : α → Bool) (f : α → α) : List α → List α
  | [] => []
  | a :: as => if p a then f a :: as else a :: modifyFirst p f as

/-- A change that keeps what the elements are known by leaves the list of it as it is. -/
theorem map_modifyFirst {p : α → Bool} {f : α → α} {source : α → γ} {l : List α}
    (h : ∀ a ∈ l, p a = true → source (f a) = source a) :
    (modifyFirst p f l).map source = l.map source := by
  induction l with
  | nil => rfl
  | cons a l ih =>
    unfold modifyFirst
    split
    · rename_i hp
      rw [List.map_cons, List.map_cons, h a List.mem_cons_self hp]
    · rw [List.map_cons, List.map_cons, ih fun b hb => h b (.tail a hb)]

/-- With at most one element of each source, the change meets the element of one source. -/
theorem mem_modifyFirst {p : α → Bool} {f : α → α} {source : α → γ} {g : γ} {l : List α}
    (hp : ∀ a ∈ l, p a = true ↔ source a = g) (hnodup : (l.map source).Nodup) :
    b ∈ modifyFirst p f l ↔ b ∈ l ∧ source b ≠ g ∨ ∃ a ∈ l, source a = g ∧ b = f a := by
  induction l with
  | nil => simp only [modifyFirst, List.not_mem_nil, false_and, exists_false, or_self]
  | cons a l ih =>
    rw [List.map_cons, List.nodup_cons] at hnodup
    have hrest := ih (fun c hc => hp c (.tail a hc)) hnodup.2
    unfold modifyFirst
    by_cases ha : source a = g
    · rw [if_pos ((hp a List.mem_cons_self).2 ha)]
      have hnot : ∀ c ∈ l, source c ≠ g := fun c hc he =>
        hnodup.1 (ha ▸ he ▸ List.mem_map_of_mem hc)
      simp only [List.mem_cons, or_and_right, exists_or, exists_eq_left, ha, true_and]
      constructor
      · rintro (rfl | hb)
        · exact .inr (.inl rfl)
        · exact .inl (.inr ⟨hb, hnot b hb⟩)
      · rintro ((⟨rfl, hne⟩ | ⟨hb, _⟩) | (rfl | ⟨c, hc, he, _⟩))
        · exact absurd ha hne
        · exact .inr hb
        · exact .inl rfl
        · exact absurd he (hnot c hc)
    · have hpa : p a = false := eq_false_of_ne_true fun h => ha ((hp a List.mem_cons_self).1 h)
      rw [if_neg (by rw [hpa]; decide), List.mem_cons, hrest]
      simp only [List.mem_cons, or_and_right, exists_or, exists_eq_left, ha, false_and, false_or,
        or_assoc]
      refine or_congr_left ⟨?_, ?_⟩
      · rintro rfl
        exact ⟨rfl, ha⟩
      · exact And.left

/-- A list is left with the elements of other sources and with new ones for one source. -/
structure Replaces (source : α → γ) (g : γ) (added : α → Prop) (l l' : List α) : Prop where
  mem_iff : ∀ a, a ∈ l' ↔ a ∈ l ∧ source a ≠ g ∨ added a
  single : (l'.map source).Nodup

section Replaces

variable {source : α → γ} {g : γ} {added : α → Prop} {l : List α} {p : α → Bool}

theorem Replaces.congr (h : Replaces source g added l l') (hiff : ∀ a, added a ↔ added' a) :
    Replaces source g added' l l' :=
  ⟨fun a => (h.mem_iff a).trans (or_congr_right (hiff a)), h.single⟩

theorem replaces_filter (hsingle : (l.map source).Nodup)
    (hp : ∀ a ∈ l, p a = true ↔ source a = g) :
    Replaces source g (fun _ => False) l (l.filter fun a => !p a) where
  mem_iff a := by
    rw [or_false, List.mem_filter]
    refine and_congr_right fun ha => ?_
    rw [Bool.not_eq_true', ← Bool.not_eq_true, hp a ha]
  single := hsingle.sublist (List.filter_sublist.map _)

theorem replaces_refl (hsingle : (l.map source).Nodup) (hnone : ∀ a ∈ l, source a ≠ g) :
    Replaces source g (fun _ => False) l l where
  mem_iff a := by rw [or_false, and_iff_left_of_imp (hnone a)]
  single := hsingle

theorem replaces_append (hsingle : (l.map source).Nodup) (hnone : ∀ a ∈ l, source a ≠ g)
    (hb : source b = g) : Replaces source g (· = b) l (l ++ [b]) where
  mem_iff a := by
    rw [List.mem_append, List.mem_singleton, and_iff_left_of_imp (hnone a)]
  single := by
    rw [List.map_append, List.map_singleton, List.nodup_append]
    refine ⟨hsingle, List.nodup_singleton _, ?_⟩
    intro c hc d hd
    obtain ⟨a, ha, rfl⟩ := List.mem_map.1 hc
    rw [List.mem_singleton.1 hd, hb]
    exact hnone a ha

theorem replaces_modifyFirst {f : α → α} (hsingle : (l.map source).Nodup)
    (hp : ∀ a ∈ l, p a = true ↔ source a = g) (hb : source b = g)
    (hf : ∀ a ∈ l, source a = g → f a = b) (hfound : ∃ a ∈ l, source a = g) :
    Replaces source g (· = b) l (modifyFirst p f l) where
  mem_iff a := by
    rw [mem_modifyFirst hp hsingle]
    refine or_congr_right ⟨?_, ?_⟩
    · rintro ⟨c, hc, hsource, rfl⟩
      exact hf c hc hsource
    · rintro rfl
      obtain ⟨c, hc, hsource⟩ := hfound
      exact ⟨c, hc, hsource, (hf c hc hsource).symm⟩
  single := by
    have hmap : (modifyFirst p f l).map source = l.map source := by
      apply map_modifyFirst
      intro a ha hpa
      have hsource := (hp a ha).1 hpa
      rw [hf a ha hsource, hb, hsource]
    rw [hmap]
    exact hsingle

end Replaces

theorem foldl_invariant {f : σ → α → σ} {P : σ → Prop} (h : ∀ s a, P s → P (f s a))
    (items : List α) (hs : P s) : P (items.foldl f s) := by
  induction items generalizing s with
  | nil => exact hs
  | cons a items ih => exact ih (h s a hs)

/-- A property that each step may add is added by the loop when one of its steps adds it. -/
theorem foldl_adds {f : σ → α → σ} {Q : σ → Prop} {P : α → Prop}
    (h : ∀ s a, Q (f s a) ↔ Q s ∨ P a) {items : List α} :
    Q (items.foldl f s) ↔ Q s ∨ ∃ a ∈ items, P a := by
  induction items generalizing s with
  | nil => simp only [List.foldl_nil, List.not_mem_nil, false_and, exists_false, or_false]
  | cons a items ih => simp only [List.foldl_cons, ih, h, List.exists_mem_cons_iff, or_assoc]

/-- A property that each step may take away is left when none of the steps takes it away; what the
steps take may depend on something that they keep. -/
theorem foldl_removes {f : σ → α → σ} {Q I : σ → Prop} {P : α → Prop} {items : List α}
    (hkeep : ∀ s a, I s → I (f s a)) (h : ∀ s, ∀ a ∈ items, I s → (Q (f s a) ↔ Q s ∧ ¬ P a))
    (hs : I s) : Q (items.foldl f s) ↔ Q s ∧ ∀ a ∈ items, ¬ P a := by
  induction items generalizing s with
  | nil => simp only [List.foldl_nil, List.not_mem_nil, false_implies, implies_true, and_true]
  | cons a items ih =>
    rw [List.foldl_cons, ih (fun s b hb => h s b (.tail a hb)) (hkeep s a hs),
      h s a List.mem_cons_self hs, List.forall_mem_cons, and_assoc]

/-- A loop that only adds elements adds what its steps add. -/
theorem mem_foldl {f : List β → α → List β} {P : α → β → Prop}
    (h : ∀ acc a b, b ∈ f acc a ↔ b ∈ acc ∨ P a b) {acc : List β} {items : List α} {b : β} :
    b ∈ items.foldl f acc ↔ b ∈ acc ∨ ∃ a ∈ items, P a b :=
  foldl_adds fun acc a => h acc a b

end Lib.Index
