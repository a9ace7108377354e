import Mathlib.Data.List.Nodup

namespace Lib.Diff
set_option autoImplicit true

variable {κ α β σ : Type}

section Loop

variable [DecidableEq κ] {o : σ → β} {name : α → κ} {k : κ} {step : σ → α → σ} {effect : α → β → β}
  {items : List α}

/-- What is seen at a name changes at the steps for that name and stays as it is at the others. -/
def StepsAt (o : σ → β) (name : α → κ) (k : κ) (step : σ → α → σ) (effect : α → β → β)
    (items : List α) : Prop :=
  ∀ s, ∀ a ∈ items, o (step s a) = if name a = k then effect a (o s) else o s

theorem StepsAt.subset (h : StepsAt o name k step effect items) (hsub : ∀ a ∈ items', a ∈ items) :
    StepsAt o name k step effect items' :=
  fun s a ha => h s a (hsub a ha)

theorem StepsAt.foldl_of_notMem (h : StepsAt o name k step effect items)
    (hk : k ∉ items.map name) (s : σ) : o (items.foldl step s) = o s := by
  induction items generalizing s with
  | nil => rfl
  | cons a items ih =>
    rw [List.map_cons, List.mem_cons, not_or] at hk
    rw [List.foldl_cons, ih (h.subset fun b hb => .tail a hb) hk.2, h s a List.mem_cons_self,
      if_neg (Ne.symm hk.1)]

/-- With distinct names each name is met by one step. -/
theorem StepsAt.foldl_of_mem (h : StepsAt o name k step effect items)
    (hnodup : (items.map name).Nodup) (ha : a ∈ items) (hk : name a = k) (s : σ) :
    o (items.foldl step s) = effect a (o s) := by
  induction items generalizing s with
  | nil => exact absurd ha List.not_mem_nil
  | cons b items ih =>
    rw [List.map_cons, List.nodup_cons] at hnodup
    have hrest : StepsAt o name k step effect items := h.subset fun c hc => .tail b hc
    rw [List.foldl_cons]
    obtain rfl | ha := List.mem_cons.1 ha
    · rw [hrest.foldl_of_notMem (hk ▸ hnodup.1), h s a List.mem_cons_self, if_pos hk]
    · have hne : name b ≠ k := by
        intro he
        apply hnodup.1
        rw [he, ← hk]
        exact List.mem_map_of_mem ha
      rw [ih hrest hnodup.2 ha, h s b List.mem_cons_self, if_neg hne]

end Loop

section Without

/-- The elements whose name no element of another list has. -/
def without (same : κ → κ → Bool) (name : α → κ) (l remove : List α) : List α :=
  l.filter fun a => !remove.any fun b => same (name a) (name b)

variable {same : κ → κ → Bool} {name : α → κ} {l remove : List α}

/-- The comparison of names is equality on the names of two lists. -/
def Exact (same : κ → κ → Bool) (name : α → κ) (l remove : List α) : Prop :=
  ∀ a ∈ l, ∀ b ∈ remove, same (name a) (name b) = true ↔ name a = name b

theorem mem_without (h : Exact same name l remove) :
    a ∈ without same name l remove ↔ a ∈ l ∧ name a ∉ remove.map name := by
  rw [without, List.mem_filter]
  refine and_congr_right fun ha => ?_
  rw [Bool.not_eq_true', ← Bool.not_eq_true, List.any_eq_true, List.mem_map]
  refine not_congr (exists_congr fun b => and_congr_right fun hb => ?_)
  rw [h a ha b hb, eq_comm]

theorem mem_names_without (h : Exact same name l remove) :
    k ∈ (without same name l remove).map name ↔ k ∈ l.map name ∧ k ∉ remove.map name := by
  simp only [List.mem_map, mem_without h]
  constructor
  · rintro ⟨a, ⟨ha, hnot⟩, rfl⟩
    exact ⟨⟨a, ha, rfl⟩, hnot⟩
  · rintro ⟨⟨a, ha, rfl⟩, hnot⟩
    exact ⟨a, ⟨ha, hnot⟩, rfl⟩

theorem without_subset : ∀ a ∈ without same name l remove, a ∈ l :=
  fun _ ha => List.mem_of_mem_filter ha

theorem nodup_without (h : (l.map name).Nodup) : ((without same name l remove).map name).Nodup :=
  h.sublist (List.filter_sublist.map _)

theorem Exact.without_right (h : Exact same name l remove) :
    Exact same name l (without same name remove other) :=
  fun a ha b hb => h a ha b (without_subset b hb)

end Without

section Update

variable [DecidableEq κ]

/-- An update of one version by the next: the elements of both are updated, then the new ones are
added and the old ones deleted. -/
def diffUpdate (same : κ → κ → Bool) (name : α → κ) (upd add del : σ → α → σ) (old new : List α)
    (s : σ) : σ :=
  let added := without same name new old
  (without same name old new).foldl del
    (added.foldl add ((without same name new added).foldl upd s))

variable {same : κ → κ → Bool} {name : α → κ} {k : κ} {o : σ → β} {upd add del : σ → α → σ}
  {updEffect addEffect delEffect : α → β → β} {old new : List α}

/-- The names of both versions are distinct and compared exactly, and each loop meets a name by the
steps for it. -/
structure Updates (same : κ → κ → Bool) (name : α → κ) (k : κ) (o : σ → β) (upd add del : σ → α → σ)
    (updEffect addEffect delEffect : α → β → β) (old new : List α) : Prop where
  old_new : Exact same name old new
  new_old : Exact same name new old
  new_new : Exact same name new new
  nodup_old : (old.map name).Nodup
  nodup_new : (new.map name).Nodup
  upd : StepsAt o name k upd updEffect new
  add : StepsAt o name k add addEffect new
  del : StepsAt o name k del delEffect old

namespace Updates

variable (h : Updates same name k o upd add del updEffect addEffect delEffect old new)
include h

theorem deleted_of_notMem (hk : k ∉ (without same name old new).map name) (s : σ) :
    o ((without same name old new).foldl del s) = o s :=
  (h.del.subset without_subset).foldl_of_notMem hk s

theorem added_of_notMem (hk : k ∉ (without same name new old).map name) (s : σ) :
    o ((without same name new old).foldl add s) = o s :=
  (h.add.subset without_subset).foldl_of_notMem hk s

theorem updated_of_notMem
    (hk : k ∉ (without same name new (without same name new old)).map name) (s : σ) :
    o ((without same name new (without same name new old)).foldl upd s) = o s :=
  (h.upd.subset without_subset).foldl_of_notMem hk s

/-- An element of both versions is updated. -/
theorem of_both (ha : a ∈ new) (hname : name a = k) (hold : k ∈ old.map name) (s : σ) :
    o (diffUpdate same name upd add del old new s) = updEffect a (o s) := by
  subst hname
  have hnew := List.mem_map_of_mem (f := name) ha
  have hadded : name a ∉ (without same name new old).map name := by
    rw [mem_names_without h.new_old]
    exact fun hboth => hboth.2 hold
  have hdeleted : name a ∉ (without same name old new).map name := by
    rw [mem_names_without h.old_new]
    exact fun hboth => hboth.2 hnew
  have hupdated : a ∈ without same name new (without same name new old) := by
    rw [mem_without h.new_new.without_right]
    exact ⟨ha, hadded⟩
  rw [diffUpdate, h.deleted_of_notMem hdeleted, h.added_of_notMem hadded,
    (h.upd.subset without_subset).foldl_of_mem (nodup_without h.nodup_new) hupdated rfl]

theorem of_new (ha : a ∈ new) (hname : name a = k) (hold : k ∉ old.map name) (s : σ) :
    o (diffUpdate same name upd add del old new s) = addEffect a (o s) := by
  subst hname
  have hadded : a ∈ without same name new old := by
    rw [mem_without h.new_old]
    exact ⟨ha, hold⟩
  have hdeleted : name a ∉ (without same name old new).map name := by
    rw [mem_names_without h.old_new]
    exact fun hboth => hold hboth.1
  have hupdated : name a ∉ (without same name new (without same name new old)).map name := by
    rw [mem_names_without h.new_new.without_right]
    exact fun hboth => hboth.2 (List.mem_map_of_mem hadded)
  rw [diffUpdate, h.deleted_of_notMem hdeleted,
    (h.add.subset without_subset).foldl_of_mem (nodup_without h.nodup_new) hadded rfl,
    h.updated_of_notMem hupdated]

/-- A name that is not in the next version is left to the loop that deletes. -/
theorem updated_added_of_notMem (hnew : k ∉ new.map name) (s : σ) :
    o ((without same name new old).foldl add
      ((without same name new (without same name new old)).foldl upd s)) = o s := by
  have hadded : k ∉ (without same name new old).map name := by
    rw [mem_names_without h.new_old]
    exact fun hboth => hnew hboth.1
  have hupdated : k ∉ (without same name new (without same name new old)).map name := by
    rw [mem_names_without h.new_new.without_right]
    exact fun hboth => hnew hboth.1
  rw [h.added_of_notMem hadded, h.updated_of_notMem hupdated]

theorem of_old (ha : a ∈ old) (hname : name a = k) (hnew : k ∉ new.map name) (s : σ) :
    o (diffUpdate same name upd add del old new s) = delEffect a (o s) := by
  have hdeleted : a ∈ without same name old new := by
    rw [mem_without h.old_new, hname]
    exact ⟨ha, hnew⟩
  rw [diffUpdate,
    (h.del.subset without_subset).foldl_of_mem (nodup_without h.nodup_old) hdeleted hname,
    h.updated_added_of_notMem hnew]

theorem of_neither (hold : k ∉ old.map name) (hnew : k ∉ new.map name) (s : σ) :
    o (diffUpdate same name upd add del old new s) = o s := by
  have hdeleted : k ∉ (without same name old new).map name := by
    rw [mem_names_without h.old_new]
    exact fun hboth => hold hboth.1
  rw [diffUpdate, h.deleted_of_notMem hdeleted, h.updated_added_of_notMem hnew]

end Updates

end Update

end Lib.Diff
