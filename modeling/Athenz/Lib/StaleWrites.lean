import Mathlib.Data.List.Basic
import Mathlib.Logic.Function.Basic

namespace Lib.StaleWrites
set_option autoImplicit true

/-- A party takes a copy of the shared value, or puts back what it makes of its copy. -/
inductive Access (ι : Type) where
  | read (i : ι)
  | write (i : ι)
deriving DecidableEq

section Sheets

variable [DecidableEq ι]

/-- The shared value and the copies of the parties. -/
structure Sheet (ι S : Type) where
  value : S
  copy : ι → S

def Sheet.init (value : S) : Sheet ι S := ⟨value, fun _ => value⟩

def Sheet.step (apply : ι → S → S) (sheet : Sheet ι S) : Access ι → Sheet ι S
  | .read i => { sheet with copy := Function.update sheet.copy i sheet.value }
  | .write i => { sheet with value := apply i (sheet.copy i) }

def Sheet.run (apply : ι → S → S) (sheet : Sheet ι S) (accesses : List (Access ι)) : Sheet ι S :=
  accesses.foldl (Sheet.step apply) sheet

/-- The writers whose work the value has, the latest one first. -/
def lineage (accesses : List (Access ι)) : List ι :=
  ((Sheet.init []).run List.cons accesses).value

theorem Sheet.run_append (apply : ι → S → S) (sheet : Sheet ι S) (accesses : List (Access ι))
    (access : Access ι) :
    sheet.run apply (accesses ++ [access]) = (sheet.run apply accesses).step apply access :=
  List.foldl_append

def Sheet.map (f : S → T) (sheet : Sheet ι S) : Sheet ι T :=
  ⟨f sheet.value, fun i => f (sheet.copy i)⟩

/-- What is read off a sheet goes along with the run. -/
theorem Sheet.map_run (f : S → T) {apply : ι → S → S} {apply' : ι → T → T}
    (h : ∀ i s, f (apply i s) = apply' i (f s)) (sheet : Sheet ι S) (accesses : List (Access ι)) :
    (sheet.run apply accesses).map f = (sheet.map f).run apply' accesses := by
  induction accesses generalizing sheet with
  | nil => rfl
  | cons access accesses ih =>
    have hstep : (sheet.step apply access).map f = (sheet.map f).step apply' access := by
      cases access with
      | read i =>
        unfold Sheet.map Sheet.step
        congr 1
        funext j
        dsimp only
        rw [Function.apply_update fun _ => f]
      | write i =>
        unfold Sheet.map Sheet.step
        dsimp only
        rw [h]
    exact (ih _).trans (congrArg (Sheet.run apply' · accesses) hstep)

/-- The value is what the writers of its lineage have made of the first one. -/
theorem Sheet.value_run (apply : ι → S → S) (start : S) (accesses : List (Access ι)) :
    ((Sheet.init start).run apply accesses).value = (lineage accesses).foldr apply start := by
  have hcons : ∀ (i : ι) (behind : List ι),
      (i :: behind).foldr apply start = apply i (behind.foldr apply start) := fun _ _ => rfl
  have hmap := Sheet.map_run (fun behind : List ι => behind.foldr apply start) hcons
    (Sheet.init []) accesses
  exact (congrArg Sheet.value hmap).symm

end Sheets

section Parts

/-- A change leaves the part of the value that another one is about. -/
def Spares (g f : S → S) : Prop := ∀ s, f (g s) = g s ↔ f s = s

/-- The writers have parts of their own, and doing a part again changes nothing. -/
structure Separate (apply : ι → S → S) : Prop where
  again : ∀ i s, apply i (apply i s) = apply i s
  spares : ∀ i j, i ≠ j → Spares (apply j) (apply i)

/-- The work of a writer is in the value exactly when the lineage has the writer, or when it was
there before. -/
theorem Separate.foldr_iff {apply : ι → S → S} (h : Separate apply) (i : ι) (behind : List ι)
    (start : S) :
    apply i (behind.foldr apply start) = behind.foldr apply start ↔
      i ∈ behind ∨ apply i start = start := by
  induction behind with
  | nil => exact ⟨.inr, fun hstart => hstart.resolve_left List.not_mem_nil⟩
  | cons j behind ih =>
    rw [List.foldr_cons, List.mem_cons]
    by_cases hij : i = j
    · rw [← hij]
      exact ⟨fun _ => .inl (.inl rfl), fun _ => h.again i _⟩
    · rw [h.spares i j hij, ih, or_iff_right hij]

end Parts

section Promptness

variable [DecidableEq ι]

/-- Nobody writes between the read of a party and its write. -/
def Prompt (fresh : ι → Prop) : List (Access ι) → Prop
  | [] => True
  | .read i :: accesses => Prompt (fun j => j = i ∨ fresh j) accesses
  | .write i :: accesses => fresh i ∧ Prompt (fun _ => False) accesses

/-- Behind writes of fresh copies alone, every writer is in the lineage. -/
theorem mem_run_of_prompt {fresh : ι → Prop} {sheet : Sheet ι (List ι)}
    (hfresh : ∀ i, fresh i → sheet.copy i = sheet.value) (h : Prompt fresh accesses)
    (hi : i ∈ sheet.value ∨ Access.write i ∈ accesses) :
    i ∈ (sheet.run List.cons accesses).value := by
  induction accesses generalizing fresh sheet with
  | nil => exact hi.resolve_right List.not_mem_nil
  | cons access accesses ih =>
    cases access with
    | read j =>
      refine ih (fun k hk => ?_) h (hi.imp_right fun hmem => ?_)
      · unfold Sheet.step
        dsimp only
        rw [Function.update_apply]
        split
        · rfl
        · rename_i hkj
          exact hfresh k (hk.resolve_left hkj)
      · exact (List.mem_cons.1 hmem).resolve_left nofun
    | write j =>
      refine ih (fun k hk => hk.elim) h.2 ?_
      have hvalue : (sheet.step List.cons (.write j)).value = j :: sheet.value :=
        congrArg (j :: ·) (hfresh j h.1)
      rw [hvalue, List.mem_cons]
      rcases hi with hmem | hmem
      · exact .inl (.inr hmem)
      · rcases List.mem_cons.1 hmem with hhere | hlater
        · exact .inl (.inl (Access.write.inj hhere))
        · exact .inr hlater

theorem mem_lineage_of_prompt {fresh : ι → Prop} (h : Prompt fresh accesses)
    (hi : Access.write i ∈ accesses) : i ∈ lineage accesses :=
  mem_run_of_prompt (fun _ _ => rfl) h (.inr hi)

end Promptness

section Runs

variable {ι D R S : Type} [DecidableEq ι]

/-- Parties that load a record of a store, and then write by what they have loaded; in between
the store changes in other ways that the value does not show. -/
inductive Runs (load : D → Option R) (view : D → Option S) (writes : ι → R → D → D → Prop)
    (start : D) : List (Access ι) → D → (ι → Option R) → Prop
  | nil : Runs load view writes start [] start fun _ => none
  | read (h : Runs load view writes start accesses d copies) (hload : load d = some r) :
      Runs load view writes start (accesses ++ [.read i]) d (Function.update copies i (some r))
  | write (h : Runs load view writes start accesses d copies) (hcopy : copies i = some r)
      (hwrites : writes i r d d') :
      Runs load view writes start (accesses ++ [.write i]) d' copies
  | other (h : Runs load view writes start accesses d copies) (hview : view d' = view d) :
      Runs load view writes start accesses d' copies

theorem Runs.sheet {load : D → Option R} {view : D → Option S} {writes : ι → R → D → D → Prop}
    {value : R → S} {apply : ι → S → S} (hload : ∀ d r, load d = some r → view d = some (value r))
    (hwrites : ∀ i r d d', (view d).isSome → writes i r d d' →
      view d' = some (apply i (value r)))
    (hstart : view start = some first)
    (h : Runs load view writes start accesses d copies) :
    view d = some ((Sheet.init first).run apply accesses).value ∧ ∀ i r, copies i = some r →
      value r = ((Sheet.init first).run apply accesses).copy i := by
  induction h with
  | nil => exact ⟨hstart, nofun⟩
  | @read accesses d copies r j h hr ih =>
    refine ⟨?_, fun k r' hk => ?_⟩
    · rw [Sheet.run_append]
      exact ih.1
    · rw [Sheet.run_append]
      unfold Sheet.step
      dsimp only
      rw [Function.update_apply] at hk ⊢
      split at hk
      · rename_i hkj
        cases hk
        rw [if_pos hkj]
        exact Option.some.inj ((hload d r hr).symm.trans ih.1)
      · rename_i hkj
        rw [if_neg hkj]
        exact ih.2 k r' hk
  | @write accesses d copies j r d' h hcopy hput ih =>
    rw [Sheet.run_append]
    refine ⟨?_, ih.2⟩
    rw [hwrites j r d d' (Option.isSome_iff_exists.2 ⟨_, ih.1⟩) hput, ih.2 j r hcopy]
    rfl
  | other h hview ih => exact ⟨hview.trans ih.1, ih.2⟩

/-- Behind every run, the work of a party is in the value exactly when the lineage has the party
or when it was there at the start. -/
theorem Runs.settled_iff {load : D → Option R} {view : D → Option S}
    {writes : ι → R → D → D → Prop} (value : R → S) (apply : ι → S → S)
    (hload : ∀ d r, load d = some r → view d = some (value r))
    (hwrites : ∀ i r d d', (view d).isSome → writes i r d d' →
      view d' = some (apply i (value r)))
    (hseparate : Separate apply) (hstart : view start = some first)
    (h : Runs load view writes start accesses d copies) :
    ∃ last, view d = some last ∧
      ∀ i, apply i last = last ↔ i ∈ lineage accesses ∨ apply i first = first := by
  refine ⟨_, (h.sheet hload hwrites hstart).1, fun i => ?_⟩
  rw [Sheet.value_run]
  exact hseparate.foldr_iff i (lineage accesses) first

end Runs

end Lib.StaleWrites
