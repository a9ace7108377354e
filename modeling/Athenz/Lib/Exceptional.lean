import Mathlib.Logic.Basic

namespace Lib.Exceptional
set_option autoImplicit true

/-- Programs over a state; an exception keeps the state it leaves. -/
def Prog (σ ε α : Type) := σ → Except ε α × σ

namespace Prog

variable {σ ε : Type}

instance : Monad (Prog σ ε) where
  pure a := fun s => (.ok a, s)
  bind p f := fun s =>
    match p s with
    | (.ok a, s) => f a s
    | (.error e, s) => (.error e, s)

def raise (e : ε) : Prog σ ε α := fun s => (.error e, s)

def read (f : σ → α) : Prog σ ε α := fun s => (.ok (f s), s)

theorem read_bind (f : σ → α) (next : α → Prog σ ε β) (s : σ) :
    (read f >>= next) s = next (f s) s :=
  rfl

theorem bind_of_ok {p : Prog σ ε α} (h : p s = (.ok a, s')) (next : α → Prog σ ε β) :
    (p >>= next) s = next a s' := by
  change (match p s with
    | (.ok a, s) => next a s
    | (.error e, s) => (.error e, s)) = _
  rw [h]

def write (f : σ → σ) : Prog σ ε Unit := fun s => (.ok (), f s)

/-- The result of a program, an exception included. -/
def caught (p : Prog σ ε α) : Prog σ ε (Except ε α) := fun s =>
  match p s with
  | (.ok a, s) => (.ok (.ok a), s)
  | (.error e, s) => (.ok (.error e), s)

/-- From a state with the precondition the program ends in one of the two conditions. -/
def Leads (pre : σ → Prop) (p : Prog σ ε α) (Q : α → σ → Prop) (E : ε → σ → Prop) : Prop :=
  ∀ s, pre s → match p s with
    | (.ok a, s') => Q a s'
    | (.error e, s') => E e s'

variable {pre : σ → Prop} {E : ε → σ → Prop}

theorem Leads.mono {p : Prog σ ε α} {Q Q' : α → σ → Prop} (h : Leads pre p Q E)
    (hpre : ∀ s, pre' s → pre s) (hQ : ∀ a s, Q a s → Q' a s) (hE : ∀ e s, E e s → E' e s) :
    Leads pre' p Q' E' := by
  intro s hs
  have hp := h s (hpre s hs)
  split at hp
  · exact hQ _ _ hp
  · exact hE _ _ hp

theorem Leads.pure (a : α) {Q : α → σ → Prop} (h : ∀ s, pre s → Q a s) :
    Leads pre (Pure.pure a : Prog σ ε α) Q E := h

theorem Leads.raise (e : ε) {Q : α → σ → Prop} (h : ∀ s, pre s → E e s) :
    Leads pre (Prog.raise e) Q E := h

theorem Leads.read (f : σ → α) {Q : α → σ → Prop} (h : ∀ s, pre s → Q (f s) s) :
    Leads pre (Prog.read f) Q E := h

theorem Leads.write (f : σ → σ) {Q : Unit → σ → Prop} (h : ∀ s, pre s → Q () (f s)) :
    Leads pre (Prog.write f) Q E := h

theorem Leads.bind {p : Prog σ ε α} {f : α → Prog σ ε β} {M : α → σ → Prop} {Q : β → σ → Prop}
    (hp : Leads pre p M E) (hf : ∀ a, Leads (M a) (f a) Q E) : Leads pre (p >>= f) Q E := by
  intro s hs
  have hM := hp s hs
  change match (match p s with
      | (.ok a, s) => f a s
      | (.error e, s) => (.error e, s)) with
    | (.ok a, s') => Q a s'
    | (.error e, s') => E e s'
  split at hM
  · exact hf _ _ hM
  · exact hM

/-- Both ways out of a caught program are results. -/
theorem Leads.caught {p : Prog σ ε α} {Q : α → σ → Prop} {F : ε → σ → Prop}
    (h : Leads pre p Q F) {R : Except ε α → σ → Prop} (hok : ∀ a s, Q a s → R (.ok a) s)
    (herror : ∀ e s, F e s → R (.error e) s) : Leads pre (Prog.caught p) R E := by
  intro s hs
  have hp := h s hs
  unfold Prog.caught
  split at hp
  · exact hok _ _ hp
  · exact herror _ _ hp

/-- A condition of the state at the start may be used throughout. -/
theorem Leads.start {p : Prog σ ε α} {Q : α → σ → Prop}
    (h : ∀ s, pre s → Leads (· = s) p Q E) : Leads pre p Q E :=
  fun s hs => h s hs s rfl

theorem Leads.ite {c : Prop} [Decidable c] {p q : Prog σ ε α} {Q : α → σ → Prop}
    (hp : c → Leads pre p Q E) (hq : ¬ c → Leads pre q Q E) :
    Leads pre (if c then p else q) Q E := by
  split
  · exact hp ‹c›
  · exact hq ‹¬ c›

/-- A loop keeps a condition on the items that are left and the value so far. -/
theorem Leads.foldlM {step : β → α → Prog σ ε β} {I : List α → β → σ → Prop}
    (h : ∀ a rest b, Leads (I (a :: rest) b) (step b a) (I rest) E) (items : List α) (b : β) :
    Leads (I items b) (items.foldlM step b) (I []) E := by
  induction items generalizing b with
  | nil => exact Leads.pure b fun s hs => hs
  | cons a rest ih =>
    rw [List.foldlM_cons]
    exact (h a rest b).bind ih

theorem Leads.forM {f : α → Prog σ ε PUnit} {I : List α → σ → Prop}
    (h : ∀ a rest, Leads (I (a :: rest)) (f a) (fun _ => I rest) E) (items : List α) :
    Leads (I items) (items.forM f) (fun _ => I []) E := by
  induction items with
  | nil => exact Leads.pure _ fun s hs => hs
  | cons a rest ih => exact (h a rest).bind fun _ => ih

/-- Whatever the way out, a condition of the state is kept. -/
def Keeps (P : σ → Prop) (p : Prog σ ε α) : Prop := Leads P p (fun _ => P) fun _ => P

variable {P : σ → Prop}

theorem Keeps.pure (a : α) : Keeps P (Pure.pure a : Prog σ ε α) := Leads.pure a fun _ hs => hs

theorem Keeps.raise (e : ε) : Keeps P (Prog.raise e : Prog σ ε α) := Leads.raise e fun _ hs => hs

theorem Keeps.read (f : σ → α) : Keeps P (Prog.read f : Prog σ ε α) := Leads.read f fun _ hs => hs

theorem Keeps.write (f : σ → σ) (h : ∀ s, P s → P (f s)) : Keeps P (Prog.write f : Prog σ ε Unit) :=
  Leads.write f h

theorem Keeps.bind {p : Prog σ ε α} {f : α → Prog σ ε β} (hp : Keeps P p) (hf : ∀ a, Keeps P (f a)) :
    Keeps P (p >>= f) := Leads.bind hp hf

theorem Keeps.ite {c : Prop} [Decidable c] {p q : Prog σ ε α} (hp : c → Keeps P p)
    (hq : ¬ c → Keeps P q) : Keeps P (if c then p else q) := Leads.ite hp hq

theorem Keeps.forM {step : α → Prog σ ε PUnit} (h : ∀ a, Keeps P (step a)) (items : List α) :
    Keeps P (items.forM step) :=
  Leads.forM (I := fun _ => P) (fun a _ => h a) items

/-- Where the ways out are not told apart, the condition holds of the state behind the run. -/
theorem Leads.state {p : Prog σ ε α} {Q : σ → Prop} (h : Leads pre p (fun _ => Q) fun _ => Q) {s : σ}
    (hs : pre s) : Q (p s).2 := by
  have hp := h s hs
  split at hp
  · rename_i hrun
    rw [hrun]
    exact hp
  · rename_i hrun
    rw [hrun]
    exact hp

theorem Keeps.run {p : Prog σ ε α} {s : σ} (h : Keeps P p) (hs : P s) : P (p s).2 := h.state hs

theorem Leads.of_run {p : Prog σ ε α} {Q : σ → Prop} (h : ∀ s, pre s → Q (p s).2) :
    Leads pre p (fun _ => Q) fun _ => Q := by
  intro s hs
  have hp := h s hs
  split
  · rename_i hrun
    rw [hrun] at hp
    exact hp
  · rename_i hrun
    rw [hrun] at hp
    exact hp

/-- A program that throws nothing ends with a value. -/
theorem Leads.ends {p : Prog σ ε α} {Q : α → σ → Prop} (h : Leads pre p Q fun _ _ => False) {s : σ}
    (hs : pre s) : ∃ a s', p s = (.ok a, s') ∧ Q a s' := by
  have hp := h s hs
  split at hp
  · exact ⟨_, _, ‹_›, hp⟩
  · exact hp.elim

end Prog

end Lib.Exceptional
