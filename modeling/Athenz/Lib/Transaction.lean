import Mathlib.Logic.Basic

namespace Lib.Transaction
set_option autoImplicit true

/-- What a statement meets: the time, and a failure with whether a commit it hits was still made. -/
structure Event (ε : Type) where
  time : Int
  fault : Option (ε × Bool) := none

/-- A connection to a store: what is committed, what the connection sees, whether its transaction is
over, so that each statement commits itself, and what its statements will meet. -/
structure Connection (σ ε : Type) where
  committed : σ
  working : σ
  completed : Bool
  events : Nat → Event ε

namespace Connection

variable {σ ε : Type}

def tick (c : Connection σ ε) : Connection σ ε := { c with events := fun n => c.events (n + 1) }

def write (s : σ) (c : Connection σ ε) : Connection σ ε :=
  { c with working := s, committed := if c.completed then s else c.committed }

def rollback (c : Connection σ ε) : Connection σ ε :=
  if c.completed then c else { c with working := c.committed, completed := true }

def faultless (c : Connection σ ε) : Connection σ ε :=
  { c with events := fun n => ⟨(c.events n).time, none⟩ }

end Connection

/-- Programs over a connection; an error keeps the state it leaves. -/
def Tx (σ ε α : Type) := Connection σ ε → Except ε α × Connection σ ε

namespace Tx

variable {σ ε : Type}

instance : Monad (Tx σ ε) where
  pure a := fun c => (.ok a, c)
  bind p f := fun c =>
    match p c with
    | (.ok a, c) => f a c
    | (.error e, c) => (.error e, c)

/-- An exception; the transaction stays open. -/
def raise (e : ε) : Tx σ ε α := fun c => (.error e, c)

/-- An exception behind a rollback. -/
def abort (e : ε) : Tx σ ε α := fun c => (.error e, c.rollback)

def statement (f : Int → σ → Except ε (α × σ)) : Tx σ ε α := fun c =>
  match (c.events 0).fault with
  | some (e, _) => (.error e, c.tick.rollback)
  | none =>
    match f (c.events 0).time c.working with
    | .error e => (.error e, c.tick.rollback)
    | .ok (a, s) => (.ok a, c.tick.write s)

/-- A statement that reads. -/
def query (f : σ → α) : Tx σ ε α := statement fun _ s => .ok (f s, s)

/-- The condition holds, or the transaction is rolled back. -/
def ensure (condition : Bool) (e : ε) : Tx σ ε Unit := if condition then pure () else abort e

/-- The condition holds, or an exception leaves the transaction open. -/
def permit (condition : Bool) (e : ε) : Tx σ ε Unit := if condition then pure () else raise e

/-- A step whose failure is only noted. -/
def quietly (p : Tx σ ε Bool) : Tx σ ε Bool := fun c =>
  match p c with
  | (.ok b, c) => (.ok b, c)
  | (.error _, c) => (.ok false, c)

/-- A commit that fails does not roll back. -/
def commit : Tx σ ε Unit := fun c =>
  if c.completed then (.ok (), c)
  else
    match (c.events 0).fault with
    | some (e, applied) =>
      (.error e, { c.tick with completed := true,
                               committed := if applied then c.working else c.committed })
    | none => (.ok (), { c.tick with completed := true, committed := c.working })

/-- The second step only behind a first one that answers true. -/
def both (p q : Tx σ ε Bool) : Tx σ ε Bool := do
  if ← p then q else pure false

/-- The steps of a loop that stops at the first one that answers false. -/
def forAll (step : α → Tx σ ε Bool) : List α → Tx σ ε Bool
  | [] => pure true
  | a :: items => both (step a) (forAll step items)

theorem bind_apply (p : Tx σ ε α) (f : α → Tx σ ε β) (c : Connection σ ε) :
    (p >>= f) c = match p c with
      | (.ok a, c) => f a c
      | (.error e, c) => (.error e, c) := rfl

theorem bind_eq_ok {p : Tx σ ε α} {f : α → Tx σ ε β} :
    (p >>= f) c = (.ok b, c') ↔ ∃ a d, p c = (.ok a, d) ∧ f a d = (.ok b, c') := by
  rw [bind_apply]
  constructor
  · intro h
    split at h
    · rename_i a d hp
      exact ⟨a, d, hp, h⟩
    · cases h
  · rintro ⟨a, d, hp, hf⟩
    rw [hp]
    exact hf

theorem bind_assoc (p : Tx σ ε α) (f : α → Tx σ ε β) (g : β → Tx σ ε γ) :
    (p >>= f) >>= g = p >>= fun a => f a >>= g := by
  funext c
  rw [bind_apply, bind_apply, bind_apply]
  rcases p c with ⟨_ | a, d⟩
  · rfl
  · rfl

theorem bind_eq_error {p : Tx σ ε α} {f : α → Tx σ ε β} :
    (p >>= f) c = (.error e, c') ↔
      p c = (.error e, c') ∨ ∃ a d, p c = (.ok a, d) ∧ f a d = (.error e, c') := by
  rw [bind_apply]
  split
  · rename_i a d hp
    rw [hp]
    constructor
    · exact fun h => .inr ⟨a, d, rfl, h⟩
    · rintro (h | ⟨_, _, h, hf⟩)
      · cases h
      · cases h
        exact hf
  · rename_i e' d hp
    rw [hp]
    constructor
    · intro h
      cases h
      exact .inl rfl
    · rintro (h | ⟨_, _, h, _⟩)
      · cases h
        rfl
      · cases h

theorem statement_eq_ok {f : Int → σ → Except ε (α × σ)} :
    statement f c = (.ok a, c') ↔ (c.events 0).fault = none ∧
      ∃ s, f (c.events 0).time c.working = .ok (a, s) ∧ c' = c.tick.write s := by
  unfold statement
  split
  · rename_i h
    simp [h]
  · rename_i h
    split
    · rename_i hf
      simp [h, hf]
    · rename_i b s hf
      simp only [h, hf, Prod.mk.injEq, Except.ok.injEq, true_and]
      constructor
      · rintro ⟨rfl, rfl⟩
        exact ⟨s, ⟨rfl, rfl⟩, rfl⟩
      · rintro ⟨s', ⟨rfl, rfl⟩, rfl⟩
        exact ⟨rfl, rfl⟩

theorem rollback_of_completed {c : Connection σ ε} (h : c.completed = true) : c.rollback = c :=
  if_pos h

/-- A statement that commits itself changes nothing when it fails. -/
theorem statement_eq_error {f : Int → σ → Except ε (α × σ)} (hc : c.completed = true)
    (h : statement f c = (.error e, c')) : c' = c.tick := by
  unfold statement at h
  split at h
  · cases h
    exact rollback_of_completed hc
  · split at h
    · cases h
      exact rollback_of_completed hc
    · cases h

theorem query_eq_ok {f : σ → α} :
    (query f : Tx σ ε α) c = (.ok a, c') ↔
      (c.events 0).fault = none ∧ a = f c.working ∧ c' = c.tick.write c.working := by
  rw [query, statement_eq_ok]
  simp only [Except.ok.injEq, Prod.mk.injEq]
  constructor
  · rintro ⟨h, s, ⟨rfl, rfl⟩, rfl⟩
    exact ⟨h, rfl, rfl⟩
  · rintro ⟨h, rfl, rfl⟩
    exact ⟨h, _, ⟨rfl, rfl⟩, rfl⟩

section Rules

/-- Programs that leave the store to the transaction, and whose errors have rolled it back. -/
def Guarded (p : Tx σ ε α) : Prop :=
  ∀ c, c.completed = false → (p c).2.committed = c.committed ∧
    match (p c).1 with
    | .ok _ => (p c).2.completed = false
    | .error _ => (p c).2.completed = true ∧ (p c).2.working = c.committed

/-- Programs that write nothing. -/
def ReadOnly (p : Tx σ ε α) : Prop :=
  ∀ c, (c.completed = true → c.working = c.committed) → (p c).2.committed = c.committed ∧
    match (p c).1 with
    | .ok _ => (p c).2.completed = c.completed ∧ (p c).2.working = c.working
    | .error _ => (p c).2.working = c.working ∨ (p c).2.working = c.committed

/-- Programs that, begun on what is committed, leave it there when they fail. -/
def Atomic (p : Tx σ ε α) : Prop :=
  ∀ c, c.completed = false → c.working = c.committed → (p c).2.committed = c.committed ∧
    match (p c).1 with
    | .ok _ => (p c).2.completed = false
    | .error _ => (p c).2.working = c.committed

/-- What a program does when it succeeds it also does without failures. -/
def Replays (p : Tx σ ε α) : Prop :=
  ∀ c a c', p c = (.ok a, c') → p c.faultless = (.ok a, c'.faultless)

theorem Guarded.pure (a : α) : Guarded (Pure.pure a : Tx σ ε α) := fun _ h => ⟨rfl, h⟩

theorem Guarded.bind {p : Tx σ ε α} {f : α → Tx σ ε β} (hp : Guarded p)
    (hf : ∀ c a c', p c = (.ok a, c') → Guarded (f a)) : Guarded (p >>= f) := by
  intro c hc
  obtain ⟨hcommitted, hresult⟩ := hp c hc
  rw [bind_apply]
  rcases hpc : p c with ⟨_ | a, d⟩
  · rw [hpc] at hcommitted hresult
    exact ⟨hcommitted, hresult⟩
  · rw [hpc] at hcommitted hresult
    obtain ⟨hcommitted', hresult'⟩ := hf c a d hpc d hresult
    dsimp only at hcommitted
    dsimp only
    rw [hcommitted', hcommitted]
    rw [hcommitted] at hresult'
    exact ⟨rfl, hresult'⟩

theorem rollback_completed (c : Connection σ ε) : c.rollback.completed = true := by
  unfold Connection.rollback
  split
  · assumption
  · rfl

theorem rollback_committed (c : Connection σ ε) : c.rollback.committed = c.committed := by
  unfold Connection.rollback
  split
  · rfl
  · rfl

theorem rollback_working {c : Connection σ ε} (h : c.completed = false) :
    c.rollback.working = c.committed := by
  rw [Connection.rollback, h]
  rfl

theorem write_committed {c : Connection σ ε} (h : c.completed = false) (s : σ) :
    (c.tick.write s).committed = c.committed :=
  if_neg (fun hc : c.completed = true => Bool.false_ne_true (h.symm.trans hc))

theorem Guarded.abort (e : ε) : Guarded (Tx.abort e : Tx σ ε α) :=
  fun c h => ⟨rollback_committed c, rollback_completed c, rollback_working h⟩

theorem Guarded.statement (f : Int → σ → Except ε (α × σ)) : Guarded (Tx.statement f) := by
  intro c hc
  have hback : c.tick.rollback.committed = c.committed ∧ c.tick.rollback.completed = true ∧
      c.tick.rollback.working = c.committed :=
    ⟨rollback_committed _, rollback_completed _, rollback_working hc⟩
  unfold Tx.statement
  split
  · exact hback
  · split
    · exact hback
    · rename_i s hs
      exact ⟨write_committed hc s, hc⟩

theorem Guarded.query (f : σ → α) : Guarded (Tx.query f : Tx σ ε α) := .statement _

theorem Guarded.ite {b : Prop} [Decidable b] {p q : Tx σ ε α} (hp : Guarded p) (hq : Guarded q) :
    Guarded (if b then p else q) := by
  split
  · exact hp
  · exact hq

theorem Guarded.ensure (condition : Bool) (e : ε) : Guarded (Tx.ensure condition e : Tx σ ε Unit) :=
  .ite (.pure ()) (.abort e)

theorem rollback_working_cases (c : Connection σ ε) :
    c.rollback.working = c.working ∨ c.rollback.working = c.committed := by
  unfold Connection.rollback
  split
  · exact .inl rfl
  · exact .inr rfl

theorem write_working_committed {c : Connection σ ε}
    (h : c.completed = true → c.working = c.committed) :
    (c.tick.write c.working).committed = c.committed := by
  cases hc : c.completed with
  | true => exact (if_pos hc).trans (h hc)
  | false => exact write_committed hc _

theorem ReadOnly.pure (a : α) : ReadOnly (Pure.pure a : Tx σ ε α) := fun _ _ => ⟨rfl, rfl, rfl⟩

theorem ReadOnly.raise (e : ε) : ReadOnly (Tx.raise e : Tx σ ε α) := fun _ _ => ⟨rfl, .inl rfl⟩

theorem ReadOnly.abort (e : ε) : ReadOnly (Tx.abort e : Tx σ ε α) :=
  fun c _ => ⟨rollback_committed c, rollback_working_cases c⟩

theorem ReadOnly.bind {p : Tx σ ε α} {f : α → Tx σ ε β} (hp : ReadOnly p) (hf : ∀ a, ReadOnly (f a)) :
    ReadOnly (p >>= f) := by
  intro c hc
  obtain ⟨hcommitted, hresult⟩ := hp c hc
  rw [bind_apply]
  rcases hpc : p c with ⟨_ | a, d⟩
  · rw [hpc] at hcommitted hresult
    exact ⟨hcommitted, hresult⟩
  · rw [hpc] at hcommitted hresult
    dsimp only at hcommitted hresult ⊢
    obtain ⟨hcommitted', hresult'⟩ := hf a d (by rw [hresult.1, hresult.2, hcommitted]; exact hc)
    rw [hcommitted', hcommitted]
    rw [hcommitted, hresult.1, hresult.2] at hresult'
    exact ⟨rfl, hresult'⟩

/-- A statement that never changes the store. -/
theorem ReadOnly.statement {f : Int → σ → Except ε (α × σ)}
    (h : ∀ time s a s', f time s = .ok (a, s') → s' = s) : ReadOnly (Tx.statement f) := by
  intro c hc
  unfold Tx.statement
  split
  · exact ⟨rollback_committed _, rollback_working_cases c.tick⟩
  · split
    · exact ⟨rollback_committed _, rollback_working_cases c.tick⟩
    · rename_i a s hs
      rw [h _ _ _ _ hs]
      exact ⟨write_working_committed hc, rfl, rfl⟩

theorem ReadOnly.ite {b : Prop} [Decidable b] {p q : Tx σ ε α} (hp : ReadOnly p) (hq : ReadOnly q) :
    ReadOnly (if b then p else q) := by
  split
  · exact hp
  · exact hq

theorem Guarded.atomic {p : Tx σ ε α} (h : Guarded p) : Atomic p := by
  intro c hc _
  obtain ⟨hcommitted, hresult⟩ := h c hc
  refine ⟨hcommitted, ?_⟩
  split
  · rename_i hok
    rw [hok] at hresult
    exact hresult
  · rename_i herror
    rw [herror] at hresult
    exact hresult.2

/-- Reads first, and then the writes. -/
theorem ReadOnly.atomic_bind {p : Tx σ ε α} {f : α → Tx σ ε β} (hp : ReadOnly p)
    (hf : ∀ c a c', p c = (.ok a, c') → Atomic (f a)) : Atomic (p >>= f) := by
  intro c hc hclean
  obtain ⟨hcommitted, hresult⟩ := hp c fun _ => hclean
  rw [bind_apply]
  rcases hpc : p c with ⟨_ | a, d⟩
  · rw [hpc] at hcommitted hresult
    exact ⟨hcommitted, hresult.elim (fun h => h.trans hclean) id⟩
  · rw [hpc] at hcommitted hresult
    dsimp only at hcommitted hresult ⊢
    obtain ⟨hcommitted', hresult'⟩ :=
      hf c a d hpc d (hresult.1.trans hc) (by rw [hresult.2, hcommitted, hclean])
    rw [hcommitted', hcommitted]
    rw [hcommitted] at hresult'
    exact ⟨rfl, hresult'⟩

theorem ReadOnly.atomic {p : Tx σ ε α} (h : ReadOnly p) : Atomic p := by
  intro c hc hclean
  obtain ⟨hcommitted, hresult⟩ := h c fun _ => hclean
  refine ⟨hcommitted, ?_⟩
  split
  · rename_i hok
    rw [hok] at hresult
    exact hresult.1.trans hc
  · rename_i herror
    rw [herror] at hresult
    exact hresult.elim (fun h => h.trans hclean) id

theorem Replays.pure (a : α) : Replays (Pure.pure a : Tx σ ε α) := by
  intro c b c' h
  cases h
  rfl

theorem Replays.abort (e : ε) : Replays (Tx.abort e : Tx σ ε α) := nofun

theorem Replays.raise (e : ε) : Replays (Tx.raise e : Tx σ ε α) := nofun

theorem Replays.bind {p : Tx σ ε α} {f : α → Tx σ ε β} (hp : Replays p)
    (hf : ∀ c a c', p c = (.ok a, c') → Replays (f a)) : Replays (p >>= f) := by
  intro c b c' h
  obtain ⟨a, d, hpc, hfd⟩ := bind_eq_ok.1 h
  exact bind_eq_ok.2 ⟨a, d.faultless, hp c a d hpc, hf c a d hpc d b c' hfd⟩

theorem Replays.statement (f : Int → σ → Except ε (α × σ)) : Replays (Tx.statement f) := by
  intro c a c' h
  obtain ⟨hfault, s, hs, rfl⟩ := statement_eq_ok.1 h
  exact statement_eq_ok.2 ⟨rfl, s, hs, rfl⟩

theorem Replays.query (f : σ → α) : Replays (Tx.query f : Tx σ ε α) := .statement _

theorem Replays.ite {b : Prop} [Decidable b] {p q : Tx σ ε α} (hp : Replays p) (hq : Replays q) :
    Replays (if b then p else q) := by
  split
  · exact hp
  · exact hq

theorem Replays.ensure (condition : Bool) (e : ε) : Replays (Tx.ensure condition e : Tx σ ε Unit) :=
  .ite (.pure ()) (.abort e)

section Invariants

variable {I : σ → Prop}

/-- Programs that keep a property of the store whatever they meet. -/
def Preserves (I : σ → Prop) (p : Tx σ ε α) : Prop :=
  ∀ c, I c.committed → I c.working → I (p c).2.committed ∧ I (p c).2.working

theorem Preserves.pure (a : α) : Preserves I (Pure.pure a : Tx σ ε α) :=
  fun _ hcommitted hworking => ⟨hcommitted, hworking⟩

theorem Preserves.raise (e : ε) : Preserves I (Tx.raise e : Tx σ ε α) :=
  fun _ hcommitted hworking => ⟨hcommitted, hworking⟩

theorem Preserves.rollback {c : Connection σ ε} (hcommitted : I c.committed) (hworking : I c.working) :
    I c.rollback.committed ∧ I c.rollback.working := by
  rw [rollback_committed]
  refine ⟨hcommitted, ?_⟩
  obtain h | h := rollback_working_cases c
  · rw [h]
    exact hworking
  · rw [h]
    exact hcommitted

theorem Preserves.abort (e : ε) : Preserves I (Tx.abort e : Tx σ ε α) :=
  fun _ hcommitted hworking => Preserves.rollback hcommitted hworking

theorem Preserves.bind {p : Tx σ ε α} {f : α → Tx σ ε β} (hp : Preserves I p)
    (hf : ∀ a, Preserves I (f a)) : Preserves I (p >>= f) := by
  intro c hcommitted hworking
  have hpc := hp c hcommitted hworking
  rw [bind_apply]
  rcases hrun : p c with ⟨e | a, d⟩
  · rw [hrun] at hpc
    exact hpc
  · rw [hrun] at hpc
    exact hf a d hpc.1 hpc.2

theorem Preserves.statement {f : Int → σ → Except ε (α × σ)}
    (h : ∀ time s a s', I s → f time s = .ok (a, s') → I s') : Preserves I (Tx.statement f) := by
  intro c hcommitted hworking
  unfold Tx.statement
  split
  · exact Preserves.rollback (c := c.tick) hcommitted hworking
  · split
    · exact Preserves.rollback (c := c.tick) hcommitted hworking
    · rename_i a s hs
      have hwritten := h _ _ _ _ hworking hs
      refine ⟨?_, hwritten⟩
      unfold Connection.write
      dsimp only
      split
      · exact hwritten
      · exact hcommitted

theorem Preserves.query (f : σ → α) : Preserves I (Tx.query f : Tx σ ε α) := by
  refine .statement fun _ s a s' hs h => ?_
  cases h
  exact hs

theorem Preserves.query_bind {f : σ → α} {g : α → Tx σ ε β} (h : ∀ s, I s → Preserves I (g (f s))) :
    Preserves I (Tx.query f >>= g) := by
  intro c hcommitted hworking
  have hquery := Preserves.query (ε := ε) f c hcommitted hworking
  rw [bind_apply]
  rcases hrun : (Tx.query f : Tx σ ε α) c with ⟨e | a, d⟩
  · rw [hrun] at hquery
    exact hquery
  · rw [hrun] at hquery
    obtain ⟨_, rfl, _⟩ := query_eq_ok.1 hrun
    exact h c.working hworking d hquery.1 hquery.2

theorem Preserves.ite {b : Prop} [Decidable b] {p q : Tx σ ε α} (hp : b → Preserves I p)
    (hq : ¬ b → Preserves I q) : Preserves I (if b then p else q) := by
  split
  · rename_i h
    exact hp h
  · rename_i h
    exact hq h

theorem Preserves.ensure (condition : Bool) (e : ε) :
    Preserves I (Tx.ensure condition e : Tx σ ε Unit) :=
  .ite (fun _ => .pure ()) fun _ => .abort e

theorem Preserves.permit (condition : Bool) (e : ε) :
    Preserves I (Tx.permit condition e : Tx σ ε Unit) :=
  .ite (fun _ => .pure ()) fun _ => .raise e

/-- What follows a condition is only reached behind it. -/
theorem Preserves.permit_bind {condition : Bool} {e : ε} {f : Unit → Tx σ ε α}
    (h : condition = true → Preserves I (f ())) : Preserves I (Tx.permit condition e >>= f) := by
  cases condition with
  | false => exact Preserves.raise e
  | true => exact h rfl

theorem Preserves.both {p q : Tx σ ε Bool} (hp : Preserves I p) (hq : Preserves I q) :
    Preserves I (Tx.both p q) :=
  hp.bind fun _ => .ite (fun _ => hq) fun _ => .pure false

theorem Preserves.forAll {step : α → Tx σ ε Bool} {items : List α}
    (h : ∀ a ∈ items, Preserves I (step a)) : Preserves I (Tx.forAll step items) := by
  induction items with
  | nil => exact .pure true
  | cons a items ih =>
    exact (h a List.mem_cons_self).both (ih fun b hb => h b (List.mem_cons_of_mem a hb))

theorem Preserves.quietly {p : Tx σ ε Bool} (hp : Preserves I p) : Preserves I (Tx.quietly p) := by
  intro c hcommitted hworking
  have hpc := hp c hcommitted hworking
  unfold Tx.quietly
  rcases hrun : p c with ⟨e | b, d⟩
  · rw [hrun] at hpc
    exact hpc
  · rw [hrun] at hpc
    exact hpc

theorem Preserves.commit : Preserves I (Tx.commit : Tx σ ε Unit) := by
  intro c hcommitted hworking
  unfold Tx.commit
  split
  · exact ⟨hcommitted, hworking⟩
  · split
    · refine ⟨?_, hworking⟩
      dsimp only
      split
      · exact hworking
      · exact hcommitted
    · exact ⟨hworking, hworking⟩

end Invariants

/-- Programs whose errors have rolled back what they wrote. -/
structure Writing (p : Tx σ ε α) : Prop where
  guarded : Guarded p
  replays : Replays p

/-- Programs behind whose success the connection sees what it saw before. -/
def Keeps (p : Tx σ ε α) : Prop := ∀ c a c', p c = (.ok a, c') → c'.working = c.working

theorem Keeps.pure (a : α) : Keeps (Pure.pure a : Tx σ ε α) := by
  intro c b c' h
  cases h
  rfl

theorem Keeps.abort (e : ε) : Keeps (Tx.abort e : Tx σ ε α) := nofun

theorem Keeps.raise (e : ε) : Keeps (Tx.raise e : Tx σ ε α) := nofun

theorem Keeps.bind {p : Tx σ ε α} {f : α → Tx σ ε β} (hp : Keeps p) (hf : ∀ a, Keeps (f a)) :
    Keeps (p >>= f) := by
  intro c b c' h
  obtain ⟨a, d, hpc, hfd⟩ := bind_eq_ok.1 h
  rw [hf a d b c' hfd, hp c a d hpc]

theorem Keeps.statement {f : Int → σ → Except ε (α × σ)}
    (h : ∀ time s a s', f time s = .ok (a, s') → s' = s) : Keeps (Tx.statement f) := by
  intro c a c' hc
  obtain ⟨_, s, hs, rfl⟩ := statement_eq_ok.1 hc
  exact h _ _ _ _ hs

theorem Keeps.ite {b : Prop} [Decidable b] {p q : Tx σ ε α} (hp : Keeps p) (hq : Keeps q) :
    Keeps (if b then p else q) := by
  split
  · exact hp
  · exact hq

/-- Programs that only read. -/
structure Reading (p : Tx σ ε α) : Prop where
  readOnly : ReadOnly p
  replays : Replays p
  keeps : Keeps p
  preserves : ∀ I : σ → Prop, Preserves I p

/-- Programs that leave what is committed when they fail. -/
structure Whole (p : Tx σ ε α) : Prop where
  atomic : Atomic p
  replays : Replays p

theorem Writing.pure (a : α) : Writing (Pure.pure a : Tx σ ε α) := ⟨.pure a, .pure a⟩

theorem Writing.abort (e : ε) : Writing (Tx.abort e : Tx σ ε α) := ⟨.abort e, .abort e⟩

theorem Writing.bind {p : Tx σ ε α} {f : α → Tx σ ε β} (hp : Writing p) (hf : ∀ a, Writing (f a)) :
    Writing (p >>= f) :=
  ⟨hp.guarded.bind fun _ a _ _ => (hf a).guarded, hp.replays.bind fun _ a _ _ => (hf a).replays⟩

theorem Writing.statement (f : Int → σ → Except ε (α × σ)) : Writing (Tx.statement f) :=
  ⟨.statement f, .statement f⟩

theorem Writing.query (f : σ → α) : Writing (Tx.query f : Tx σ ε α) := ⟨.query f, .query f⟩

theorem Writing.ite {b : Prop} [Decidable b] {p q : Tx σ ε α} (hp : Writing p) (hq : Writing q) :
    Writing (if b then p else q) :=
  ⟨.ite hp.guarded hq.guarded, .ite hp.replays hq.replays⟩

theorem Writing.ensure (condition : Bool) (e : ε) : Writing (Tx.ensure condition e : Tx σ ε Unit) :=
  ⟨.ensure condition e, .ensure condition e⟩

theorem Writing.both {p q : Tx σ ε Bool} (hp : Writing p) (hq : Writing q) :
    Writing (Tx.both p q) :=
  hp.bind fun _ => .ite hq (.pure false)

theorem Writing.forAll {step : α → Tx σ ε Bool} {items : List α}
    (h : ∀ a ∈ items, Writing (step a)) : Writing (Tx.forAll step items) := by
  induction items with
  | nil => exact .pure true
  | cons a items ih =>
    exact (h a List.mem_cons_self).both (ih fun b hb => h b (List.mem_cons_of_mem a hb))

theorem Reading.pure (a : α) : Reading (Pure.pure a : Tx σ ε α) :=
  ⟨.pure a, .pure a, .pure a, fun _ => .pure a⟩

theorem Reading.raise (e : ε) : Reading (Tx.raise e : Tx σ ε α) :=
  ⟨.raise e, .raise e, .raise e, fun _ => .raise e⟩

theorem Reading.abort (e : ε) : Reading (Tx.abort e : Tx σ ε α) :=
  ⟨.abort e, .abort e, .abort e, fun _ => .abort e⟩

theorem Reading.bind {p : Tx σ ε α} {f : α → Tx σ ε β} (hp : Reading p) (hf : ∀ a, Reading (f a)) :
    Reading (p >>= f) :=
  ⟨hp.readOnly.bind fun a => (hf a).readOnly, hp.replays.bind fun _ a _ _ => (hf a).replays,
    hp.keeps.bind fun a => (hf a).keeps,
    fun I => (hp.preserves I).bind fun a => (hf a).preserves I⟩

theorem Reading.statement {f : Int → σ → Except ε (α × σ)}
    (h : ∀ time s a s', f time s = .ok (a, s') → s' = s) : Reading (Tx.statement f) :=
  ⟨.statement h, .statement f, .statement h, fun _ => .statement fun time s a s' hs hf =>
    h time s a s' hf ▸ hs⟩

theorem Reading.query (f : σ → α) : Reading (Tx.query f : Tx σ ε α) :=
  .statement fun _ _ _ _ h => by cases h; rfl

theorem Reading.ite {b : Prop} [Decidable b] {p q : Tx σ ε α} (hp : Reading p) (hq : Reading q) :
    Reading (if b then p else q) :=
  ⟨.ite hp.readOnly hq.readOnly, .ite hp.replays hq.replays, .ite hp.keeps hq.keeps,
    fun I => .ite (fun _ => hp.preserves I) fun _ => hq.preserves I⟩

theorem Reading.ensure (condition : Bool) (e : ε) : Reading (Tx.ensure condition e : Tx σ ε Unit) :=
  .ite (.pure ()) (.abort e)

theorem Reading.permit (condition : Bool) (e : ε) : Reading (Tx.permit condition e : Tx σ ε Unit) :=
  .ite (.pure ()) (.raise e)

theorem Reading.both {p q : Tx σ ε Bool} (hp : Reading p) (hq : Reading q) :
    Reading (Tx.both p q) :=
  hp.bind fun _ => .ite hq (.pure false)

theorem Reading.forAll {step : α → Tx σ ε Bool} (h : ∀ a, Reading (step a)) (items : List α) :
    Reading (Tx.forAll step items) := by
  induction items with
  | nil => exact .pure true
  | cons a items ih => exact (h a).both ih

theorem Writing.whole {p : Tx σ ε α} (h : Writing p) : Whole p := ⟨h.guarded.atomic, h.replays⟩

theorem Reading.whole {p : Tx σ ε α} (h : Reading p) : Whole p := ⟨h.readOnly.atomic, h.replays⟩

/-- Reads first, and then the writes that can follow them. -/
theorem Reading.whole_bind_of {p : Tx σ ε α} {f : α → Tx σ ε β} (hp : Reading p)
    (hf : ∀ c a c', p c = (.ok a, c') → Whole (f a)) : Whole (p >>= f) :=
  ⟨hp.readOnly.atomic_bind fun c a c' h => (hf c a c' h).atomic,
    hp.replays.bind fun c a c' h => (hf c a c' h).replays⟩

theorem Reading.whole_bind {p : Tx σ ε α} {f : α → Tx σ ε β} (hp : Reading p)
    (hf : ∀ a, Whole (f a)) : Whole (p >>= f) :=
  hp.whole_bind_of fun _ a _ _ => hf a

theorem Writing.query_bind {f : σ → α} {g : α → Tx σ ε β} (h : ∀ s, Writing (g (f s))) :
    Writing (Tx.query f >>= g) := by
  have hquery : ∀ c a c', (Tx.query f : Tx σ ε α) c = (.ok a, c') → Writing (g a) := by
    intro c a c' hrun
    rw [(query_eq_ok.1 hrun).2.1]
    exact h _
  exact ⟨(Guarded.query f).bind fun c a c' hrun => (hquery c a c' hrun).guarded,
    (Replays.query f).bind fun c a c' hrun => (hquery c a c' hrun).replays⟩

theorem Whole.query_bind {f : σ → α} {g : α → Tx σ ε β} (h : ∀ s, Whole (g (f s))) :
    Whole (Tx.query f >>= g) := by
  refine (Reading.query f).whole_bind_of fun c a c' hrun => ?_
  rw [(query_eq_ok.1 hrun).2.1]
  exact h _

end Rules

section Results

/-- What a program that succeeds does to what the connection sees. -/
def Returns (p : Tx σ ε α) (R : σ → α → σ → Prop) : Prop :=
  ∀ c a c', p c = (.ok a, c') → R c.working a c'.working

variable {R R' : σ → α → σ → Prop} {Q Q' : σ → σ → Prop}

theorem Returns.mono {p : Tx σ ε α} (hp : Returns p R) (h : ∀ s a s', R s a s' → R' s a s') :
    Returns p R' :=
  fun c a c' hrun => h _ _ _ (hp c a c' hrun)

theorem Returns.pure (a : α) :
    Returns (Pure.pure a : Tx σ ε α) fun s b s' => b = a ∧ s' = s := by
  intro c b c' h
  cases h
  exact ⟨rfl, rfl⟩

theorem Returns.raise (e : ε) : Returns (Tx.raise e : Tx σ ε α) fun _ _ _ => False := nofun

theorem Returns.abort (e : ε) : Returns (Tx.abort e : Tx σ ε α) fun _ _ _ => False := nofun

theorem Returns.bind {p : Tx σ ε α} {f : α → Tx σ ε β} {T : α → σ → β → σ → Prop}
    (hp : Returns p R) (hf : ∀ a, Returns (f a) (T a)) :
    Returns (p >>= f) fun s b s'' => ∃ a s', R s a s' ∧ T a s' b s'' := by
  intro c b c'' h
  obtain ⟨a, d, hpc, hfd⟩ := bind_eq_ok.1 h
  exact ⟨a, d.working, hp c a d hpc, hf a d b c'' hfd⟩

theorem Returns.statement (f : Int → σ → Except ε (α × σ)) :
    Returns (Tx.statement f) fun s a s' => ∃ time, f time s = .ok (a, s') := by
  intro c a c' h
  obtain ⟨_, s, hs, rfl⟩ := statement_eq_ok.1 h
  exact ⟨_, hs⟩

theorem Returns.query (f : σ → α) :
    Returns (Tx.query f : Tx σ ε α) fun s a s' => a = f s ∧ s' = s := by
  intro c a c' h
  obtain ⟨_, rfl, rfl⟩ := query_eq_ok.1 h
  exact ⟨rfl, rfl⟩

theorem Returns.ensure (condition : Bool) (e : ε) :
    Returns (Tx.ensure condition e : Tx σ ε Unit) fun s _ s' => condition = true ∧ s' = s := by
  unfold Tx.ensure
  split
  · rename_i h
    exact (Returns.pure ()).mono fun _ _ _ hs => ⟨h, hs.2⟩
  · exact (Returns.abort e).mono fun _ _ _ h => h.elim

theorem Returns.permit (condition : Bool) (e : ε) :
    Returns (Tx.permit condition e : Tx σ ε Unit) fun s _ s' => condition = true ∧ s' = s := by
  unfold Tx.permit
  split
  · rename_i h
    exact (Returns.pure ()).mono fun _ _ _ hs => ⟨h, hs.2⟩
  · exact (Returns.raise e).mono fun _ _ _ h => h.elim

theorem Returns.ite {b : Prop} [Decidable b] {p q : Tx σ ε α} (hp : b → Returns p R)
    (hq : ¬ b → Returns q R) : Returns (if b then p else q) R := by
  split
  · rename_i h
    exact hp h
  · rename_i h
    exact hq h

theorem Reading.returns_bind {p : Tx σ ε α} {f : α → Tx σ ε β} {T : σ → β → σ → Prop}
    (hp : Reading p) (hf : ∀ a, Returns (f a) T) : Returns (p >>= f) T := by
  intro c b c' h
  obtain ⟨a, d, hpc, hfd⟩ := bind_eq_ok.1 h
  rw [← hp.keeps c a d hpc]
  exact hf a d b c' hfd

theorem query_map_bind (f : σ → α) (h : α → β) (g : β → Tx σ ε γ) :
    Tx.query (fun s => h (f s)) >>= g = Tx.query f >>= fun a => g (h a) := by
  funext c
  rw [bind_apply, bind_apply]
  unfold Tx.query Tx.statement
  cases (c.events 0).fault with
  | none => rfl
  | some fault => rfl

theorem Returns.query_bind {f : σ → α} {g : α → Tx σ ε β} {T : σ → σ → β → σ → Prop}
    (h : ∀ s, Returns (g (f s)) (T s)) :
    Returns (Tx.query f >>= g) fun s b s' => T s s b s' := by
  intro c b c' hrun
  obtain ⟨_, d, hquery, hg⟩ := bind_eq_ok.1 hrun
  obtain ⟨_, rfl, rfl⟩ := query_eq_ok.1 hquery
  have hworking : (c.tick.write c.working).working = c.working := rfl
  rw [← hworking]
  exact h c.working _ b c' hg

/-- What a program that answers true does to what the connection sees. -/
def Accepts (p : Tx σ ε Bool) (Q : σ → σ → Prop) : Prop :=
  ∀ c c', p c = (.ok true, c') → Q c.working c'.working

theorem Accepts.mono {p : Tx σ ε Bool} (hp : Accepts p Q) (h : ∀ s s', Q s s' → Q' s s') :
    Accepts p Q' :=
  fun c c' hrun => h _ _ (hp c c' hrun)

theorem Returns.toAccepts {p : Tx σ ε Bool} {R : σ → Bool → σ → Prop} (hp : Returns p R) :
    Accepts p fun s s' => R s true s' :=
  fun c c' h => hp c true c' h

theorem Accepts.pure : Accepts (Pure.pure true : Tx σ ε Bool) fun s s' => s' = s := by
  intro c c' h
  cases h
  rfl

theorem Accepts.raise (e : ε) : Accepts (Tx.raise e : Tx σ ε Bool) fun _ _ => False := nofun

theorem Accepts.both {p q : Tx σ ε Bool} (hp : Accepts p Q) (hq : Accepts q Q') :
    Accepts (Tx.both p q) fun s s'' => ∃ s', Q s s' ∧ Q' s' s'' := by
  intro c c' h
  obtain ⟨b, d, hpc, hqd⟩ := bind_eq_ok.1 h
  cases b with
  | true => exact ⟨d.working, hp c d hpc, hq d c' hqd⟩
  | false => cases hqd

theorem Accepts.ite {b : Prop} [Decidable b] {p q : Tx σ ε Bool} (hp : b → Accepts p Q)
    (hq : ¬ b → Accepts q Q) : Accepts (if b then p else q) Q := by
  split
  · rename_i h
    exact hp h
  · rename_i h
    exact hq h

/-- The steps of a loop, one after the other. -/
def Steps (step : α → σ → σ → Prop) : List α → σ → σ → Prop
  | [], s, s' => s' = s
  | a :: items, s, s'' => ∃ s', step a s s' ∧ Steps step items s' s''

theorem Accepts.forAll_keeps {step : α → Tx σ ε Bool} {J : σ → Prop} {items : List α}
    (h : ∀ a ∈ items, Accepts (step a) fun s s' => J s → J s') :
    Accepts (Tx.forAll step items) fun s s' => J s → J s' := by
  induction items with
  | nil => exact Accepts.pure.mono fun _ _ hs => hs ▸ id
  | cons a items ih =>
    refine ((h a List.mem_cons_self).both (ih fun b hb => h b (List.mem_cons_of_mem a hb))).mono ?_
    rintro s s'' ⟨s', hfirst, hrest⟩ hs
    exact hrest (hfirst hs)

/-- A program that asks for true. -/
theorem Accepts.ensure_bind {p : Tx σ ε Bool} (hp : Accepts p Q) (e : ε) :
    Returns (do let done ← p; Tx.ensure done e) fun s _ s' => Q s s' := by
  intro c a c' h
  obtain ⟨b, d, hpc, hd⟩ := bind_eq_ok.1 h
  cases b with
  | true =>
    cases hd
    exact hp c c' hpc
  | false => cases hd

end Results

section Triples

/-- The statements meet only failures of a kind. -/
def Faults (kind : ε → Prop) (events : Nat → Event ε) : Prop :=
  ∀ n e applied, (events n).fault = some (e, applied) → kind e

theorem Faults.shift {kind : ε → Prop} {events : Nat → Event ε} (h : Faults kind events) :
    Faults kind fun n => events (n + 1) := fun n => h (n + 1)

/-- From a state with the first property, and as long as the statements meet failures of a kind
only, a program ends in the second property or fails with an allowed failure. -/
def Triple (kind allowed : ε → Prop) (pre : σ → Prop) (p : Tx σ ε α) (post : α → σ → Prop) : Prop :=
  ∀ c, Faults kind c.events → pre c.working → Faults kind (p c).2.events ∧
    match (p c).1 with
    | .ok a => post a (p c).2.working
    | .error e => allowed e

variable {kind allowed : ε → Prop} {pre : σ → Prop}

theorem Triple.pure {post : α → σ → Prop} {a : α} (h : ∀ s, pre s → post a s) :
    Triple kind allowed pre (Pure.pure a : Tx σ ε α) post :=
  fun c hevents hpre => ⟨hevents, h c.working hpre⟩

theorem Triple.raise {post : α → σ → Prop} {e : ε} (h : allowed e) :
    Triple kind allowed pre (Tx.raise e : Tx σ ε α) post :=
  fun _ hevents _ => ⟨hevents, h⟩

theorem rollback_events (c : Connection σ ε) : c.rollback.events = c.events := by
  unfold Connection.rollback
  split
  · rfl
  · rfl

theorem Triple.abort {post : α → σ → Prop} {e : ε} (h : allowed e) :
    Triple kind allowed pre (Tx.abort e : Tx σ ε α) post := by
  intro c hevents _
  refine ⟨?_, h⟩
  rw [Tx.abort, rollback_events]
  exact hevents

theorem Triple.bind {p : Tx σ ε α} {f : α → Tx σ ε β} {mid : α → σ → Prop} {post : β → σ → Prop}
    (hp : Triple kind allowed pre p mid) (hf : ∀ a, Triple kind allowed (mid a) (f a) post) :
    Triple kind allowed pre (p >>= f) post := by
  intro c hevents hpre
  obtain ⟨hevents', hresult⟩ := hp c hevents hpre
  rw [bind_apply]
  rcases hpc : p c with ⟨e | a, d⟩
  · rw [hpc] at hevents' hresult
    exact ⟨hevents', hresult⟩
  · rw [hpc] at hevents' hresult
    exact hf a d hevents' hresult

theorem Triple.statement {f : Int → σ → Except ε (α × σ)} {post : α → σ → Prop}
    (hkind : ∀ e, kind e → allowed e) (h : ∀ time s, pre s →
      match f time s with
      | .ok (a, s') => post a s'
      | .error e => allowed e) : Triple kind allowed pre (Tx.statement f) post := by
  intro c hevents hpre
  have htick : Faults kind c.tick.events := hevents.shift
  unfold Tx.statement
  split
  · rename_i e applied hfault
    rw [rollback_events]
    exact ⟨htick, hkind e (hevents 0 e applied hfault)⟩
  · have hresult := h (c.events 0).time c.working hpre
    split
    · rename_i e he
      rw [he] at hresult
      rw [rollback_events]
      exact ⟨htick, hresult⟩
    · rename_i a s hs
      rw [hs] at hresult
      exact ⟨htick, hresult⟩

theorem Triple.query {f : σ → α} {post : α → σ → Prop} (hkind : ∀ e, kind e → allowed e)
    (h : ∀ s, pre s → post (f s) s) : Triple kind allowed pre (Tx.query f : Tx σ ε α) post :=
  .statement hkind fun _ s hs => h s hs

theorem Triple.ite {b : Prop} [Decidable b] {p q : Tx σ ε α} {post : α → σ → Prop}
    (hp : b → Triple kind allowed pre p post) (hq : ¬ b → Triple kind allowed pre q post) :
    Triple kind allowed pre (if b then p else q) post := by
  split
  · rename_i h
    exact hp h
  · rename_i h
    exact hq h

theorem Triple.mono {p : Tx σ ε α} {pre' : σ → Prop} {post post' : α → σ → Prop}
    (hp : Triple kind allowed pre p post) (hpre : ∀ s, pre' s → pre s)
    (hpost : ∀ a s, post a s → post' a s) : Triple kind allowed pre' p post' := by
  intro c hevents hs
  obtain ⟨hevents', hresult⟩ := hp c hevents (hpre c.working hs)
  refine ⟨hevents', ?_⟩
  split
  · rename_i a ha
    rw [ha] at hresult
    exact hpost a _ hresult
  · rename_i e he
    rw [he] at hresult
    exact hresult

theorem Triple.ensure {e : ε} (condition : Bool) (h : allowed e) :
    Triple kind allowed pre (Tx.ensure condition e : Tx σ ε Unit) fun _ s => condition = true ∧ pre s :=
  .ite (fun hcondition => .pure fun _ hs => ⟨hcondition, hs⟩) fun _ => .abort h

theorem Triple.permit {e : ε} (condition : Bool) (h : condition = false → allowed e) :
    Triple kind allowed pre (Tx.permit condition e : Tx σ ε Unit) fun _ s => condition = true ∧ pre s :=
  .ite (fun hcondition => .pure fun _ hs => ⟨hcondition, hs⟩)
    fun hcondition => .raise (h (Bool.eq_false_iff.2 hcondition))

end Triples

section Attempts

/-- One use of a connection: it is opened, used and closed, which commits what is still open. -/
def attempt (autoCommit : Bool) (body : Tx σ ε α) (s : σ) (events : Nat → Event ε) :
    Except ε α × σ × (Nat → Event ε) :=
  match (events 0).fault with
  | some (e, _) => (.error e, s, fun n => events (n + 1))
  | none =>
    let (result, c) := body ⟨s, s, autoCommit, fun n => events (n + 1)⟩
    let (_, c) := (commit : Tx σ ε Unit) c
    (result, c.committed, c.events)

/-- The attempt and the retries that are left behind failures that allow one. -/
def attempts (autoCommit : Bool) (retryable : ε → Bool) (body : Tx σ ε α) :
    Nat → σ → (Nat → Event ε) → Except ε α × σ
  | 0, s, events => let (result, s, _) := attempt autoCommit body s events; (result, s)
  | retries + 1, s, events =>
    match attempt autoCommit body s events with
    | (.ok a, s, _) => (.ok a, s)
    | (.error e, s, events) =>
      if retryable e then attempts autoCommit retryable body retries s events else (.error e, s)

/-- A transaction that is committed, behind which the store is stamped with the time. -/
def saved (stamp : Int → σ → σ) (body : Tx σ ε α) : Tx σ ε α := do
  let a ← body
  commit
  statement fun time s => .ok ((), stamp time s)
  pure a

/-- Behind a body that succeeds, a commit that fails has not been made, and the stamp does not
fail. -/
def Settled (body : Tx σ ε α) (s : σ) (events : Nat → Event ε) : Prop :=
  ∀ a c, body ⟨s, s, false, fun n => events (n + 1)⟩ = (.ok a, c) →
    match (c.events 0).fault with
    | some (_, applied) => applied = false
    | none => (c.events 1).fault = none

/-- A condition that every attempt of a run meets. -/
def EveryAttempt (condition : σ → (Nat → Event ε) → Prop) (autoCommit : Bool) (retryable : ε → Bool)
    (p : Tx σ ε α) : Nat → σ → (Nat → Event ε) → Prop
  | 0, s, events => condition s events
  | retries + 1, s, events => condition s events ∧
    match attempt autoCommit p s events with
    | (.ok _, _, _) => True
    | (.error e, s, events) => retryable e = true →
      EveryAttempt condition autoCommit retryable p retries s events

/-- The store after a body that ran once on it, without failures, and was stamped. -/
def AppliedOnce (stamp : Int → σ → σ) (body : Tx σ ε α) (s : σ) (a : α) (s' : σ) : Prop :=
  ∃ c c' time, c.committed = s ∧ c.working = s ∧ c.completed = false ∧ c = c.faultless ∧
    body c = (.ok a, c') ∧ s' = stamp time c'.working

variable {body : Tx σ ε α} {stamp : Int → σ → σ}

theorem saved_apply_ok (h : body c = (.ok a, d)) (hopen : d.completed = false)
    (hcommit : (d.events 0).fault = none) (hstamp : (d.events 1).fault = none) :
    saved stamp body c = (.ok a, (({ d.tick with completed := true, committed := d.working } :
      Connection σ ε).tick.write (stamp (d.events 1).time d.working))) := by
  have hcommitted : (commit : Tx σ ε Unit) d =
      (.ok (), { d.tick with completed := true, committed := d.working }) := by
    rw [commit, hopen, hcommit]
    rfl
  refine bind_eq_ok.2 ⟨a, d, h, bind_eq_ok.2 ⟨(), _, hcommitted, bind_eq_ok.2 ⟨(), _, ?_, rfl⟩⟩⟩
  exact statement_eq_ok.2 ⟨hstamp, _, rfl, rfl⟩

theorem saved_apply_error (h : body c = (.error e, d)) : saved stamp body c = (.error e, d) :=
  bind_eq_error.2 (.inl h)

theorem commit_of_completed {d : Connection σ ε} (h : d.completed = true) :
    (commit : Tx σ ε Unit) d = (.ok (), d) := by
  rw [commit, if_pos h]

theorem commit_of_clean {d : Connection σ ε} (h : d.working = d.committed) :
    ((commit : Tx σ ε Unit) d).2.committed = d.committed := by
  unfold commit
  split
  · rfl
  · split
    · dsimp only
      rw [h, ite_self]
    · exact h

theorem saved_apply_lost (h : body c = (.ok a, d)) (hopen : d.completed = false)
    (hcommit : (d.events 0).fault = some (e, false)) :
    saved stamp body c = (.error e, { d.tick with completed := true }) := by
  have hlost : (commit : Tx σ ε Unit) d = (.error e, { d.tick with completed := true }) := by
    rw [commit, hopen, hcommit]
    rfl
  exact bind_eq_error.2 (.inr ⟨a, d, h, bind_eq_error.2 (.inl hlost)⟩)

theorem saved_apply_unnoticed (h : body c = (.ok a, d)) (hopen : d.completed = false)
    (hcommit : (d.events 0).fault = some (e, true)) :
    saved stamp body c =
      (.error e, { d.tick with completed := true, committed := d.working }) := by
  have hlost : (commit : Tx σ ε Unit) d =
      (.error e, { d.tick with completed := true, committed := d.working }) := by
    rw [commit, hopen, hcommit]
    rfl
  exact bind_eq_error.2 (.inr ⟨a, d, h, bind_eq_error.2 (.inl hlost)⟩)

theorem saved_apply_unstamped (h : body c = (.ok a, d)) (hopen : d.completed = false)
    (hcommit : (d.events 0).fault = none) (hstamp : (d.events 1).fault = some (e, applied)) :
    saved stamp body c = (.error e, ({ d.tick with completed := true, committed := d.working } :
      Connection σ ε).tick) := by
  have hcommitted : (commit : Tx σ ε Unit) d =
      (.ok (), { d.tick with completed := true, committed := d.working }) := by
    rw [commit, hopen, hcommit]
    rfl
  refine bind_eq_error.2 (.inr ⟨a, d, h, bind_eq_error.2 (.inr ⟨(), _, hcommitted,
    bind_eq_error.2 (.inl ?_)⟩)⟩)
  unfold statement
  rw [show (({ d.tick with completed := true, committed := d.working } :
    Connection σ ε).events 0).fault = some (e, applied) from hstamp]
  rfl

/-- What is asked of a run: a failure leaves the store, and a success has made the change. -/
structure AllOrNothing (change : σ → α → σ → Prop) (s : σ) (result : Except ε α × σ) : Prop where
  of_ok : ∀ a, result.1 = .ok a → change s a result.2
  of_error : ∀ e, result.1 = .error e → result.2 = s

theorem AllOrNothing.ok {change : σ → α → σ → Prop} (h : change s a s') :
    AllOrNothing change s ((.ok a, s') : Except ε α × σ) :=
  ⟨fun _ hb => by cases hb; exact h, nofun⟩

theorem AllOrNothing.unchanged (change : σ → α → σ → Prop) (e : ε) (s : σ) :
    AllOrNothing change s ((.error e, s) : Except ε α × σ) :=
  ⟨nofun, fun _ _ => rfl⟩

theorem not_allOrNothing {change : σ → α → σ → Prop} {result : Except ε α × σ}
    (hfailed : result.1.isOk = false) (hchanged : result.2 ≠ s) :
    ¬ AllOrNothing change s result := by
  obtain ⟨e | a, s'⟩ := result
  · exact fun h => hchanged (h.of_error e rfl)
  · cases hfailed

theorem attempt_of_open {p : Tx σ ε α} (h : (events 0).fault = none)
    (hp : p ⟨s, s, autoCommit, fun n => events (n + 1)⟩ = (result, d)) :
    attempt autoCommit p s events = (result, ((commit : Tx σ ε Unit) d).2.committed,
      ((commit : Tx σ ε Unit) d).2.events) := by
  unfold attempt
  rw [h, hp]

/-- A settled attempt is all or nothing. -/
theorem attempt_saved (hatomic : Atomic body) (hreplays : Replays body)
    (hsettled : Settled body s events)
    (hrun : attempt false (saved stamp body) s events = (result, s', events')) :
    AllOrNothing (AppliedOnce stamp body) s (result, s') := by
  cases hopen : (events 0).fault with
  | some fault =>
    unfold attempt at hrun
    rw [hopen] at hrun
    cases hrun
    exact .unchanged _ _ s
  | none =>
    obtain ⟨hcommitted, hresult⟩ := hatomic ⟨s, s, false, fun n => events (n + 1)⟩ rfl rfl
    have hfinish := hsettled
    unfold Settled at hfinish
    rcases hbody : body ⟨s, s, false, fun n => events (n + 1)⟩ with ⟨e | a, d⟩
    · rw [hbody] at hcommitted hresult
      rw [attempt_of_open hopen (saved_apply_error hbody)] at hrun
      cases hrun
      exact ⟨nofun, fun _ _ => (commit_of_clean (hresult.trans hcommitted.symm)).trans hcommitted⟩
    · rw [hbody] at hcommitted hresult
      replace hfinish := hfinish a d hbody
      split at hfinish
      · rename_i e applied hfault
        rw [attempt_of_open hopen (saved_apply_lost hbody hresult (hfinish ▸ hfault)),
          commit_of_completed rfl] at hrun
        cases hrun
        exact ⟨nofun, fun _ _ => hcommitted⟩
      · rename_i hfault
        rw [attempt_of_open hopen (saved_apply_ok hbody hresult hfault hfinish),
          commit_of_completed rfl] at hrun
        cases hrun
        exact .ok ⟨_, _, _, rfl, rfl, rfl, rfl, hreplays _ _ _ hbody, rfl⟩

/-- A run is all or nothing when its attempts are. -/
theorem attempts_allOrNothing {p : Tx σ ε α} {change : σ → α → σ → Prop}
    (hattempt : ∀ s events result s' events', condition s events →
      attempt autoCommit p s events = (result, s', events') → AllOrNothing change s (result, s'))
    (hrun : EveryAttempt condition autoCommit retryable p retries s events) :
    AllOrNothing change s (attempts autoCommit retryable p retries s events) := by
  induction retries generalizing s events with
  | zero =>
    rcases hresult : attempt autoCommit p s events with ⟨result, s', events'⟩
    rw [attempts, hresult]
    exact hattempt s events result s' events' hrun hresult
  | succ retries ih =>
    obtain ⟨hfirst, hrest⟩ := hrun
    rcases hresult : attempt autoCommit p s events with ⟨e | a, s', events'⟩
    · have hsame : s' = s := (hattempt s events _ s' events' hfirst hresult).of_error e rfl
      subst hsame
      rw [hresult] at hrest
      rw [attempts, hresult]
      dsimp only at hrest ⊢
      split
      · rename_i hretry
        exact ih (hrest hretry)
      · exact .unchanged _ e s'
    · rw [attempts, hresult]
      exact hattempt s events _ s' events' hfirst hresult

/-- The store that the last attempt of a run finds. -/
def begun (autoCommit : Bool) (retryable : ε → Bool) (p : Tx σ ε α) :
    Nat → σ → (Nat → Event ε) → σ
  | 0, s, _ => s
  | retries + 1, s, events =>
    match attempt autoCommit p s events with
    | (.ok _, _, _) => s
    | (.error e, s', events') =>
      if retryable e then begun autoCommit retryable p retries s' events' else s

theorem attempts_eq_ok {p : Tx σ ε α}
    (h : attempts autoCommit retryable p retries s events = (.ok a, s')) :
    ∃ events₁ events₂, attempt autoCommit p (begun autoCommit retryable p retries s events) events₁ =
      (.ok a, s', events₂) := by
  induction retries generalizing s events with
  | zero =>
    rcases hrun : attempt autoCommit p s events with ⟨result, t, events'⟩
    rw [attempts, hrun] at h
    cases h
    exact ⟨events, events', hrun⟩
  | succ retries ih =>
    rcases hrun : attempt autoCommit p s events with ⟨e | b, t, events'⟩
    · rw [attempts, hrun] at h
      rw [begun, hrun]
      dsimp only at h ⊢
      split at h
      · rename_i hretry
        rw [if_pos hretry]
        exact ih h
      · cases h
    · rw [attempts, hrun] at h
      rw [begun, hrun]
      cases h
      exact ⟨events, events', hrun⟩

/-- How an attempt can end: unopened, rolled back, committed or not without its stamp, or whole. -/
theorem attempt_saved_cases (hatomic : Atomic body)
    (hrun : attempt false (saved stamp body) s events = (result, s', events')) :
    s' = s ∧ (∀ a, result ≠ .ok a) ∨
    ∃ c c' a, c.working = s ∧ body c = (.ok a, c') ∧
      (s' = c'.working ∧ (∀ a, result ≠ .ok a) ∨
        ∃ time, s' = stamp time c'.working ∧ result = .ok a) := by
  cases hopen : (events 0).fault with
  | some fault =>
    unfold attempt at hrun
    rw [hopen] at hrun
    cases hrun
    exact .inl ⟨rfl, nofun⟩
  | none =>
    obtain ⟨hcommitted, hresult⟩ := hatomic ⟨s, s, false, fun n => events (n + 1)⟩ rfl rfl
    rcases hbody : body ⟨s, s, false, fun n => events (n + 1)⟩ with ⟨e | a, d⟩
    · rw [hbody] at hcommitted hresult
      rw [attempt_of_open hopen (saved_apply_error hbody)] at hrun
      cases hrun
      exact .inl ⟨(commit_of_clean (hresult.trans hcommitted.symm)).trans hcommitted, nofun⟩
    · rw [hbody] at hcommitted hresult
      cases hfault : (d.events 0).fault with
      | some fault =>
        obtain ⟨e, applied⟩ := fault
        cases applied with
        | false =>
          rw [attempt_of_open hopen (saved_apply_lost hbody hresult hfault),
            commit_of_completed rfl] at hrun
          cases hrun
          exact .inl ⟨hcommitted, nofun⟩
        | true =>
          rw [attempt_of_open hopen (saved_apply_unnoticed hbody hresult hfault),
            commit_of_completed rfl] at hrun
          cases hrun
          exact .inr ⟨_, d, a, rfl, hbody, .inl ⟨rfl, nofun⟩⟩
      | none =>
        cases hstamp : (d.events 1).fault with
        | some fault =>
          rw [attempt_of_open hopen (saved_apply_unstamped hbody hresult hfault hstamp),
            commit_of_completed rfl] at hrun
          cases hrun
          exact .inr ⟨_, d, a, rfl, hbody, .inl ⟨rfl, nofun⟩⟩
        | none =>
          rw [attempt_of_open hopen (saved_apply_ok hbody hresult hfault hstamp),
            commit_of_completed rfl] at hrun
          cases hrun
          exact .inr ⟨_, d, a, rfl, hbody, .inr ⟨_, rfl, rfl⟩⟩

/-- A run that succeeds has run the body to its end on what its last attempt found. -/
theorem attempts_saved_eq_ok (hatomic : Atomic body)
    (h : attempts false retryable (saved stamp body) retries s events = (.ok a, s')) :
    ∃ c c' time, c.working = begun false retryable (saved stamp body) retries s events ∧
      body c = (.ok a, c') ∧ s' = stamp time c'.working := by
  obtain ⟨events₁, events₂, hrun⟩ := attempts_eq_ok h
  obtain ⟨_, hne⟩ | ⟨c, c', b, hc, hbody, ⟨_, hne⟩ | ⟨time, hs', hb⟩⟩ :=
    attempt_saved_cases hatomic hrun
  · exact absurd rfl (hne a)
  · exact absurd rfl (hne a)
  · cases hb
    exact ⟨c, c', time, hc, hbody, hs'⟩

theorem attempt_saved_invariant {I : σ → Prop} (hatomic : Atomic body)
    (hbody : Returns body fun s _ s' => I s → I s') (hstamp : ∀ time s, I s → I (stamp time s))
    (hs : I s) : I (attempt false (saved stamp body) s events).2.1 := by
  rcases hrun : attempt false (saved stamp body) s events with ⟨result, s', events'⟩
  obtain ⟨rfl, _⟩ | ⟨c, c', a, rfl, hrun', ⟨rfl, _⟩ | ⟨time, rfl, _⟩⟩ :=
    attempt_saved_cases hatomic hrun
  · exact hs
  · exact hbody c a c' hrun' hs
  · exact hstamp time _ (hbody c a c' hrun' hs)

/-- What the body and the stamp keep, every run keeps, whatever fails. -/
theorem attempts_saved_invariant {I : σ → Prop} (hatomic : Atomic body)
    (hbody : Returns body fun s _ s' => I s → I s') (hstamp : ∀ time s, I s → I (stamp time s))
    (hs : I s) : I (attempts false retryable (saved stamp body) retries s events).2 := by
  induction retries generalizing s events with
  | zero => exact attempt_saved_invariant hatomic hbody hstamp hs
  | succ retries ih =>
    have hnext : I (attempt false (saved stamp body) s events).2.1 :=
      attempt_saved_invariant hatomic hbody hstamp hs
    rw [attempts]
    rcases hrun : attempt false (saved stamp body) s events with ⟨e | a, s', events'⟩
    · rw [hrun] at hnext
      dsimp only
      split
      · exact ih hnext
      · exact hnext
    · rw [hrun] at hnext
      exact hnext

theorem begun_saved_invariant {I : σ → Prop} (hatomic : Atomic body)
    (hbody : Returns body fun s _ s' => I s → I s') (hstamp : ∀ time s, I s → I (stamp time s))
    (hs : I s) : I (begun false retryable (saved stamp body) retries s events) := by
  induction retries generalizing s events with
  | zero => exact hs
  | succ retries ih =>
    have hnext : I (attempt false (saved stamp body) s events).2.1 :=
      attempt_saved_invariant hatomic hbody hstamp hs
    rw [begun]
    rcases hrun : attempt false (saved stamp body) s events with ⟨e | a, s', events'⟩
    · rw [hrun] at hnext
      dsimp only
      split
      · exact ih hnext
      · exact hs
    · exact hs

/-- A run that succeeds ends in what the body makes of what it keeps. -/
theorem attempts_saved_reaches {I J : σ → Prop} (hatomic : Atomic body)
    (hkeep : Returns body fun s _ s' => I s → I s') (hstamp : ∀ time s, I s → I (stamp time s))
    (hmake : Returns body fun s _ s' => I s → J s') (hstamp' : ∀ time s, J s → J (stamp time s))
    (hs : I s) (h : attempts false retryable (saved stamp body) retries s events = (.ok a, s')) :
    J s' := by
  obtain ⟨c, c', time, hc, hbody, rfl⟩ := attempts_saved_eq_ok hatomic h
  have hfound : I c.working := by
    rw [hc]
    exact begun_saved_invariant hatomic hkeep hstamp hs
  exact hstamp' time _ (hmake c a c' hbody hfound)

end Attempts

section Preservation

variable {I J : σ → Prop}

theorem commit_eq_ok {d : Connection σ ε} (h : (commit : Tx σ ε Unit) c = (.ok a, d)) :
    d.completed = true ∧ d.working = c.working := by
  unfold Tx.commit at h
  split at h
  · rename_i hcompleted
    cases h
    exact ⟨hcompleted, rfl⟩
  · split at h
    · cases h
    · cases h
      exact ⟨rfl, rfl⟩

theorem Preserves.saved {body : Tx σ ε α} {stamp : Int → σ → σ} (hbody : Preserves I body)
    (hstamp : ∀ time s, I s → I (stamp time s)) : Preserves I (Tx.saved stamp body) := by
  refine hbody.bind fun a => Preserves.commit.bind fun _ => Preserves.bind ?_ fun _ => .pure a
  refine .statement fun time s _ s' hs h => ?_
  cases h
  exact hstamp time s hs

theorem attempt_preserves {p : Tx σ ε α} (hp : Preserves I p) (hs : I s) :
    I (attempt autoCommit p s events).2.1 := by
  unfold attempt
  split
  · exact hs
  · have hrun := hp ⟨s, s, autoCommit, fun n => events (n + 1)⟩ hs hs
    exact (Preserves.commit _ hrun.1 hrun.2).1

theorem attempts_preserves {p : Tx σ ε α} (hp : Preserves I p) (hs : I s) :
    I (attempts autoCommit retryable p retries s events).2 := by
  induction retries generalizing s events with
  | zero => exact attempt_preserves hp hs
  | succ retries ih =>
    have hnext : I (attempt autoCommit p s events).2.1 := attempt_preserves hp hs
    rw [attempts]
    rcases hrun : attempt autoCommit p s events with ⟨e | a, s', events'⟩
    · rw [hrun] at hnext
      dsimp only
      split
      · exact ih hnext
      · exact hnext
    · rw [hrun] at hnext
      exact hnext

theorem begun_preserves {p : Tx σ ε α} (hp : Preserves I p) (hs : I s) :
    I (begun autoCommit retryable p retries s events) := by
  induction retries generalizing s events with
  | zero => exact hs
  | succ retries ih =>
    have hnext : I (attempt autoCommit p s events).2.1 := attempt_preserves hp hs
    rw [begun]
    rcases hrun : attempt autoCommit p s events with ⟨e | a, s', events'⟩
    · rw [hrun] at hnext
      dsimp only
      split
      · exact ih hnext
      · exact hs
    · exact hs

/-- Programs that keep a property also of what a transaction sees that has begun without it. -/
structure Maintains (I : σ → Prop) (p : Tx σ ε α) : Prop where
  preserves : Preserves I p
  returns : Returns p fun s _ s' => I s → I s'

theorem Maintains.pure (a : α) : Maintains I (Pure.pure a : Tx σ ε α) :=
  ⟨.pure a, (Returns.pure a).mono fun _ _ _ h hs => h.2 ▸ hs⟩

theorem Maintains.raise (e : ε) : Maintains I (Tx.raise e : Tx σ ε α) :=
  ⟨.raise e, (Returns.raise e).mono fun _ _ _ h => h.elim⟩

theorem Maintains.bind {p : Tx σ ε α} {f : α → Tx σ ε β} (hp : Maintains I p)
    (hf : ∀ a, Maintains I (f a)) : Maintains I (p >>= f) := by
  refine ⟨hp.preserves.bind fun a => (hf a).preserves,
    (hp.returns.bind fun a => (hf a).returns).mono ?_⟩
  rintro s b s'' ⟨a, s', hs', hs''⟩ hs
  exact hs'' (hs' hs)

theorem Maintains.ite {b : Prop} [Decidable b] {p q : Tx σ ε α} (hp : b → Maintains I p)
    (hq : ¬ b → Maintains I q) : Maintains I (if b then p else q) := by
  split
  · rename_i h
    exact hp h
  · rename_i h
    exact hq h

theorem Maintains.both {p q : Tx σ ε Bool} (hp : Maintains I p) (hq : Maintains I q) :
    Maintains I (Tx.both p q) :=
  hp.bind fun _ => .ite (fun _ => hq) fun _ => .pure false

theorem Returns.statement_maintains {f : Int → σ → Except ε (α × σ)} {R : σ → α → σ → Prop}
    (hf : Returns (Tx.statement f) R) (h : ∀ s a s', I s → R s a s' → I s') :
    Maintains I (Tx.statement f) := by
  refine ⟨.statement fun time s a s' hs hrun => h s a s' hs ?_,
    hf.mono fun s a s' hR hs => h s a s' hs hR⟩
  exact hf ⟨s, s, false, fun _ => ⟨time, none⟩⟩ a _ (statement_eq_ok.2 ⟨rfl, s', hrun, rfl⟩)

/-- Programs behind whose success, from one property of the store, another one holds. -/
def Establishes (I J : σ → Prop) (p : Tx σ ε α) : Prop :=
  ∀ c a c', I c.working → p c = (.ok a, c') → J c'.committed ∧ J c'.working

theorem Establishes.bind {p : Tx σ ε α} {f : α → Tx σ ε β} (hp : Establishes I J p)
    (hf : ∀ a, Preserves J (f a)) : Establishes I J (p >>= f) := by
  intro c b c' hworking h
  obtain ⟨a, d, hpc, hfd⟩ := bind_eq_ok.1 h
  obtain ⟨hcommitted, hworking⟩ := hp c a d hworking hpc
  have hfinal := hf a d hcommitted hworking
  rw [hfd] at hfinal
  exact hfinal

theorem Establishes.saved {body : Tx σ ε α} {stamp : Int → σ → σ}
    (hbody : Returns body fun s _ s' => I s → J s') (hstamp : ∀ time s, J s → J (stamp time s)) :
    Establishes I J (Tx.saved stamp body) := by
  intro c a c' hworking h
  obtain ⟨a, d, hrun, hrest⟩ := bind_eq_ok.1 h
  obtain ⟨_, d', hcommit, hrest⟩ := bind_eq_ok.1 hrest
  obtain ⟨_, d'', hstamped, hpure⟩ := bind_eq_ok.1 hrest
  obtain ⟨_, s, hs, rfl⟩ := statement_eq_ok.1 hstamped
  cases hpure
  obtain ⟨hcompleted, hunchanged⟩ := commit_eq_ok hcommit
  cases hs
  have hfinal : J (stamp (d'.events 0).time d'.working) := by
    rw [hunchanged]
    exact hstamp _ _ (hbody c a d hrun hworking)
  refine ⟨?_, hfinal⟩
  unfold Connection.write
  dsimp only
  rw [if_pos (show d'.tick.completed = true from hcompleted)]
  exact hfinal

/-- What the last attempt establishes holds in the store that a run that succeeds leaves. -/
theorem attempts_establishes {p : Tx σ ε α} (hp : Preserves I p) (hJ : Establishes I J p) (hs : I s)
    (h : attempts autoCommit retryable p retries s events = (.ok a, s')) : J s' := by
  obtain ⟨events₁, events₂, hrun⟩ := attempts_eq_ok h
  unfold attempt at hrun
  split at hrun
  · cases hrun
  · rcases hbody : p ⟨_, _, autoCommit, fun n => events₁ (n + 1)⟩ with ⟨result, c⟩
    rw [hbody] at hrun
    cases hrun
    obtain ⟨hcommitted, hworking⟩ := hJ _ _ _ (begun_preserves hp hs) hbody
    exact (Preserves.commit c hcommitted hworking).1

end Preservation

end Tx

end Lib.Transaction
