import Athenz.Lib.Transaction

namespace Lib.Transaction.Tx
set_option autoImplicit true

variable {σ ε : Type}

section Evolution

/-- A connection behind its transaction: a statement commits itself, and none fails. -/
structure Quiet (c : Connection σ ε) : Prop where
  completed : c.completed = true
  clean : c.working = c.committed
  faultless : ∀ n, (c.events n).fault = none

/-- What a program does to the store over such a connection. -/
def Evolves (p : Tx σ ε α) (R : σ → Except ε α → σ → Prop) : Prop :=
  ∀ c, Quiet c → Quiet (p c).2 ∧ R c.committed (p c).1 (p c).2.committed

variable {R R' : σ → Except ε α → σ → Prop}

theorem Quiet.tick {c : Connection σ ε} (h : Quiet c) : Quiet c.tick where
  completed := h.completed
  clean := h.clean
  faultless n := h.faultless (n + 1)

theorem Quiet.rollback {c : Connection σ ε} (h : Quiet c) : c.rollback = c :=
  rollback_of_completed h.completed

theorem Quiet.write {c : Connection σ ε} (h : Quiet c) (s : σ) : Quiet (c.write s) where
  completed := h.completed
  clean := by
    rw [Connection.write, if_pos h.completed]
  faultless := h.faultless

theorem Quiet.write_committed {c : Connection σ ε} (h : Quiet c) (s : σ) :
    (c.write s).committed = s :=
  if_pos h.completed

theorem Evolves.mono {p : Tx σ ε α} (hp : Evolves p R) (h : ∀ s r s', R s r s' → R' s r s') :
    Evolves p R' :=
  fun c hc => ⟨(hp c hc).1, h _ _ _ (hp c hc).2⟩

theorem Evolves.pure (a : α) :
    Evolves (Pure.pure a : Tx σ ε α) fun s r s' => r = .ok a ∧ s' = s :=
  fun _ hc => ⟨hc, rfl, rfl⟩

theorem Evolves.abort (e : ε) :
    Evolves (Tx.abort e : Tx σ ε α) fun s r s' => r = .error e ∧ s' = s := by
  intro c hc
  rw [Tx.abort, hc.rollback]
  exact ⟨hc, rfl, rfl⟩

/-- A statement that fails changes nothing. -/
theorem Evolves.statement (f : Int → σ → Except ε (α × σ)) :
    Evolves (Tx.statement f) fun s r s' => ∃ time,
      (∃ a, f time s = .ok (a, s') ∧ r = .ok a) ∨ (∃ e, f time s = .error e ∧ r = .error e ∧ s' = s) := by
  intro c hc
  have hback : c.tick.rollback = c.tick := hc.tick.rollback
  rw [Tx.statement, hc.faultless 0]
  dsimp only
  rw [hc.clean]
  cases hf : f (c.events 0).time c.committed with
  | error e =>
    dsimp only
    rw [hback]
    exact ⟨hc.tick, _, .inr ⟨e, hf, rfl, rfl⟩⟩
  | ok result =>
    obtain ⟨a, s'⟩ := result
    have hwritten : (c.tick.write s').committed = s' := hc.tick.write_committed s'
    dsimp only
    rw [hwritten]
    exact ⟨hc.tick.write s', _, .inl ⟨a, hf, rfl⟩⟩

theorem Evolves.query (f : σ → α) :
    Evolves (Tx.query f : Tx σ ε α) fun s r s' => r = .ok (f s) ∧ s' = s := by
  refine (Evolves.statement _).mono ?_
  rintro s r s' ⟨time, ⟨a, hf, rfl⟩ | ⟨e, hf, _⟩⟩
  · cases hf
    exact ⟨rfl, rfl⟩
  · cases hf

theorem Evolves.bind {p : Tx σ ε α} {f : α → Tx σ ε β} {T : α → σ → Except ε β → σ → Prop}
    (hp : Evolves p R) (hf : ∀ a, Evolves (f a) (T a)) :
    Evolves (p >>= f) fun s r s'' =>
      (∃ e, R s (.error e) s'' ∧ r = .error e) ∨ ∃ a s', R s (.ok a) s' ∧ T a s' r s'' := by
  intro c hc
  obtain ⟨hquiet, hR⟩ := hp c hc
  rw [bind_apply]
  rcases hrun : p c with ⟨e | a, d⟩
  · rw [hrun] at hquiet hR
    exact ⟨hquiet, .inl ⟨e, hR, rfl⟩⟩
  · rw [hrun] at hquiet hR
    obtain ⟨hquiet', hT⟩ := hf a d hquiet
    exact ⟨hquiet', .inr ⟨a, d.committed, hR, hT⟩⟩

theorem Evolves.ite {b : Prop} [Decidable b] {p q : Tx σ ε α} (hp : b → Evolves p R)
    (hq : ¬ b → Evolves q R) : Evolves (if b then p else q) R := by
  split
  · rename_i h
    exact hp h
  · rename_i h
    exact hq h

theorem Evolves.quietly {p : Tx σ ε Bool} {R : σ → Except ε Bool → σ → Prop} (hp : Evolves p R) :
    Evolves (Tx.quietly p) fun s r s' =>
      ∃ b, r = .ok b ∧ (R s (.ok b) s' ∨ b = false ∧ ∃ e, R s (.error e) s') := by
  intro c hc
  obtain ⟨hquiet, hR⟩ := hp c hc
  rw [Tx.quietly]
  rcases hrun : p c with ⟨e | b, d⟩
  · rw [hrun] at hquiet hR
    exact ⟨hquiet, false, rfl, .inr ⟨rfl, e, hR⟩⟩
  · rw [hrun] at hquiet hR
    exact ⟨hquiet, b, rfl, .inl hR⟩

/-- What a program keeps goes along with what it does. -/
theorem Evolves.and_preserves {p : Tx σ ε α} {I : σ → Prop} (hp : Evolves p R)
    (hkeeps : Preserves I p) : Evolves p fun s r s' => R s r s' ∧ (I s → I s') := by
  intro c hc
  obtain ⟨hquiet, hR⟩ := hp c hc
  refine ⟨hquiet, hR, fun hI => (hkeeps c hI ?_).1⟩
  rw [hc.clean]
  exact hI

/-- What a program does may be told by the store that it starts from. -/
theorem Evolves.of_start {p : Tx σ ε α} {T : σ → σ → Except ε α → σ → Prop}
    (hp : ∀ s, Evolves p (T s)) : Evolves p fun s r s' => T s s r s' :=
  fun c hc => hp c.committed c hc

end Evolution

section Lifting

/-- A program on a part of the state; it must not commit. -/
def lift (get : σ' → σ) (put : σ → σ' → σ') (p : Tx σ ε α) : Tx σ' ε α := fun c =>
  match p ⟨get c.committed, get c.working, c.completed, c.events⟩ with
  | (r, d) => (r, {
      committed := put d.committed c.committed
      working := put d.working (if c.completed = d.completed then c.working else c.committed)
      completed := d.completed
      events := d.events })

theorem Evolves.lift {get : σ' → σ} {put : σ → σ' → σ'} {p : Tx σ ε α}
    {R : σ → Except ε α → σ → Prop} (hp : Evolves p R) :
    Evolves (Tx.lift get put p) fun s r s' => ∃ t, R (get s) r t ∧ s' = put t s := by
  intro c hc
  have hquiet : Quiet ⟨get c.committed, get c.working, c.completed, c.events⟩ :=
    ⟨hc.completed, congrArg get hc.clean, hc.faultless⟩
  obtain ⟨hafter, hR⟩ := hp _ hquiet
  unfold Tx.lift
  generalize p ⟨get c.committed, get c.working, c.completed, c.events⟩ = result at hafter hR
  obtain ⟨r, d⟩ := result
  refine ⟨⟨hafter.completed, ?_, hafter.faultless⟩, d.committed, hR, rfl⟩
  dsimp only
  rw [hc.completed, hafter.completed, if_pos rfl, hafter.clean, hc.clean]

end Lifting

section Failures

/-- The failures that a program has of its own. -/
def Throws (allowed : ε → Prop) (p : Tx σ ε α) : Prop :=
  Triple (fun _ => False) allowed (fun _ => True) p fun _ _ => True

variable {allowed : ε → Prop}

theorem Throws.pure (a : α) : Throws allowed (Pure.pure a : Tx σ ε α) := Triple.pure fun _ _ => trivial

theorem Throws.raise {e : ε} (h : allowed e) : Throws allowed (Tx.raise e : Tx σ ε α) :=
  Triple.raise h

theorem Throws.abort {e : ε} (h : allowed e) : Throws allowed (Tx.abort e : Tx σ ε α) :=
  Triple.abort h

theorem Throws.bind {p : Tx σ ε α} {f : α → Tx σ ε β} (hp : Throws allowed p)
    (hf : ∀ a, Throws allowed (f a)) : Throws allowed (p >>= f) :=
  Triple.bind hp hf

theorem Throws.statement {f : Int → σ → Except ε (α × σ)}
    (h : ∀ time s e, f time s = .error e → allowed e) : Throws allowed (Tx.statement f) := by
  refine Triple.statement (fun _ => False.elim) fun time s _ => ?_
  split
  · trivial
  · rename_i e he
    exact h time s e he

theorem Throws.query (f : σ → α) : Throws allowed (Tx.query f : Tx σ ε α) :=
  .statement fun _ _ _ h => nomatch h

theorem Throws.ite {b : Prop} [Decidable b] {p q : Tx σ ε α} (hp : b → Throws allowed p)
    (hq : ¬ b → Throws allowed q) : Throws allowed (if b then p else q) :=
  Triple.ite hp hq

theorem Throws.ensure {e : ε} (condition : Bool) (h : allowed e) :
    Throws allowed (Tx.ensure condition e : Tx σ ε Unit) :=
  .ite (fun _ => .pure ()) fun _ => .abort h

theorem Throws.both {p q : Tx σ ε Bool} (hp : Throws allowed p) (hq : Throws allowed q) :
    Throws allowed (Tx.both p q) :=
  hp.bind fun _ => .ite (fun _ => hq) fun _ => .pure false

theorem Throws.quietly {p : Tx σ ε Bool} {anything : ε → Prop} (hp : Throws anything p) :
    Throws allowed (Tx.quietly p) := by
  intro c hevents _
  have hrun := (hp c hevents trivial).1
  rw [Tx.quietly]
  rcases hpc : p c with ⟨e | b, d⟩
  · rw [hpc] at hrun
    exact ⟨hrun, trivial⟩
  · rw [hpc] at hrun
    exact ⟨hrun, trivial⟩

theorem commit_events (c : Connection σ ε) :
    ((commit : Tx σ ε Unit) c).2.events = c.events ∨
      ((commit : Tx σ ε Unit) c).2.events = c.tick.events := by
  unfold commit
  split
  · exact .inl rfl
  · split
    · exact .inr rfl
    · exact .inr rfl

theorem Faults.commit {kind : ε → Prop} {c : Connection σ ε} (h : Faults kind c.events) :
    Faults kind ((Tx.commit : Tx σ ε Unit) c).2.events := by
  obtain hsame | hticked := commit_events c
  · rw [hsame]
    exact h
  · rw [hticked]
    exact h.shift

theorem faults_none {events : Nat → Event ε} :
    Faults (fun _ => False) events ↔ ∀ n, (events n).fault = none := by
  constructor
  · intro h n
    cases hfault : (events n).fault with
    | none => rfl
    | some fault => exact (h n fault.1 fault.2 hfault).elim
  · intro h n e applied hfault
    rw [h n] at hfault
    cases hfault

theorem Throws.commit : Throws allowed (Tx.commit : Tx σ ε Unit) := by
  intro c hevents _
  refine ⟨hevents.commit, ?_⟩
  have hnone : (c.events 0).fault = none := faults_none.1 hevents 0
  cases hcompleted : c.completed with
  | true =>
    rw [commit_of_completed hcompleted]
    trivial
  | false =>
    rw [Tx.commit, hcompleted, hnone]
    trivial

/-- Without failures of the store a program is run once, when its own failures allow no retry. -/
theorem attempts_of_throws {p : Tx σ ε α} (hp : Throws (fun e => retryable e = false) p)
    (hevents : ∀ n, (events n).fault = none) (retries : Nat) (s : σ) :
    attempts autoCommit retryable p retries s events =
      ((attempt autoCommit p s events).1, (attempt autoCommit p s events).2.1) := by
  cases retries with
  | zero => rfl
  | succ retries =>
    have hrun := (hp ⟨s, s, autoCommit, fun n => events (n + 1)⟩
      (faults_none.2 fun n => hevents (n + 1)) trivial).2
    rw [attempts, attempt, hevents 0]
    dsimp only
    rcases hbody : p ⟨s, s, autoCommit, fun n => events (n + 1)⟩ with ⟨e | a, d⟩
    · rw [hbody] at hrun
      dsimp only at hrun ⊢
      rw [hrun]
      rfl
    · rfl

/-- A commit that does not fail leaves what the transaction saw. -/
theorem quiet_commit {d : Connection σ ε} (hopen : d.completed = false)
    (hevents : ∀ n, (d.events n).fault = none) :
    ∃ d', (commit : Tx σ ε Unit) d = (.ok (), d') ∧ Quiet d' ∧ d'.committed = d.working := by
  refine ⟨{ d.tick with completed := true, committed := d.working }, ?_,
    ⟨rfl, rfl, fun n => hevents (n + 1)⟩, rfl⟩
  rw [commit, hopen, hevents 0]
  rfl

/-- An attempt that succeeds without failures of the store: a transaction, and what follows its
commit. -/
theorem attempt_committed {body : Tx σ ε α} {rest : α → Tx σ ε β} {R : α → σ → Except ε β → σ → Prop}
    (hatomic : Atomic body) (hbody : Throws allowed body)
    (hrest : ∀ a, Evolves (rest a) (R a)) (hevents : ∀ n, (events n).fault = none)
    (h : attempt false (do let a ← body; commit; rest a) s events = (.ok b, s', events')) :
    ∃ c a c', c.working = s ∧ body c = (.ok a, c') ∧ R a c'.working (.ok b) s' := by
  have hopened := hatomic ⟨s, s, false, fun n => events (n + 1)⟩ rfl rfl
  have hfaults := (hbody ⟨s, s, false, fun n => events (n + 1)⟩
    (faults_none.2 fun n => hevents (n + 1)) trivial).1
  rw [attempt, hevents 0] at h
  dsimp only at h
  rw [bind_apply] at h
  rcases hrun : body ⟨s, s, false, fun n => events (n + 1)⟩ with ⟨e | a, d⟩
  · rw [hrun] at h
    cases h
  · rw [hrun] at h hopened hfaults
    obtain ⟨d', hcommit, hquiet, hcommitted⟩ := quiet_commit hopened.2 (faults_none.1 hfaults)
    obtain ⟨hquiet', hR⟩ := hrest a d' hquiet
    dsimp only at h
    rw [bind_apply, hcommit] at h
    dsimp only at h
    rw [commit_of_completed hquiet'.completed, Prod.mk.injEq, Prod.mk.injEq] at h
    rw [h.1, h.2.1, hcommitted] at hR
    exact ⟨_, a, d, rfl, hrun, hR⟩

end Failures

end Lib.Transaction.Tx
