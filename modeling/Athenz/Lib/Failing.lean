import Athenz.Lib.Transaction

namespace Lib.Transaction
set_option autoImplicit true

variable {σ ε : Type}

/-- Over a connection whose transaction is open, a program that fails leaves a property in what will
be committed, and one that ends has kept it in what is. -/
def Tx.Secure (I pre : σ → Prop) (p : Tx σ ε α) (Q : α → σ → Prop) : Prop :=
  ∀ c, c.completed = false → I c.committed → pre c.working → I (p c).2.committed ∧
    match (p c).1 with
    | .ok a => (p c).2.completed = false ∧ Q a (p c).2.working
    | .error _ => (p c).2.completed = false → I (p c).2.working

namespace Tx

section Secure

variable {I pre pre' : σ → Prop} {Q Q' : α → σ → Prop}

theorem Secure.mono {p : Tx σ ε α} (h : Secure I pre p Q) (hpre : ∀ s, pre' s → pre s)
    (hpost : ∀ a s, Q a s → Q' a s) : Secure I pre' p Q' := by
  intro c hopen hcommitted hworking
  obtain ⟨hkept, hresult⟩ := h c hopen hcommitted (hpre _ hworking)
  refine ⟨hkept, ?_⟩
  split
  · rename_i a hok
    rw [hok] at hresult
    exact ⟨hresult.1, hpost a _ hresult.2⟩
  · rename_i e herror
    rw [herror] at hresult
    exact hresult

theorem Secure.pure (a : α) : Secure I (Q a) (Pure.pure a : Tx σ ε α) Q :=
  fun _ hopen hcommitted hworking => ⟨hcommitted, hopen, hworking⟩

/-- An exception that leaves the transaction open has its changes committed. -/
theorem Secure.raise (e : ε) (h : ∀ s, pre s → I s) : Secure I pre (Tx.raise e : Tx σ ε α) Q :=
  fun _ _ hcommitted hworking => ⟨hcommitted, fun _ => h _ hworking⟩

theorem Secure.of_false {p : Tx σ ε α} (h : ∀ s, ¬ pre s) : Secure I pre p Q :=
  fun c _ _ hworking => absurd hworking (h c.working)

theorem Secure.abort (e : ε) : Secure I pre (Tx.abort e : Tx σ ε α) Q := by
  intro c _ hcommitted _
  refine ⟨?_, fun hopen => ?_⟩
  · rw [show (Tx.abort e c : Except ε α × Connection σ ε).2 = c.rollback from rfl,
      rollback_committed]
    exact hcommitted
  · have hdone := rollback_completed c
    rw [show (Tx.abort e c : Except ε α × Connection σ ε).2 = c.rollback from rfl, hdone] at hopen
    cases hopen

theorem Secure.bind {p : Tx σ ε α} {f : α → Tx σ ε β} {M : α → σ → Prop} {Q : β → σ → Prop}
    (hp : Secure I pre p M) (hf : ∀ a, Secure I (M a) (f a) Q) :
    Secure I pre (p >>= f) Q := by
  intro c hopen hcommitted hworking
  obtain ⟨hkept, hresult⟩ := hp c hopen hcommitted hworking
  rw [bind_apply]
  rcases hrun : p c with ⟨e | a, d⟩
  · rw [hrun] at hkept hresult
    exact ⟨hkept, hresult⟩
  · rw [hrun] at hkept hresult
    exact hf a d hresult.1 hkept hresult.2

theorem Secure.statement {f : Int → σ → Except ε (α × σ)}
    (h : ∀ time s a s', pre s → f time s = .ok (a, s') → Q a s') :
    Secure I pre (Tx.statement f) Q := by
  intro c hopen hcommitted hworking
  have hback : I c.tick.rollback.committed ∧ (c.tick.rollback.completed = false →
      I c.tick.rollback.working) := by
    rw [rollback_committed, rollback_completed]
    exact ⟨hcommitted, nofun⟩
  unfold Tx.statement
  split
  · exact hback
  · split
    · exact hback
    · rename_i a s hs
      refine ⟨?_, hopen, h _ _ _ _ hworking hs⟩
      rw [show (c.tick.write s).committed = c.committed from write_committed hopen s]
      exact hcommitted

theorem Secure.query {f : σ → α} (h : ∀ s, pre s → Q (f s) s) :
    Secure I pre (Tx.query f : Tx σ ε α) Q := by
  refine .statement fun _ s a s' hs hrun => ?_
  cases hrun
  exact h s hs

theorem Secure.ite {b : Prop} [Decidable b] {p q : Tx σ ε α} (hp : b → Secure I pre p Q)
    (hq : ¬ b → Secure I pre q Q) : Secure I pre (if b then p else q) Q := by
  split
  · rename_i h
    exact hp h
  · rename_i h
    exact hq h

theorem Secure.permit {condition : Bool} {e : ε} {Q : Unit → σ → Prop}
    (hok : condition = true → ∀ s, pre s → Q () s) (herror : condition = false → ∀ s, pre s → I s) :
    Secure I pre (Tx.permit condition e : Tx σ ε Unit) Q := by
  cases condition with
  | true => exact (Secure.pure ()).mono (hok rfl) fun _ _ h => h
  | false => exact .raise e (herror rfl)

theorem Secure.ensure {condition : Bool} {e : ε} {Q : Unit → σ → Prop}
    (hok : condition = true → ∀ s, pre s → Q () s) :
    Secure I pre (Tx.ensure condition e : Tx σ ε Unit) Q := by
  cases condition with
  | true => exact (Secure.pure ()).mono (hok rfl) fun _ _ h => h
  | false => exact .abort e

theorem commit_leaves {d : Connection σ ε} (hcommitted : I d.committed)
    (hworking : d.completed = false → I d.working) : I ((commit : Tx σ ε Unit) d).2.committed := by
  cases hdone : d.completed with
  | true =>
    rw [commit_of_completed hdone]
    exact hcommitted
  | false =>
    have hlast := hworking hdone
    unfold commit
    rw [hdone]
    dsimp only
    cases (d.events 0).fault with
    | none => exact hlast
    | some fault =>
      rcases fault with ⟨e, _ | _⟩
      · exact hcommitted
      · exact hlast

/-- An attempt that fails leaves the property, if its commit is settled. -/
theorem Secure.attempt {body : Tx σ ε α} {stamp : Int → σ → σ} (hbody : Secure I pre body Q)
    (hs : I s) (hpre : pre s) (hsettled : Settled body s events)
    (hrun : attempt false (saved stamp body) s events = (.error e, s', events')) : I s' := by
  cases hopen : (events 0).fault with
  | some fault =>
    unfold Tx.attempt at hrun
    rw [hopen] at hrun
    cases hrun
    exact hs
  | none =>
    obtain ⟨hkept, hresult⟩ := hbody ⟨s, s, false, fun n => events (n + 1)⟩ rfl hs hpre
    have hfinish := hsettled
    unfold Settled at hfinish
    rcases hrunBody : body ⟨s, s, false, fun n => events (n + 1)⟩ with ⟨e' | a, d⟩
    · rw [hrunBody] at hkept hresult
      rw [attempt_of_open hopen (saved_apply_error hrunBody)] at hrun
      cases hrun
      exact commit_leaves hkept hresult
    · rw [hrunBody] at hkept hresult
      replace hfinish := hfinish a d hrunBody
      split at hfinish
      · rename_i e' applied hfault
        rw [attempt_of_open hopen (saved_apply_lost hrunBody hresult.1 (hfinish ▸ hfault)),
          commit_of_completed rfl] at hrun
        cases hrun
        exact hkept
      · rename_i hfault
        rw [attempt_of_open hopen (saved_apply_ok hrunBody hresult.1 hfault hfinish),
          commit_of_completed rfl] at hrun
        cases hrun

/-- A run that fails leaves what each of its attempts leaves when it fails. -/
theorem attempts_error_invariant {p : Tx σ ε α} {I : σ → Prop}
    {condition : σ → (Nat → Event ε) → Prop}
    (hattempt : ∀ s events e s' events', I s → condition s events →
      attempt autoCommit p s events = (.error e, s', events') → I s') (hs : I s)
    (hrun : EveryAttempt condition autoCommit retryable p retries s events)
    (hresult : attempts autoCommit retryable p retries s events = (.error e, s')) : I s' := by
  induction retries generalizing s events with
  | zero =>
    rcases hlast : attempt autoCommit p s events with ⟨result, t, events'⟩
    rw [attempts, hlast] at hresult
    cases hresult
    exact hattempt s events e s' events' hs hrun hlast
  | succ retries ih =>
    obtain ⟨hfirst, hrest⟩ := hrun
    rcases hlast : attempt autoCommit p s events with ⟨e' | a, t, events'⟩
    · have hkept := hattempt s events e' t events' hs hfirst hlast
      rw [hlast] at hrest
      rw [attempts, hlast] at hresult
      dsimp only at hrest hresult
      split at hresult
      · rename_i hretry
        exact ih hkept (hrest hretry) hresult
      · cases hresult
        exact hkept
    · rw [attempts, hlast] at hresult
      cases hresult

end Secure

section Ends

/-- The transaction is open, the connection sees a state and meets no failure. -/
structure Opened (s : σ) (c : Connection σ ε) : Prop where
  working : c.working = s
  opened : c.completed = false
  faultless : ∀ n, (c.events n).fault = none

/-- How a program ends that meets no failure; its transaction stays open. -/
def Ends (p : Tx σ ε α) (s : σ) (result : Except ε α) (s' : σ) : Prop :=
  ∀ c, Opened s c → ∃ c', p c = (result, c') ∧ Opened s' c'

theorem Ends.pure (a : α) (s : σ) : Ends (Pure.pure a : Tx σ ε α) s (.ok a) s :=
  fun c hc => ⟨c, rfl, hc⟩

theorem Ends.raise (e : ε) (s : σ) : Ends (Tx.raise e : Tx σ ε α) s (.error e) s :=
  fun c hc => ⟨c, rfl, hc⟩

theorem Ends.bind {p : Tx σ ε α} {f : α → Tx σ ε β} (hp : Ends p s (.ok a) s')
    (hf : Ends (f a) s' result s'') : Ends (p >>= f) s result s'' := by
  intro c hc
  obtain ⟨c', hrun, hc'⟩ := hp c hc
  rw [bind_apply, hrun]
  exact hf c' hc'

theorem Ends.bind_error {p : Tx σ ε α} {f : α → Tx σ ε β} (hp : Ends p s (.error e) s') :
    Ends (p >>= f) s (.error e) s' := by
  intro c hc
  obtain ⟨c', hrun, hc'⟩ := hp c hc
  rw [bind_apply, hrun]
  exact ⟨c', rfl, hc'⟩

theorem Ends.statement {f : Int → σ → Except ε (α × σ)} (h : ∀ time, f time s = .ok (a, s')) :
    Ends (Tx.statement f) s (.ok a) s' := by
  intro c hc
  have hf : f (c.events 0).time c.working = .ok (a, s') := by
    rw [hc.working]
    exact h _
  exact ⟨_, statement_eq_ok.2 ⟨hc.faultless 0, s', hf, rfl⟩, rfl, hc.opened,
    fun n => hc.faultless (n + 1)⟩

theorem Ends.query (f : σ → α) (s : σ) : Ends (Tx.query f : Tx σ ε α) s (.ok (f s)) s :=
  .statement fun _ => rfl

theorem Ends.permit {condition : Bool} (e : ε) (s : σ) (h : condition = true) :
    Ends (Tx.permit condition e : Tx σ ε Unit) s (.ok ()) s := by
  rw [h]
  exact .pure () s

theorem Ends.refuse {condition : Bool} (e : ε) (s : σ) (h : condition = false) :
    Ends (Tx.permit condition e : Tx σ ε Unit) s (.error e) s := by
  rw [h]
  exact .raise e s

theorem Ends.ensure {condition : Bool} (e : ε) (s : σ) (h : condition = true) :
    Ends (Tx.ensure condition e : Tx σ ε Unit) s (.ok ()) s := by
  rw [h]
  exact .pure () s

/-- A body that fails in an open transaction has its changes committed behind it. -/
theorem Ends.attempt_error {body : Tx σ ε α} {stamp : Int → σ → σ}
    (h : Ends body s (.error e) s') (hevents : ∀ n, (events n).fault = none) :
    ∃ events', attempt false (saved stamp body) s events = (.error e, s', events') := by
  obtain ⟨c, hrun, hc⟩ := h ⟨s, s, false, fun n => events (n + 1)⟩
    ⟨rfl, rfl, fun n => hevents (n + 1)⟩
  rw [attempt_of_open (hevents 0) (saved_apply_error hrun), commit, hc.opened]
  dsimp only
  rw [hc.faultless 0, hc.working]
  exact ⟨_, rfl⟩

theorem Ends.everyAttempt_settled {body : Tx σ ε α} {stamp : Int → σ → σ}
    (h : Ends body s (.error e) s') (hretry : retryable e = false) (retries : Nat)
    (hevents : ∀ n, (events n).fault = none) :
    EveryAttempt (Settled body) false retryable (saved stamp body) retries s events := by
  have hsettled : Settled body s events := by
    intro a c hok
    obtain ⟨c', hrun, _⟩ := h ⟨s, s, false, fun n => events (n + 1)⟩
      ⟨rfl, rfl, fun n => hevents (n + 1)⟩
    rw [hrun] at hok
    cases hok
  cases retries with
  | zero => exact hsettled
  | succ retries =>
    refine ⟨hsettled, ?_⟩
    obtain ⟨events', hattempt⟩ : ∃ events', attempt false (saved stamp body) s events =
      (.error e, s', events') := h.attempt_error hevents
    rw [hattempt]
    intro hagain
    rw [hretry] at hagain
    cases hagain

theorem Ends.attempts_error {body : Tx σ ε α} {stamp : Int → σ → σ}
    (h : Ends body s (.error e) s') (hretry : retryable e = false) (retries : Nat)
    (hevents : ∀ n, (events n).fault = none) :
    attempts false retryable (saved stamp body) retries s events = (.error e, s') := by
  obtain ⟨events', hattempt⟩ : ∃ events', attempt false (saved stamp body) s events =
    (.error e, s', events') := h.attempt_error hevents
  cases retries with
  | zero => rw [attempts, hattempt]
  | succ retries =>
    rw [attempts, hattempt]
    dsimp only
    rw [hretry]
    rfl

end Ends

section Endings

/-- Programs whose statements all commit themselves when the first one does. -/
def Aligned (p : Tx σ ε α) : Prop :=
  ∀ c, c.completed = true → c.working = c.committed →
    (p c).2.completed = true ∧ (p c).2.working = (p c).2.committed

theorem Aligned.pure (a : α) : Aligned (Pure.pure a : Tx σ ε α) := fun _ hdone hclean => ⟨hdone, hclean⟩

theorem Aligned.raise (e : ε) : Aligned (Tx.raise e : Tx σ ε α) := fun _ hdone hclean => ⟨hdone, hclean⟩

theorem Aligned.abort (e : ε) : Aligned (Tx.abort e : Tx σ ε α) := by
  intro c hdone hclean
  rw [Tx.abort, rollback_of_completed hdone]
  exact ⟨hdone, hclean⟩

theorem Aligned.bind {p : Tx σ ε α} {f : α → Tx σ ε β} (hp : Aligned p) (hf : ∀ a, Aligned (f a)) :
    Aligned (p >>= f) := by
  intro c hdone hclean
  have hnext := hp c hdone hclean
  rw [bind_apply]
  rcases hrun : p c with ⟨e | a, d⟩
  · rw [hrun] at hnext
    exact hnext
  · rw [hrun] at hnext
    exact hf a d hnext.1 hnext.2

theorem Aligned.statement (f : Int → σ → Except ε (α × σ)) : Aligned (Tx.statement f) := by
  intro c hdone hclean
  have hback : c.tick.rollback = c.tick := rollback_of_completed hdone
  unfold Tx.statement
  split
  · rw [hback]
    exact ⟨hdone, hclean⟩
  · split
    · rw [hback]
      exact ⟨hdone, hclean⟩
    · exact ⟨hdone, (if_pos hdone).symm⟩

theorem Aligned.query (f : σ → α) : Aligned (Tx.query f : Tx σ ε α) := .statement _

theorem Aligned.ite {b : Prop} [Decidable b] {p q : Tx σ ε α} (hp : Aligned p) (hq : Aligned q) :
    Aligned (if b then p else q) := by
  split
  · exact hp
  · exact hq

theorem Aligned.permit (condition : Bool) (e : ε) : Aligned (Tx.permit condition e : Tx σ ε Unit) :=
  .ite (.pure ()) (.raise e)

theorem Aligned.ensure (condition : Bool) (e : ε) : Aligned (Tx.ensure condition e : Tx σ ε Unit) :=
  .ite (.pure ()) (.abort e)

theorem attempt_eq_ok {p : Tx σ ε α} (h : attempt autoCommit p s events = (.ok a, s', events')) :
    ∃ events₁ d, p ⟨s, s, autoCommit, events₁⟩ = (.ok a, d) ∧
      s' = ((commit : Tx σ ε Unit) d).2.committed := by
  cases hopen : (events 0).fault with
  | some fault =>
    unfold attempt at h
    rw [hopen] at h
    cases h
  | none =>
    rcases hrun : p ⟨s, s, autoCommit, fun n => events (n + 1)⟩ with ⟨result, d⟩
    rw [attempt_of_open hopen hrun] at h
    cases h
    exact ⟨_, d, hrun, rfl⟩

/-- An attempt that succeeds has made the change of its body. -/
theorem attempt_saved_ok {body : Tx σ ε α} {stamp : Int → σ → σ} {R : σ → α → σ → Prop}
    (hbody : Returns body R)
    (h : attempt false (saved stamp body) s events = (.ok a, s', events')) :
    ∃ s₁ time, R s a s₁ ∧ s' = stamp time s₁ := by
  obtain ⟨events₁, d, hrun, rfl⟩ := attempt_eq_ok h
  obtain ⟨b, d₁, hfirst, hrest⟩ := bind_eq_ok.1 hrun
  obtain ⟨_, d₂, hcommit, hrest⟩ := bind_eq_ok.1 hrest
  obtain ⟨_, d₃, hstamp, hpure⟩ := bind_eq_ok.1 hrest
  cases hpure
  obtain ⟨hdone, hworking⟩ := commit_eq_ok hcommit
  obtain ⟨_, s₂, hs₂, rfl⟩ := statement_eq_ok.1 hstamp
  cases hs₂
  have hdone' : (d₂.tick.write (stamp (d₂.events 0).time d₂.working)).completed = true := hdone
  refine ⟨d₁.working, (d₂.events 0).time, hbody _ _ _ hfirst, ?_⟩
  rw [commit_of_completed hdone', ← hworking]
  exact if_pos hdone

theorem attempt_aligned_ok {p : Tx σ ε α} {R : σ → α → σ → Prop} (hp : Returns p R)
    (haligned : Aligned p) (h : attempt true p s events = (.ok a, s', events')) : R s a s' := by
  obtain ⟨events₁, d, hrun, rfl⟩ := attempt_eq_ok h
  have hclean := haligned ⟨s, s, true, events₁⟩ rfl rfl
  rw [hrun] at hclean
  rw [commit_of_completed hclean.1]
  have hmade := hp _ _ _ hrun
  rw [hclean.2] at hmade
  exact hmade

end Endings

end Tx

end Lib.Transaction
