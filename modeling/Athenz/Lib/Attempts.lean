import Athenz.Lib.Transaction

namespace Lib.Transaction.Tx
set_option autoImplicit true

variable {σ ε : Type} {I J : σ → Prop}

theorem Maintains.statement {f : Int → σ → Except ε (α × σ)}
    (h : ∀ time s a s', I s → f time s = .ok (a, s') → I s') : Maintains I (Tx.statement f) := by
  refine ⟨.statement h, (Returns.statement f).mono ?_⟩
  rintro s a s' ⟨time, hf⟩ hs
  exact h time s a s' hs hf

/-- A run that succeeds with a body that commits before it goes on. -/
theorem attempts_committed_establishes {body : Tx σ ε β} {f : β → Tx σ ε α} (hatomic : Atomic body)
    (hp : Preserves I (body >>= fun b => Tx.commit >>= fun _ => f b))
    (hbody : Returns body fun s _ s' => I s → J s') (hf : ∀ b, Preserves J (f b)) (hs : I s)
    (h : attempts false retryable (body >>= fun b => Tx.commit >>= fun _ => f b) retries s events =
      (.ok a, s')) : J s' := by
  obtain ⟨events₁, events₂, hrun⟩ := attempts_eq_ok h
  unfold attempt at hrun
  split at hrun
  · cases hrun
  · rename_i hfault
    generalize hbegun : begun false retryable (body >>= fun b => Tx.commit >>= fun _ => f b) retries s
      events = t at hrun
    have ht : I t := hbegun ▸ begun_preserves hp hs
    rcases hresult : (body >>= fun b => Tx.commit >>= fun _ => f b)
      ⟨t, t, false, fun n => events₁ (n + 1)⟩ with ⟨result, c⟩
    rw [hresult] at hrun
    cases hrun
    obtain ⟨b, d, hfirst, hrest⟩ := bind_eq_ok.1 hresult
    obtain ⟨_, d', hcommit, hlast⟩ := bind_eq_ok.1 hrest
    have hopen := (hatomic ⟨t, t, false, fun n => events₁ (n + 1)⟩ rfl rfl).2
    rw [hfirst] at hopen
    have hJ : J d.working := hbody _ b d hfirst ht
    have hsaved : J d'.committed ∧ J d'.working := by
      unfold Tx.commit at hcommit
      rw [if_neg (by rw [show d.completed = false from hopen]; exact Bool.false_ne_true)] at hcommit
      split at hcommit
      · cases hcommit
      · cases hcommit
        exact ⟨hJ, hJ⟩
    have hfinal := hf b d' hsaved.1 hsaved.2
    rw [hlast] at hfinal
    exact (Preserves.commit c hfinal.1 hfinal.2).1

section Failures

variable {kind allowed : ε → Prop}

theorem Triple.commit (pre : σ → Prop) (hkind : ∀ e, kind e → allowed e) :
    Triple kind allowed pre (Tx.commit : Tx σ ε Unit) fun _ => pre := by
  intro c hevents hpre
  unfold Tx.commit
  split
  · exact ⟨hevents, hpre⟩
  · split
    · rename_i e applied hfault
      exact ⟨hevents.shift, hkind e (hevents 0 e applied hfault)⟩
    · exact ⟨hevents.shift, hpre⟩

/-- Attempts fail with what the body may fail with, or with what the statements meet. -/
theorem attempts_error {body : Tx σ ε α} (hkind : ∀ e, kind e → allowed e)
    (hbody : Triple kind allowed (fun _ => True) body fun _ _ => True) (hevents : Faults kind events)
    (h : attempts autoCommit retryable body retries s events = (.error e, s')) : allowed e := by
  have hattempt : ∀ (s : σ) (events : Nat → Event ε), Faults kind events →
      Faults kind (attempt autoCommit body s events).2.2 ∧
        ∀ e, (attempt autoCommit body s events).1 = .error e → allowed e := by
    intro s events hevents
    unfold attempt
    split
    · rename_i e applied hfault
      refine ⟨hevents.shift, fun e' he => ?_⟩
      cases he
      exact hkind e (hevents 0 e applied hfault)
    · obtain ⟨hafter, hresult⟩ := hbody ⟨s, s, autoCommit, fun n => events (n + 1)⟩ hevents.shift
        trivial
      refine ⟨(Triple.commit (fun _ => True) hkind _ hafter trivial).1, fun e he => ?_⟩
      dsimp only at he
      rw [he] at hresult
      exact hresult
  induction retries generalizing s events with
  | zero =>
    rcases hrun : attempt autoCommit body s events with ⟨result, t, events'⟩
    rw [attempts, hrun] at h
    cases h
    exact (hattempt s events hevents).2 e (by rw [hrun])
  | succ retries ih =>
    obtain ⟨hafter, hfailed⟩ := hattempt s events hevents
    rw [attempts] at h
    rcases hrun : attempt autoCommit body s events with ⟨e' | a, t, events'⟩
    · rw [hrun] at h hafter hfailed
      dsimp only at h
      split at h
      · exact ih hafter h
      · cases h
        exact hfailed e rfl
    · rw [hrun] at h
      cases h

theorem Triple.saved {body : Tx σ ε α} {stamp : Int → σ → σ} (hkind : ∀ e, kind e → allowed e)
    (hbody : Triple kind allowed (fun _ => True) body fun _ _ => True) :
    Triple kind allowed (fun _ => True) (Tx.saved stamp body) fun _ _ => True := by
  have hstamp : Triple kind allowed (fun _ => True) (Tx.statement fun time s =>
      .ok ((), stamp time s)) fun _ _ => True := .statement hkind fun _ _ _ => trivial
  exact hbody.bind fun _ => (Triple.commit _ hkind).bind fun _ => hstamp.bind fun _ =>
    .pure fun _ _ => trivial

end Failures

end Lib.Transaction.Tx
