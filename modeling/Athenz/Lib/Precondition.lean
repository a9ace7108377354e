import Athenz.Lib.Transaction

namespace Lib.Transaction.Tx
set_option autoImplicit true

variable {σ ε : Type} {I J : σ → Prop}

/-- Programs that keep a property whatever they meet, where another one holds when they begin. -/
def PreservesFrom (J I : σ → Prop) (p : Tx σ ε α) : Prop :=
  ∀ c, I c.committed → I c.working → J c.working → I (p c).2.committed ∧ I (p c).2.working

theorem Preserves.from (hp : Preserves I p) : PreservesFrom J I p :=
  fun c hcommitted hworking _ => hp c hcommitted hworking

theorem PreservesFrom.mono {p : Tx σ ε α} (hp : PreservesFrom J I p) (h : ∀ s, I s → J' s → J s) :
    PreservesFrom J' I p :=
  fun c hcommitted hworking hJ => hp c hcommitted hworking (h c.working hworking hJ)

theorem PreservesFrom.bind {p : Tx σ ε α} {f : α → Tx σ ε β} (hp : PreservesFrom J I p)
    (hf : ∀ a, Preserves I (f a)) : PreservesFrom J I (p >>= f) := by
  intro c hcommitted hworking hJ
  have hpc := hp c hcommitted hworking hJ
  rw [bind_apply]
  rcases hrun : p c with ⟨e | a, d⟩
  · rw [hrun] at hpc
    exact hpc
  · rw [hrun] at hpc
    exact hf a d hpc.1 hpc.2

theorem PreservesFrom.both {p q : Tx σ ε Bool} (hp : PreservesFrom J I p) (hq : Preserves I q) :
    PreservesFrom J I (Tx.both p q) :=
  hp.bind fun _ => .ite (fun _ => hq) fun _ => .pure false

theorem PreservesFrom.statement {f : Int → σ → Except ε (α × σ)}
    (h : ∀ time s a s', I s → J s → f time s = .ok (a, s') → I s') :
    PreservesFrom J I (Tx.statement f) := by
  intro c hcommitted hworking hJ
  unfold Tx.statement
  split
  · exact Preserves.rollback (c := c.tick) hcommitted hworking
  · split
    · exact Preserves.rollback (c := c.tick) hcommitted hworking
    · rename_i a s hs
      have hwritten := h _ _ _ _ hworking hJ hs
      refine ⟨?_, hwritten⟩
      unfold Connection.write
      dsimp only
      split
      · exact hwritten
      · exact hcommitted

/-- A program goes on with what it has read of the store. -/
theorem PreservesFrom.query_bind {f : σ → α} {g : α → Tx σ ε β}
    (h : ∀ s, I s → J s → PreservesFrom (fun t => t = s) I (g (f s))) :
    PreservesFrom J I (Tx.query f >>= g) := by
  intro c hcommitted hworking hJ
  have hquery := Preserves.query (ε := ε) f c hcommitted hworking
  rw [bind_apply]
  rcases hrun : (Tx.query f : Tx σ ε α) c with ⟨e | a, d⟩
  · rw [hrun] at hquery
    exact hquery
  · rw [hrun] at hquery
    obtain ⟨_, rfl, rfl⟩ := query_eq_ok.1 hrun
    exact h c.working hworking hJ _ hquery.1 hquery.2 rfl

theorem Preserves.query_from {f : σ → α} {g : α → Tx σ ε β}
    (h : ∀ s, I s → PreservesFrom (fun t => t = s) I (g (f s))) :
    Preserves I (Tx.query f >>= g) :=
  fun c hcommitted hworking =>
    PreservesFrom.query_bind (J := fun _ => True) (fun s hs _ => h s hs) c hcommitted hworking trivial

theorem Reading.preservesFrom_bind {p : Tx σ ε α} {f : α → Tx σ ε β} (hp : Reading p)
    (hf : ∀ a, PreservesFrom J I (f a)) : PreservesFrom J I (p >>= f) := by
  intro c hcommitted hworking hJ
  have hpc := hp.preserves I c hcommitted hworking
  rw [bind_apply]
  rcases hrun : p c with ⟨e | a, d⟩
  · rw [hrun] at hpc
    exact hpc
  · rw [hrun] at hpc
    exact hf a d hpc.1 hpc.2 (hp.keeps c a d hrun ▸ hJ)

theorem PreservesFrom.ensure_bind {condition : Bool} {e : ε} {f : Unit → Tx σ ε α}
    (h : condition = true → PreservesFrom J I (f ())) :
    PreservesFrom J I (Tx.ensure condition e >>= f) := by
  cases condition with
  | false => exact (Preserves.abort e).from
  | true => exact h rfl

end Lib.Transaction.Tx
