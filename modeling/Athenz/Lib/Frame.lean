import Athenz.Lib.Transaction

namespace Lib.Transaction.Tx
set_option autoImplicit true

variable {σ ε : Type} {view : σ → β}

/-- Programs behind whose success a view of the state is the one before. -/
def Leaves (view : σ → β) (p : Tx σ ε α) : Prop := Returns p fun s _ s' => view s' = view s

theorem Leaves.pure (a : α) : Leaves view (Pure.pure a : Tx σ ε α) :=
  (Returns.pure a).mono fun _ _ _ h => congrArg view h.2

theorem Leaves.raise (e : ε) : Leaves view (Tx.raise e : Tx σ ε α) := nofun

theorem Leaves.abort (e : ε) : Leaves view (Tx.abort e : Tx σ ε α) := nofun

theorem Leaves.bind {p : Tx σ ε α} {f : α → Tx σ ε γ} (hp : Leaves view p)
    (hf : ∀ a, Leaves view (f a)) : Leaves view (p >>= f) := by
  refine (Returns.bind hp hf).mono ?_
  rintro s b s'' ⟨_, s', hfirst, hsecond⟩
  exact hsecond.trans hfirst

theorem Leaves.of_keeps {p : Tx σ ε α} (hp : Keeps p) : Leaves view p :=
  fun c a c' h => congrArg view (hp c a c' h)

theorem Leaves.query (f : σ → α) : Leaves view (Tx.query f : Tx σ ε α) :=
  .of_keeps (Reading.query f).keeps

/-- A program that goes on with what it has read. -/
theorem Leaves.query_bind {f : σ → α} {g : α → Tx σ ε γ} (h : ∀ s, Leaves view (g (f s))) :
    Leaves view (Tx.query f >>= g) :=
  Returns.query_bind (T := fun _ s _ s' => view s' = view s) h

theorem Leaves.ensure (condition : Bool) (e : ε) :
    Leaves view (Tx.ensure condition e : Tx σ ε Unit) :=
  .of_keeps (Reading.ensure condition e).keeps

theorem Leaves.ite {b : Prop} [Decidable b] {p q : Tx σ ε α} (hp : Leaves view p)
    (hq : Leaves view q) : Leaves view (if b then p else q) :=
  Returns.ite (fun _ => hp) fun _ => hq

theorem Leaves.both {p q : Tx σ ε Bool} (hp : Leaves view p) (hq : Leaves view q) :
    Leaves view (Tx.both p q) :=
  hp.bind fun _ => .ite hq (.pure false)

theorem Leaves.forAll {step : α → Tx σ ε Bool} {items : List α}
    (h : ∀ a ∈ items, Leaves view (step a)) : Leaves view (Tx.forAll step items) := by
  induction items with
  | nil => exact .pure true
  | cons a items ih =>
    exact (h a List.mem_cons_self).both (ih fun b hb => h b (List.mem_cons_of_mem a hb))

end Lib.Transaction.Tx
