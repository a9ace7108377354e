import Athenz.JdbcConnection
import Athenz.Lib.Result

namespace Athenz.ZmsServer.Identifiers
open Lib Lib.Text Lib.Result
set_option autoImplicit true

section Lookups

/-- The statements of a transaction that look a domain up before its row is written. -/
inductive Lookup where
  | account | subscription | productId | domainName
deriving DecidableEq

variable [Collation]

def Lookup.verify (db : Database) (domain : Domain) : Lookup → Except Failure Unit
  | .account => verifyDomainAccountUniqueness db domain
  | .subscription => verifyDomainSubscriptionUniqueness db domain
  | .productId => verifyDomainProductIdUniqueness db domain
  | .domainName => verifyDomainNameDashUniqueness db domain.name

/-- Domains with such settings share the identifier that is looked up. -/
def Lookup.Shares (a b : DomainSettings) : Lookup → Prop
  | .account => a.account.1 ≠ [] ∧ b.account.1 ≠ [] ∧ sameText a.account.1 b.account.1 = true
  | .subscription => a.azureSubscription.1 ≠ [] ∧ b.azureSubscription.1 ≠ [] ∧
      sameText a.azureSubscription.1 b.azureSubscription.1 = true
  | .productId => a.ypmId ≠ 0 ∧ a.ypmId = b.ypmId
  | .domainName => False

/-- No two domains share an identifier. -/
def IdentifiersUnique (db : Database) : Prop :=
  ∀ (lookup : Lookup) (a b : Str) (rowA rowB : DomainRow), db.domains.lookup a = some rowA →
    db.domains.lookup b = some rowB → lookup.Shares rowA.settings rowB.settings → a = b

/-- Another domain of the store has the identifier. -/
def HasRival (db : Database) (domain : Domain) (lookup : Lookup) : Prop :=
  ∃ other row, db.domains.lookup other = some row ∧ other ≠ domain.name ∧
    lookup.Shares domain.settings row.settings

/-- Only the text without characters is the same as it. -/
def TellsEmpty : Prop := ∀ s : Str, sameText s [] = true → s = []

theorem sameText_symm {s t : Str} (h : sameText s t = true) : sameText t s = true :=
  sameText_iff.2 (sameText_iff.1 h).symm

theorem sameText_trans {s t u : Str} (h : sameText s t = true) (h' : sameText t u = true) :
    sameText s u = true :=
  sameText_iff.2 ((sameText_iff.1 h).trans (sameText_iff.1 h'))

theorem TellsEmpty.ne_nil (h : TellsEmpty) {s t : Str} (hsame : sameText s t = true)
    (ht : t ≠ []) : s ≠ [] := by
  intro hs
  rw [hs] at hsame
  exact ht (h t (sameText_symm hsame))

theorem Lookup.Shares.symm {lookup : Lookup} (h : lookup.Shares a b) : lookup.Shares b a := by
  cases lookup with
  | account => exact ⟨h.2.1, h.1, sameText_symm h.2.2⟩
  | subscription => exact ⟨h.2.1, h.1, sameText_symm h.2.2⟩
  | productId => exact ⟨h.2 ▸ h.1, h.2.symm⟩
  | domainName => exact h

omit [Collation] in
/-- A domain that no other one is found before is the only one that is found. -/
theorem lookupDomainById_only (holds : DomainSettings → Bool)
    (honly : ∀ (a b : Str) (rowA rowB : DomainRow), db.domains.lookup a = some rowA →
      db.domains.lookup b = some rowB → holds rowA.settings = true → holds rowB.settings = true →
        a = b)
    (h : ¬ (lookupDomainById db holds).any (· ≠ name) = true)
    (hrow : db.domains.lookup other = some row) (hholds : holds row.settings = true) :
    other = name := by
  have hmem : (⟨other, row⟩ : (_ : Str) × DomainRow) ∈ db.domains.entries :=
    AList.mem_lookup_iff.1 hrow
  cases hfind : db.domains.entries.find? fun entry => holds entry.2.settings with
  | none =>
    have hnot := List.find?_eq_none.1 hfind _ hmem
    exact (hnot hholds).elim
  | some found =>
    have hfound : db.domains.lookup found.1 = some found.2 :=
      AList.mem_lookup_iff.2 (List.mem_of_find?_eq_some hfind)
    have hfoundHolds : holds found.2.settings = true := by
      have hentry := List.find?_some hfind
      exact hentry
    have hsame := honly other found.1 row found.2 hrow hfound hholds hfoundHolds
    by_contra hne
    refine h ?_
    rw [lookupDomainById, hfind]
    exact decide_eq_true fun hname => hne (hsame.trans hname)

omit [Collation] in
theorem trim_ne_nil {value : Option Str} (h : (processInsertValue value).1 ≠ []) :
    ∃ text, value = some text ∧ text ≠ [] ∧ (processInsertValue value).1 = trim text := by
  cases value with
  | none => exact (h rfl).elim
  | some text =>
    refine ⟨text, rfl, ?_, rfl⟩
    rintro rfl
    exact h rfl

theorem assignedElsewhere_only (hempty : TellsEmpty) {column : DomainSettings → Column}
    (honly : ∀ (a b : Str) (rowA rowB : DomainRow), db.domains.lookup a = some rowA →
      db.domains.lookup b = some rowB → (column rowA.settings).1 ≠ [] →
        (column rowB.settings).1 ≠ [] →
          sameText (column rowA.settings).1 (column rowB.settings).1 = true → a = b)
    (h : ¬ assignedElsewhere db name value column = true)
    (hrow : db.domains.lookup other = some row) (hvalue : (processInsertValue value).1 ≠ [])
    (hsame : sameText (processInsertValue value).1 (column row.settings).1 = true) :
    other = name := by
  obtain ⟨text, rfl, htext, htrim⟩ := trim_ne_nil hvalue
  rw [htrim] at hvalue hsame
  rw [assignedElsewhere, Bool.and_eq_true, not_and] at h
  refine lookupDomainById_only (fun settings => sameText (column settings).1 (trim text)) ?_
    (h (decide_eq_true htext)) hrow (sameText_symm hsame)
  intro a b rowA rowB hrowA hrowB hA hB
  exact honly a b rowA rowB hrowA hrowB (hempty.ne_nil hA hvalue) (hempty.ne_nil hB hvalue)
    (sameText_trans hA (sameText_symm hB))

/-- Behind a look-up that succeeds no other domain of the store has the identifier. -/
theorem Lookup.verify_ok (hempty : TellsEmpty) {lookup : Lookup} (hunique : IdentifiersUnique db)
    (h : lookup.verify db domain = .ok ()) : ¬ HasRival db domain lookup := by
  rintro ⟨other, row, hrow, hother, hshares⟩
  apply hother
  cases lookup with
  | account =>
    refine assignedElsewhere_only hempty ?_ ?_ hrow hshares.1 hshares.2.2
    · exact fun a b rowA rowB hrowA hrowB hA hB hsame =>
        hunique .account a b rowA rowB hrowA hrowB ⟨hA, hB, hsame⟩
    · intro hassigned
      rw [Lookup.verify, verifyDomainAccountUniqueness, if_pos hassigned] at h
      cases h
  | subscription =>
    refine assignedElsewhere_only hempty ?_ ?_ hrow hshares.1 hshares.2.2
    · exact fun a b rowA rowB hrowA hrowB hA hB hsame =>
        hunique .subscription a b rowA rowB hrowA hrowB ⟨hA, hB, hsame⟩
    · intro hassigned
      rw [Lookup.verify, verifyDomainSubscriptionUniqueness, if_pos hassigned] at h
      cases h
  | productId =>
    obtain ⟨hzero, hsame⟩ := hshares
    have hnumber : domain.ypmId.any (· ≠ 0) = true := by
      cases hid : domain.ypmId with
      | none =>
        rw [Domain.settings, hid] at hzero
        exact (hzero rfl).elim
      | some id =>
        rw [Domain.settings, hid] at hzero
        exact decide_eq_true hzero
    have hholds : decide (row.settings.ypmId = domain.ypmId.getD 0) = true :=
      decide_eq_true hsame.symm
    refine lookupDomainById_only (fun settings => settings.ypmId = domain.ypmId.getD 0) ?_ ?_ hrow
      hholds
    · intro a b rowA rowB hrowA hrowB hA hB
      have hidA := of_decide_eq_true hA
      have hidB := of_decide_eq_true hB
      exact hunique .productId a b rowA rowB hrowA hrowB
        ⟨hidA ▸ hzero, hidA.trans hidB.symm⟩
    · intro hassigned
      rw [Lookup.verify, verifyDomainProductIdUniqueness, hnumber, Bool.true_and,
        if_pos hassigned] at h
      cases h
  | domainName => exact hshares.elim

end Lookups

section Transactions

variable [Collation]

/-- A transaction that inserts or updates a domain: what it has seen of the store, the look-ups
before it and the time of its write. -/
structure Transaction where
  inserts : Bool
  domain : Domain
  view : Option Database := none
  remaining : List Lookup
  written : Option Int := none

/-- The committed store and the transactions under way. -/
structure System where
  committed : Database
  transactions : Nat → Option Transaction := fun _ => none

inductive Action where
  | insertDomain (i : Nat) (domain : Domain)
  | updateDomain (i : Nat) (domain : Domain)
  | lookup (i : Nat)
  | write (i : Nat) (time : Int)
  | commit (i : Nat)
  | rollback (i : Nat)

def System.put (system : System) (i : Nat) (transaction : Option Transaction) : System :=
  { system with transactions := Function.update system.transactions i transaction }

/-- What a statement reads: the committed store, or what the transaction has read first. -/
def Transaction.sees (repeatableRead : Bool) (transaction : Transaction) (committed : Database) :
    Database :=
  if repeatableRead then transaction.view.getD committed else committed

/-- The store behind the commit; it waits for other writes of the row, and a row that has appeared
or is missing is left as it is. -/
def Transaction.apply (transaction : Transaction) (time : Int) (db : Database) : Database :=
  match transaction.inserts, db.domains.lookup transaction.domain.name with
  | true, none => { db with
      domains := db.domains.insert transaction.domain.name (transaction.domain.newRow time) }
  | false, some row => { db with
      domains := db.domains.insert transaction.domain.name (transaction.domain.row time row) }
  | _, _ => db

/-- The transaction behind its next look-up; one that refuses it rolls it back. -/
def Transaction.lookUp (repeatableRead : Bool) (transaction : Transaction) (committed : Database) :
    Option (Option Transaction) :=
  match transaction.remaining with
  | [] => none
  | lookup :: remaining =>
    let view := transaction.sees repeatableRead committed
    match lookup.verify view transaction.domain with
    | .ok _ => some (some { transaction with view := some view, remaining := remaining })
    | .error _ => some none

/-- One statement of one transaction. -/
def System.step (repeatableRead : Bool) (system : System) : Action → Option System
  | .insertDomain i domain =>
    match system.transactions i with
    | none => some (system.put i (some {
        inserts := true
        domain := domain
        remaining := [.account, .subscription, .productId, .domainName] }))
    | some _ => none
  | .updateDomain i domain =>
    match system.transactions i with
    | none => some (system.put i (some {
        inserts := false
        domain := domain
        remaining := [.account, .subscription, .productId] }))
    | some _ => none
  | .lookup i => do
    let transaction ← system.transactions i
    return system.put i (← transaction.lookUp repeatableRead system.committed)
  | .write i time => do
    let transaction ← system.transactions i
    if transaction.remaining = [] ∧ transaction.written = none then
      return system.put i (some { transaction with written := some time })
    else none
  | .commit i => do
    let transaction ← system.transactions i
    let time ← transaction.written
    return { (system.put i none) with committed := transaction.apply time system.committed }
  | .rollback i => some (system.put i none)

def System.run (repeatableRead : Bool) (system : System) (actions : List Action) : Option System :=
  actions.foldlM (System.step repeatableRead) system

end Transactions

section Invariant

variable [Collation]

/-- What the look-up has told the transaction, or will tell it, is about the store of now or of
an earlier time. -/
def Transaction.Relies (repeatableRead : Bool) (transaction : Transaction) (lookup : Lookup) : Prop :=
  lookup ∉ transaction.remaining ∨ repeatableRead = true ∧ transaction.view ≠ none

/-- A commit takes no identifier from another transaction that relies on it. -/
def Undisputed (repeatableRead : Bool) (system : System) : Action → Prop
  | .commit i => ∀ transaction, system.transactions i = some transaction →
      ∀ j other, j ≠ i → system.transactions j = some other →
        other.domain.name ≠ transaction.domain.name →
          ∀ lookup : Lookup, other.Relies repeatableRead lookup →
            ¬ lookup.Shares other.domain.settings transaction.domain.settings
  | _ => True

/-- Every commit of a run takes no identifier from another transaction. -/
def EveryUndisputed (repeatableRead : Bool) (system : System) : List Action → Prop
  | [] => True
  | action :: actions => Undisputed repeatableRead system action ∧
      ∀ system', system.step repeatableRead action = some system' →
        EveryUndisputed repeatableRead system' actions

/-- What a transaction relies on still holds of the store. -/
structure Sound (repeatableRead : Bool) (committed : Database) (transaction : Transaction) : Prop where
  view : ∀ view, transaction.view = some view → IdentifiersUnique view
  checked : ∀ lookup, lookup ∉ transaction.remaining →
    ¬ HasRival committed transaction.domain lookup
  covered : repeatableRead = true → ∀ view, transaction.view = some view → ∀ lookup,
    HasRival committed transaction.domain lookup → HasRival view transaction.domain lookup
  complete : transaction.written ≠ none → transaction.remaining = []

structure Consistent (repeatableRead : Bool) (system : System) : Prop where
  unique : IdentifiersUnique system.committed
  sound : ∀ i transaction, system.transactions i = some transaction →
    Sound repeatableRead system.committed transaction

omit [Collation] in
theorem transactions_put (system : System) (i : Nat) (transaction : Option Transaction) (j : Nat) :
    (system.put i transaction).transactions j =
      if j = i then transaction else system.transactions j :=
  Function.update_apply ..

theorem Consistent.put (h : Consistent repeatableRead system)
    (hsound : ∀ started, transaction = some started →
      Sound repeatableRead system.committed started) :
    Consistent repeatableRead (system.put i transaction) where
  unique := h.unique
  sound j found hfound := by
    rw [transactions_put] at hfound
    split at hfound
    · exact hsound found hfound
    · exact h.sound j found hfound

theorem Sound.start {transaction : Transaction} (hview : transaction.view = none)
    (hwritten : transaction.written = none)
    (hremaining : ∀ lookup, lookup ∉ transaction.remaining → lookup = .domainName) :
    Sound repeatableRead committed transaction where
  view view h := by
    rw [hview] at h
    cases h
  checked lookup h := by
    rintro ⟨other, row, _, _, hshares⟩
    rw [hremaining lookup h] at hshares
    exact hshares
  covered _ view h := by
    rw [hview] at h
    cases h
  complete h := (h hwritten).elim

theorem Sound.unique_sees (h : Sound repeatableRead committed transaction)
    (hunique : IdentifiersUnique committed) :
    IdentifiersUnique (transaction.sees repeatableRead committed) := by
  unfold Transaction.sees
  split
  · cases hview : transaction.view with
    | none => exact hunique
    | some view => exact h.view view hview
  · exact hunique

theorem Sound.rival_sees (h : Sound repeatableRead committed transaction)
    (hrival : HasRival committed transaction.domain lookup) :
    HasRival (transaction.sees repeatableRead committed) transaction.domain lookup := by
  unfold Transaction.sees
  split
  · rename_i hrepeatable
    cases hview : transaction.view with
    | none => exact hrival
    | some view => exact h.covered hrepeatable view hview lookup hrival
  · exact hrival

theorem Sound.lookUp (hempty : TellsEmpty) (h : Sound repeatableRead committed transaction)
    (hunique : IdentifiersUnique committed)
    (hstep : transaction.lookUp repeatableRead committed = some (some next)) :
    Sound repeatableRead committed next := by
  unfold Transaction.lookUp at hstep
  cases hremaining : transaction.remaining with
  | nil =>
    rw [hremaining] at hstep
    cases hstep
  | cons lookup remaining =>
    rw [hremaining] at hstep
    dsimp only at hstep
    cases hverify : lookup.verify (transaction.sees repeatableRead committed)
        transaction.domain with
    | error e =>
      rw [hverify] at hstep
      cases hstep
    | ok _ =>
      rw [hverify] at hstep
      cases hstep
      have hsees := h.unique_sees hunique
      have hfree := Lookup.verify_ok hempty hsees hverify
      constructor
      · rintro view ⟨⟩
        exact hsees
      · intro other hother hrival
        by_cases hsame : other = lookup
        · rw [hsame] at hrival
          exact hfree (h.rival_sees hrival)
        · refine h.checked other ?_ hrival
          rw [hremaining]
          exact List.not_mem_cons_of_ne_of_not_mem hsame hother
      · rintro _ view ⟨⟩ other hrival
        exact h.rival_sees hrival
      · intro hwritten
        have hnil := h.complete hwritten
        rw [hremaining] at hnil
        cases hnil

omit [Collation] in
theorem lookup_apply {transaction : Transaction}
    (h : (transaction.apply time db).domains.lookup other = some row) :
    (other = transaction.domain.name ∧ row.settings = transaction.domain.settings) ∨
      db.domains.lookup other = some row := by
  unfold Transaction.apply at h
  split at h
  · dsimp only at h
    rw [Map.lookup_insert] at h
    split at h
    · rename_i hname
      cases h
      exact .inl ⟨hname, rfl⟩
    · exact .inr h
  · dsimp only at h
    rw [Map.lookup_insert] at h
    split at h
    · rename_i hname
      cases h
      exact .inl ⟨hname, rfl⟩
    · exact .inr h
  · exact .inr h

theorem hasRival_apply {transaction : Transaction}
    (h : HasRival (transaction.apply time db) domain lookup) :
    HasRival db domain lookup ∨ (domain.name ≠ transaction.domain.name ∧
      lookup.Shares domain.settings transaction.domain.settings) := by
  obtain ⟨other, row, hrow, hother, hshares⟩ := h
  rcases lookup_apply hrow with ⟨rfl, hsettings⟩ | hrow
  · rw [hsettings] at hshares
    exact .inr ⟨hother.symm, hshares⟩
  · exact .inl ⟨other, row, hrow, hother, hshares⟩

theorem identifiersUnique_apply {transaction : Transaction} (hunique : IdentifiersUnique db)
    (hfree : ∀ lookup, ¬ HasRival db transaction.domain lookup) :
    IdentifiersUnique (transaction.apply time db) := by
  intro lookup a b rowA rowB hrowA hrowB hshares
  rcases lookup_apply hrowA with ⟨ha, hsettings⟩ | hrowA
  · rcases lookup_apply hrowB with ⟨hb, _⟩ | hrowB
    · exact ha.trans hb.symm
    · by_contra hne
      rw [hsettings] at hshares
      exact hfree lookup ⟨b, rowB, hrowB, fun hb => hne (ha.trans hb.symm), hshares⟩
  · rcases lookup_apply hrowB with ⟨hb, hsettings⟩ | hrowB
    · by_contra hne
      rw [hsettings] at hshares
      exact hfree lookup ⟨a, rowA, hrowA, fun ha => hne (ha.trans hb.symm), hshares.symm⟩
    · exact hunique lookup a b rowA rowB hrowA hrowB hshares

/-- What another transaction relies on still holds behind a commit that takes nothing from it. -/
theorem Sound.apply {transaction : Transaction} (h : Sound repeatableRead db other)
    (hundisputed : other.domain.name ≠ transaction.domain.name →
      ∀ lookup : Lookup, other.Relies repeatableRead lookup →
        ¬ lookup.Shares other.domain.settings transaction.domain.settings) :
    Sound repeatableRead (transaction.apply time db) other where
  view := h.view
  checked lookup hchecked hrival := by
    rcases hasRival_apply hrival with hrival | ⟨hname, hshares⟩
    · exact h.checked lookup hchecked hrival
    · exact hundisputed hname lookup (.inl hchecked) hshares
  covered hrepeatable view hview lookup hrival := by
    rcases hasRival_apply hrival with hrival | ⟨hname, hshares⟩
    · exact h.covered hrepeatable view hview lookup hrival
    · have hrelies : other.Relies repeatableRead lookup :=
        .inr ⟨hrepeatable, hview ▸ Option.some_ne_none view⟩
      exact (hundisputed hname lookup hrelies hshares).elim
  complete := h.complete

theorem Consistent.commit (h : Consistent repeatableRead system)
    (hundisputed : Undisputed repeatableRead system (.commit i))
    (htransaction : system.transactions i = some transaction)
    (hwritten : transaction.written = some time) :
    Consistent repeatableRead
      { (system.put i none) with committed := transaction.apply time system.committed } where
  unique := by
    have hsound := h.sound i transaction htransaction
    have hnil := hsound.complete (hwritten ▸ Option.some_ne_none time)
    refine identifiersUnique_apply h.unique fun lookup => hsound.checked lookup ?_
    rw [hnil]
    exact List.not_mem_nil
  sound j other hother := by
    dsimp only at hother
    rw [transactions_put] at hother
    split at hother
    · cases hother
    · rename_i hne
      exact (h.sound j other hother).apply (hundisputed transaction htransaction j other hne hother)

omit [Collation] in
theorem lookup_started (h : lookup ∉ [Lookup.account, .subscription, .productId]) :
    lookup = .domainName := by
  cases lookup with
  | domainName => rfl
  | _ => exact (h (by decide)).elim

theorem step_consistent (hempty : TellsEmpty) (h : Consistent repeatableRead system)
    (hundisputed : Undisputed repeatableRead system action)
    (hstep : system.step repeatableRead action = some system') :
    Consistent repeatableRead system' := by
  cases action with
  | insertDomain i domain =>
    simp only [System.step] at hstep
    split at hstep
    · cases hstep
      refine h.put ?_
      rintro started ⟨⟩
      refine .start rfl rfl fun lookup hnot => lookup_started fun hmem => ?_
      change lookup ∉ [Lookup.account, .subscription, .productId] ++ [.domainName] at hnot
      exact hnot (List.mem_append_left _ hmem)
    · cases hstep
  | updateDomain i domain =>
    simp only [System.step] at hstep
    split at hstep
    · cases hstep
      refine h.put ?_
      rintro started ⟨⟩
      exact .start rfl rfl fun lookup hnot => lookup_started hnot
    · cases hstep
  | lookup i =>
    obtain ⟨transaction, htransaction, hstep⟩ := Option.bind_eq_some_iff.1 hstep
    obtain ⟨next, hnext, hstep⟩ := Option.bind_eq_some_iff.1 hstep
    cases hstep
    refine h.put ?_
    rintro started rfl
    exact (h.sound i transaction htransaction).lookUp hempty h.unique hnext
  | write i time =>
    obtain ⟨transaction, htransaction, hstep⟩ := Option.bind_eq_some_iff.1 hstep
    split at hstep
    · rename_i hready
      cases hstep
      have hsound := h.sound i transaction htransaction
      refine h.put ?_
      rintro started ⟨⟩
      exact ⟨hsound.view, hsound.checked, hsound.covered, fun _ => hready.1⟩
    · cases hstep
  | commit i =>
    obtain ⟨transaction, htransaction, hstep⟩ := Option.bind_eq_some_iff.1 hstep
    obtain ⟨time, htime, hstep⟩ := Option.bind_eq_some_iff.1 hstep
    cases hstep
    exact h.commit hundisputed htransaction htime
  | rollback i =>
    cases hstep
    refine h.put ?_
    rintro started ⟨⟩

theorem run_consistent (hempty : TellsEmpty) (h : Consistent repeatableRead system)
    (hundisputed : EveryUndisputed repeatableRead system actions)
    (hrun : system.run repeatableRead actions = some system') :
    Consistent repeatableRead system' := by
  induction actions generalizing system with
  | nil =>
    cases hrun
    exact h
  | cons action actions ih =>
    obtain ⟨next, hnext, hrest⟩ := Option.bind_eq_some_iff.1 hrun
    exact ih (step_consistent hempty h hundisputed.1 hnext) (hundisputed.2 next hnext) hrest

/-- From a store without domains, in a run whose commits take no identifier from another transaction
that relies on it, no two domains of the store share an identifier. -/
theorem identifiers_unique (hempty : TellsEmpty) (repeatableRead : Bool) (db : Database)
    (hstart : db.domains = ∅)
    (hundisputed : EveryUndisputed repeatableRead { committed := db } actions)
    (hrun : System.run repeatableRead { committed := db } actions = some system) :
    IdentifiersUnique system.committed := by
  refine (run_consistent hempty ⟨?_, ?_⟩ hundisputed hrun).unique
  · intro lookup a b rowA rowB hrowA
    rw [hstart] at hrowA
    cases hrowA
  · intro i transaction htransaction
    cases htransaction

end Invariant

section Serial

variable [Collation]

def Action.index : Action → Nat
  | .insertDomain i _ | .updateDomain i _ | .lookup i | .write i _ | .commit i | .rollback i => i

theorem step_other {system system' : System} {action : Action}
    (hstep : system.step repeatableRead action = some system')
    (hj : j ≠ action.index) : system'.transactions j = system.transactions j := by
  have hput : ∀ transaction, (system.put action.index transaction).transactions j =
      system.transactions j := by
    intro transaction
    rw [transactions_put, if_neg hj]
  cases action with
  | insertDomain i domain =>
    simp only [System.step] at hstep
    split at hstep
    · cases hstep
      exact hput _
    · cases hstep
  | updateDomain i domain =>
    simp only [System.step] at hstep
    split at hstep
    · cases hstep
      exact hput _
    · cases hstep
  | lookup i =>
    obtain ⟨transaction, htransaction, hstep⟩ := Option.bind_eq_some_iff.1 hstep
    obtain ⟨next, hnext, hstep⟩ := Option.bind_eq_some_iff.1 hstep
    cases hstep
    exact hput _
  | write i time =>
    obtain ⟨transaction, htransaction, hstep⟩ := Option.bind_eq_some_iff.1 hstep
    split at hstep
    · cases hstep
      exact hput _
    · cases hstep
  | commit i =>
    obtain ⟨transaction, htransaction, hstep⟩ := Option.bind_eq_some_iff.1 hstep
    obtain ⟨time, htime, hstep⟩ := Option.bind_eq_some_iff.1 hstep
    cases hstep
    exact hput none
  | rollback i =>
    cases hstep
    exact hput none

/-- Transactions that follow one another take nothing from each other. -/
theorem serial_undisputed {system : System} (hserial : ∀ action ∈ actions, action.index = i)
    (halone : ∀ j, j ≠ i → system.transactions j = none) :
    EveryUndisputed repeatableRead system actions := by
  induction actions generalizing system with
  | nil => trivial
  | cons action actions ih =>
    have hindex := hserial action List.mem_cons_self
    constructor
    · cases action with
      | commit k =>
        obtain rfl : k = i := hindex
        intro transaction _ j other hj hother
        rw [halone j hj] at hother
        cases hother
      | _ => trivial
    · intro system' hstep
      refine ih (fun other hother => hserial other (List.mem_cons_of_mem action hother)) ?_
      intro j hj
      rw [step_other hstep (hindex.symm ▸ hj)]
      exact halone j hj

end Serial

section Sample

local instance identifierCollation : Collation := .caseInsensitive

theorem caseInsensitive_tellsEmpty : TellsEmpty :=
  fun _ h => List.map_eq_nil_iff.1 (sameText_iff.1 h)

/-- The statements of a transaction from its first look-up to its write. -/
def lookupsAndWrite (lookups i : Nat) : List Action :=
  List.replicate lookups (.lookup i) ++ [.write i 0]

/-- Two insertions of which each has looked the account up before the other one has committed. -/
def overlappingInsertions (account : Str) : List Action :=
  .insertDomain 0 { name := "sports", account := some account } ::
    .insertDomain 1 { name := "weather", account := some account } ::
    lookupsAndWrite 4 0 ++ lookupsAndWrite 4 1 ++ [.commit 0, .commit 1]

/-- Both domains are stored with the account. -/
theorem overlappingInsertions_share : ¬ ∀ repeatableRead actions system,
    System.run repeatableRead { committed := {} } actions = some system →
      IdentifiersUnique system.committed := by
  intro hunique
  have hruns : (System.run true { committed := {} } (overlappingInsertions "1234")).any
      (fun system : System =>
      (system.committed.domains.lookup "sports".toList).any fun sports =>
        (system.committed.domains.lookup "weather".toList).any fun weather =>
          sports.settings.account.1 = "1234".toList ∧
            weather.settings.account.1 = "1234".toList) = true := by decide +kernel
  obtain ⟨system, hrun, hboth⟩ := (Option.any_eq_true _ _).1 hruns
  obtain ⟨sports, hsports, hboth⟩ := (Option.any_eq_true _ _).1 hboth
  obtain ⟨weather, hweather, hboth⟩ := (Option.any_eq_true _ _).1 hboth
  obtain ⟨haccount, haccount'⟩ := of_decide_eq_true hboth
  have hshares : Lookup.Shares sports.settings weather.settings .account := by
    rw [Lookup.Shares, haccount, haccount']
    decide
  exact absurd (hunique true _ system hrun .account _ _ sports weather hsports hweather hshares)
    (by decide)

/-- An insertion and, behind it, another one and an update of its domain. -/
def serialChanges (account account' : Str) : List Action :=
  .insertDomain 0 { name := "sports", account := some account } ::
    lookupsAndWrite 4 0 ++ .commit 0 ::
    .insertDomain 0 { name := "weather", account := some account' } ::
    lookupsAndWrite 4 0 ++ .commit 0 ::
    .updateDomain 0 { name := "weather", account := some account' } ::
    lookupsAndWrite 3 0 ++ [.commit 0]

theorem identifiers_unique_serial :
    (System.run true { committed := {} } (serialChanges "1234" "5678")).any
      (fun system : System => "sports".toList ∈ system.committed.domains ∧
        "weather".toList ∈ system.committed.domains) = true ∧
    ∀ system, System.run true { committed := {} } (serialChanges "1234" "5678") = some system →
      IdentifiersUnique system.committed := by
  constructor
  · decide +kernel
  · intro system hrun
    have hserial : ∀ action ∈ serialChanges "1234" "5678", action.index = 0 := by decide
    exact identifiers_unique caseInsensitive_tellsEmpty true {} rfl
      (serial_undisputed hserial fun _ _ => rfl) hrun

end Sample

end Athenz.ZmsServer.Identifiers
