import Athenz.DisabledStates

namespace Athenz.ZmsServer
open Lib Lib.Text Lib.Transaction
set_option autoImplicit true

section Model

/-- The store with its table of principals, each with its state. -/
structure PrincipalStore where
  principals : Map Str Nat
  database : Database

abbrev PrincipalOp (α : Type) := Tx PrincipalStore Failure α

def onDatabase (p : Op α) : PrincipalOp α :=
  p.lift (·.database) fun database store => { store with database := database }

def AUTHORITY_SYSTEM_SUSPENDED : Nat := 2

/-- The state with the bit of a suspension set or cleared. -/
def suspendedState (suspended : Bool) (oldState : Nat) : Nat :=
  if suspended then oldState ||| AUTHORITY_SYSTEM_SUSPENDED
  else oldState ^^^ (oldState &&& AUTHORITY_SYSTEM_SUSPENDED)

/-- The memberships of a principal with their states. -/
def Table.memberships (table : Table S) (principal : Str) (db : Database) :
    List (Str × Str × Nat) :=
  db.domains.entries.flatMap fun domain =>
    (table.get domain.2).entries.filterMap fun object =>
      (object.2.members.lookup principal).map fun member =>
        (domain.1, object.1, member.systemDisabled)

/-- The full name that a stored name stands for. -/
def fullName (userDomain name : Str) : Str :=
  match lastIndexOf '.' name with
  | none => userDomain ++ '.' :: name
  | some _ => name

def getPrincipals (userDomain : Str) (queriedState : Nat) : PrincipalOp (List Str) :=
  Tx.query fun store =>
    (store.principals.entries.filter fun row => row.2 = queriedState).map fun row =>
      fullName userDomain row.1

/-- A principal without a row is not updated. -/
def updatePrincipal (principal : Str) (newState : Nat) : PrincipalOp Bool :=
  Tx.statement fun _ store =>
    match store.principals.lookup principal with
    | none => .ok (false, store)
    | some _ => .ok (true, { store with principals := store.principals.insert principal newState })

/-- `getPrincipalRoles` and `getPrincipalGroups` -/
def Table.getMemberships (table : Table S) (principal : Str) : PrincipalOp (List (Str × Str × Nat)) := do
  let known ← Tx.query fun store : PrincipalStore => (store.principals.lookup principal).isSome
  if !known then Tx.abort (notFoundError "principal" principal)
  else Tx.query fun store => table.memberships principal store.database

/-- The time of an object is set behind a change of its member. -/
def Table.touchObject (table : Table S) (domainName name : Str) (changed : Bool) : PrincipalOp Bool :=
  if changed then onDatabase (table.updateModTimestamp domainName name) else pure false

/-- The loop over memberships; it answers the domains whose objects have changed. -/
def Table.updateStates (table : Table S) (principal : Str) (newState : Nat → Nat) :
    List (Str × Str × Nat) → PrincipalOp (List Str)
  | [] => pure []
  | (domainName, name, oldState) :: memberships => do
    let changed ← Tx.quietly (onDatabase (table.updateMemberDisabledState domainName name principal
      (some SYS_AUTH_MONITOR) (newState oldState)))
    let _ ← table.touchObject domainName name changed
    let domains ← table.updateStates principal newState memberships
    pure (if changed then domains.insert domainName else domains)

def touchDomains : List Str → PrincipalOp Unit
  | [] => pure ()
  | domainName :: domains => do
    onDatabase (updateDomainModTimestamp domainName)
    touchDomains domains

def Table.updateMemberships (table : Table S) (principal : Str) (newState : Nat → Nat) :
    PrincipalOp Unit := do
  let memberships ← table.getMemberships principal
  let updatedDomains ← table.updateStates principal newState memberships
  touchDomains updatedDomains

def updateRoleMembershipsByPrincipalState (suspended : Bool) (updatedUser : Str) : PrincipalOp Unit :=
  roleTable.updateMemberships updatedUser (suspendedState suspended)

/-- The old state is that of the new member object, which has none. -/
def updateGroupMembershipByPrincipalState (suspended : Bool) (updatedUser : Str) : PrincipalOp Unit :=
  groupTable.updateMemberships updatedUser fun _ => suspendedState suspended 0

/-- The second step behind the first; an object that is not found ends both. -/
def unlessNotFound (p q : PrincipalOp Unit) : PrincipalOp Unit := fun c =>
  match p c with
  | (.ok _, c) => q c
  | (.error e, c) => if e.code = some 404 then (.ok (), c) else (.error e, c)

/-- The principals that could be updated; each is tried on its own. -/
def updatePrincipals (newState : Nat) : List Str → PrincipalOp (List Str)
  | [] => pure []
  | principal :: principals => do
    let updated ← Tx.quietly (updatePrincipal principal newState)
    let others ← updatePrincipals newState principals
    pure (if updated then principal :: others else others)

def updateMembershipsOf (suspended : Bool) (updatedUser : Str) : PrincipalOp Unit :=
  unlessNotFound (updateRoleMembershipsByPrincipalState suspended updatedUser)
    (unlessNotFound (updateGroupMembershipByPrincipalState suspended updatedUser) (pure ()))

def updateMembershipsByPrincipalState (suspended : Bool) : List Str → PrincipalOp Unit
  | [] => pure ()
  | updatedUser :: updatedUsers => do
    updateMembershipsOf suspended updatedUser
    updateMembershipsByPrincipalState suspended updatedUsers

/-- The rows of the principals are updated before their memberships. -/
def updatePrincipalByStateFromAuthority (changedPrincipals : List Str) (suspended : Bool) :
    PrincipalOp Unit := do
  let updatedUsers ← updatePrincipals (if suspended then AUTHORITY_SYSTEM_SUSPENDED else 0)
    changedPrincipals
  updateMembershipsByPrincipalState suspended updatedUsers

/-- Only what differs between the authority and the store is updated. -/
def refreshPrincipalStateFromAuthority (userDomain : Str) (newSystemDisabledPrincipals : List Str) :
    PrincipalOp Unit := do
  let existing ← getPrincipals userDomain AUTHORITY_SYSTEM_SUSPENDED
  updatePrincipalByStateFromAuthority (newSystemDisabledPrincipals.filter (· ∉ existing)) true
  updatePrincipalByStateFromAuthority (existing.filter (· ∉ newSystemDisabledPrincipals)) false

end Model

section Bits

theorem testBit_suspendedState (suspended : Bool) (oldState i : Nat) :
    (suspendedState suspended oldState).testBit i =
      if i = 1 then suspended else oldState.testBit i := by
  have hpow : (2 ^ 1).testBit i = decide (1 = i) := Nat.testBit_two_pow
  have hbit : Nat.testBit 2 i = decide (1 = i) := hpow
  have hsame : decide (1 = i) = decide (i = 1) := decide_eq_decide.2 eq_comm
  cases suspended with
  | true =>
    rw [suspendedState, if_pos rfl, AUTHORITY_SYSTEM_SUSPENDED, Nat.testBit_or, hbit, hsame]
    by_cases hi : i = 1
    · rw [if_pos hi, decide_eq_true hi, Bool.or_true]
    · rw [if_neg hi, decide_eq_false hi, Bool.or_false]
  | false =>
    rw [suspendedState, if_neg Bool.false_ne_true, AUTHORITY_SYSTEM_SUSPENDED, Nat.testBit_xor,
      Nat.testBit_and, hbit, hsame]
    by_cases hi : i = 1
    · rw [if_pos hi, decide_eq_true hi, Bool.and_true, Bool.xor_self]
    · rw [if_neg hi, decide_eq_false hi, Bool.and_false, Bool.xor_false]

theorem suspendedState_idem (suspended : Bool) (oldState : Nat) :
    suspendedState suspended (suspendedState suspended oldState) =
      suspendedState suspended oldState := by
  apply Nat.eq_of_testBit_eq
  intro i
  rw [testBit_suspendedState, testBit_suspendedState]
  split
  · rfl
  · rfl

end Bits

section Memberships

variable {table : Table S} {other : Table S'}

theorem Table.mem_memberships_iff :
    membership ∈ table.memberships principal db ↔
      table.disabledState db membership.1 membership.2.1 principal = some membership.2.2 := by
  obtain ⟨domainName, name, state⟩ := membership
  constructor
  · intro h
    obtain ⟨domain, hdomain, h⟩ := List.mem_flatMap.1 h
    obtain ⟨object, hobject, h⟩ := List.mem_filterMap.1 h
    obtain ⟨member, hmember, heq⟩ := Option.map_eq_some_iff.1 h
    cases heq
    have hrow : db.domains.lookup domain.1 = some domain.2 := AList.mem_lookup_iff.2 hdomain
    have hstored : (table.get domain.2).lookup object.1 = some object.2 :=
      AList.mem_lookup_iff.2 hobject
    rw [Table.disabledState, Table.find, hrow, Option.bind_some, hstored, Option.bind_some, hmember]
    rfl
  · intro h
    obtain ⟨stored, hstored, hstate⟩ := Option.bind_eq_some_iff.1 h
    obtain ⟨row, hrow, hobject⟩ := Option.bind_eq_some_iff.1 hstored
    obtain ⟨member, hmember, heq⟩ := Option.map_eq_some_iff.1 hstate
    dsimp only at hrow hobject heq
    refine List.mem_flatMap.2 ⟨⟨domainName, row⟩, AList.mem_lookup_iff.1 hrow, ?_⟩
    refine List.mem_filterMap.2 ⟨⟨name, stored⟩, AList.mem_lookup_iff.1 hobject, ?_⟩
    rw [hmember, Option.map_some, heq]

/-- The states of the memberships of one principal go through a function, and no others change. -/
structure Table.Moves (table : Table S) (other : Table S') (principal : Str) (f : Nat → Nat)
    (store store' : PrincipalStore) : Prop where
  principals : store'.principals = store.principals
  moved : ∀ domainName name, table.disabledState store'.database domainName name principal =
    (table.disabledState store.database domainName name principal).map f
  others : ∀ domainName name member, member ≠ principal →
    table.disabledState store'.database domainName name member =
      table.disabledState store.database domainName name member
  beside : ∀ domainName name member, other.disabledState store'.database domainName name member =
    other.disabledState store.database domainName name member

/-- In the middle of the loop: each membership has its new state, or its old one and is still due. -/
structure Table.Moving (table : Table S) (other : Table S') (principal : Str) (f : Nat → Nat)
    (memberships : List (Str × Str × Nat)) (before store : PrincipalStore) : Prop where
  principals : store.principals = before.principals
  due : ∀ membership ∈ memberships, table.disabledState before.database membership.1 membership.2.1
    principal = some membership.2.2
  moving : ∀ domainName name, table.disabledState store.database domainName name principal =
      (table.disabledState before.database domainName name principal).map f ∨
    table.disabledState store.database domainName name principal =
        table.disabledState before.database domainName name principal ∧
      ∃ membership ∈ memberships, membership.1 = domainName ∧ membership.2.1 = name
  others : ∀ domainName name member, member ≠ principal →
    table.disabledState store.database domainName name member =
      table.disabledState before.database domainName name member
  beside : ∀ domainName name member, other.disabledState store.database domainName name member =
    other.disabledState before.database domainName name member

variable {principal : Str} {f : Nat → Nat} {before store store' : PrincipalStore}
  {membership : Str × Str × Nat} {memberships : List (Str × Str × Nat)}

theorem Table.Moving.start (table : Table S) (other : Table S') (principal : Str) (f : Nat → Nat)
    (store : PrincipalStore) :
    table.Moving other principal f (table.memberships principal store.database) store store where
  principals := rfl
  due membership hmem := Table.mem_memberships_iff.1 hmem
  moving domainName name := by
    cases hstate : table.disabledState store.database domainName name principal with
    | none => exact .inl rfl
    | some state =>
      exact .inr ⟨rfl, (domainName, name, state), Table.mem_memberships_iff.2 hstate, rfl, rfl⟩
  others _ _ _ _ := rfl
  beside _ _ _ := rfl

theorem Table.Moving.finish (h : table.Moving other principal f [] before store) :
    table.Moves other principal f before store where
  principals := h.principals
  moved domainName name := by
    obtain hmoved | ⟨_, _, hmem, _⟩ := h.moving domainName name
    · exact hmoved
    · cases hmem
  others := h.others
  beside := h.beside

theorem Table.Moving.rests (h : table.Moving other principal f memberships before store)
    (hprincipals : store'.principals = store.principals)
    (hrests : table.Rests other store.database store'.database) :
    table.Moving other principal f memberships before store' where
  principals := hprincipals.trans h.principals
  due := h.due
  moving domainName name := by
    rw [hrests.own]
    exact h.moving domainName name
  others domainName name member hne := (hrests.own ..).trans (h.others domainName name member hne)
  beside domainName name member := (hrests.beside ..).trans (h.beside domainName name member)

theorem Table.Moving.stored
    (h : table.Moving other principal f (membership :: memberships) before store) :
    ∃ state, table.disabledState store.database membership.1 membership.2.1 principal = some state := by
  have hdue := h.due membership List.mem_cons_self
  obtain hmoved | ⟨hkept, _⟩ := h.moving membership.1 membership.2.1
  · rw [hdue] at hmoved
    exact ⟨_, hmoved⟩
  · rw [hdue] at hkept
    exact ⟨_, hkept⟩

/-- A membership whose turn it is gets its new state. -/
theorem Table.Moving.step
    (h : table.Moving other principal f (membership :: memberships) before store)
    (hprincipals : store'.principals = store.principals)
    (hsets : table.Sets other membership.1 membership.2.1 principal (f membership.2.2)
      store.database store'.database) :
    table.Moving other principal f memberships before store' where
  principals := hprincipals.trans h.principals
  due due hmem := h.due due (List.mem_cons_of_mem _ hmem)
  moving domainName name := by
    by_cases hsame : domainName = membership.1 ∧ name = membership.2.1
    · left
      obtain ⟨state, hstate⟩ := h.stored
      rw [hsame.1, hsame.2, hsets.set, hstate, h.due membership List.mem_cons_self]
      rfl
    · rw [hsets.own domainName name principal fun heq => hsame ⟨heq.1, heq.2.1⟩]
      obtain hmoved | ⟨hkept, due, hmem, hdue⟩ := h.moving domainName name
      · exact .inl hmoved
      · right
        refine ⟨hkept, due, ?_, hdue⟩
        obtain rfl | hlater := List.mem_cons.1 hmem
        · exact absurd ⟨hdue.1.symm, hdue.2.symm⟩ hsame
        · exact hlater
  others domainName name member hne := by
    rw [hsets.own domainName name member fun heq => hne heq.2.2]
    exact h.others domainName name member hne
  beside domainName name member := (hsets.beside ..).trans (h.beside domainName name member)

end Memberships

section Loops

variable {table : Table S} {other : Table S'}

theorem onDatabase_evolves {p : Op α} {R : Database → Except Failure α → Database → Prop}
    (hp : Tx.Evolves p R) : Tx.Evolves (onDatabase p) fun store r store' =>
      store'.principals = store.principals ∧ R store.database r store'.database := by
  refine hp.lift.mono ?_
  rintro store r store' ⟨database, hR, rfl⟩
  exact ⟨rfl, hR⟩

theorem touchDomains_evolves (htable : table.Timeless) (hother : other.Timeless)
    (domains : List Str) : Tx.Evolves (touchDomains domains) fun store r store' =>
      r = .ok () ∧ store'.principals = store.principals ∧
        table.Rests other store.database store'.database := by
  induction domains with
  | nil =>
    refine (Tx.Evolves.pure ()).mono ?_
    rintro store r store' ⟨rfl, rfl⟩
    exact ⟨rfl, rfl, .refl table other _⟩
  | cons domainName domains ih =>
    refine ((onDatabase_evolves (updateDomainModTimestamp_rests htable hother domainName)).bind
      fun _ => ih).mono ?_
    rintro store r store'' (⟨e, ⟨_, hfail, _⟩, _⟩ | ⟨_, store', ⟨hp, _, hrests⟩, rfl, hp', hrests'⟩)
    · cases hfail
    · exact ⟨rfl, hp'.trans hp, hrests.trans hrests'⟩

theorem Table.updateStates_evolves (hother : other.Apart table) (principal : Str) (f : Nat → Nat)
    (memberships : List (Str × Str × Nat)) :
    Tx.Evolves (table.updateStates principal f memberships) fun store r store' => ∀ before,
      table.Moving other principal f memberships before store →
        (∃ domains, r = .ok domains) ∧ table.Moves other principal f before store' := by
  induction memberships with
  | nil =>
    refine (Tx.Evolves.pure []).mono ?_
    rintro store r store' ⟨rfl, rfl⟩ before hmoving
    exact ⟨⟨[], rfl⟩, hmoving.finish⟩
  | cons membership memberships ih =>
    obtain ⟨domainName, name, oldState⟩ := membership
    have hset := (onDatabase_evolves (table.updateMemberDisabledState_sets hother domainName name
      principal (some SYS_AUTH_MONITOR) (f oldState))).quietly
    have htouch : ∀ changed, Tx.Evolves (table.touchObject domainName name changed)
        fun store r store' => store'.principals = store.principals ∧
          table.Rests other store.database store'.database ∧
          ∀ stored, table.find store.database domainName name = some stored → ∃ b, r = .ok b := by
      intro changed
      refine Tx.Evolves.ite
        (fun _ => (onDatabase_evolves (table.updateModTimestamp_rests hother domainName name)).mono ?_)
        fun _ => (Tx.Evolves.pure false).mono ?_
      · rintro store r store' ⟨hp, hrests, hok⟩
        exact ⟨hp, hrests, fun stored hstored => ⟨true, hok stored hstored⟩⟩
      · rintro store r store' ⟨rfl, rfl⟩
        exact ⟨rfl, .refl table other _, fun _ _ => ⟨false, rfl⟩⟩
    refine (hset.bind fun changed => (htouch changed).bind fun _ => ih.bind fun domains =>
      Tx.Evolves.pure (if changed then domains.insert domainName else domains)).mono ?_
    intro store r store' hrun before hmoving
    obtain ⟨state, hstate⟩ := hmoving.stored
    dsimp only at hstate
    obtain ⟨e, ⟨b, hb, _⟩, _⟩ | ⟨changed, store₁, ⟨b, hb, hdone⟩, hrun⟩ := hrun
    · cases hb
    cases hb
    obtain ⟨hp₁, hsets, hok⟩ | ⟨_, e, hp₁, hsets, hok⟩ := hdone
    · have hmoving₁ := hmoving.step hp₁ hsets
      have hafter := hsets.set
      rw [hstate, Option.map_some] at hafter
      obtain ⟨stored, hstored⟩ := Table.find_of_state hafter
      obtain ⟨e, ⟨_, _, htouched⟩, _⟩ | ⟨_, store₂, ⟨hp₂, hrests, _⟩, hrun⟩ := hrun
      · obtain ⟨b, hb⟩ := htouched stored hstored
        cases hb
      have hmoving₂ := hmoving₁.rests hp₂ hrests
      obtain ⟨e, hloop, _⟩ | ⟨domains, store₃, hloop, rfl, rfl⟩ := hrun
      · obtain ⟨⟨_, hdomains⟩, _⟩ := hloop before hmoving₂
        cases hdomains
      · exact ⟨⟨_, rfl⟩, (hloop before hmoving₂).2⟩
    · cases hok state hstate

/-- All memberships of a stored principal get their new states. -/
theorem Table.updateMemberships_evolves (hother : other.Apart table) (htable : table.Timeless)
    (htimeless : other.Timeless) (principal : Str) (f : Nat → Nat) :
    Tx.Evolves (table.updateMemberships principal f) fun store r store' =>
      (store.principals.lookup principal).isSome = true →
        r = .ok () ∧ table.Moves other principal f store store' := by
  have hget : Tx.Evolves (table.getMemberships principal) fun store r store' =>
      (store.principals.lookup principal).isSome = true →
        r = .ok (table.memberships principal store.database) ∧ store' = store := by
    refine ((Tx.Evolves.query _).bind fun known => Tx.Evolves.ite
      (R := fun store r store' => known = true →
        r = .ok (table.memberships principal store.database) ∧ store' = store)
      (fun hunknown => (Tx.Evolves.abort _).mono ?_) fun _ => (Tx.Evolves.query _).mono ?_).mono ?_
    · rintro store r store' _ hknown
      rw [hknown] at hunknown
      cases hunknown
    · rintro store r store' hread _
      exact hread
    · rintro store r store'' (⟨e, ⟨hfail, _⟩, _⟩ | ⟨known, store', ⟨hread, rfl⟩, hrest⟩) hknown
      · cases hfail
      · exact hrest ((Except.ok.inj hread).trans hknown)
  refine (hget.bind fun memberships =>
    (table.updateStates_evolves hother principal f memberships).bind fun domains =>
      touchDomains_evolves htable htimeless domains).mono ?_
  intro store r store' hrun hknown
  obtain ⟨e, hread, _⟩ | ⟨memberships, store₁, hread, hrun⟩ := hrun
  · cases (hread hknown).1
  obtain ⟨hlisted, rfl⟩ := hread hknown
  cases hlisted
  have hstart := Table.Moving.start table other principal f store₁
  obtain ⟨e, hloop, _⟩ | ⟨domains, store₂, hloop, rfl, hp, hrests⟩ := hrun
  · obtain ⟨⟨_, hdomains⟩, _⟩ := hloop store₁ hstart
    cases hdomains
  · obtain ⟨_, hmoves⟩ := hloop store₁ hstart
    refine ⟨rfl, hp.trans hmoves.principals, ?_, ?_, ?_⟩
    · intro domainName name
      rw [hrests.own, hmoves.moved]
    · intro domainName name member hne
      rw [hrests.own, hmoves.others domainName name member hne]
    · intro domainName name member
      rw [hrests.beside, hmoves.beside]

end Loops

section Sweeps

/-- The same principals are known. -/
def SamePrincipals (store store' : PrincipalStore) : Prop :=
  ∀ principal, (store'.principals.lookup principal).isSome = (store.principals.lookup principal).isSome

/-- The states of all memberships of some principals go through two functions, for roles and for
groups, and no others change. -/
structure Sweeps (users : List Str) (f g : Nat → Nat) (store store' : PrincipalStore) : Prop where
  known : SamePrincipals store store'
  roles : ∀ principal ∈ users, ∀ domainName name,
    roleTable.disabledState store'.database domainName name principal =
      (roleTable.disabledState store.database domainName name principal).map f
  groups : ∀ principal ∈ users, ∀ domainName name,
    groupTable.disabledState store'.database domainName name principal =
      (groupTable.disabledState store.database domainName name principal).map g
  otherRoles : ∀ principal ∉ users, ∀ domainName name,
    roleTable.disabledState store'.database domainName name principal =
      roleTable.disabledState store.database domainName name principal
  otherGroups : ∀ principal ∉ users, ∀ domainName name,
    groupTable.disabledState store'.database domainName name principal =
      groupTable.disabledState store.database domainName name principal

variable {f g : Nat → Nat} {store store' store'' : PrincipalStore}

theorem Sweeps.refl (f g : Nat → Nat) (h : SamePrincipals store store')
    (hdatabase : store'.database = store.database) : Sweeps [] f g store store' where
  known := h
  roles _ hmem := absurd hmem List.not_mem_nil
  groups _ hmem := absurd hmem List.not_mem_nil
  otherRoles _ _ _ _ := by rw [hdatabase]
  otherGroups _ _ _ _ := by rw [hdatabase]

theorem Sweeps.start (h : Sweeps users f g store' store'') (hknown : SamePrincipals store store')
    (hdatabase : store'.database = store.database) : Sweeps users f g store store'' where
  known principal := (h.known principal).trans (hknown principal)
  roles := hdatabase ▸ h.roles
  groups := hdatabase ▸ h.groups
  otherRoles := hdatabase ▸ h.otherRoles
  otherGroups := hdatabase ▸ h.otherGroups

/-- One principal and then the others; one that comes again goes through the functions again. -/
theorem Sweeps.cons (hf : ∀ state, f (f state) = f state) (hg : ∀ state, g (g state) = g state)
    (hroles : roleTable.Moves groupTable principal f store store₁)
    (hgroups : groupTable.Moves roleTable principal g store₁ store')
    (h : Sweeps users f g store' store'') : Sweeps (principal :: users) f g store store'' where
  known name := by
    rw [h.known, hgroups.principals, hroles.principals]
  roles user hmem domainName name := by
    by_cases hsame : user = principal
    · rw [hsame] at hmem ⊢
      by_cases hagain : principal ∈ users
      · rw [h.roles principal hagain, hgroups.beside, hroles.moved, Option.map_map]
        congr 1
        funext state
        exact hf state
      · rw [h.otherRoles principal hagain, hgroups.beside, hroles.moved]
    · have hlater := (List.mem_cons.1 hmem).resolve_left hsame
      rw [h.roles user hlater, hgroups.beside, hroles.others domainName name user hsame]
  groups user hmem domainName name := by
    by_cases hsame : user = principal
    · rw [hsame] at hmem ⊢
      by_cases hagain : principal ∈ users
      · rw [h.groups principal hagain, hgroups.moved, hroles.beside, Option.map_map]
        congr 1
        funext state
        exact hg state
      · rw [h.otherGroups principal hagain, hgroups.moved, hroles.beside]
    · have hlater := (List.mem_cons.1 hmem).resolve_left hsame
      rw [h.groups user hlater, hgroups.others domainName name user hsame, hroles.beside]
  otherRoles user hnot domainName name := by
    rw [List.mem_cons, not_or] at hnot
    rw [h.otherRoles user hnot.2, hgroups.beside, hroles.others domainName name user hnot.1]
  otherGroups user hnot domainName name := by
    rw [List.mem_cons, not_or] at hnot
    rw [h.otherGroups user hnot.2, hgroups.others domainName name user hnot.1, hroles.beside]

theorem unlessNotFound_evolves {p q : PrincipalOp Unit}
    {R T : PrincipalStore → Except Failure Unit → PrincipalStore → Prop}
    (hp : Tx.Evolves p R) (hq : Tx.Evolves q T) :
    Tx.Evolves (unlessNotFound p q) fun store r store'' =>
      (∃ store', R store (.ok ()) store' ∧ T store' r store'') ∨ ∃ e, R store (.error e) store'' := by
  intro c hc
  obtain ⟨hquiet, hR⟩ := hp c hc
  unfold unlessNotFound
  rcases hrun : p c with ⟨e | u, d⟩
  · rw [hrun] at hquiet hR
    dsimp only
    split
    · exact ⟨hquiet, .inr ⟨e, hR⟩⟩
    · exact ⟨hquiet, .inr ⟨e, hR⟩⟩
  · rw [hrun] at hquiet hR
    obtain ⟨hquiet', hT⟩ := hq d hquiet
    exact ⟨hquiet', .inl ⟨d.committed, hR, hT⟩⟩

theorem updatePrincipals_evolves (newState : Nat) (principals : List Str) :
    Tx.Evolves (updatePrincipals newState principals) fun store r store' =>
      r = .ok (principals.filter fun name => (store.principals.lookup name).isSome) ∧
        SamePrincipals store store' ∧ store'.database = store.database := by
  induction principals with
  | nil =>
    refine (Tx.Evolves.pure []).mono ?_
    rintro store r store' ⟨rfl, rfl⟩
    exact ⟨rfl, fun _ => rfl, rfl⟩
  | cons principal principals ih =>
    have hupdate : Tx.Evolves (updatePrincipal principal newState) fun store r store' =>
        r = .ok (store.principals.lookup principal).isSome ∧ SamePrincipals store store' ∧
          store'.database = store.database := by
      refine (Tx.Evolves.statement _).mono ?_
      rintro store r store' ⟨time, ⟨a, hf, rfl⟩ | ⟨e, hf, _⟩⟩
      · cases hknown : store.principals.lookup principal with
        | none =>
          rw [hknown] at hf
          cases hf
          exact ⟨rfl, fun _ => rfl, rfl⟩
        | some state =>
          rw [hknown] at hf
          cases hf
          refine ⟨rfl, fun name => ?_, rfl⟩
          dsimp only
          rw [Map.lookup_insert]
          split
          · rename_i hsame
            rw [hsame, hknown]
            rfl
          · rfl
      · split at hf <;> cases hf
    refine (hupdate.quietly.bind fun updated => ih.bind fun others =>
      Tx.Evolves.pure (if updated then principal :: others else others)).mono ?_
    intro store r store'' hrun
    obtain ⟨e, ⟨b, hb, _⟩, _⟩ | ⟨updated, store', ⟨b, hb, hdone⟩, hrun⟩ := hrun
    · cases hb
    cases hb
    obtain ⟨hupdated, hknown, hdatabase⟩ | ⟨_, e, hfail, _⟩ := hdone
    · cases hupdated
      obtain ⟨e, ⟨hfail, _⟩, _⟩ | ⟨others, store₂, ⟨hothers, hknown', hdatabase'⟩, rfl, rfl⟩ := hrun
      · cases hfail
      · cases hothers
        refine ⟨?_, fun name => (hknown' name).trans (hknown name), hdatabase'.trans hdatabase⟩
        rw [List.filter_cons]
        simp only [hknown _]
    · cases hfail

theorem updateMembershipsOf_evolves (suspended : Bool) (principal : Str) :
    Tx.Evolves (updateMembershipsOf suspended principal) fun store r store' =>
      (store.principals.lookup principal).isSome = true → r = .ok () ∧ ∃ store₁,
        roleTable.Moves groupTable principal (suspendedState suspended) store store₁ ∧
        groupTable.Moves roleTable principal (fun _ => suspendedState suspended 0) store₁ store' := by
  have hroles := roleTable.updateMemberships_evolves groupTable_apart roleTable_timeless
    groupTable_timeless principal (suspendedState suspended)
  have hgroups := groupTable.updateMemberships_evolves roleTable_apart groupTable_timeless
    roleTable_timeless principal fun _ => suspendedState suspended 0
  refine (unlessNotFound_evolves hroles
    (unlessNotFound_evolves hgroups (Tx.Evolves.pure ()))).mono ?_
  rintro store r store' (⟨store₁, hrole, hrest⟩ | ⟨e, hfail⟩) hknown
  · obtain ⟨_, hmoves⟩ := hrole hknown
    have hstill : (store₁.principals.lookup principal).isSome = true := by
      rw [hmoves.principals]
      exact hknown
    obtain ⟨_, hgroup, rfl, rfl⟩ | ⟨e, hfail⟩ := hrest
    · exact ⟨rfl, store₁, hmoves, (hgroup hstill).2⟩
    · cases (hfail hstill).1
  · cases (hfail hknown).1

theorem updateMembershipsByPrincipalState_evolves (suspended : Bool) (users : List Str) :
    Tx.Evolves (updateMembershipsByPrincipalState suspended users) fun store r store' =>
      (∀ principal ∈ users, (store.principals.lookup principal).isSome = true) →
        r = .ok () ∧ Sweeps users (suspendedState suspended) (fun _ => suspendedState suspended 0)
          store store' := by
  induction users with
  | nil =>
    refine (Tx.Evolves.pure ()).mono ?_
    rintro store r store' ⟨rfl, rfl⟩ _
    exact ⟨rfl, .refl _ _ (fun _ => rfl) rfl⟩
  | cons principal users ih =>
    refine ((updateMembershipsOf_evolves suspended principal).bind fun _ => ih).mono ?_
    intro store r store'' hrun hknown
    have hprincipal := hknown principal List.mem_cons_self
    obtain ⟨e, hone, _⟩ | ⟨_, store', hone, hrest⟩ := hrun
    · cases (hone hprincipal).1
    · obtain ⟨_, store₁, hmoves, hmoves'⟩ := hone hprincipal
      have hlater : ∀ user ∈ users, (store'.principals.lookup user).isSome = true := by
        intro user hmem
        rw [hmoves'.principals, hmoves.principals]
        exact hknown user (List.mem_cons_of_mem _ hmem)
      obtain ⟨hok, hsweeps⟩ := hrest hlater
      exact ⟨hok, .cons (suspendedState_idem suspended) (fun _ => rfl) hmoves hmoves' hsweeps⟩

theorem updatePrincipalByStateFromAuthority_evolves (changed : List Str) (suspended : Bool) :
    Tx.Evolves (updatePrincipalByStateFromAuthority changed suspended) fun store r store' =>
      r = .ok () ∧ Sweeps (changed.filter fun name => (store.principals.lookup name).isSome)
        (suspendedState suspended) (fun _ => suspendedState suspended 0) store store' := by
  refine ((updatePrincipals_evolves _ changed).bind fun users =>
    updateMembershipsByPrincipalState_evolves suspended users).mono ?_
  rintro store r store'' (⟨e, ⟨hfail, _⟩, _⟩ | ⟨users, store', ⟨husers, hknown, hdatabase⟩, hrest⟩)
  · cases hfail
  · cases husers
    obtain ⟨hok, hsweeps⟩ := hrest fun principal hmem => by
      rw [hknown]
      exact (List.mem_filter.1 hmem).2
    exact ⟨hok, hsweeps.start hknown hdatabase⟩

end Sweeps

end Athenz.ZmsServer
