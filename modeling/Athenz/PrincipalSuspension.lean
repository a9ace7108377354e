import Athenz.PrincipalStateUpdater

namespace Athenz.ZmsServer
open Lib Lib.Text Lib.Transaction
set_option autoImplicit true

section Refresh

/-- The principals that the store has as suspended. -/
def PrincipalStore.suspendedPrincipals (store : PrincipalStore) (userDomain : Str) : List Str :=
  (store.principals.entries.filter fun row => row.2 = AUTHORITY_SYSTEM_SUSPENDED).map fun row =>
    fullName userDomain row.1

/-- What a refresh does to the state of a membership; `unchanged` tells that the authority and the
store agree about its principal. -/
def refreshedState (unchanged : Prop) [Decidable unchanged] (newState : Nat → Nat) (oldState : Nat) :
    Nat :=
  if unchanged then oldState else newState oldState

/-- The states of a principal's memberships behind a refresh. -/
structure Refreshed (userDomain : Str) (listed : List Str) (store store' : PrincipalStore)
    (principal : Str) : Prop where
  roles : ∀ domainName name, roleTable.disabledState store'.database domainName name principal =
    (roleTable.disabledState store.database domainName name principal).map
      (refreshedState (principal ∈ listed ↔ principal ∈ store.suspendedPrincipals userDomain)
        (suspendedState (principal ∈ listed)))
  groups : ∀ domainName name, groupTable.disabledState store'.database domainName name principal =
    (groupTable.disabledState store.database domainName name principal).map
      (refreshedState (principal ∈ listed ↔ principal ∈ store.suspendedPrincipals userDomain)
        fun _ => suspendedState (principal ∈ listed) 0)

theorem refreshedState_unchanged {unchanged : Prop} [Decidable unchanged] (h : unchanged)
    (newState : Nat → Nat) : refreshedState unchanged newState = id := by
  funext state
  exact if_pos h

theorem refreshedState_changed {unchanged : Prop} [Decidable unchanged] (h : ¬ unchanged)
    (newState : Nat → Nat) : refreshedState unchanged newState = newState := by
  funext state
  exact if_neg h

theorem Refreshed.of_sweeps {listed : List Str} {store store₁ store' : PrincipalStore}
    (hknown : (store.principals.lookup principal).isSome = true)
    (h : Sweeps ((listed.filter (· ∉ store.suspendedPrincipals userDomain)).filter fun name =>
      (store.principals.lookup name).isSome) (suspendedState true)
      (fun _ => suspendedState true 0) store store₁)
    (h' : Sweeps (((store.suspendedPrincipals userDomain).filter (· ∉ listed)).filter fun name =>
      (store₁.principals.lookup name).isSome) (suspendedState false)
      (fun _ => suspendedState false 0) store₁ store') :
    Refreshed userDomain listed store store' principal := by
  have hknown₁ := (h.known principal).trans hknown
  have hfirst : principal ∈ (listed.filter (· ∉ store.suspendedPrincipals userDomain)).filter
      (fun name => (store.principals.lookup name).isSome) ↔
        principal ∈ listed ∧ principal ∉ store.suspendedPrincipals userDomain := by
    simp only [List.mem_filter, decide_eq_true_eq, hknown, and_true]
  have hsecond : principal ∈ ((store.suspendedPrincipals userDomain).filter (· ∉ listed)).filter
      (fun name => (store₁.principals.lookup name).isSome) ↔
        principal ∈ store.suspendedPrincipals userDomain ∧ principal ∉ listed := by
    simp only [List.mem_filter, decide_eq_true_eq, hknown₁, and_true]
  by_cases hlisted : principal ∈ listed
  · have hlater := mt hsecond.1 fun hboth => hboth.2 hlisted
    by_cases hexisting : principal ∈ store.suspendedPrincipals userDomain
    · have hnot := mt hfirst.1 fun hboth => hboth.2 hexisting
      have hsame : principal ∈ listed ↔ principal ∈ store.suspendedPrincipals userDomain :=
        iff_of_true hlisted hexisting
      constructor
      · intro domainName name
        rw [refreshedState_unchanged hsame, Option.map_id, id_eq, h'.otherRoles _ hlater,
          h.otherRoles _ hnot]
      · intro domainName name
        rw [refreshedState_unchanged hsame, Option.map_id, id_eq, h'.otherGroups _ hlater,
          h.otherGroups _ hnot]
    · have hmem := hfirst.2 ⟨hlisted, hexisting⟩
      have hdiffer : ¬ (principal ∈ listed ↔ principal ∈ store.suspendedPrincipals userDomain) :=
        fun hsame => hexisting (hsame.1 hlisted)
      constructor
      · intro domainName name
        rw [refreshedState_changed hdiffer, decide_eq_true hlisted, h'.otherRoles _ hlater,
          h.roles _ hmem]
      · intro domainName name
        rw [refreshedState_changed hdiffer, decide_eq_true hlisted, h'.otherGroups _ hlater,
          h.groups _ hmem]
  · have hnot := mt hfirst.1 fun hboth => hlisted hboth.1
    by_cases hexisting : principal ∈ store.suspendedPrincipals userDomain
    · have hmem := hsecond.2 ⟨hexisting, hlisted⟩
      have hdiffer : ¬ (principal ∈ listed ↔ principal ∈ store.suspendedPrincipals userDomain) :=
        fun hsame => hlisted (hsame.2 hexisting)
      constructor
      · intro domainName name
        rw [refreshedState_changed hdiffer, decide_eq_false hlisted, h'.roles _ hmem,
          h.otherRoles _ hnot]
      · intro domainName name
        rw [refreshedState_changed hdiffer, decide_eq_false hlisted, h'.groups _ hmem,
          h.otherGroups _ hnot]
    · have hlater := mt hsecond.1 fun hboth => hexisting hboth.1
      have hsame : principal ∈ listed ↔ principal ∈ store.suspendedPrincipals userDomain :=
        iff_of_false hlisted hexisting
      constructor
      · intro domainName name
        rw [refreshedState_unchanged hsame, Option.map_id, id_eq, h'.otherRoles _ hlater,
          h.otherRoles _ hnot]
      · intro domainName name
        rw [refreshedState_unchanged hsame, Option.map_id, id_eq, h'.otherGroups _ hlater,
          h.otherGroups _ hnot]

theorem refresh_evolves (userDomain : Str) (listed : List Str) :
    Tx.Evolves (refreshPrincipalStateFromAuthority userDomain listed) fun store r store' =>
      r = .ok () ∧ ∀ principal, (store.principals.lookup principal).isSome = true →
        Refreshed userDomain listed store store' principal := by
  refine ((Tx.Evolves.query _).bind fun existing =>
    (updatePrincipalByStateFromAuthority_evolves _ true).bind fun _ =>
      updatePrincipalByStateFromAuthority_evolves _ false).mono ?_
  rintro store r store'' (⟨e, ⟨hfail, _⟩, _⟩ | ⟨existing, _, ⟨hexisting, rfl⟩, hrun⟩)
  · cases hfail
  cases hexisting
  obtain ⟨e, ⟨hfail, _⟩, _⟩ | ⟨_, store₁, ⟨_, hsweeps⟩, hok, hsweeps'⟩ := hrun
  · cases hfail
  · exact ⟨hok, fun principal hknown => .of_sweeps hknown hsweeps hsweeps'⟩

end Refresh

section Convergence

/-- The bit of a suspension tells whether the principal is listed, and the others are as before. -/
def Follows (listed : Bool) (oldState : Nat) (newState : Option Nat) : Prop :=
  ∃ state, newState = some state ∧
    ∀ i, state.testBit i = if i = 1 then listed else oldState.testBit i

/-- Every membership of a principal in a table follows the list. -/
def Table.FollowsList (table : Table S) (listed : List Str) (store store' : PrincipalStore)
    (principal : Str) : Prop :=
  ∀ domainName name oldState,
    table.disabledState store.database domainName name principal = some oldState →
      Follows (principal ∈ listed) oldState
        (table.disabledState store'.database domainName name principal)

/-- The memberships of every stored principal follow the authority. -/
def Converged (listed : List Str) (store store' : PrincipalStore) : Prop :=
  ∀ principal, (store.principals.lookup principal).isSome = true →
    roleTable.FollowsList listed store store' principal ∧
      groupTable.FollowsList listed store store' principal

/-- The store and its memberships agree about a principal: where its state does not change, each
membership has the right bit, and where it does, its group memberships have no other bit. -/
structure StatesAgree (userDomain : Str) (listed : List Str) (store : PrincipalStore)
    (principal : Str) : Prop where
  roles : ∀ domainName name oldState,
    roleTable.disabledState store.database domainName name principal = some oldState →
      (principal ∈ listed ↔ principal ∈ store.suspendedPrincipals userDomain) →
        oldState.testBit 1 = decide (principal ∈ listed)
  groups : ∀ domainName name oldState,
    groupTable.disabledState store.database domainName name principal = some oldState →
      if principal ∈ listed ↔ principal ∈ store.suspendedPrincipals userDomain then
        oldState.testBit 1 = decide (principal ∈ listed)
      else ∀ i, i ≠ 1 → oldState.testBit i = false

theorem follows_self_iff : Follows listed oldState (some oldState) ↔ oldState.testBit 1 = listed := by
  constructor
  · rintro ⟨state, ⟨⟩, hbits⟩
    exact hbits 1
  · intro hbit
    refine ⟨oldState, rfl, fun i => ?_⟩
    split
    · rename_i hi
      rw [hi, hbit]
    · rfl

theorem follows_suspendedState (listed : Bool) (oldState : Nat) :
    Follows listed oldState (some (suspendedState listed oldState)) :=
  ⟨_, rfl, testBit_suspendedState listed oldState⟩

/-- A state computed from zero has lost every other bit. -/
theorem follows_reset_iff : Follows listed oldState (some (suspendedState listed 0)) ↔
    ∀ i, i ≠ 1 → oldState.testBit i = false := by
  constructor
  · rintro ⟨state, ⟨⟩, hbits⟩ i hi
    have hbit := hbits i
    rw [testBit_suspendedState, if_neg hi, if_neg hi, Nat.zero_testBit] at hbit
    exact hbit.symm
  · intro hothers
    refine ⟨_, rfl, fun i => ?_⟩
    rw [testBit_suspendedState]
    split
    · rfl
    · rename_i hi
      rw [hothers i hi, Nat.zero_testBit]

theorem Refreshed.followsRoles_iff (h : Refreshed userDomain listed store store' principal) :
    roleTable.FollowsList listed store store' principal ↔ ∀ domainName name oldState,
      roleTable.disabledState store.database domainName name principal = some oldState →
        (principal ∈ listed ↔ principal ∈ store.suspendedPrincipals userDomain) →
          oldState.testBit 1 = decide (principal ∈ listed) := by
  unfold Table.FollowsList
  refine forall_congr' fun domainName => forall_congr' fun name => forall_congr' fun oldState =>
    imp_congr_right fun hstate => ?_
  rw [h.roles, hstate, Option.map_some, refreshedState]
  split
  · rename_i hsame
    rw [follows_self_iff]
    exact ⟨fun hbit _ => hbit, fun hbit => hbit hsame⟩
  · rename_i hdiffer
    exact iff_of_true (follows_suspendedState _ _) fun hsame => absurd hsame hdiffer

theorem Refreshed.followsGroups_iff (h : Refreshed userDomain listed store store' principal) :
    groupTable.FollowsList listed store store' principal ↔ ∀ domainName name oldState,
      groupTable.disabledState store.database domainName name principal = some oldState →
        if principal ∈ listed ↔ principal ∈ store.suspendedPrincipals userDomain then
          oldState.testBit 1 = decide (principal ∈ listed)
        else ∀ i, i ≠ 1 → oldState.testBit i = false := by
  unfold Table.FollowsList
  refine forall_congr' fun domainName => forall_congr' fun name => forall_congr' fun oldState =>
    imp_congr_right fun hstate => ?_
  rw [h.groups, hstate, Option.map_some, refreshedState]
  split
  · exact follows_self_iff
  · exact follows_reset_iff

/-- A refresh of a store, each of whose statements commits itself. -/
def refreshStore (userDomain : Str) (listed : List Str) (store : PrincipalStore)
    (events : Nat → Event Failure) : Except Failure Unit × PrincipalStore :=
  let run := refreshPrincipalStateFromAuthority userDomain listed ⟨store, store, true, events⟩
  (run.1, run.2.committed)

theorem refreshStore_refreshed (userDomain : Str) (listed : List Str) (store : PrincipalStore)
    (times : Nat → Int) :
    (refreshStore userDomain listed store fun n => ⟨times n, none⟩).1 = .ok () ∧
      ∀ principal, (store.principals.lookup principal).isSome = true →
        Refreshed userDomain listed store
          (refreshStore userDomain listed store fun n => ⟨times n, none⟩).2 principal := by
  have hquiet : Tx.Quiet (⟨store, store, true, fun n => ⟨times n, none⟩⟩ :
      Connection PrincipalStore Failure) := ⟨rfl, rfl, fun _ => rfl⟩
  exact (refresh_evolves userDomain listed _ hquiet).2

/-- A refresh without errors makes the memberships follow the authority exactly when the store and
its memberships agree before it. -/
theorem refresh_converges_iff (userDomain : Str) (listed : List Str) (store : PrincipalStore)
    (times : Nat → Int) :
    (refreshStore userDomain listed store fun n => ⟨times n, none⟩).1 = .ok () ∧
      (Converged listed store (refreshStore userDomain listed store fun n => ⟨times n, none⟩).2 ↔
        ∀ principal, (store.principals.lookup principal).isSome = true →
          StatesAgree userDomain listed store principal) := by
  obtain ⟨hok, hrefreshed⟩ := refreshStore_refreshed userDomain listed store times
  refine ⟨hok, forall_congr' fun principal => imp_congr_right fun hknown => ?_⟩
  have hprincipal := hrefreshed principal hknown
  rw [hprincipal.followsRoles_iff, hprincipal.followsGroups_iff]
  exact ⟨fun h => ⟨h.1, h.2⟩, fun h => ⟨h.roles, h.groups⟩⟩

end Convergence

section Example

/-- A user with a role and a group whose membership the authority filter has disabled. -/
def memberStore : PrincipalStore where
  principals := (∅ : Map Str Nat).insert "user.joe" 0
  database := { domains := (∅ : Map Str DomainRow).insert "sports" {
    settings := Domain.settings { name := "sports" }
    modified := 0
    roles := (∅ : Map Str (Collection RoleSettings)).insert "readers" {
      settings := Role.settings { name := "sports:role.readers" }
      members := (∅ : Map Str MemberRow).insert "user.joe" ⟨none, none, true, 0⟩ }
    groups := (∅ : Map Str (Collection GroupSettings)).insert "devs" {
      settings := Group.settings { name := "sports:group.devs" }
      members := (∅ : Map Str MemberRow).insert "user.joe" ⟨none, none, true, 1⟩ } } }

/-- The first refresh fails behind the update of the principal's row. -/
def abortedRefresh : Except Failure Unit × PrincipalStore :=
  refreshStore "user" ["user.joe"] memberStore fun n =>
    ⟨n, if n = 2 then some (.resource 503 "Unknown SQL error", false) else none⟩

def secondRefresh : Except Failure Unit × PrincipalStore :=
  refreshStore "user" ["user.joe"] abortedRefresh.2 fun n => ⟨n, none⟩

def wholeRefresh : Except Failure Unit × PrincipalStore :=
  refreshStore "user" ["user.joe"] memberStore fun n => ⟨n, none⟩

/-- Behind an aborted refresh a complete one leaves the role of a suspended user enabled, and a
refresh that suspends a user loses what else disables its group. -/
theorem suspension_lost :
    abortedRefresh.1 = .error (.resource 503 "Unknown SQL error") ∧ secondRefresh.1 = .ok () ∧
      roleTable.disabledState secondRefresh.2.database "sports" "readers" "user.joe" = some 0 ∧
      groupTable.disabledState wholeRefresh.2.database "sports" "devs" "user.joe" = some 2 ∧
      ¬ Converged ["user.joe"] abortedRefresh.2 secondRefresh.2 ∧
      ¬ Converged ["user.joe"] memberStore wholeRefresh.2 := by
  have hrole : roleTable.disabledState secondRefresh.2.database "sports" "readers" "user.joe" =
      some 0 := by decide +kernel
  have hgroup : groupTable.disabledState wholeRefresh.2.database "sports" "devs" "user.joe" =
      some 2 := by decide +kernel
  refine ⟨by decide +kernel, by decide +kernel, hrole, hgroup, ?_, ?_⟩
  · intro hconverged
    obtain ⟨state, hstate, hbits⟩ :=
      (hconverged "user.joe" (by decide +kernel)).1 "sports" "readers" 0 (by decide +kernel)
    cases hrole.symm.trans hstate
    exact absurd (hbits 1) (by decide)
  · intro hconverged
    obtain ⟨state, hstate, hbits⟩ :=
      (hconverged "user.joe" (by decide +kernel)).2 "sports" "devs" 1 (by decide +kernel)
    cases hgroup.symm.trans hstate
    exact absurd (hbits 0) (by decide)

end Example

end Athenz.ZmsServer
