import Athenz.RowChanges
import Athenz.ZmsImpl

namespace Athenz.ZmsServer.Approvals
open Lib Lib.Text Lib.Transaction Lib.Transaction.Tx
set_option autoImplicit true

section Kinds

/-- Roles or groups: their table, what they say about new members, and the bodies of the requests. -/
structure Kind (S O : Type) where
  table : Table S
  flags : S → ReviewFlags
  put : Config → Context → Str → Str → O → Op Unit
  putMembership : Config → Context → Str → Str → ReviewFlags → Member → Op Unit
  putMembershipDecision : Config → Context → Str → Str → ReviewFlags → Member → Op Unit
  deleteMembership : Config → Context → Str → Str → Str → Op Unit
  deletePendingMembership : Config → Context → Str → Str → Str → Op Unit

variable [Collation] [CaseRules]

/-- The role of a request is named as its address says. -/
def roleKind : Kind RoleSettings Role where
  table := roleTable
  flags settings := (retrieveRole [] [] settings).reviewFlags
  put config ctx domainName roleName role :=
    putRoleBody config ctx domainName roleName
      { role with name := roleResourceName domainName roleName }
  putMembership config ctx domainName roleName _ member :=
    putMembershipBody config ctx domainName roleName member
  putMembershipDecision config ctx domainName roleName _ member :=
    putMembershipDecisionBody config ctx domainName roleName member
  deleteMembership := deleteMembershipBody
  deletePendingMembership := deletePendingMembershipBody

def groupKind : Kind GroupSettings Group where
  table := groupTable
  flags settings := (retrieveGroup [] [] settings).reviewFlags
  put config ctx domainName groupName group :=
    putGroupBody config ctx domainName groupName
      { group with name := groupResourceName domainName groupName }
  putMembership config ctx domainName groupName flags member :=
    putGroupMembershipBody config ctx domainName groupName flags.auditEnabled member
  putMembershipDecision config ctx domainName groupName flags member :=
    putGroupMembershipDecisionBody config ctx domainName groupName flags.auditEnabled member
  deleteMembership := deleteGroupMembershipBody
  deletePendingMembership := deletePendingGroupMembershipBody

end Kinds

section Systems

/-- A request for a member, with what it has read of the object. -/
structure Addition where
  principal : Str
  ctx : Context
  domainName : Str
  name : Str
  flags : ReviewFlags
  member : Member

/-- A decision about a member that waits, and whether its requester has been looked up. -/
structure Decision where
  principal : Str
  ctx : Context
  domainName : Str
  name : Str
  flags : ReviewFlags
  member : Member
  checked : Bool

inductive Request where
  | addition (addition : Addition)
  | decision (decision : Decision)

structure System where
  db : Database
  requests : Nat → Option Request := fun _ => none

/-- What happens next; whether a principal has access to an object is left open. -/
inductive Action (O : Type) where
  | putMembership (i : Nat) (principal : Str) (ctx : Context) (domainName name : Str)
      (member : Member) (updateAccess : Bool)
  | putMembershipDecision (i : Nat) (principal : Str) (ctx : Context) (domainName name : Str)
      (member : Member)
  | check (i : Nat) (events : Nat → Event Failure)
  | write (i : Nat) (events : Nat → Event Failure)
  | put (ctx : Context) (domainName name : Str) (object : O) (events : Nat → Event Failure)
  | deleteMembership (ctx : Context) (domainName name memberName : Str)
      (events : Nat → Event Failure)
  | deletePendingMembership (ctx : Context) (domainName name memberName : Str)
      (events : Nat → Event Failure)
  | refuse (i : Nat)

def System.put (system : System) (i : Nat) (request : Option Request) : System :=
  { system with requests := Function.update system.requests i request }

variable [Collation] [CaseRules]

/-- One attempt; a retry is an attempt of its own. -/
def attemptOnce (config : Config) : Config := { config with defaultRetryCount := 1 }

/-- The transaction by which a request ends. -/
def Kind.attempt (kind : Kind S O) (config : Config) : Request → Execution Unit
  | .addition a =>
    executeAutoCommit (attemptOnce config) (kind.putMembership config
      { a.ctx with principal := some a.principal } a.domainName a.name a.flags a.member)
  | .decision d =>
    execute (attemptOnce config) d.domainName (kind.putMembershipDecision config
      { d.ctx with principal := some d.principal } d.domainName d.name d.flags d.member)

/-- A request goes on behind a failure that allows a retry. -/
def goesOn (request : Request) : Except Failure Unit → Option Request
  | .ok _ => none
  | .error failure => if shouldRetryOperation failure then some request else none

/-- The store and the request behind an attempt. -/
def System.finish (system : System) (i : Nat) (request : Request)
    (outcome : Except Failure Unit × Database) : System where
  db := outcome.2
  requests := (system.put i (goesOn request outcome.1)).requests

/-- The requester is looked up where an object is reviewed and not audited. -/
def needsCheck (flags : ReviewFlags) : Bool :=
  flags.auditEnabled ≠ some true && flags.reviewEnabled = some true

/-- One transaction of one request, or its refusal for another reason. -/
def Kind.step (kind : Kind S O) (config : Config) (system : System) : Action O → Option System
  | .putMembership i principal ctx domainName name member updateAccess => do
    let stored ← kind.table.find system.db domainName name
    match system.requests i with
    | some _ => none
    | none =>
      let flags := kind.flags stored.settings
      let member ← isAllowedPutMembership updateAccess flags member
      some (system.put i (some (.addition ⟨principal, ctx, domainName, name, flags, member⟩)))
  | .putMembershipDecision i principal ctx domainName name member => do
    let stored ← kind.table.find system.db domainName name
    match system.requests i with
    | some _ => none
    | none =>
      let flags := kind.flags stored.settings
      some (system.put i (some (.decision
        ⟨principal, ctx, domainName, name, flags, member, !needsCheck flags⟩)))
  | .check i events =>
    match system.requests i with
    | some (.decision decision) =>
      if decision.checked then none
      else
        match answer (kind.table.checkRequester decision.domainName decision.name
            decision.member.memberName decision.principal) system.db events with
        | .ok _ => some (system.put i (some (.decision { decision with checked := true })))
        | .error _ => some (system.put i none)
    | _ => none
  | .write i events =>
    match system.requests i with
    | some (.addition addition) =>
      some (system.finish i (.addition addition)
        (kind.attempt config (.addition addition) system.db events))
    | some (.decision decision) =>
      if decision.checked then
        some (system.finish i (.decision decision)
          (kind.attempt config (.decision decision) system.db events))
      else none
    | none => none
  | .put ctx domainName name object events =>
    some { system with
      db := (execute (attemptOnce config) domainName (kind.put config ctx domainName name object)
        system.db events).2 }
  | .deleteMembership ctx domainName name memberName events =>
    some { system with
      db := (executeAutoCommit (attemptOnce config)
        (kind.deleteMembership config ctx domainName name memberName) system.db events).2 }
  | .deletePendingMembership ctx domainName name memberName events =>
    some { system with
      db := (executeAutoCommit (attemptOnce config)
        (kind.deletePendingMembership config ctx domainName name memberName) system.db events).2 }
  | .refuse i => some (system.put i none)

def Kind.run (kind : Kind S O) (config : Config) (system : System) (actions : List (Action O)) :
    Option System :=
  actions.foldlM (kind.step config) system

end Systems

section Laws

/-- What the requests may do to a row: an object that is reviewed is not put, and the others do what
they say. -/
structure Kind.Lawful (kind : Kind S O) : Prop where
  timeless : kind.table.Timeless
  put : ∀ {I : Collection S → Prop} {domainName name : Str}, BesideClosed I →
    (∀ stored, I stored → (kind.flags stored.settings).reviewEnabled = some true) →
      ∀ config ctx otherDomain other object,
        Preserves (kind.table.Holds domainName name I) (kind.put config ctx otherDomain other object)
  putMembership : ∀ {K : Database → Prop} {ctx : Context} {domainName name : Str} {member : Member},
    kind.table.Ignores K domainName name →
      kind.table.Admits K domainName name (kind.table.Joins member ctx.principal) →
        ∀ config flags, Preserves K (kind.putMembership config ctx domainName name flags member)
  putMembershipDecision : ∀ {K : Database → Prop} {domainName name : Str} {member : Member},
    kind.table.Ignores K domainName name →
      (member.approved = some true →
        kind.table.Admits K domainName name (kind.table.Approves member)) →
      kind.table.Admits K domainName name (Collection.Decides member.memberName) →
        ∀ config ctx flags,
          Preserves K (kind.putMembershipDecision config ctx domainName name flags member)
  deleteMembership : ∀ {K : Database → Prop} {domainName name memberName : Str},
    kind.table.Ignores K domainName name →
      kind.table.Admits K domainName name (Collection.Loses memberName) →
        ∀ config ctx, Preserves K (kind.deleteMembership config ctx domainName name memberName)
  deletePendingMembership : ∀ {K : Database → Prop} {domainName name memberName : Str},
    kind.table.Ignores K domainName name →
      kind.table.Admits K domainName name (Collection.Decides memberName) →
        ∀ config ctx, Preserves K (kind.deletePendingMembership config ctx domainName name memberName)

variable [Collation] [CaseRules]

omit [Collation] [CaseRules] in
theorem reviewEnabled_of_some {reviewEnabled : Bool}
    (h : nullIfDefaultValue reviewEnabled false = some true) : reviewEnabled = true := by
  cases reviewEnabled with
  | false => cases h
  | true => rfl

theorem roleKind_lawful : roleKind.Lawful where
  timeless := roleTable_timeless
  put {I domainName name} hI hreviewed config ctx otherDomain other role := by
    apply putRoleBody_preserves rfl
    intro db hdb
    by_cases hsame : otherDomain = domainName ∧ other = name
    · rcases hdb with ⟨stored, hstored, hrow⟩
      refine .inl ⟨stored, ?_, reviewEnabled_of_some (hreviewed stored hrow)⟩
      rw [hsame.1, hsame.2]
      exact hstored
    · exact .inr (hI.takes roleTable_timeless hsame _ _)
  putMembership hK hjoins config _ := putMembershipBody_preserves config hK hjoins
  putMembershipDecision hK happroves hdecides config _ _ :=
    putMembershipDecisionBody_preserves config hK happroves hdecides
  deleteMembership hK hloses config ctx :=
    hK.removalBody config ctx .role (hK.deleteMember hloses) _
  deletePendingMembership hK hdecides config ctx :=
    hK.removalBody config ctx .role (hK.deletePendingMember hdecides) _

theorem groupKind_lawful : groupKind.Lawful where
  timeless := groupTable_timeless
  put {I domainName name} hI hreviewed config ctx otherDomain other group := by
    apply putGroupBody_preserves rfl
    intro db hdb
    by_cases hsame : otherDomain = domainName ∧ other = name
    · rcases hdb with ⟨stored, hstored, hrow⟩
      refine .inl ⟨stored, ?_, reviewEnabled_of_some (hreviewed stored hrow)⟩
      rw [hsame.1, hsame.2]
      exact hstored
    · exact .inr (hI.takes groupTable_timeless hsame _ _)
  putMembership hK hjoins config flags :=
    putGroupMembershipBody_preserves config flags.auditEnabled hK hjoins
  putMembershipDecision hK happroves hdecides config _ flags :=
    putGroupMembershipDecisionBody_preserves config flags.auditEnabled hK happroves hdecides
  deleteMembership hK hloses config ctx :=
    hK.removalBody config ctx .group (hK.deleteMember hloses) _
  deletePendingMembership hK hdecides config ctx :=
    hK.removalBody config ctx .group (hK.deletePendingMember hdecides) _

end Laws

section Changes

/-- The row of an object behind a step: new members have waited, and those who wait are the ones of
before or requested by it. -/
structure Tends (before : Collection S) (approved : Str → Prop) (requested : Str → PendingRow → Prop)
    (stored : Collection S) : Prop where
  settings : stored.settings = before.settings
  members : ∀ memberName, (stored.members.lookup memberName).isSome →
    (before.members.lookup memberName).isSome ∨
      approved memberName ∧ (before.pending.lookup memberName).isSome
  pending : ∀ memberName row, stored.pending.lookup memberName = some row →
    before.pending.lookup memberName = some row ∨ requested memberName row

variable {before stored stored' : Collection S} {approved : Str → Prop}
  {requested : Str → PendingRow → Prop}

theorem Tends.refl (before : Collection S) (approved : Str → Prop)
    (requested : Str → PendingRow → Prop) : Tends before approved requested before :=
  ⟨rfl, fun _ h => .inl h, fun _ _ h => .inl h⟩

theorem tends_besideClosed : BesideClosed (Tends before approved requested) := by
  intro stored stored' hbeside h
  constructor
  · rw [hbeside.settings]
    exact h.settings
  · rw [hbeside.members]
    exact h.members
  · rw [hbeside.pending]
    exact h.pending

/-- A member that has to be approved waits. -/
theorem Tends.joins {table : Table S} {member : Member} (h : Tends before approved requested stored)
    (hjoins : table.Joins member admin stored stored') (hwaits : member.approved = some false)
    (hrequested : requested member.memberName (pendingRow table.keepsReview member admin)) :
    Tends before approved requested stored' := by
  rw [Table.Joins, Collection.putMember, if_pos hwaits] at hjoins
  rw [hjoins]
  refine ⟨h.settings, h.members, fun memberName row hrow => ?_⟩
  rw [Map.lookup_insert] at hrow
  split at hrow
  · rename_i hsame
    rw [Option.some.injEq] at hrow
    rw [hsame, ← hrow]
    exact .inr hrequested
  · exact h.pending memberName row hrow

theorem Tends.approves {table : Table S} {member : Member}
    (h : Tends before approved requested stored) (happroves : table.Approves member stored stored')
    (happroved : approved member.memberName) (hnone : ∀ memberName row, ¬ requested memberName row) :
    Tends before approved requested stored' := by
  rcases happroves with ⟨hwaits, hstored'⟩
  rw [hstored']
  refine ⟨h.settings, fun memberName hlisted => ?_, h.pending⟩
  rw [Collection.approve, Map.lookup_insert] at hlisted
  split at hlisted
  · rename_i hsame
    rcases Option.ne_none_iff_exists'.1 hwaits with ⟨row, hrow⟩
    have hbefore := (h.pending _ _ hrow).resolve_right (hnone _ _)
    rw [hsame]
    exact .inr ⟨happroved, Option.isSome_of_eq_some hbefore⟩
  · exact h.members memberName hlisted

theorem Tends.loses (h : Tends before approved requested stored)
    (hloses : Collection.Loses name stored stored') : Tends before approved requested stored' := by
  rw [hloses]
  refine ⟨h.settings, fun memberName hlisted => ?_, h.pending⟩
  by_cases hsame : memberName = name
  · rw [hsame, AList.lookup_erase] at hlisted
    cases hlisted
  · rw [AList.lookup_erase_ne hsame] at hlisted
    exact h.members memberName hlisted

theorem Tends.decides (h : Tends before approved requested stored)
    (hdecides : Collection.Decides name stored stored') : Tends before approved requested stored' := by
  rw [hdecides]
  refine ⟨h.settings, h.members, fun memberName row hrow => ?_⟩
  by_cases hsame : memberName = name
  · rw [hsame, AList.lookup_erase] at hrow
    cases hrow
  · rw [AList.lookup_erase_ne hsame] at hrow
    exact h.pending memberName row hrow

end Changes

section Steps

/-- The step confirms a decision to approve the member. -/
def ApprovedBy (system : System) (action : Action O) (domainName name memberName : Str)
    (decision : Decision) : Prop :=
  ∃ i events, action = .write i events ∧ system.requests i = some (.decision decision) ∧
    decision.domainName = domainName ∧ decision.name = name ∧
    decision.member.memberName = memberName ∧ decision.member.approved = some true ∧
    decision.checked = true

/-- The step writes the request of the member. -/
def RequestedBy (system : System) (action : Action O) (domainName name memberName : Str)
    (row : PendingRow) : Prop :=
  ∃ i events addition, action = .write i events ∧ system.requests i = some (.addition addition) ∧
    addition.domainName = domainName ∧ addition.name = name ∧
    addition.member.memberName = memberName ∧
    row.reqPrincipal = processInsertValue (some addition.principal)

/-- The object is reviewed and not audited. -/
def Reviewed (kind : Kind S O) (db : Database) (domainName name : Str) : Prop :=
  ∃ stored, kind.table.find db domainName name = some stored ∧
    needsCheck (kind.flags stored.settings) = true

/-- The requests for members of the object wait. -/
def AllWait (system : System) (domainName name : Str) : Prop :=
  ∀ i addition, system.requests i = some (.addition addition) → addition.domainName = domainName →
    addition.name = name → addition.member.approved = some false

theorem reviewEnabled_of_needsCheck (h : needsCheck flags = true) :
    flags.reviewEnabled = some true := by
  rw [needsCheck, Bool.and_eq_true] at h
  exact of_decide_eq_true h.2

/-- What a step makes of the row of an object. -/
def Follows (system : System) (action : Action O) (domainName name : Str) (before : Collection S) :
    Collection S → Prop :=
  Tends before
    (fun memberName => ∃ decision, ApprovedBy system action domainName name memberName decision)
    (RequestedBy system action domainName name)

variable [CaseRules]

theorem Kind.Lawful.step_follows {kind : Kind S O} (hlawful : kind.Lawful) {system system' : System}
    (hwait : AllWait system domainName name)
    (hbefore : kind.table.find system.db domainName name = some before)
    (hreviewed : needsCheck (kind.flags before.settings) = true)
    (hstep : kind.step config system action = some system') :
    kind.table.Holds domainName name (Follows system action domainName name before) system'.db := by
  have hstart : kind.table.Holds domainName name (Follows system action domainName name before)
      system.db := ⟨before, hbefore, .refl _ _ _⟩
  have hignores : ∀ otherDomain other, kind.table.Ignores (kind.table.Holds domainName name
      (Follows system action domainName name before)) otherDomain other := fun _ _ =>
    tends_besideClosed.ignores hlawful.timeless
  cases action with
  | putMembership i principal ctx otherDomain other member updateAccess =>
    rcases Option.bind_eq_some_iff.1 hstep with ⟨stored, hstored, hstep⟩
    split at hstep
    · cases hstep
    · rcases Option.bind_eq_some_iff.1 hstep with ⟨allowed, hallowed, hstep⟩
      cases hstep
      exact hstart
  | putMembershipDecision i principal ctx otherDomain other member =>
    rcases Option.bind_eq_some_iff.1 hstep with ⟨stored, hstored, hstep⟩
    split at hstep
    · cases hstep
    · cases hstep
      exact hstart
  | check i events =>
    rw [Kind.step] at hstep
    split at hstep
    · split at hstep
      · cases hstep
      · split at hstep
        · cases hstep
          exact hstart
        · cases hstep
          exact hstart
    · cases hstep
  | write i events =>
    rw [Kind.step] at hstep
    split at hstep
    · rename_i addition haddition
      rw [Option.some.injEq] at hstep
      rw [← hstep]
      apply attempts_preserves (hlawful.putMembership (hignores _ _) ?_ config addition.flags) hstart
      apply Table.Holds.admits
      intro hdomain hname stored stored' hjoins htends
      apply htends.joins hjoins (hwait i addition haddition hdomain hname)
      exact ⟨i, events, addition, rfl, haddition, hdomain, hname, rfl, rfl⟩
    · rename_i decision hdecision
      split at hstep
      · rename_i hchecked
        rw [Option.some.injEq] at hstep
        rw [← hstep]
        apply attempts_preserves ?_ hstart
        apply Preserves.saved ?_ fun time s h => h.stamp hlawful.timeless _ time
        apply hlawful.putMembershipDecision (hignores _ _)
        · intro happroved
          apply Table.Holds.admits
          intro hdomain hname stored stored' happroves htends
          apply htends.approves happroves
          · exact ⟨decision, i, events, rfl, hdecision, hdomain, hname, rfl, happroved, hchecked⟩
          · rintro memberName row ⟨j, events', addition, hsame, haddition, _⟩
            cases hsame
            rw [hdecision] at haddition
            cases haddition
        · exact Table.Holds.admits fun _ _ _ _ hdecides htends => htends.decides hdecides
      · cases hstep
    · cases hstep
  | put ctx otherDomain other object events =>
    rw [Kind.step, Option.some.injEq] at hstep
    rw [← hstep]
    apply attempts_preserves ?_ hstart
    apply Preserves.saved ?_ fun time s h => h.stamp hlawful.timeless _ time
    apply hlawful.put tends_besideClosed
    intro stored htends
    rw [htends.settings]
    exact reviewEnabled_of_needsCheck hreviewed
  | deleteMembership ctx otherDomain other memberName events =>
    rw [Kind.step, Option.some.injEq] at hstep
    rw [← hstep]
    apply attempts_preserves (hlawful.deleteMembership (hignores _ _) ?_ config ctx) hstart
    exact Table.Holds.admits fun _ _ _ _ hloses htends => htends.loses hloses
  | deletePendingMembership ctx otherDomain other memberName events =>
    rw [Kind.step, Option.some.injEq] at hstep
    rw [← hstep]
    apply attempts_preserves (hlawful.deletePendingMembership (hignores _ _) ?_ config ctx) hstart
    exact Table.Holds.admits fun _ _ _ _ hdecides htends => htends.decides hdecides
  | refuse i =>
    cases hstep
    exact hstart

end Steps

section Runs

variable [CaseRules]

/-- A request for a member does not change who has asked for it under a decision of the same
principal that has looked this up. -/
def Undisputed (domainName name : Str) (system : System) : Action O → Prop
  | .write i _ => ∀ addition, system.requests i = some (.addition addition) →
      addition.domainName = domainName → addition.name = name →
        ∀ j decision, system.requests j = some (.decision decision) →
          decision.domainName = domainName → decision.name = name →
            decision.member.memberName = addition.member.memberName →
              decision.member.approved = some true → decision.checked = true →
                equalsIgnoreCase (processInsertValue (some addition.principal)).1
                  decision.principal = false
  | _ => True

/-- Every step of a run is undisputed. -/
def EveryUndisputed (kind : Kind S O) (config : Config) (domainName name : Str) (system : System) :
    List (Action O) → Prop
  | [] => True
  | action :: actions => Undisputed domainName name system action ∧
      ∀ system', kind.step config system action = some system' →
        EveryUndisputed kind config domainName name system' actions

/-- Who becomes a member of the object by a step has been asked for, at the moment when the decision
is confirmed, by another principal than the one who has decided. -/
def FourEyes (kind : Kind S O) (domainName name : Str) (system : System) (action : Action O)
    (system' : System) : Prop :=
  ∀ before after memberName, kind.table.find system.db domainName name = some before →
    kind.table.find system'.db domainName name = some after →
      before.members.lookup memberName = none → (after.members.lookup memberName).isSome →
        ∃ decision row, ApprovedBy system action domainName name memberName decision ∧
          before.pending.lookup memberName = some row ∧
          equalsIgnoreCase row.reqPrincipal.1 decision.principal = false

/-- The object stays reviewed and every step of a run takes four eyes. -/
def EveryFourEyes (kind : Kind S O) (config : Config) (domainName name : Str) (system : System) :
    List (Action O) → Prop
  | [] => Reviewed kind system.db domainName name
  | action :: actions => Reviewed kind system.db domainName name ∧
      ∀ system', kind.step config system action = some system' →
        FourEyes kind domainName name system action system' ∧
          EveryFourEyes kind config domainName name system' actions

/-- The decisions under way that have looked the requester up are about the requests of others. -/
structure Sound (kind : Kind S O) (domainName name : Str) (system : System) : Prop where
  reviewed : Reviewed kind system.db domainName name
  wait : AllWait system domainName name
  asked : ∀ i decision, system.requests i = some (.decision decision) →
    decision.domainName = domainName → decision.name = name →
      decision.member.approved = some true → decision.checked = true →
        ∀ stored row, kind.table.find system.db domainName name = some stored →
          stored.pending.lookup decision.member.memberName = some row →
            equalsIgnoreCase row.reqPrincipal.1 decision.principal = false

omit [CaseRules] in
theorem requests_put (system : System) (i : Nat) (request : Option Request) (j : Nat) :
    (system.put i request).requests j = if j = i then request else system.requests j :=
  Function.update_apply ..

omit [CaseRules] in
/-- A request that goes on has not changed. -/
theorem requests_finish {system : System} (hrequest : system.requests i = some request)
    (h : (system.finish i request outcome).requests j = some later) :
    system.requests j = some later := by
  rw [System.finish, requests_put] at h
  split at h
  · rename_i hsame
    rw [hsame, hrequest]
    cases hresult : outcome.1 with
    | ok _ =>
      rw [hresult] at h
      cases h
    | error failure =>
      rw [hresult, goesOn] at h
      split at h
      · exact h
      · cases h
  · exact h

theorem Sound.put {kind : Kind S O} (h : Sound kind domainName name system)
    (hwait : ∀ addition, request = some (.addition addition) → addition.domainName = domainName →
      addition.name = name → addition.member.approved = some false)
    (hasked : ∀ decision, request = some (.decision decision) → decision.domainName = domainName →
      decision.name = name → decision.member.approved = some true → decision.checked = true →
        ∀ stored row, kind.table.find system.db domainName name = some stored →
          stored.pending.lookup decision.member.memberName = some row →
            equalsIgnoreCase row.reqPrincipal.1 decision.principal = false) :
    Sound kind domainName name (system.put i request) where
  reviewed := h.reviewed
  wait j addition hrequest := by
    rw [requests_put] at hrequest
    split at hrequest
    · exact hwait addition hrequest
    · exact h.wait j addition hrequest
  asked j decision hrequest := by
    rw [requests_put] at hrequest
    split at hrequest
    · exact hasked decision hrequest
    · exact h.asked j decision hrequest

theorem Sound.drop {kind : Kind S O} (h : Sound kind domainName name system) (i : Nat) :
    Sound kind domainName name (system.put i none) := by
  apply h.put
  · intro addition hrequest
    cases hrequest
  · intro decision hrequest
    cases hrequest

omit [CaseRules] in
theorem isAllowedPutMembership_waits (hreviewed : flags.reviewEnabled = some true)
    (h : isAllowedPutMembership updateAccess flags member = some allowed) :
    allowed.approved = some false := by
  rw [isAllowedPutMembership] at h
  split at h
  · rw [Option.some.injEq, hreviewed] at h
    rw [← h]
    simp only [decide_true, Bool.or_true, Bool.not_true]
  · split at h
    · cases h
      rfl
    · cases h

/-- Behind a look-up that succeeds the request that waits is not the decider's own. -/
theorem checkRequester_distinct {table : Table S}
    (h : answer (table.checkRequester domainName name memberName principal) db events = .ok ())
    (hstored : table.find db domainName name = some stored)
    (hrow : stored.pending.lookup memberName = some row) :
    equalsIgnoreCase row.reqPrincipal.1 principal = false := by
  rcases answer_eq_ok.1 h with ⟨c, h⟩
  rcases bind_eq_ok.1 h with ⟨found, d, hread, h⟩
  rcases statement_eq_ok.1 hread with ⟨_, s, hfound, _⟩
  dsimp only at hfound
  rw [hstored] at hfound
  dsimp only at hfound
  rw [hrow, Option.filter_some] at hfound
  split at hfound
  · cases hfound
    cases hsame : equalsIgnoreCase row.reqPrincipal.1 principal with
    | false => rfl
    | true =>
      dsimp only at h
      rw [hsame] at h
      cases h
  · cases hfound
    cases h

/-- A step that begins no request keeps what the others have looked up. -/
theorem Sound.follow {kind : Kind S O} {system system' : System} (h : Sound kind domainName name system)
    (hbefore : kind.table.find system.db domainName name = some before)
    (hafter : kind.table.Holds domainName name (Follows system action domainName name before)
      system'.db)
    (hundisputed : Undisputed domainName name system action)
    (hrequests : ∀ j request, system'.requests j = some request → system.requests j = some request) :
    Sound kind domainName name system' := by
  rcases hafter with ⟨after, hafter, htends⟩
  constructor
  · rcases h.reviewed with ⟨stored, hstored, hreviewed⟩
    rw [hbefore, Option.some.injEq] at hstored
    rw [← hstored, ← htends.settings] at hreviewed
    exact ⟨after, hafter, hreviewed⟩
  · intro i addition haddition
    exact h.wait i addition (hrequests i _ haddition)
  · intro i decision hdecision hdomain hname happroved hchecked stored row hstored hrow
    have hdecision := hrequests i _ hdecision
    rw [hafter, Option.some.injEq] at hstored
    rw [← hstored] at hrow
    rcases htends.pending _ row hrow with hrow | hrequested
    · exact h.asked i decision hdecision hdomain hname happroved hchecked before row hbefore hrow
    · rcases hrequested with ⟨j, events, addition, hwrite, haddition, hdomain', hname', hmember, hby⟩
      rw [hwrite] at hundisputed
      rw [hby]
      exact hundisputed addition haddition hdomain' hname' i decision hdecision hdomain hname
        hmember.symm happroved hchecked

theorem Sound.keep {kind : Kind S O} (hlawful : kind.Lawful)
    (h : Sound kind domainName name system)
    (hundisputed : Undisputed domainName name system action)
    (hstep : kind.step config system action = some system') : Sound kind domainName name system' := by
  rcases h.reviewed with ⟨before, hbefore, hreviewed⟩
  have hfollows := hlawful.step_follows h.wait hbefore hreviewed hstep
  cases action with
  | putMembership i principal ctx otherDomain other member updateAccess =>
    rcases Option.bind_eq_some_iff.1 hstep with ⟨stored, hstored, hstep⟩
    split at hstep
    · cases hstep
    · rcases Option.bind_eq_some_iff.1 hstep with ⟨allowed, hallowed, hstep⟩
      cases hstep
      apply h.put
      · intro addition haddition hdomain hname
        cases haddition
        rw [show otherDomain = domainName from hdomain, show other = name from hname, hbefore,
          Option.some.injEq] at hstored
        rw [← hstored] at hallowed
        exact isAllowedPutMembership_waits (reviewEnabled_of_needsCheck hreviewed) hallowed
      · intro decision hdecision
        cases hdecision
  | putMembershipDecision i principal ctx otherDomain other member =>
    rcases Option.bind_eq_some_iff.1 hstep with ⟨stored, hstored, hstep⟩
    split at hstep
    · cases hstep
    · cases hstep
      apply h.put
      · intro addition haddition
        cases haddition
      · intro decision hdecision hdomain hname _ hchecked
        cases hdecision
        rw [show otherDomain = domainName from hdomain, show other = name from hname, hbefore,
          Option.some.injEq] at hstored
        dsimp only at hchecked
        rw [← hstored, hreviewed] at hchecked
        cases hchecked
  | check i events =>
    rw [Kind.step] at hstep
    split at hstep
    · rename_i decision hdecision
      split at hstep
      · cases hstep
      · split at hstep
        · rename_i hanswer
          cases hstep
          apply h.put
          · intro addition haddition
            cases haddition
          · intro later hlater hdomain hname _ _ stored row hstored hrow
            cases hlater
            rw [← hdomain, ← hname] at hstored
            exact checkRequester_distinct hanswer hstored hrow
        · cases hstep
          exact h.drop i
    · cases hstep
  | write i events =>
    apply h.follow hbefore hfollows hundisputed
    intro j request hrequest
    rw [Kind.step] at hstep
    split at hstep
    · rename_i addition haddition
      rw [Option.some.injEq] at hstep
      rw [← hstep] at hrequest
      exact requests_finish haddition hrequest
    · rename_i decision hdecision
      split at hstep
      · rw [Option.some.injEq] at hstep
        rw [← hstep] at hrequest
        exact requests_finish hdecision hrequest
      · cases hstep
    · cases hstep
  | put ctx otherDomain other object events =>
    rw [Kind.step, Option.some.injEq] at hstep
    apply h.follow hbefore hfollows hundisputed
    intro j request hrequest
    rw [← hstep] at hrequest
    exact hrequest
  | deleteMembership ctx otherDomain other memberName events =>
    rw [Kind.step, Option.some.injEq] at hstep
    apply h.follow hbefore hfollows hundisputed
    intro j request hrequest
    rw [← hstep] at hrequest
    exact hrequest
  | deletePendingMembership ctx otherDomain other memberName events =>
    rw [Kind.step, Option.some.injEq] at hstep
    apply h.follow hbefore hfollows hundisputed
    intro j request hrequest
    rw [← hstep] at hrequest
    exact hrequest
  | refuse i =>
    cases hstep
    exact h.drop i

theorem Sound.step {kind : Kind S O} (hlawful : kind.Lawful)
    (h : Sound kind domainName name system)
    (hstep : kind.step config system action = some system') :
    FourEyes kind domainName name system action system' := by
  rcases h.reviewed with ⟨before, hbefore, hreviewed⟩
  have hfollows := hlawful.step_follows h.wait hbefore hreviewed hstep
  rcases hfollows with ⟨after, hafter, htends⟩
  intro before' after' memberName hbefore' hafter' hnone hsome
  rw [hbefore, Option.some.injEq] at hbefore'
  rw [hafter, Option.some.injEq] at hafter'
  rw [← hafter'] at hsome
  rw [← hbefore'] at hnone ⊢
  rcases htends.members memberName hsome with hmember | ⟨⟨decision, hby⟩, hwaits⟩
  · rw [hnone] at hmember
    cases hmember
  · rcases Option.isSome_iff_exists.1 hwaits with ⟨row, hrow⟩
    refine ⟨decision, row, hby, hrow, ?_⟩
    rcases hby with ⟨i, events, hwrite, hdecision, hdomain, hname, hmember, happroved, hchecked⟩
    rw [← hmember] at hrow
    exact h.asked i decision hdecision hdomain hname happroved hchecked before row hbefore hrow

theorem Sound.run {kind : Kind S O} (hlawful : kind.Lawful) {actions : List (Action O)}
    (h : Sound kind domainName name system)
    (hundisputed : EveryUndisputed kind config domainName name system actions) :
    EveryFourEyes kind config domainName name system actions := by
  induction actions generalizing system with
  | nil => exact h.reviewed
  | cons action actions ih =>
    refine ⟨h.reviewed, fun system' hstep => ?_⟩
    have hsound := h.keep hlawful hundisputed.1 hstep
    exact ⟨h.step hlawful hstep, ih hsound (hundisputed.2 system' hstep)⟩

theorem Kind.Lawful.everyFourEyes {kind : Kind S O} (hlawful : kind.Lawful) {system : System}
    {actions : List (Action O)} (hidle : ∀ i, system.requests i = none)
    (hreviewed : Reviewed kind system.db domainName name)
    (hundisputed : EveryUndisputed kind config domainName name system actions) :
    EveryFourEyes kind config domainName name system actions := by
  have hsound : Sound kind domainName name system := by
    constructor
    · exact hreviewed
    · intro i addition hrequest
      rw [hidle] at hrequest
      cases hrequest
    · intro i decision hrequest
      rw [hidle] at hrequest
      cases hrequest
  exact hsound.run hlawful hundisputed

theorem EveryFourEyes.last {kind : Kind S O} {system middle system' : System}
    (h : EveryFourEyes kind config domainName name system (actions ++ [action]))
    (hrun : kind.run config system actions = some middle)
    (hstep : kind.step config middle action = some system') :
    FourEyes kind domainName name middle action system' := by
  induction actions generalizing system with
  | nil =>
    cases hrun
    exact (h.2 system' hstep).1
  | cons first actions ih =>
    rcases Option.bind_eq_some_iff.1 hrun with ⟨next, hfirst, hrest⟩
    exact ih (h.2 next hfirst).2 hrest

/-- A role or a group that is reviewed and not audited stays so, and no member is approved by who
has asked for it. -/
theorem membershipApprovals_takeFourEyes [Collation] (config : Config) (domainName name : Str)
    (system : System) (hidle : ∀ i, system.requests i = none) :
    (∀ actions, Reviewed roleKind system.db domainName name →
      EveryUndisputed roleKind config domainName name system actions →
        EveryFourEyes roleKind config domainName name system actions) ∧
    (∀ actions, Reviewed groupKind system.db domainName name →
      EveryUndisputed groupKind config domainName name system actions →
        EveryFourEyes groupKind config domainName name system actions) := by
  constructor
  · intro actions hreviewed hundisputed
    exact roleKind_lawful.everyFourEyes hidle hreviewed hundisputed
  · intro actions hreviewed hundisputed
    exact groupKind_lawful.everyFourEyes hidle hreviewed hundisputed

end Runs

section Serial

/-- The request that a step is about. -/
def Action.index : Action O → Option Nat
  | .putMembership i _ _ _ _ _ _ | .putMembershipDecision i _ _ _ _ _ | .check i _ | .write i _
  | .refuse i => some i
  | _ => none

variable [CaseRules]

theorem step_other {kind : Kind S O} {system system' : System}
    (hstep : kind.step config system action = some system') (hother : action.index ≠ some j) :
    system'.requests j = system.requests j := by
  have hput : ∀ i request, action.index = some i →
      (system.put i request).requests j = system.requests j := by
    intro i request hindex
    rw [requests_put, if_neg]
    intro hsame
    rw [hindex, hsame] at hother
    exact hother rfl
  cases action with
  | putMembership i principal ctx otherDomain other member updateAccess =>
    rcases Option.bind_eq_some_iff.1 hstep with ⟨stored, hstored, hstep⟩
    split at hstep
    · cases hstep
    · rcases Option.bind_eq_some_iff.1 hstep with ⟨allowed, hallowed, hstep⟩
      cases hstep
      exact hput i _ rfl
  | putMembershipDecision i principal ctx otherDomain other member =>
    rcases Option.bind_eq_some_iff.1 hstep with ⟨stored, hstored, hstep⟩
    split at hstep
    · cases hstep
    · cases hstep
      exact hput i _ rfl
  | check i events =>
    rw [Kind.step] at hstep
    split at hstep
    · split at hstep
      · cases hstep
      · split at hstep
        · cases hstep
          exact hput i _ rfl
        · cases hstep
          exact hput i _ rfl
    · cases hstep
  | write i events =>
    rw [Kind.step] at hstep
    split at hstep
    · rw [Option.some.injEq] at hstep
      rw [← hstep]
      exact hput i _ rfl
    · split at hstep
      · rw [Option.some.injEq] at hstep
        rw [← hstep]
        exact hput i _ rfl
      · cases hstep
    · cases hstep
  | refuse i =>
    cases hstep
    exact hput i _ rfl
  | _ =>
    rw [Kind.step, Option.some.injEq] at hstep
    rw [← hstep]

/-- Requests that follow one another do not dispute anything. -/
theorem serial_undisputed {kind : Kind S O} {system : System}
    (hserial : ∀ action ∈ actions, ∀ j, j ≠ i → action.index ≠ some j)
    (halone : ∀ j, j ≠ i → system.requests j = none) :
    EveryUndisputed kind config domainName name system actions := by
  induction actions generalizing system with
  | nil => trivial
  | cons action actions ih =>
    constructor
    · cases action with
      | write k events =>
        intro addition haddition _ _ j decision hdecision
        by_cases hk : k = i
        · by_cases hj : j = i
          · rw [hk, ← hj, hdecision] at haddition
            cases haddition
          · rw [halone j hj] at hdecision
            cases hdecision
        · rw [halone k hk] at haddition
          cases haddition
      | _ => trivial
    · intro system' hstep
      apply ih (fun other hmem => hserial other (List.mem_cons_of_mem action hmem))
      intro j hj
      rw [step_other hstep (hserial action List.mem_cons_self j hj)]
      exact halone j hj

end Serial

section Example

local instance approvalCollation : Collation := .binary

local instance approvalCaseRules : CaseRules := .ascii

def approvalCaller : Context where
  caller := "putmembership"

def approvalEvents (n : Nat) : Event Failure := ⟨n, none⟩

/-- A role whose members have to be approved. -/
def reviewedStore : Database where
  domains :=
    let users : Map Str DomainRow := (∅ : Map Str DomainRow).insert "user"
      { settings := Domain.settings { name := "user" }, modified := 0 }
    users.insert "media"
      { settings := Domain.settings { name := "media" }
        modified := 0
        roles := (∅ : Map Str (Collection RoleSettings)).insert "editors"
          { settings := Role.settings { name := "media:role.editors", reviewEnabled := true } } }

def requestAnn (i : Nat) (principal : Str) : Action Role :=
  .putMembership i principal approvalCaller "media" "editors" { memberName := "user.ann" } true

def approveAnn (i : Nat) (principal : Str) : Action Role :=
  .putMembershipDecision i principal approvalCaller "media" "editors"
    { memberName := "user.ann", approved := some true }

/-- One principal asks, and another one approves. -/
def twoPrincipals : List (Action Role) :=
  [requestAnn 0 "user.joe", .write 0 approvalEvents, approveAnn 0 "user.jane",
    .check 0 approvalEvents, .write 0 approvalEvents]

/-- A principal approves what another one has asked for, asks for it as well, and confirms. -/
def overwrittenRequest : List (Action Role) :=
  [requestAnn 0 "user.joe", .write 0 approvalEvents, approveAnn 1 "user.jane",
    .check 1 approvalEvents, requestAnn 2 "user.jane", .write 2 approvalEvents]

theorem reviewedStore_reviewed : Reviewed roleKind reviewedStore "media" "editors" :=
  ⟨_, rfl, by decide⟩

theorem membershipApprovals_takeFourEyes_twoPrincipals :
    (roleKind.run {} { db := reviewedStore } twoPrincipals).any (fun system : System =>
      (roleTable.find system.db "media" "editors").any fun stored =>
        (stored.members.lookup "user.ann".toList).isSome) = true ∧
    EveryFourEyes roleKind {} "media" "editors" { db := reviewedStore } twoPrincipals := by
  constructor
  · decide +kernel
  · have hserial : ∀ action ∈ twoPrincipals, ∀ j, j ≠ 0 → action.index ≠ some j := by
      intro action hmem j hj hindex
      have hzero : ∀ action ∈ twoPrincipals, action.index = some 0 := by decide
      rw [hzero action hmem, Option.some.injEq] at hindex
      exact hj hindex.symm
    exact (membershipApprovals_takeFourEyes {} "media" "editors" _ fun _ => rfl).1 _
      reviewedStore_reviewed (serial_undisputed hserial fun _ _ => rfl)

/-- The principal who decides. -/
def System.decider (system : System) (i : Nat) : Option Str :=
  match system.requests i with
  | some (.decision decision) => some decision.principal
  | _ => none

/-- The member is not one, is asked for by the principal who decides, and is one behind the write. -/
def ownApproval (system system' : System) : Bool :=
  (roleTable.find system.db "media" "editors").any fun before =>
    (roleTable.find system'.db "media" "editors").any fun after =>
      (before.members.lookup "user.ann".toList).isNone &&
        (after.members.lookup "user.ann".toList).isSome &&
        (before.pending.lookup "user.ann".toList).any fun row =>
          (system.decider 1).any (equalsIgnoreCase row.reqPrincipal.1)

theorem ownApproval_notFourEyes
    (hfour : FourEyes roleKind "media" "editors" system (.write 1 events) system') :
    ownApproval system system' = false := by
  rw [← Bool.not_eq_true]
  intro hown
  rcases (Option.any_eq_true _ _).1 hown with ⟨before, hbefore, hown⟩
  rcases (Option.any_eq_true _ _).1 hown with ⟨after, hafter, hown⟩
  rw [Bool.and_eq_true, Bool.and_eq_true, Option.isNone_iff_eq_none] at hown
  rcases hown with ⟨⟨hnone, hsome⟩, hown⟩
  rcases (Option.any_eq_true _ _).1 hown with ⟨row, hrow, hown⟩
  rcases hfour before after "user.ann".toList hbefore hafter hnone hsome with
    ⟨decision, found, ⟨i, events', hwrite, hdecision, _⟩, hfound, hdistinct⟩
  cases hwrite
  rw [hrow, Option.some.injEq] at hfound
  rw [System.decider, hdecision, hfound] at hown
  rw [Option.any_some, hdistinct] at hown
  cases hown

/-- The principal who decides has asked for the member by the time of the write. -/
theorem overwrittenRequest_notFourEyes :
    ¬ ∀ actions, EveryFourEyes roleKind {} "media" "editors" { db := reviewedStore } actions := by
  intro hevery
  have hruns : (roleKind.run {} { db := reviewedStore } overwrittenRequest).any
      (fun middle : System => (roleKind.step {} middle (.write 1 approvalEvents)).any
        (ownApproval middle)) = true := by decide +kernel
  rcases (Option.any_eq_true _ _).1 hruns with ⟨middle, hrun, hstep⟩
  rcases (Option.any_eq_true _ _).1 hstep with ⟨system', hstep, hown⟩
  have hfour := (hevery (overwrittenRequest ++ [.write 1 approvalEvents])).last hrun hstep
  rw [ownApproval_notFourEyes hfour] at hown
  cases hown

end Example

end Athenz.ZmsServer.Approvals
