import Athenz.RowChanges
import Athenz.ZmsImpl

namespace Athenz.ZmsServer.Dangling
open Lib Lib.Text Lib.Transaction Lib.Transaction.Tx
set_option autoImplicit true

section Store

def IsMember (db : Database) (memberName : Str) : Prop :=
  ∃ domainName roleName stored, roleTable.find db domainName roleName = some stored ∧
    (stored.members.lookup memberName).isSome

def GroupExists (db : Database) (group : Str × Str) : Prop :=
  (groupTable.find db group.1 group.2).isSome

/-- Each role member that is named as a group names one that exists. -/
def NoDanglingGroups (db : Database) : Prop :=
  ∀ memberName group, IsMember db memberName → groupParts memberName = some group →
    GroupExists db group

/-- The rows whose members are looked at one by one. -/
theorem noDanglingGroups_iff {db : Database} : NoDanglingGroups db ↔
    ∀ domain ∈ db.domains.entries, ∀ role ∈ domain.2.roles.entries,
      ∀ member ∈ role.2.members.entries, (groupParts member.1).all fun group =>
        (groupTable.find db group.1 group.2).isSome := by
  constructor
  · intro h domain hdomain role hrole member hmember
    rw [Option.all_eq_true]
    intro group hparts
    have hfind : roleTable.find db domain.1 role.1 = some role.2 := by
      rw [Table.find, AList.mem_lookup_iff.2 hdomain]
      exact AList.mem_lookup_iff.2 hrole
    have hlisted : role.2.members.lookup member.1 = some member.2 := AList.mem_lookup_iff.2 hmember
    exact h member.1 group ⟨domain.1, role.1, role.2, hfind, Option.isSome_of_eq_some hlisted⟩ hparts
  · intro h memberName group hmember hparts
    rcases hmember with ⟨domainName, roleName, stored, hstored, hlisted⟩
    rcases Option.bind_eq_some_iff.1 hstored with ⟨row, hrow, hrole⟩
    rcases Option.isSome_iff_exists.1 hlisted with ⟨member, hmember⟩
    have hall := h ⟨domainName, row⟩ (AList.mem_lookup_iff.1 hrow) ⟨roleName, stored⟩
      (AList.mem_lookup_iff.1 hrole) ⟨memberName, member⟩ (AList.mem_lookup_iff.1 hmember)
    exact (Option.all_eq_true _ _).1 hall group hparts

instance : Decidable (NoDanglingGroups db) := decidable_of_iff' _ noDanglingGroups_iff

theorem groupParts_eq (h : groupParts memberName = some (domainName, groupName)) :
    memberName = groupResourceName domainName groupName := by
  rcases Option.map_eq_some_iff.1 h with ⟨idx, hidx, hparts⟩
  rw [Prod.mk.injEq] at hparts
  rw [groupResourceName, ← hparts.1, ← hparts.2]
  exact indexOf_decompose hidx

end Store

section Requests

/-- The transaction by which a request changes the members of a role. -/
inductive Write where
  | putRole (domainName roleName : Str) (role : Role)
  | putMembership (domainName roleName : Str) (roleMember : Member)
  | putMembershipDecision (domainName roleName : Str) (roleMember : Member)

/-- Who becomes a member by it, and is validated before. -/
def Write.joining : Write → List Str
  | .putRole _ _ role => (role.roleMembers.getD []).map (·.memberName)
  | .putMembership _ _ roleMember => [roleMember.memberName]
  | .putMembershipDecision _ _ roleMember =>
    if roleMember.approved = some true then [roleMember.memberName] else []

/-- A request that adds members, with what it has read of the role and who is not validated yet. -/
structure Addition where
  ctx : Context
  write : Write
  requirement : Requirement
  unchecked : List Str

/-- A request that deletes a group, and whether its use has been looked up. -/
structure Deletion where
  ctx : Context
  domainName : Str
  groupName : Str
  checked : Bool := false

inductive Request where
  | addition (addition : Addition)
  | deletion (deletion : Deletion)

structure System where
  db : Database
  requests : Nat → Option Request := fun _ => none

inductive Action where
  | add (i : Nat) (ctx : Context) (write : Write) (requirement : Requirement)
  | delete (i : Nat) (ctx : Context) (domainName groupName : Str)
  | read (i : Nat) (events : Nat → Event Failure)
  | write (i : Nat) (events : Nat → Event Failure)
  | refuse (i : Nat)

def System.put (system : System) (i : Nat) (request : Option Request) : System :=
  { system with requests := Function.update system.requests i request }

variable [Collation] [CaseRules]

/-- One attempt; a retry is an attempt of its own. -/
def attemptOnce (config : Config) : Config := { config with defaultRetryCount := 1 }

/-- The role of a request is named as its address says. -/
def Write.attempt (config : Config) (ctx : Context) : Write → Execution Unit
  | .putRole domainName roleName role =>
    executePutRole (attemptOnce config) ctx domainName roleName
      { role with name := roleResourceName domainName roleName }
  | .putMembership domainName roleName roleMember =>
    executePutMembership (attemptOnce config) ctx domainName roleName roleMember
  | .putMembershipDecision domainName roleName roleMember =>
    executePutMembershipDecision (attemptOnce config) ctx domainName roleName roleMember

/-- A request goes on behind a failure that allows a retry. -/
def goesOn (request : Request) : Except Failure Unit → Option Request
  | .ok _ => none
  | .error failure => if shouldRetryOperation failure then some request else none

/-- The store and the request behind an attempt. -/
def System.finish (system : System) (i : Nat) (request : Request)
    (outcome : Except Failure Unit × Database) : System where
  db := outcome.2
  requests := (system.put i (goesOn request outcome.1)).requests

def System.read (config : Config) (system : System) (i : Nat) (events : Nat → Event Failure) :
    Request → Option System
  | .addition addition =>
    match addition.unchecked with
    | [] => none
    | memberName :: unchecked =>
      match answer (validateRoleMemberPrincipal config memberName addition.requirement) system.db
          events with
      | .ok _ => some (system.put i (some (.addition { addition with unchecked := unchecked })))
      | .error _ => some (system.put i none)
  | .deletion deletion =>
    if deletion.checked then none
    else
      match answer (groupMemberConsistencyCheck deletion.domainName
          (groupResourceName deletion.domainName deletion.groupName) false) system.db events with
      | .ok _ => some (system.put i (some (.deletion { deletion with checked := true })))
      | .error _ => some (system.put i none)

def System.write (config : Config) (system : System) (i : Nat) (events : Nat → Event Failure) :
    Request → Option System
  | .addition addition =>
    if addition.unchecked ≠ [] then none
    else
      some (system.finish i (.addition addition)
        (addition.write.attempt config addition.ctx system.db events))
  | .deletion deletion =>
    if !deletion.checked then none
    else
      some (system.finish i (.deletion deletion) (executeDeleteGroup (attemptOnce config) deletion.ctx
        deletion.domainName deletion.groupName system.db events))

/-- One transaction of one request, or its refusal for another reason. -/
def System.step (config : Config) (system : System) : Action → Option System
  | .add i ctx write requirement =>
    match system.requests i with
    | none => some (system.put i (some (.addition ⟨ctx, write, requirement, write.joining⟩)))
    | some _ => none
  | .delete i ctx domainName groupName =>
    match system.requests i with
    | none => some (system.put i (some (.deletion ⟨ctx, domainName, groupName, false⟩)))
    | some _ => none
  | .read i events => do system.read config i events (← system.requests i)
  | .write i events => do system.write config i events (← system.requests i)
  | .refuse i => some (system.put i none)

def System.run (config : Config) (system : System) (actions : List Action) : Option System :=
  actions.foldlM (System.step config) system

end Requests

section Growth

variable {names : List Str} {before : Database}

/-- The groups are those of before, and the members are among those of before and the named ones. -/
structure Grows (names : List Str) (before db : Database) : Prop where
  groups : ∀ domainName groupName,
    groupTable.find db domainName groupName = groupTable.find before domainName groupName
  members : ∀ memberName, IsMember db memberName → IsMember before memberName ∨ memberName ∈ names

theorem Grows.refl (names : List Str) (db : Database) : Grows names db db :=
  ⟨fun _ _ => rfl, fun _ h => .inl h⟩

theorem Grows.stamp (h : Grows names before db) (domainName : Str) (time : Int) :
    Grows names before (stampDomain domainName time db) where
  groups otherDomain groupName := by
    rw [Table.find_stampDomain groupTable_timeless]
    exact h.groups otherDomain groupName
  members memberName hmember := by
    rcases hmember with ⟨otherDomain, roleName, stored, hstored, hlisted⟩
    rw [Table.find_stampDomain roleTable_timeless] at hstored
    exact h.members memberName ⟨otherDomain, roleName, stored, hstored, hlisted⟩

/-- A row whose members are among those that may be. -/
theorem Grows.put (h : Grows names before db) (hrow : db.domains.lookup domainName = some row)
    (hmembers : ∀ memberName, (stored.members.lookup memberName).isSome →
      IsMember db memberName ∨ memberName ∈ names) :
    Grows names before ((roleTable.focus domainName roleName).put db stored) where
  groups otherDomain groupName := by
    rw [Table.find_put_beside groupTable_apart hrow]
    exact h.groups otherDomain groupName
  members memberName hmember := by
    rcases hmember with ⟨otherDomain, otherRole, found, hfound, hlisted⟩
    rw [Table.find_put_at hrow] at hfound
    split at hfound
    · rw [Option.some.injEq] at hfound
      rw [← hfound] at hlisted
      rcases hmembers memberName hlisted with hlisted | hnamed
      · exact h.members memberName hlisted
      · exact .inr hnamed
    · exact h.members memberName ⟨otherDomain, otherRole, found, hfound, hlisted⟩

/-- A changed row whose new members are named. -/
theorem Grows.admits {R : Collection RoleSettings → Collection RoleSettings → Prop}
    (h : ∀ stored stored', R stored stored' → ∀ memberName,
      (stored'.members.lookup memberName).isSome →
        (stored.members.lookup memberName).isSome ∨ memberName ∈ names) :
    roleTable.Admits (Grows names before) domainName roleName R := by
  intro db stored stored' hstored hR hgrows
  obtain ⟨row, hrow, _⟩ := Option.bind_eq_some_iff.1 hstored
  apply hgrows.put hrow
  intro memberName hlisted
  rcases h stored stored' hR memberName hlisted with hlisted | hnamed
  · exact .inl ⟨domainName, roleName, stored, hstored, hlisted⟩
  · exact .inr hnamed

theorem Grows.ignores : roleTable.Ignores (Grows names before) domainName roleName where
  beside := by
    apply Grows.admits
    intro stored stored' hbeside memberName hlisted
    rw [hbeside.members] at hlisted
    exact .inl hlisted
  stamp time db h := h.stamp domainName time

theorem Grows.joins {member : Member} (hnamed : member.memberName ∈ names) :
    roleTable.Admits (Grows names before) domainName roleName (roleTable.Joins member admin) := by
  apply Grows.admits
  intro stored stored' hjoins memberName hlisted
  rw [hjoins, Collection.putMember] at hlisted
  split at hlisted
  · exact .inl hlisted
  · dsimp only at hlisted
    rw [Map.lookup_insert] at hlisted
    split at hlisted
    · rename_i hsame
      rw [hsame]
      exact .inr hnamed
    · exact .inl hlisted

theorem Grows.approves {member : Member} (hnamed : member.memberName ∈ names) :
    roleTable.Admits (Grows names before) domainName roleName (roleTable.Approves member) := by
  apply Grows.admits
  intro stored stored' happroves memberName hlisted
  rw [happroves.2, Collection.approve] at hlisted
  dsimp only at hlisted
  rw [Map.lookup_insert] at hlisted
  split at hlisted
  · rename_i hsame
    rw [hsame]
    exact .inr hnamed
  · exact .inl hlisted

theorem Grows.takes {members : List Member}
    (hnamed : ∀ member ∈ members, member.memberName ∈ names) :
    roleTable.Takes (Grows names before) domainName roleName members admin where
  ignores := Grows.ignores
  created settings db row hrow _ h := by
    apply h.put hrow
    intro memberName hlisted
    cases hlisted
  updated settings := by
    apply Grows.admits
    intro stored stored' hupdated memberName hlisted
    rw [hupdated] at hlisted
    exact .inl hlisted
  joins member hmem := Grows.joins (hnamed member hmem)
  loses name := by
    apply Grows.admits
    intro stored stored' hloses memberName hlisted
    rw [hloses] at hlisted
    by_cases hsame : memberName = name
    · rw [hsame, AList.lookup_erase] at hlisted
      cases hlisted
    · rw [AList.lookup_erase_ne hsame] at hlisted
      exact .inl hlisted

variable [Collation] [CaseRules]

/-- A write adds no other members than those that are validated before. -/
theorem Write.attempt_grows (config : Config) (ctx : Context) (write : Write) (db : Database)
    (events : Nat → Event Failure) :
    Grows write.joining db (write.attempt config ctx db events).2 := by
  cases write with
  | putRole domainName roleName role =>
    apply attempts_preserves (Preserves.saved ?_ fun time s h => h.stamp domainName time) (.refl _ db)
    apply putRoleBody_preserves rfl
    intro current _
    exact .inr (Grows.takes fun member hmem => List.mem_map_of_mem hmem)
  | putMembership domainName roleName roleMember =>
    apply attempts_preserves ?_ (.refl _ db)
    exact putMembershipBody_preserves _ Grows.ignores (Grows.joins (List.mem_singleton_self _))
  | putMembershipDecision domainName roleName roleMember =>
    apply attempts_preserves (Preserves.saved ?_ fun time s h => h.stamp domainName time) (.refl _ db)
    apply putMembershipDecisionBody_preserves _ Grows.ignores
    · intro happroved
      apply Grows.approves
      rw [Write.joining, if_pos happroved]
      exact List.mem_singleton_self _
    · apply Grows.admits
      intro stored stored' hdecides memberName hlisted
      rw [hdecides] at hlisted
      exact .inl hlisted

end Growth

section Deletions

/-- The roles and the other groups are those of before. -/
structure Deletes (domainName groupName : Str) (before db : Database) : Prop where
  roles : ∀ otherDomain roleName,
    roleTable.find db otherDomain roleName = roleTable.find before otherDomain roleName
  groups : ∀ otherDomain otherGroup, (otherDomain, otherGroup) ≠ (domainName, groupName) →
    groupTable.find db otherDomain otherGroup = groupTable.find before otherDomain otherGroup

theorem Deletes.stamp (h : Deletes domainName groupName before db) (time : Int) :
    Deletes domainName groupName before (stampDomain domainName time db) where
  roles otherDomain roleName := by
    rw [Table.find_stampDomain roleTable_timeless]
    exact h.roles otherDomain roleName
  groups otherDomain otherGroup hother := by
    rw [Table.find_stampDomain groupTable_timeless]
    exact h.groups otherDomain otherGroup hother

theorem deleteGroup_preserves (before : Database) (domainName groupName : Str) :
    Preserves (Deletes domainName groupName before) (deleteGroup domainName groupName) := by
  apply onDomain_preserves
  intro db row a row' hrow hf h
  rw [Except.ok.injEq, Prod.mk.injEq] at hf
  rw [← hf.2]
  constructor
  · intro otherDomain roleName
    rw [← h.roles otherDomain roleName, Table.find, domainFocus, Map.lookup_insert]
    split
    · rename_i hsame
      rw [hsame, Table.find, hrow]
      rfl
    · rfl
  · intro otherDomain otherGroup hother
    rw [← h.groups otherDomain otherGroup hother, Table.find, domainFocus, Map.lookup_insert]
    split
    · rename_i hsame
      have hgroup : otherGroup ≠ groupName := fun hgroup => hother (by rw [hsame, hgroup])
      rw [hsame, Table.find, hrow]
      exact AList.lookup_erase_ne hgroup
    · rfl

theorem executeDeleteGroup_deletes (config : Config) (ctx : Context) (domainName groupName : Str)
    (db : Database) (events : Nat → Event Failure) :
    Deletes domainName groupName db
      (executeDeleteGroup config ctx domainName groupName db events).2 := by
  have hbody : Preserves (Deletes domainName groupName db)
      (deleteGroupBody config ctx domainName groupName) :=
    ((checkDomainAuditEnabled_reading _ _ _ _).preserves _).bind fun _ =>
      (deleteGroup_preserves db domainName groupName).bind fun _ => .ensure _ _
  exact attempts_preserves (hbody.saved fun time s h => h.stamp time) ⟨fun _ _ => rfl, fun _ _ _ => rfl⟩

end Deletions

section Validation

theorem principalType_of_groupParts (config : Config) (h : groupParts memberName = some group) :
    principalType config memberName = .user ∨ principalType config memberName = .group := by
  rcases Option.map_eq_some_iff.1 h with ⟨idx, hidx, _⟩
  rw [principalType]
  split
  · exact .inl rfl
  · rw [if_pos (infix_of_indexOf hidx)]
    exact .inr rfl

theorem IsMember.listed (h : IsMember db memberName) : db.principalRoles memberName ≠ [] := by
  rcases h with ⟨domainName, roleName, stored, hstored, hlisted⟩
  rcases Option.bind_eq_some_iff.1 hstored with ⟨row, hrow, hrole⟩
  have hdomain : (⟨domainName, row⟩ : (_ : Str) × DomainRow) ∈ db.domains.entries :=
    AList.mem_lookup_iff.1 hrow
  have hentry : (⟨roleName, stored⟩ : (_ : Str) × Collection RoleSettings) ∈ row.roles.entries :=
    AList.mem_lookup_iff.1 hrole
  apply List.ne_nil_of_mem (a := (domainName, roleName))
  apply List.mem_flatMap_of_mem hdomain
  exact List.mem_map_of_mem (List.mem_filter.2 ⟨hentry, hlisted⟩)

variable [Collation]

/-- A group that has passed its validation exists. -/
theorem validateRoleMemberPrincipal_exists {config : Config} {requirement : Requirement}
    (htype : principalType config memberName = .group) (hparts : groupParts memberName = some group)
    (h : answer (validateRoleMemberPrincipal config memberName requirement) db events = .ok ()) :
    GroupExists db group := by
  rcases answer_eq_ok.1 h with ⟨c, h⟩
  rw [validateRoleMemberPrincipal, htype] at h
  dsimp only at h
  split at h
  · cases h
  · rw [validateGroupPrincipal, hparts] at h
    rcases bind_eq_ok.1 h with ⟨found, d, hread, h⟩
    rw [getGroup_eq] at hread
    rcases query_eq_ok.1 hread with ⟨_, hfound, _⟩
    rw [GroupExists]
    cases hgroup : groupTable.find db group.1 group.2 with
    | some stored => rfl
    | none =>
      dsimp only at hfound
      rw [hgroup] at hfound
      rw [hfound] at h
      cases h

omit [Collation] in
/-- A group whose use could be looked up, and that may be deleted, is no member. -/
theorem groupMemberConsistencyCheck_unused {events : Nat → Event Failure}
    (hfault : (events 0).fault = none)
    (h : answer (groupMemberConsistencyCheck domainName memberName false) db events = .ok ()) :
    ¬ IsMember db memberName := by
  intro hmember
  have hlisted := hmember.listed
  rcases answer_eq_ok.1 h with ⟨c, h⟩
  rcases bind_eq_ok.1 h with ⟨roles, d, hroles, h⟩
  have hread : getPrincipalRoles memberName ⟨db, db, true, events⟩ =
      (.ok (db.principalRoles memberName), _) := query_eq_ok.2 ⟨hfault, rfl, rfl⟩
  rw [ignoring, hread] at hroles
  cases hroles
  have hothers : (db.principalRoles memberName).filter
      (fun role => !(false && decide (role.1 = domainName))) = db.principalRoles memberName :=
    List.filter_eq_self.2 fun _ _ => rfl
  dsimp only at h
  rw [hothers, permit, if_neg (by rw [decide_eq_true_iff]; exact hlisted)] at h
  cases h

end Validation

section Runs

variable [Collation] [CaseRules]

/-- A look-up of the roles with a group does not fail; a write adds no group of a name like a user's
that does not exist, and none that a deletion under way has found unused; and a deletion takes no
group that an addition under way has found. -/
def Undisturbed (config : Config) (system : System) : Action → Prop
  | .read i events => ∀ deletion, system.requests i = some (.deletion deletion) →
      IsMember system.db (groupResourceName deletion.domainName deletion.groupName) →
        (events 0).fault = none
  | .write i _ =>
    (∀ addition, system.requests i = some (.addition addition) →
      ∀ memberName ∈ addition.write.joining, ∀ group, groupParts memberName = some group →
        (principalType config memberName = .user → GroupExists system.db group) ∧
        ∀ j deletion, system.requests j = some (.deletion deletion) → deletion.checked = true →
          (deletion.domainName, deletion.groupName) ≠ group) ∧
    ∀ deletion, system.requests i = some (.deletion deletion) →
      ∀ j addition, system.requests j = some (.addition addition) →
        ∀ memberName ∈ addition.write.joining,
          groupParts memberName = some (deletion.domainName, deletion.groupName) →
            principalType config memberName = .group → memberName ∈ addition.unchecked
  | _ => True

/-- Every step of a run is undisturbed. -/
def EveryUndisturbed (config : Config) (system : System) : List Action → Prop
  | [] => True
  | action :: actions => Undisturbed config system action ∧
      ∀ system', system.step config action = some system' →
        EveryUndisturbed config system' actions

/-- What the requests under way have found out still holds. -/
structure Sound (config : Config) (system : System) : Prop where
  noDangling : NoDanglingGroups system.db
  validated : ∀ i addition, system.requests i = some (.addition addition) →
    ∀ memberName ∈ addition.write.joining, ∀ group, groupParts memberName = some group →
      principalType config memberName = .group → memberName ∉ addition.unchecked →
        GroupExists system.db group
  unused : ∀ i deletion, system.requests i = some (.deletion deletion) → deletion.checked = true →
    ∀ memberName, groupParts memberName = some (deletion.domainName, deletion.groupName) →
      ¬ IsMember system.db memberName

omit [Collation] [CaseRules] in
theorem requests_put (system : System) (i : Nat) (request : Option Request) (j : Nat) :
    (system.put i request).requests j = if j = i then request else system.requests j :=
  Function.update_apply ..

omit [Collation] [CaseRules] in
theorem Sound.put (h : Sound config system)
    (hvalidated : ∀ addition, request = some (.addition addition) →
      ∀ memberName ∈ addition.write.joining, ∀ group, groupParts memberName = some group →
        principalType config memberName = .group → memberName ∉ addition.unchecked →
          GroupExists system.db group)
    (hunused : ∀ deletion, request = some (.deletion deletion) → deletion.checked = true →
      ∀ memberName, groupParts memberName = some (deletion.domainName, deletion.groupName) →
        ¬ IsMember system.db memberName) :
    Sound config (system.put i request) where
  noDangling := h.noDangling
  validated j addition hrequest := by
    rw [requests_put] at hrequest
    split at hrequest
    · exact hvalidated addition hrequest
    · exact h.validated j addition hrequest
  unused j deletion hrequest := by
    rw [requests_put] at hrequest
    split at hrequest
    · exact hunused deletion hrequest
    · exact h.unused j deletion hrequest

omit [Collation] [CaseRules] in
theorem Sound.drop (h : Sound config system) (i : Nat) : Sound config (system.put i none) := by
  apply h.put
  · intro addition hrequest
    cases hrequest
  · intro deletion hrequest
    cases hrequest

omit [CaseRules] in
theorem Sound.read (h : Sound config system)
    (hundisturbed : Undisturbed config system (.read i events))
    (hrequest : system.requests i = some request)
    (hstep : system.read config i events request = some system') : Sound config system' := by
  cases request with
  | addition addition =>
    cases hunchecked : addition.unchecked with
    | nil =>
      rw [System.read, hunchecked] at hstep
      cases hstep
    | cons memberName unchecked =>
      rw [System.read, hunchecked] at hstep
      dsimp only at hstep
      split at hstep
      · rename_i hvalid
        cases hstep
        apply h.put
        · intro later hlater other hmem group hparts htype hchecked
          cases hlater
          by_cases hsame : other = memberName
          · rw [hsame] at hparts htype
            exact validateRoleMemberPrincipal_exists htype hparts hvalid
          · refine h.validated i addition hrequest other hmem group hparts htype ?_
            rw [hunchecked, List.mem_cons, not_or]
            exact ⟨hsame, hchecked⟩
        · intro deletion hlater
          cases hlater
      · cases hstep
        exact h.drop i
  | deletion deletion =>
    rw [System.read] at hstep
    split at hstep
    · cases hstep
    · split at hstep
      · rename_i hvalid
        cases hstep
        apply h.put
        · intro addition hlater
          cases hlater
        · intro later hlater hchecked memberName hparts hmember
          cases hlater
          rw [groupParts_eq hparts] at hmember
          have hfault := hundisturbed deletion hrequest hmember
          exact groupMemberConsistencyCheck_unused hfault hvalid hmember
      · cases hstep
        exact h.drop i

omit [Collation] [CaseRules] in
theorem Grows.exists_iff (h : Grows names before db) (group : Str × Str) :
    GroupExists db group ↔ GroupExists before group := by
  rw [GroupExists, h.groups, GroupExists]

omit [Collation] [CaseRules] in
theorem Deletes.member_iff (h : Deletes domainName groupName before db) (memberName : Str) :
    IsMember db memberName ↔ IsMember before memberName := by
  rw [IsMember, IsMember]
  simp only [h.roles]

omit [Collation] [CaseRules] in
/-- A request that goes on has not changed. -/
theorem requests_finish {system : System} (hrequest : system.requests i = some request)
    (h : (system.finish i request outcome).requests j = some later) :
    system.requests j = some later := by
  rw [System.finish, requests_put] at h
  split at h
  · rename_i hsame
    rw [hsame, hrequest]
    cases hresult : outcome.1 with
    | ok _ =>
      rw [hresult] at h
      cases h
    | error failure =>
      rw [hresult, goesOn] at h
      split at h
      · exact h
      · cases h
  · exact h

theorem Sound.writeAddition (h : Sound config system)
    (hundisturbed : Undisturbed config system (.write i events))
    (hrequest : system.requests i = some (.addition addition))
    (hstep : system.write config i events (.addition addition) = some system') :
    Sound config system' := by
  rw [System.write] at hstep
  split at hstep
  · cases hstep
  · rename_i hchecked
    rw [not_not] at hchecked
    have hgrows := addition.write.attempt_grows config addition.ctx system.db events
    have hadded := hundisturbed.1 addition hrequest
    rw [Option.some.injEq] at hstep
    rw [← hstep]
    constructor
    · intro memberName group hmember hparts
      apply (hgrows.exists_iff group).2
      rcases hgrows.members memberName hmember with hmember | hjoining
      · exact h.noDangling memberName group hmember hparts
      · rcases principalType_of_groupParts config hparts with huser | hgroup
        · exact (hadded memberName hjoining group hparts).1 huser
        · apply h.validated i addition hrequest memberName hjoining group hparts hgroup
          rw [hchecked]
          exact List.not_mem_nil
    · intro j other hother memberName hmem group hparts htype hvalidated
      apply (hgrows.exists_iff group).2
      exact h.validated j other (requests_finish hrequest hother) memberName hmem group hparts htype
        hvalidated
    · intro j deletion hdeletion hused memberName hparts hmember
      have hdeletion := requests_finish hrequest hdeletion
      rcases hgrows.members memberName hmember with hmember | hjoining
      · exact h.unused j deletion hdeletion hused memberName hparts hmember
      · exact (hadded memberName hjoining _ hparts).2 j deletion hdeletion hused rfl

theorem Sound.writeDeletion (h : Sound config system)
    (hundisturbed : Undisturbed config system (.write i events))
    (hrequest : system.requests i = some (.deletion deletion))
    (hstep : system.write config i events (.deletion deletion) = some system') :
    Sound config system' := by
  rw [System.write] at hstep
  split at hstep
  · cases hstep
  · rename_i hchecked
    rw [Bool.not_eq_true, Bool.not_eq_false'] at hchecked
    have hdeletes := executeDeleteGroup_deletes (attemptOnce config) deletion.ctx deletion.domainName
      deletion.groupName system.db events
    have hdeleted := hundisturbed.2 deletion hrequest
    rw [Option.some.injEq] at hstep
    rw [← hstep]
    constructor
    · intro memberName group hmember hparts
      have hmember := (hdeletes.member_iff memberName).1 hmember
      rw [GroupExists, System.finish, hdeletes.groups]
      · exact h.noDangling memberName group hmember hparts
      · intro hsame
        have hgroup : group = (deletion.domainName, deletion.groupName) := hsame
        rw [hgroup] at hparts
        exact h.unused i deletion hrequest hchecked memberName hparts hmember
    · intro j addition haddition memberName hmem group hparts htype hvalidated
      have haddition := requests_finish hrequest haddition
      rw [GroupExists, System.finish, hdeletes.groups]
      · exact h.validated j addition haddition memberName hmem group hparts htype hvalidated
      · intro hsame
        have hgroup : group = (deletion.domainName, deletion.groupName) := hsame
        rw [hgroup] at hparts
        exact hvalidated (hdeleted j addition haddition memberName hmem hparts htype)
    · intro j other hother hused memberName hparts hmember
      have hmember := (hdeletes.member_iff memberName).1 hmember
      exact h.unused j other (requests_finish hrequest hother) hused memberName hparts hmember

theorem Sound.step (h : Sound config system) (hundisturbed : Undisturbed config system action)
    (hstep : system.step config action = some system') : Sound config system' := by
  cases action with
  | add i ctx write requirement =>
    rw [System.step] at hstep
    split at hstep
    · cases hstep
      apply h.put
      · intro addition hrequest memberName hmem group hparts htype hchecked
        cases hrequest
        exact absurd hmem hchecked
      · intro deletion hrequest
        cases hrequest
    · cases hstep
  | delete i ctx domainName groupName =>
    rw [System.step] at hstep
    split at hstep
    · cases hstep
      apply h.put
      · intro addition hrequest
        cases hrequest
      · intro deletion hrequest hchecked
        cases hrequest
        cases hchecked
    · cases hstep
  | read i events =>
    rcases Option.bind_eq_some_iff.1 hstep with ⟨request, hrequest, hread⟩
    exact h.read hundisturbed hrequest hread
  | write i events =>
    rcases Option.bind_eq_some_iff.1 hstep with ⟨request, hrequest, hwrite⟩
    cases request with
    | addition addition => exact h.writeAddition hundisturbed hrequest hwrite
    | deletion deletion => exact h.writeDeletion hundisturbed hrequest hwrite
  | refuse i =>
    cases hstep
    exact h.drop i

theorem Sound.run (h : Sound config system) (hundisturbed : EveryUndisturbed config system actions)
    (hrun : system.run config actions = some system') : Sound config system' := by
  induction actions generalizing system with
  | nil =>
    cases hrun
    exact h
  | cons action actions ih =>
    rcases Option.bind_eq_some_iff.1 hrun with ⟨middle, hstep, hrest⟩
    exact ih (h.step hundisturbed.1 hstep) (hundisturbed.2 middle hstep) hrest

/-- No role member that is named as a group is left without its group. -/
theorem noDanglingGroups {config : Config} {system system' : System} {actions : List Action}
    (hidle : ∀ i, system.requests i = none) (h : NoDanglingGroups system.db)
    (hundisturbed : EveryUndisturbed config system actions)
    (hrun : system.run config actions = some system') : NoDanglingGroups system'.db := by
  have hsound : Sound config system := by
    constructor
    · exact h
    · intro i addition hrequest
      rw [hidle] at hrequest
      cases hrequest
    · intro i deletion hrequest
      rw [hidle] at hrequest
      cases hrequest
  exact (hsound.run hundisturbed hrun).noDangling

end Runs

section Serial

def Action.index : Action → Nat
  | .add i _ _ _ | .delete i _ _ _ | .read i _ | .write i _ | .refuse i => i

/-- No group that it adds is named like a user. -/
def Write.Plain (config : Config) (write : Write) : Prop :=
  ∀ memberName ∈ write.joining, principalType config memberName = .user →
    groupParts memberName = none

/-- A step whose look-up does not fail, and that begins no addition of a name like a user's. -/
def Action.Plain (config : Config) : Action → Prop
  | .add _ _ change _ => change.Plain config
  | .read _ events => (events 0).fault = none
  | _ => True

/-- One request alone is under way, and it adds no name like a user's. -/
structure Alone (config : Config) (i : Nat) (system : System) : Prop where
  others : ∀ j, j ≠ i → system.requests j = none
  plain : ∀ addition, system.requests i = some (.addition addition) → addition.write.Plain config

theorem Alone.start (config : Config) (i : Nat) (db : Database) : Alone config i { db := db } where
  others _ _ := rfl
  plain addition hrequest := by cases hrequest

theorem Alone.put (h : Alone config i system)
    (hplain : ∀ addition, request = some (.addition addition) → addition.write.Plain config) :
    Alone config i (system.put i request) where
  others j hj := by
    rw [requests_put, if_neg hj]
    exact h.others j hj
  plain addition hrequest := by
    rw [requests_put, if_pos rfl] at hrequest
    exact hplain addition hrequest

theorem Alone.drop (h : Alone config i system) : Alone config i (system.put i none) := by
  apply h.put
  intro addition hrequest
  cases hrequest

theorem Alone.finish (h : Alone config i system) (hrequest : system.requests i = some request) :
    Alone config i (system.finish i request outcome) where
  others j hj := by
    rw [System.finish, requests_put, if_neg hj]
    exact h.others j hj
  plain addition haddition := h.plain addition (requests_finish hrequest haddition)

theorem Alone.undisturbed (h : Alone config action.index system) (hplain : action.Plain config) :
    Undisturbed config system action := by
  cases action with
  | read i events => exact fun _ _ _ => hplain
  | write i events =>
    constructor
    · intro addition haddition memberName hmem group hparts
      constructor
      · intro huser
        rw [h.plain addition haddition memberName hmem huser] at hparts
        cases hparts
      · intro j deletion hdeletion
        by_cases hj : j = i
        · rw [hj, haddition] at hdeletion
          cases hdeletion
        · rw [h.others j hj] at hdeletion
          cases hdeletion
    · intro deletion hdeletion j addition haddition
      by_cases hj : j = i
      · rw [hj, hdeletion] at haddition
        cases haddition
      · rw [h.others j hj] at haddition
        cases haddition
  | _ => trivial

variable [Collation] [CaseRules]

theorem Alone.step (h : Alone config action.index system) (hplain : action.Plain config)
    (hstep : system.step config action = some system') : Alone config action.index system' := by
  cases action with
  | add i ctx write requirement =>
    rw [System.step] at hstep
    split at hstep
    · cases hstep
      apply h.put
      intro addition hrequest
      cases hrequest
      exact hplain
    · cases hstep
  | delete i ctx domainName groupName =>
    rw [System.step] at hstep
    split at hstep
    · cases hstep
      apply h.put
      intro addition hrequest
      cases hrequest
    · cases hstep
  | read i events =>
    rcases Option.bind_eq_some_iff.1 hstep with ⟨request, hrequest, hread⟩
    cases request with
    | addition addition =>
      rw [System.read] at hread
      split at hread
      · cases hread
      · split at hread
        · cases hread
          apply h.put
          intro later hlater
          cases hlater
          exact h.plain addition hrequest
        · cases hread
          exact h.drop
    | deletion deletion =>
      rw [System.read] at hread
      split at hread
      · cases hread
      · split at hread
        · cases hread
          apply h.put
          intro later hlater
          cases hlater
        · cases hread
          exact h.drop
  | write i events =>
    rcases Option.bind_eq_some_iff.1 hstep with ⟨request, hrequest, hwrite⟩
    cases request with
    | addition addition =>
      rw [System.write] at hwrite
      split at hwrite
      · cases hwrite
      · rw [Option.some.injEq] at hwrite
        rw [← hwrite]
        exact h.finish hrequest
    | deletion deletion =>
      rw [System.write] at hwrite
      split at hwrite
      · cases hwrite
      · rw [Option.some.injEq] at hwrite
        rw [← hwrite]
        exact h.finish hrequest
  | refuse i =>
    cases hstep
    exact h.drop

/-- Requests that follow one another do not disturb each other. -/
theorem serial_undisturbed (h : Alone config i system)
    (hserial : ∀ action ∈ actions, action.index = i ∧ action.Plain config) :
    EveryUndisturbed config system actions := by
  induction actions generalizing system with
  | nil => trivial
  | cons action actions ih =>
    have haction := hserial action List.mem_cons_self
    rw [← haction.1] at h
    constructor
    · exact h.undisturbed haction.2
    · intro system' hstep
      have hafter := h.step haction.2 hstep
      rw [haction.1] at hafter
      exact ih hafter fun other hother => hserial other (List.mem_cons_of_mem action hother)

end Serial

section Example

local instance danglingCollation : Collation := .binary

local instance danglingCaseRules : CaseRules := .ascii

def danglingCaller (caller : Str) : Context where
  caller := caller
  principal := some "user.jane"

def danglingEvents (n : Nat) : Event Failure := ⟨n, none⟩

/-- The first statement fails. -/
def brokenEvents (n : Nat) : Event Failure :=
  ⟨n, if n = 0 then some (.resource 500 "communications link failure", false) else none⟩

/-- A group of one domain and a role of another one. -/
def danglingStore (members : Map Str MemberRow) : Database where
  domains :=
    let personal : Map Str DomainRow := (∅ : Map Str DomainRow).insert "user.jane"
      { settings := Domain.settings { name := "user.jane" }, modified := 0 }
    let sports : Map Str DomainRow := personal.insert "sports"
      { settings := Domain.settings { name := "sports" }
        modified := 0
        groups := (∅ : Map Str (Collection GroupSettings)).insert "readers"
          { settings := Group.settings { name := "sports:group.readers" } } }
    sports.insert "media"
      { settings := Domain.settings { name := "media" }
        modified := 0
        roles := (∅ : Map Str (Collection RoleSettings)).insert "editors"
          { settings := Role.settings { name := "media:role.editors" }, members := members } }

def readersRow : MemberRow where
  expiration := none
  reviewReminder := none
  active := true

def addition (memberName : Str) : Action :=
  .add 0 (danglingCaller "putmembership")
    (.putMembership "media" "editors" { memberName := memberName, approved := some true }) {}

def deletion (i : Nat) : Action := .delete i (danglingCaller "deletegroup") "sports" "readers"

/-- The group is added to the role, and its deletion is refused. -/
def serialRun : List Action :=
  [addition "sports:group.readers", .read 0 danglingEvents, .write 0 danglingEvents, deletion 0,
    .read 0 danglingEvents]

/-- The group is deleted between its look-up and its addition. -/
def racingRun : List Action :=
  [addition "sports:group.readers", .read 0 danglingEvents, deletion 1, .read 1 danglingEvents,
    .write 1 danglingEvents, .write 0 danglingEvents]

/-- The look-up of the roles fails, and the group is deleted. -/
def brokenRun : List Action := [deletion 1, .read 1 brokenEvents, .write 1 danglingEvents]

/-- A group of a personal domain passes for a user. -/
def personalRun : List Action :=
  [addition "user.jane:group.pals", .read 0 danglingEvents, .write 0 danglingEvents]

/-- Where a run leaves the store, and whether a group is missing before and after it. -/
def outcome (members : Map Str MemberRow) (actions : List Action) : Option (Bool × Bool) :=
  (System.run {} { db := danglingStore members } actions).map fun system =>
    (decide (NoDanglingGroups (danglingStore members)), decide (NoDanglingGroups system.db))

theorem addition_plain : (addition "sports:group.readers").Plain {} := by
  intro memberName hmem huser
  rw [List.mem_singleton.1 hmem] at huser
  exact absurd huser (by decide)

theorem noDanglingGroups_serialRun :
    (System.run {} { db := danglingStore ∅ } serialRun).any (fun system : System =>
      system.db.principalRoles "sports:group.readers" = [("media".toList, "editors".toList)]) = true ∧
    ∀ system, System.run {} { db := danglingStore ∅ } serialRun = some system →
      NoDanglingGroups system.db := by
  constructor
  · decide +kernel
  · intro system hrun
    have hidle : ∀ i, ({ db := danglingStore ∅ } : System).requests i = none := fun _ => rfl
    have hstart : NoDanglingGroups (danglingStore ∅) := by decide +kernel
    have halone : Alone {} 0 { db := danglingStore ∅ } := Alone.start {} 0 _
    have hserial : ∀ action ∈ serialRun, action.index = 0 ∧ action.Plain {} := by
      intro action hmem
      simp only [serialRun, List.mem_cons, List.not_mem_nil, or_false] at hmem
      rcases hmem with rfl | rfl | rfl | rfl | rfl
      · exact ⟨rfl, addition_plain⟩
      · exact ⟨rfl, rfl⟩
      · exact ⟨rfl, trivial⟩
      · exact ⟨rfl, trivial⟩
      · exact ⟨rfl, rfl⟩
    have hundisturbed := serial_undisturbed halone hserial
    exact noDanglingGroups hidle hstart hundisturbed hrun

theorem danglingRuns : outcome ∅ racingRun = some (true, false) ∧
    outcome ((∅ : Map Str MemberRow).insert "sports:group.readers" readersRow) brokenRun =
      some (true, false) ∧
    outcome ∅ personalRun = some (true, false) := by
  decide +kernel

end Example

end Athenz.ZmsServer.Dangling
