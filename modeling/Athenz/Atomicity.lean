import Athenz.DbServiceWhole

namespace Athenz.ZmsServer
open Lib Lib.Text Lib.Transaction Tx
set_option autoImplicit true

section Membership

theorem checkMembership_reading (config : Config) (ctx : Context) (domainName roleName : Str) :
    Reading (checkMembership config ctx domainName roleName) := by
  refine (checkDomainAuditEnabled_reading _ _ _ _).bind fun _ => (Reading.query _).bind ?_
  intro stored
  cases stored with
  | none => exact .abort _
  | some stored =>
    exact (checkObjectAuditEnabled_reading _ _ _ _).bind fun _ => (Reading.ensure _ _).bind fun _ =>
      checkRoleMembershipQuota_reading _ _ _

/-- The statements up to the member row. -/
def enterMember (config : Config) (ctx : Context) (domainName roleName : Str)
    (roleMember : Member) : Op (Option Str) := do
  checkMembership config ctx domainName roleName
  roleTable.putMember domainName roleName roleMember ctx.principal

/-- The statements behind the member row. -/
def finishMembership (ctx : Context) (domainName roleName : Str) (roleMember : Member)
    (action : Option Str) : Op Unit := do
  let done ← roleTable.logMember domainName roleName roleMember.memberName ctx.principal action
  Tx.ensure done (requestError (ctx.caller ++ ": unable to insert role member: ".toList ++
    roleMember.memberName ++ " to role: ".toList ++ roleName))
  let _ ← updateRoleModTimestamp domainName roleName
  updateDomainModTimestamp domainName

theorem putMembershipBody_eq (config : Config) (ctx : Context) (domainName roleName : Str)
    (roleMember : Member) : putMembershipBody config ctx domainName roleName roleMember =
      enterMember config ctx domainName roleName roleMember >>=
        finishMembership ctx domainName roleName roleMember := by
  unfold putMembershipBody enterMember insertRoleMember Table.insertMember finishMembership
  rw [Tx.bind_assoc]
  simp only [Tx.bind_assoc]

theorem putMember_error {table : Table S} {c : Connection Database Failure}
    (hc : c.completed = true) (hclean : c.working = c.committed)
    (h : table.putMember domainName name member admin c = (.error e, c')) :
    c'.working = c.working ∧ c'.committed = c.committed := by
  obtain hquery | ⟨known, d, hquery, hrest⟩ := bind_eq_error.1 h
  · rw [statement_eq_error hc hquery]
    exact ⟨rfl, rfl⟩
  · obtain ⟨_, rfl, rfl⟩ := query_eq_ok.1 hquery
    have hwritten : (c.tick.write c.working).committed = c.committed :=
      write_working_committed fun _ => hclean
    split at hrest
    · rw [Tx.abort, rollback_of_completed (c := c.tick.write c.working) hc] at hrest
      cases hrest
      exact ⟨rfl, hwritten⟩
    · unfold Table.on onDomain at hrest
      rw [statement_eq_error (c := c.tick.write c.working) hc hrest]
      exact ⟨rfl, hwritten⟩

theorem putMember_ok {table : Table S} {c : Connection Database Failure}
    (hc : c.completed = true) (h : table.putMember domainName name member admin c = (.ok action, c')) :
    c'.completed = true ∧ c'.working = c'.committed ∧
      (table.find c'.working domainName name).isSome := by
  obtain ⟨known, d, hquery, hrest⟩ := bind_eq_ok.1 h
  obtain ⟨_, rfl, rfl⟩ := query_eq_ok.1 hquery
  split at hrest
  · cases hrest
  · obtain ⟨_, stored, stored', hfind, _, rfl⟩ := Table.on_eq_ok.1 hrest
    refine ⟨hc, (if_pos hc).symm, ?_⟩
    exact Option.isSome_of_eq_some ((table.focus domainName name).get_put hfind stored')

/-- Without a transaction, a failure up to the member row leaves the store. -/
theorem enterMember_error {config : Config}
    (h : enterMember config ctx domainName roleName roleMember ⟨db, db, true, events⟩ =
      (.error e, c)) : c.working = db ∧ c.committed = db := by
  have hread := (checkMembership_reading config ctx domainName roleName).readOnly
    ⟨db, db, true, events⟩ fun _ => rfl
  obtain hcheck | ⟨_, d, hcheck, hput⟩ := bind_eq_error.1 h
  · rw [hcheck] at hread
    exact ⟨hread.2.elim id id, hread.1⟩
  · rw [hcheck] at hread
    obtain ⟨hcommitted, hcompleted, hworking⟩ := hread
    obtain ⟨hworking', hcommitted'⟩ :=
      putMember_error hcompleted (hworking.trans hcommitted.symm) hput
    exact ⟨hworking'.trans hworking, hcommitted'.trans hcommitted⟩

theorem enterMember_ok {config : Config}
    (h : enterMember config ctx domainName roleName roleMember ⟨db, db, true, events⟩ =
      (.ok action, c)) :
    c.completed = true ∧ c.working = c.committed ∧
      (roleTable.find c.working domainName roleName).isSome := by
  have hread := (checkMembership_reading config ctx domainName roleName).readOnly
    ⟨db, db, true, events⟩ fun _ => rfl
  obtain ⟨_, d, hcheck, hput⟩ := bind_eq_ok.1 h
  rw [hcheck] at hread
  exact putMember_ok hread.2.1 hput

/-- How many statements follow the member row: an approved member is logged. -/
def finishCount (action : Option Str) : Nat := if action.isSome then 3 else 2

theorem logMember_ok {c : Connection Database Failure} (hc : c.completed = true)
    (hfind : (roleTable.find c.working domainName roleName).isSome)
    (hfault : action.isSome → (c.events 0).fault = none) (memberName : Str) (admin : Option Str) :
    ∃ d, roleTable.logMember domainName roleName memberName admin action c = (.ok true, d) ∧
      d.completed = true ∧ (roleTable.find d.working domainName roleName).isSome ∧
      ∀ n, d.events n = c.events (n + (finishCount action - 2)) := by
  cases action with
  | none => exact ⟨c, rfl, hc, hfind, fun _ => rfl⟩
  | some action =>
    obtain ⟨stored, hstored⟩ := Option.isSome_iff_exists.1 hfind
    refine ⟨_, Table.on_eq_ok.2 ⟨hfault rfl, stored, _, hstored, rfl, rfl⟩, hc, ?_, fun _ => rfl⟩
    exact Option.isSome_of_eq_some ((roleTable.focus domainName roleName).get_put hstored _)

/-- The statements behind the member row succeed when none of them meets a failure. -/
theorem finishMembership_ok {c : Connection Database Failure} (hc : c.completed = true)
    (hfind : (roleTable.find c.working domainName roleName).isSome)
    (hfault : ∀ n < finishCount action, (c.events n).fault = none) (ctx : Context)
    (roleMember : Member) :
    ∃ d, finishMembership ctx domainName roleName roleMember action c = (.ok (), d) ∧
      d.completed = true ∧ d.working = d.committed := by
  have hlogged : action.isSome → (c.events 0).fault = none := by
    intro h
    exact hfault 0 (by rw [finishCount, if_pos h]; decide)
  obtain ⟨d, hlog, hd, hfind, hevents⟩ :=
    logMember_ok hc hfind hlogged roleMember.memberName ctx.principal
  have hleft : ∀ n < 2, (d.events n).fault = none := by
    intro n hn
    rw [hevents]
    refine hfault _ ?_
    unfold finishCount
    split <;> omega
  obtain ⟨stored, hstored⟩ := Option.isSome_iff_exists.1 hfind
  have hrole : updateRoleModTimestamp domainName roleName d =
      (.ok true, d.tick.write ((roleTable.focus domainName roleName).put d.working stored)) :=
    Table.on_eq_ok.2 ⟨hleft 0 (by decide), stored, stored, hstored, rfl, rfl⟩
  refine ⟨_, bind_eq_ok.2 ⟨true, d, hlog, bind_eq_ok.2 ⟨(), d, rfl, bind_eq_ok.2
    ⟨true, _, hrole, statement_eq_ok.2 ⟨hleft 1 (by decide), _, rfl, rfl⟩⟩⟩⟩, hd, ?_⟩
  exact (if_pos hd).symm

theorem putMembershipBody_replays (config : Config) (ctx : Context) (domainName roleName : Str)
    (roleMember : Member) :
    Replays (putMembershipBody config ctx domainName roleName roleMember) :=
  (checkMembership_reading _ _ _ _).replays.bind fun _ _ _ _ =>
    ((roleTable.insertMember_writing _ _ _ _).bind fun _ => (Writing.ensure _ _).bind fun _ =>
      (roleTable.on_writing _ _ _).bind fun _ => .statement _).replays

end Membership

section Operations

variable [Collation] [CaseRules]

/-- The operations that write a domain or an object of one. -/
inductive WriteOperation where
  | makeDomain (domain : Domain) (adminUsers : List Str) (solutionTemplates : Option (List Str))
  | putPolicy (domainName policyName : Str) (policy : Policy)
  | putRole (domainName roleName : Str) (role : Role)
  | putGroup (domainName groupName : Str) (group : Group)
  | putMembership (domainName roleName : Str) (roleMember : Member)
  | putPolicyVersion (domainName policyName : Str) (version : Version) (fromVersion : Option Str)

namespace WriteOperation

def run (config : Config) (ctx : Context) : WriteOperation → Execution Unit
  | .makeDomain domain adminUsers templates =>
    ZmsServer.makeDomain config ctx domain adminUsers templates
  | .putPolicy domainName policyName policy =>
    executePutPolicy config ctx domainName policyName policy
  | .putRole domainName roleName role => executePutRole config ctx domainName roleName role
  | .putGroup domainName groupName group => executePutGroup config ctx domainName groupName group
  | .putMembership domainName roleName roleMember =>
    executePutMembership config ctx domainName roleName roleMember
  | .putPolicyVersion domainName policyName version fromVersion =>
    executePutPolicyVersion config ctx domainName policyName version fromVersion

def domainName : WriteOperation → Str
  | .makeDomain domain _ _ => domain.name
  | .putPolicy domainName _ _ | .putRole domainName _ _ | .putGroup domainName _ _
  | .putMembership domainName _ _ | .putPolicyVersion domainName _ _ _ => domainName

/-- What runs between the start of a transaction and its commit. -/
def body (config : Config) (ctx : Context) : WriteOperation → Op Unit
  | .makeDomain domain adminUsers templates =>
    makeDomainBody config ctx domain adminUsers templates
  | .putPolicy domainName policyName policy => putPolicyBody config ctx domainName policyName policy
  | .putRole domainName roleName role => putRoleBody config ctx domainName roleName role
  | .putGroup domainName groupName group => putGroupBody config ctx domainName groupName group
  | .putMembership domainName roleName roleMember =>
    putMembershipBody config ctx domainName roleName roleMember
  | .putPolicyVersion domainName policyName version fromVersion =>
    putPolicyVersionBody config ctx domainName policyName version fromVersion

/-- The change has been made once, and the domain has the time of it. -/
def Applied (config : Config) (ctx : Context) (op : WriteOperation) (db : Database) (_ : Unit)
    (db' : Database) : Prop :=
  match op with
  | .putMembership _ _ _ => ∃ c c', c.committed = db ∧ c.working = db ∧ c.completed = true ∧
      c = c.faultless ∧ op.body config ctx c = (.ok (), c') ∧ db' = c'.working
  | _ => AppliedOnce (stampDomain op.domainName) (op.body config ctx) db () db'

/-- Behind the member row, every statement succeeds. -/
def MembershipSettled (config : Config) (ctx : Context) (domainName roleName : Str)
    (roleMember : Member) (db : Database) (events : Nat → Event Failure) : Prop :=
  ∀ action c, enterMember config ctx domainName roleName roleMember
      ⟨db, db, true, fun n => events (n + 1)⟩ = (.ok action, c) →
    ∀ n < finishCount action, (c.events n).fault = none

/-- In no attempt of the operation does anything fail once the store has changed. -/
def SettledRun (config : Config) (ctx : Context) (op : WriteOperation) (db : Database)
    (events : Nat → Event Failure) : Prop :=
  match op with
  | .putMembership domainName roleName roleMember =>
    EveryAttempt (MembershipSettled config ctx domainName roleName roleMember) true
      shouldRetryOperation (op.body config ctx) (config.defaultRetryCount - 1) db events
  | _ => EveryAttempt (Settled (op.body config ctx)) false shouldRetryOperation
      (Tx.saved (stampDomain op.domainName) (op.body config ctx)) (config.defaultRetryCount - 1)
      db events

/-- The templates of a new domain have metadata. -/
def Described (config : Config) : WriteOperation → Prop
  | .makeDomain _ _ templates => ∀ name ∈ templates.getD [], ∀ template,
      config.templates.lookup name = some template → template.metadata ≠ none
  | _ => True

theorem attempt_membership {config : Config} {domainName roleName : Str}
    (hsettled : MembershipSettled config ctx domainName roleName roleMember db events)
    (hrun : attempt true (putMembershipBody config ctx domainName roleName roleMember) db events =
      (result, db', events')) :
    AllOrNothing ((putMembership domainName roleName roleMember).Applied config ctx) db
      (result, db') := by
  cases hopen : (events 0).fault with
  | some fault =>
    unfold attempt at hrun
    rw [hopen] at hrun
    cases hrun
    exact .unchanged _ _ db
  | none =>
    have hbody := congrFun (putMembershipBody_eq config ctx domainName roleName roleMember)
      ⟨db, db, true, fun n => events (n + 1)⟩
    rcases henter : enterMember config ctx domainName roleName roleMember
      ⟨db, db, true, fun n => events (n + 1)⟩ with ⟨e | action, c⟩
    · obtain ⟨hworking, hcommitted⟩ := enterMember_error henter
      rw [bind_eq_error.2 (.inl henter)] at hbody
      rw [attempt_of_open hopen hbody] at hrun
      cases hrun
      exact ⟨nofun, fun _ _ => (commit_of_clean (hworking.trans hcommitted.symm)).trans hcommitted⟩
    · obtain ⟨hc, _, hfind⟩ := enterMember_ok henter
      obtain ⟨d, hfinish, hd, hclean⟩ :=
        finishMembership_ok hc hfind (hsettled action c henter) ctx roleMember
      rw [bind_eq_ok.2 ⟨action, c, henter, hfinish⟩] at hbody
      rw [attempt_of_open hopen hbody, commit_of_completed hd] at hrun
      cases hrun
      exact .ok ⟨_, _, rfl, rfl, rfl, rfl, putMembershipBody_replays _ _ _ _ _ _ _ _ hbody,
        hclean.symm⟩

/-- An operation in which nothing fails once the store has changed leaves the store when it fails;
when it succeeds it has made its change once. -/
theorem run_allOrNothing (config : Config) (ctx : Context) (op : WriteOperation) (db : Database)
    (events : Nat → Event Failure) (hdescribed : op.Described config)
    (hsettled : op.SettledRun config ctx db events) :
    AllOrNothing (op.Applied config ctx) db (op.run config ctx db events) := by
  have htransaction : ∀ {body : Op Unit} {domainName : Str}, Whole body →
      EveryAttempt (Settled body) false shouldRetryOperation
        (Tx.saved (stampDomain domainName) body) (config.defaultRetryCount - 1) db events →
      AllOrNothing (AppliedOnce (stampDomain domainName) body) db
        (execute config domainName body db events) := by
    intro body domainName hwhole hrun
    exact attempts_allOrNothing
      (fun _ _ _ _ _ hs h => attempt_saved hwhole.atomic hwhole.replays hs h) hrun
  cases op with
  | makeDomain domain adminUsers templates =>
    exact htransaction (makeDomainBody_whole hdescribed _ _ _) hsettled
  | putPolicy domainName policyName policy =>
    exact htransaction (putPolicyBody_whole _ _ _ _ _) hsettled
  | putRole domainName roleName role => exact htransaction (putRoleBody_whole _ _ _ _ _) hsettled
  | putGroup domainName groupName group =>
    exact htransaction (putGroupBody_whole _ _ _ _ _) hsettled
  | putMembership domainName roleName roleMember =>
    exact attempts_allOrNothing (fun _ _ _ _ _ hs h => attempt_membership hs h) hsettled
  | putPolicyVersion domainName policyName version fromVersion =>
    exact htransaction (putPolicyVersionBody_whole _ _ _ _ _ _) hsettled

end WriteOperation

end Operations

section Runs

local instance runCollation : Collation := .binary
local instance runCaseRules : CaseRules := .ascii

def emptyDomain : WriteOperation := .makeDomain { name := "media" } [] none

def domainCaller : Context := { caller := "makedomain" }

/-- Only the statement that sets the time of the new domain fails. -/
def stampFails (n : Nat) : Event Failure :=
  ⟨n, if n = 6 then some (internalServerError "timeout", false) else none⟩

/-- The operation throws, and the domain is stored. -/
theorem makeDomain_stamp_fails :
    ¬ AllOrNothing (emptyDomain.Applied {} domainCaller) {}
      (emptyDomain.run {} domainCaller {} stampFails) := by
  have hstored : ((emptyDomain.run {} domainCaller {} stampFails).2.domains.lookup
      ("media" : Str)).isSome = true := by decide +kernel
  refine not_allOrNothing (by decide +kernel) fun h => ?_
  rw [h] at hstored
  cases hstored

/-- Nothing fails. -/
def quietRun (n : Nat) : Event Failure := ⟨n, none⟩

theorem emptyDomain_settled :
    Settled (emptyDomain.body { defaultRetryCount := 1 } domainCaller) {} quietRun := by
  intro a c h
  have hquiet : ∀ n < 2, ((emptyDomain.body { defaultRetryCount := 1 } domainCaller
      ⟨{}, {}, false, fun n => quietRun (n + 1)⟩).2.events n).fault = none := by decide +kernel
  rw [h] at hquiet
  rw [hquiet 0 (by decide)]
  exact hquiet 1 (by decide)

theorem makeDomain_quietRun :
    AllOrNothing (emptyDomain.Applied { defaultRetryCount := 1 } domainCaller) {}
      (emptyDomain.run { defaultRetryCount := 1 } domainCaller {} quietRun) :=
  WriteOperation.run_allOrNothing { defaultRetryCount := 1 } domainCaller emptyDomain {} quietRun
    (fun _ h => absurd h List.not_mem_nil) emptyDomain_settled

end Runs

end Athenz.ZmsServer
