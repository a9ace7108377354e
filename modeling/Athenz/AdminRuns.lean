import Athenz.AdminCreation

namespace Athenz.ZmsServer
open Lib Lib.Text Lib.Transaction Lib.Transaction.Tx
set_option autoImplicit true

section Requests

variable [Collation] [CaseRules]

/-- The requests for the roles and the policies of a domain. -/
inductive AdminRequest where
  | putRole (roleName : Str) (role : Role)
  | deleteRole (roleName : Str)
  | putMembership (roleName : Str) (member : Member)
  | putMembershipDecision (roleName : Str) (member : Member)
  | putRoleReview (roleName : Str) (role : Role) (expiryDueDays reminderDueDays : MemberDueDays)
  | deleteMembership (roleName memberName : Str)
  | putPolicy (policyName : Str) (policy : Policy)
  | putPolicyVersion (policyName : Str) (version : Version) (fromVersion : Option Str)
  | setActivePolicyVersion (policyName : Str) (version : Version)
  | putAssertion (policyName : Str) (version : Option Str) (assertion : Assertion)
  | deleteAssertion (policyName : Str) (version : Option Str) (assertionId : Nat)
  | deletePolicy (policyName : Str)
  | deletePolicyVersion (policyName : Str) (version : Version)

/-- The member is the last one of the admin role. -/
def lastAdmin (db : Database) (domainName memberName : Str) : Bool :=
  (roleTable.find db domainName ADMIN_ROLE_NAME).any fun stored =>
    stored.listMembers.map (·.memberName) = [memberName]

/-- The refusals that save the admin role and the admin policy. -/
def AdminRequest.refusal (ctx : Context) (db : Database) (domainName : Str) :
    AdminRequest → Option Failure
  | .deleteRole roleName =>
    if equalsIgnoreCase roleName ADMIN_ROLE_NAME then
      some (requestError "deleteRole: admin role cannot be deleted")
    else none
  | .deleteMembership roleName memberName =>
    if roleName = ADMIN_ROLE_NAME && lastAdmin db domainName memberName then
      some (.resource 403 "deleteMembership: Cannot delete last member of 'admin' role")
    else none
  | .putPolicy policyName _ =>
    if equalsIgnoreCase policyName ADMIN_POLICY_NAME then
      some (requestError "putPolicy: admin policy cannot be modified")
    else none
  | .putPolicyVersion policyName _ _ | .setActivePolicyVersion policyName _ =>
    if equalsIgnoreCase policyName ADMIN_POLICY_NAME then
      some (requestError (ctx.caller ++ ": admin policy cannot be modified".toList))
    else none
  | .putAssertion policyName version _ =>
    if equalsIgnoreCase policyName ADMIN_POLICY_NAME then
      some (requestError (if version.isNone then "putAssertion: admin policy cannot be modified"
        else "putAssertionPolicyVersion: admin policy cannot be modified"))
    else none
  | .deleteAssertion policyName _ _ =>
    if equalsIgnoreCase policyName ADMIN_POLICY_NAME then
      some (requestError "deleteAssertion: admin policy cannot be modified")
    else none
  | .deletePolicy policyName =>
    if equalsIgnoreCase policyName ADMIN_POLICY_NAME then
      some (requestError "deletePolicy: admin policy cannot be deleted")
    else none
  | .deletePolicyVersion policyName _ =>
    if equalsIgnoreCase policyName ADMIN_POLICY_NAME then
      some (requestError (ctx.caller ++ ": admin policy version cannot be deleted".toList))
    else none
  | .putRole _ _ | .putMembership _ _ | .putMembershipDecision _ _ | .putRoleReview _ _ _ _ => none

/-- The names of the objects are those that the path of the request gives them. -/
def AdminRequest.execute (config : Config) (ctx : Context) (domainName : Str) :
    AdminRequest → Execution Unit
  | .putRole roleName role => executePutRole config ctx domainName roleName
      { role with name := roleResourceName domainName roleName }
  | .deleteRole roleName => executeDeleteRole config ctx domainName roleName
  | .putMembership roleName member => executePutMembership config ctx domainName roleName member
  | .putMembershipDecision roleName member =>
    executePutMembershipDecision config ctx domainName roleName member
  | .putRoleReview roleName role expiryDueDays reminderDueDays =>
    executePutRoleReview config ctx domainName roleName role expiryDueDays reminderDueDays
  | .deleteMembership roleName memberName =>
    executeAutoCommit config (deleteMembershipBody config ctx domainName roleName memberName)
  | .putPolicy policyName policy => executePutPolicy config ctx domainName policyName
      { policy with name := policyResourceName domainName policyName }
  | .putPolicyVersion policyName version fromVersion =>
    executePutPolicyVersion config ctx domainName policyName version fromVersion
  | .setActivePolicyVersion policyName version =>
    executeSetActivePolicy config ctx domainName policyName version
  | .putAssertion policyName version assertion =>
    executePutAssertion config ctx domainName policyName version assertion
  | .deleteAssertion policyName version assertionId =>
    executeDeleteAssertion config ctx domainName policyName version assertionId
  | .deletePolicy policyName => executeDeletePolicy config ctx domainName policyName
  | .deletePolicyVersion policyName version =>
    executeDeletePolicyVersion config ctx domainName policyName version

def AdminRequest.run (config : Config) (ctx : Context) (domainName : Str) (request : AdminRequest) :
    Execution Unit := fun db events =>
  match request.refusal ctx db domainName with
  | some failure => (.error failure, db)
  | none => request.execute config ctx domainName db events

end Requests

section Steps

variable {K : Database → Prop}

theorem eq_singleton_of_nodup {l : List α} (hnodup : l.Nodup) (hmem : a ∈ l)
    (hall : ∀ b ∈ l, b = a) : l = [a] := by
  cases l with
  | nil => cases hmem
  | cons b rest =>
    cases rest with
    | nil => rw [hall b List.mem_cons_self]
    | cons c rest =>
      have hb := hall b List.mem_cons_self
      have hc := hall c (List.mem_cons_of_mem b List.mem_cons_self)
      rw [hb, hc] at hnodup
      exact absurd List.mem_cons_self (List.nodup_cons.1 hnodup).1

/-- A member that is not the last one leaves another one. -/
theorem exists_other_member {stored : Collection S} (hmember : (stored.members.lookup name).isSome)
    (hnot : stored.listMembers.map (·.memberName) ≠ [lostName]) :
    ∃ other, (stored.members.lookup other).isSome ∧ other ≠ lostName := by
  by_cases hname : name = lostName
  · by_contra hnone
    have hnames : stored.listMembers.map (·.memberName) = stored.members.keys := by
      unfold Collection.listMembers
      rw [List.map_map]
      rfl
    rw [hnames] at hnot
    refine hnot (eq_singleton_of_nodup stored.members.nodupKeys ?_ fun other hother => ?_)
    · rw [← hname]
      exact AList.lookup_isSome.1 hmember
    · by_contra hne
      exact hnone ⟨other, AList.lookup_isSome.2 hother, hne⟩
  · exact ⟨name, hmember, hname⟩

theorem execute_preserves (hstamp : ∀ otherDomain time db, K db → K (stampDomain otherDomain time db))
    {body : Op α} (config : Config) (domainName : Str) (hbody : Preserves K body) (hdb : K db)
    (events : Nat → Event Failure) : K (execute config domainName body db events).2 :=
  attempts_preserves (Preserves.saved hbody (hstamp domainName)) hdb

theorem executeAutoCommit_preserves {body : Op α} (config : Config) (hbody : Preserves K body)
    (hdb : K db) (events : Nat → Event Failure) : K (executeAutoCommit config body db events).2 :=
  attempts_preserves hbody hdb

variable [Collation] {I : Collection RoleSettings → Prop}

theorem execute_adminHolds {body : Op α} (config : Config) (otherDomain : Str)
    (hbody : Preserves (AdminHolds domainName I) body) (hdb : AdminHolds domainName I db)
    (events : Nat → Event Failure) :
    AdminHolds domainName I (execute config otherDomain body db events).2 :=
  execute_preserves (fun _ time _ h => h.stamp adminRow_undated time) config otherDomain hbody hdb
    events

theorem AdminHolds.administered (h : AdminHolds domainName (HasMember memberName) db) :
    Administered domainName db := by
  obtain ⟨hmember, hpolicy⟩ := adminHolds_iff.1 h
  exact administered_iff.2 ⟨⟨memberName, hmember⟩, hpolicy⟩

theorem Administered.hasMember (h : Administered domainName db) :
    ∃ memberName, AdminHolds domainName (HasMember memberName) db := by
  obtain ⟨⟨memberName, hmember⟩, hpolicy⟩ := administered_iff.1 h
  exact ⟨memberName, adminHolds_iff.2 ⟨hmember, hpolicy⟩⟩

theorem Administered.hasMember_of (h : Administered domainName db)
    (hstored : roleTable.find db domainName ADMIN_ROLE_NAME = some stored)
    (hmember : (stored.members.lookup memberName).isSome) :
    AdminHolds domainName (HasMember memberName) db := by
  obtain ⟨⟨_, found, hfound, hother⟩, hpolicy⟩ := administered_iff.1 h
  cases hfound.symm.trans hstored
  exact adminHolds_iff.2 ⟨⟨stored, hstored, hother.undelegated, hmember⟩, hpolicy⟩

variable [CaseRules]

theorem executePutRole_administered (config : Config) (ctx : Context) {role : Role}
    (hrole : role.name = roleResourceName domainName ADMIN_ROLE_NAME)
    (hdb : AdminHolds domainName (Putting role) db) (events : Nat → Event Failure) :
    Administered domainName
      (executePutRole config ctx domainName ADMIN_ROLE_NAME role db events).2 := by
  have hput : AdminHolds domainName (Putting role)
      (executePutRole config ctx domainName ADMIN_ROLE_NAME role db events).2 := by
    apply attempts_saved_invariant
    · exact (putRoleBody_whole config ctx domainName ADMIN_ROLE_NAME role).atomic
    · exact putAdminRoleBody_returns config ctx hrole
    · exact fun time _ h => h.stamp adminRow_undated time
    · exact hdb
  obtain ⟨⟨stored, hstored, hputting⟩, hpolicy⟩ := adminHolds_iff.1 hput
  exact adminHolds_iff.2 ⟨⟨stored, hstored, hputting.member⟩, hpolicy⟩

end Steps

section Runs

theorem policyName_ne [CaseRules] {policyName : Str} {failure : Failure}
    (h : (if equalsIgnoreCase policyName ADMIN_POLICY_NAME then some failure else none) = none) :
    policyName ≠ ADMIN_POLICY_NAME := by
  rintro rfl
  rw [equalsIgnoreCase_refl] at h
  cases h

variable [Collation] [CaseRules]

/-- A put of the admin role keeps it in use, and a review of it leaves a member. -/
def AdminRequest.Spares (domainName : Str) (db : Database) : AdminRequest → Prop
  | .putRole roleName role => roleName = ADMIN_ROLE_NAME → ∀ stored,
    roleTable.find db domainName ADMIN_ROLE_NAME = some stored → KeepsAdmin role stored
  | .putRoleReview roleName role _ _ => roleName = ADMIN_ROLE_NAME → ∀ stored,
    roleTable.find db domainName ADMIN_ROLE_NAME = some stored →
      ∃ memberName, (stored.members.lookup memberName).isSome ∧ LeavesMember role memberName
  | _ => True

/-- A request that is not refused leaves the domain with its admins. -/
theorem AdminRequest.execute_administered (config : Config) (ctx : Context) {request : AdminRequest}
    (hrefusal : request.refusal ctx db domainName = none) (hspares : request.Spares domainName db)
    (hdb : Administered domainName db) (events : Nat → Event Failure) :
    Administered domainName (request.execute config ctx domainName db events).2 := by
  obtain ⟨memberName, hmember⟩ := hdb.hasMember
  obtain ⟨⟨_, stored, hstored, hstays⟩, hpolicy⟩ := administered_iff.1 hdb
  cases request with
  | putRole roleName role =>
    by_cases hadmin : roleName = ADMIN_ROLE_NAME
    · cases hadmin
      have hputting : AdminHolds domainName
          (Putting { role with name := roleResourceName domainName ADMIN_ROLE_NAME }) db :=
        adminHolds_iff.2 ⟨⟨stored, hstored, ⟨_, hstays⟩, hspares rfl stored hstored⟩, hpolicy⟩
      exact executePutRole_administered config ctx rfl hputting events
    · exact (execute_adminHolds config domainName (putOtherRoleBody_adminHolds config
        (hasMember_beside memberName) rfl hadmin) hmember events).administered
  | deleteRole roleName =>
    exact execute_adminHolds config domainName (deleteRoleBody_adminHolds config ctx
      (policyName_ne hrefusal)) hdb events
  | putMembership roleName member =>
    exact (executeAutoCommit_preserves config (putMembershipBody_hasMember config ctx member) hmember
      events).administered
  | putMembershipDecision roleName member =>
    exact (execute_adminHolds config domainName (putMembershipDecisionBody_hasMember config ctx member)
      hmember events).administered
  | putRoleReview roleName role expiryDueDays reminderDueDays =>
    by_cases hadmin : roleName = ADMIN_ROLE_NAME
    · obtain ⟨other, hother, hleaves⟩ := hspares hadmin stored hstored
      exact (execute_adminHolds config domainName (putRoleReviewBody_hasMember config ctx
        expiryDueDays reminderDueDays fun _ => hleaves) (hdb.hasMember_of hstored hother)
        events).administered
    · exact (execute_adminHolds config domainName (putRoleReviewBody_hasMember config ctx
        expiryDueDays reminderDueDays fun h => absurd h hadmin) hmember events).administered
  | deleteMembership roleName lostName =>
    by_cases hadmin : roleName = ADMIN_ROLE_NAME
    · have hlast : lastAdmin db domainName lostName = false := by
        unfold AdminRequest.refusal at hrefusal
        dsimp only at hrefusal
        rw [decide_eq_true hadmin, Bool.true_and] at hrefusal
        by_contra hlast
        rw [if_pos (Bool.not_eq_false _ ▸ hlast)] at hrefusal
        cases hrefusal
      unfold lastAdmin at hlast
      rw [hstored, Option.any_some, decide_eq_false_iff_not] at hlast
      obtain ⟨other, hother, hne⟩ := exists_other_member hstays.present hlast
      exact (executeAutoCommit_preserves config (deleteMembershipBody_hasMember config ctx
        fun _ => hne) (hdb.hasMember_of hstored hother) events).administered
    · exact (executeAutoCommit_preserves config (deleteMembershipBody_hasMember config ctx
        fun h => absurd h hadmin) hmember events).administered
  | putPolicy policyName policy =>
    exact execute_adminHolds config domainName (putPolicyBody_adminHolds config ctx rfl
      (policyName_ne hrefusal)) hdb events
  | putPolicyVersion policyName version fromVersion =>
    exact execute_adminHolds config domainName (putPolicyVersionBody_adminHolds config ctx
      (policyName_ne hrefusal) version fromVersion) hdb events
  | setActivePolicyVersion policyName version =>
    exact execute_adminHolds config domainName (setActivePolicyBody_adminHolds config ctx
      (policyName_ne hrefusal) version) hdb events
  | putAssertion policyName version assertion =>
    exact executeAutoCommit_preserves config (putAssertionBody_adminHolds config ctx
      (policyName_ne hrefusal) version assertion) hdb events
  | deleteAssertion policyName version assertionId =>
    exact executeAutoCommit_preserves config (deleteAssertionBody_adminHolds config ctx
      (policyName_ne hrefusal) version assertionId) hdb events
  | deletePolicy policyName =>
    exact execute_adminHolds config domainName (deletePolicyBody_adminHolds config ctx
      (policyName_ne hrefusal)) hdb events
  | deletePolicyVersion policyName version =>
    exact execute_adminHolds config domainName (deletePolicyVersionBody_adminHolds config ctx
      (policyName_ne hrefusal) version) hdb events

theorem AdminRequest.run_administered (config : Config) (ctx : Context) {request : AdminRequest}
    (hspares : request.Spares domainName db) (hdb : Administered domainName db)
    (events : Nat → Event Failure) :
    Administered domainName (request.run config ctx domainName db events).2 := by
  unfold AdminRequest.run
  cases hrefusal : request.refusal ctx db domainName with
  | some failure => exact hdb
  | none => exact AdminRequest.execute_administered config ctx hrefusal hspares hdb events

/-- A request with the caller and what its connections meet. -/
structure AdminCall where
  ctx : Context
  request : AdminRequest
  events : Nat → Event Failure

def AdminCall.run (config : Config) (domainName : Str) (db : Database) (call : AdminCall) :
    Database :=
  (call.request.run config call.ctx domainName db call.events).2

def runCalls (config : Config) (domainName : Str) (calls : List AdminCall) (db : Database) :
    Database := calls.foldl (AdminCall.run config domainName) db

/-- Every request of a run spares the admins that it finds. -/
def AllSpare (config : Config) (domainName : Str) : List AdminCall → Database → Prop
  | [], _ => True
  | call :: calls, db => call.request.Spares domainName db ∧
    AllSpare config domainName calls (call.run config domainName db)

theorem runCalls_administered (config : Config) (hspares : AllSpare config domainName calls db)
    (hdb : Administered domainName db) :
    Administered domainName (runCalls config domainName calls db) := by
  induction calls generalizing db with
  | nil => exact hdb
  | cons call calls ih =>
    exact ih hspares.2 (AdminRequest.run_administered config call.ctx hspares.1 hdb call.events)

/-- A domain that the server has created keeps its admins in every run of requests that do not put
its admin role without a member or with a trust, nor remove all its members in a review. -/
theorem created_domain_administered {config : Config} (hadmins : adminUsers ≠ [])
    (hkeeps : ∀ name ∈ solutionTemplates.getD [], ∀ template,
      config.templates.lookup name = some template → template.KeepsAdmin domain.name)
    (hcreated : makeDomain config ctx domain adminUsers solutionTemplates db events = (.ok (), db'))
    (hspares : AllSpare config domain.name calls db') :
    Administered domain.name (runCalls config domain.name calls db') :=
  runCalls_administered config hspares (makeDomain_administers hadmins hkeeps hcreated)

end Runs

section Example

local instance adminCollation : Collation := .binary

local instance adminCaseRules : CaseRules := .ascii

/-- A store that knows the domain of the users. -/
def userStore : Database where
  domains := (∅ : Map Str DomainRow).insert "user" {
    settings := Domain.settings { name := "user" }
    modified := 0 }

def sportsDomain : Domain := { name := "sports" }

def createdDomain : Except Failure Unit × Database :=
  makeDomain {} { caller := "postTopLevelDomain" } sportsDomain ["user.joe"] none userStore
    fun n => ⟨n, none⟩

theorem createdDomain_eq : createdDomain = (.ok (), createdDomain.2) := by
  have hok : createdDomain.1 = .ok () := by decide +kernel
  rw [← hok]

/-- The put of the admin role with another member. -/
def otherAdmins : AdminCall :=
  ⟨{ caller := "putRole" }, .putRole ADMIN_ROLE_NAME
    { name := [], roleMembers := some [{ memberName := "user.jane" }] }, fun n => ⟨n, none⟩⟩

theorem otherAdmins_spares (db : Database) : AllSpare {} sportsDomain.name [otherAdmins] db := by
  refine ⟨fun _ stored _ => .inr (.inr ⟨rfl, .inr ⟨{ memberName := "user.jane" }, ?_, ?_⟩⟩), trivial⟩
  · exact List.mem_cons_self
  · exact nofun

theorem other_admins_administered :
    Administered sportsDomain.name (runCalls {} sportsDomain.name [otherAdmins] createdDomain.2) :=
  created_domain_administered (List.cons_ne_nil "user.joe".toList [])
    (fun _ hmem => absurd hmem List.not_mem_nil) createdDomain_eq (otherAdmins_spares _)

/-- The put of the admin role without members. -/
def emptyAdmins : AdminCall :=
  ⟨{ caller := "putRole" }, .putRole ADMIN_ROLE_NAME { name := [], roleMembers := some [] },
    fun n => ⟨n, none⟩⟩

/-- The review of the admin role that ends the only membership. -/
def reviewedAdmins : AdminCall :=
  ⟨{ caller := "putRoleReview" }, .putRoleReview ADMIN_ROLE_NAME
    { name := [], roleMembers := some [{ memberName := "user.joe", active := some false }] }
    (fun _ => false) fun _ => false, fun n => ⟨n, none⟩⟩

theorem not_administered (h : (roleTable.find db domainName ADMIN_ROLE_NAME).all
    (fun stored => stored.members.keys = []) = true) : ¬ Administered domainName db := by
  intro hadministered
  obtain ⟨⟨memberName, stored, hstored, hmember⟩, _⟩ := administered_iff.1 hadministered
  rw [hstored, Option.all_some, decide_eq_true_eq] at h
  have hmem := AList.lookup_isSome.1 hmember.present
  rw [AList.mem_keys, h] at hmem
  cases hmem

/-- Either request locks the admins out of a domain that has just been created. -/
theorem admins_locked_out :
    createdDomain.1 = .ok () ∧
      ¬ Administered sportsDomain.name
        (runCalls {} sportsDomain.name [emptyAdmins] createdDomain.2) ∧
      ¬ Administered sportsDomain.name
        (runCalls {} sportsDomain.name [reviewedAdmins] createdDomain.2) := by
  refine ⟨by decide +kernel, not_administered ?_, not_administered ?_⟩
  · decide +kernel
  · decide +kernel

end Example

end Athenz.ZmsServer
