import Athenz.DbServiceWhole
import Athenz.ProviderRoles

namespace Athenz.ZmsServer
open Lib Lib.Text Lib.Transaction
set_option autoImplicit true

section Steps

theorem forEach_writing {step : α → Op Unit} (h : ∀ a, Tx.Writing (step a)) (items : List α) :
    Tx.Writing (forEach step items) := by
  induction items with
  | nil => exact .pure ()
  | cons a items ih => exact (h a).bind fun _ => ih

theorem Rebuilt.trans [CaseRules] (h : Rebuilt others stored stored')
    (h' : Rebuilt others stored' stored'') : Rebuilt others stored stored'' where
  settings := by rw [h'.settings, h.settings, reset_reset]
  tags := h'.tags.trans h.tags
  members htrust := by
    have hfirst := h.members htrust
    have hsecond := h'.members (by rw [h.settings]; rfl)
    refine ⟨fun name row hrow => hsecond.kept name row (hfirst.kept name row hrow), ?_,
      hsecond.joined⟩
    intro name hsome
    obtain hsome | hnew := hsecond.only name hsome
    · exact hfirst.only name hsome
    · exact .inr hnew

variable [Collation]

theorem blocks_added (policy : PolicyRow) (roleName : Str) (assertion : Assertion) (id : Nat) :
    (policy.added roleName assertion id).blocks roleName assertion = true := by
  refine List.any_eq_true.2 ⟨assertion.row roleName id, List.mem_append_right _
    (List.mem_singleton_self _), ?_⟩
  unfold Assertion.row
  simp only [sameText_refl, Bool.and_self, decide_true]

/-- A policy grows only once. -/
theorem Grown.trans (h : Grown policyName roleName assertion before after)
    (h' : Grown policyName roleName assertion after after') :
    Grown policyName roleName assertion before after' := by
  obtain ⟨id, rfl⟩ := h
  obtain ⟨id', rfl⟩ := h'
  refine ⟨id, congrArg some ?_⟩
  cases before with
  | none => exact if_pos (blocks_added _ _ _ _)
  | some policy =>
    dsimp only
    split
    · rfl
    · exact if_pos (blocks_added _ _ _ _)

end Steps

section Runs

variable [Collation] [CaseRules]

/-- What provisioning makes of the roles and the policies of a tenant. -/
structure Provisioned (tenantDomain rolePrefix trustedRolePrefix : Str) (members : List Member)
    (roles : List Str) (db db' : Database) : Prop where
  rebuilt : ∀ role ∈ roles, ∀ stored,
    roleTable.find db tenantDomain (rolePrefix ++ role) = some stored →
    ∃ stored', roleTable.find db' tenantDomain (rolePrefix ++ role) = some stored' ∧
      Rebuilt members stored stored'
  grown : ∀ role ∈ roles, Grown (tenancyPolicyName (rolePrefix ++ role)) (rolePrefix ++ role)
    (tenancyAssertion rolePrefix trustedRolePrefix role tenantDomain)
    (db.policyRow tenantDomain (tenancyPolicyName (rolePrefix ++ role)) none)
    (db'.policyRow tenantDomain (tenancyPolicyName (rolePrefix ++ role)) none)
  otherRoles : ∀ role, role ∉ roles → roleTable.find db' tenantDomain (rolePrefix ++ role) =
    roleTable.find db tenantDomain (rolePrefix ++ role)
  otherPolicies : ∀ role, role ∉ roles →
    db'.policyRow tenantDomain (tenancyPolicyName (rolePrefix ++ role)) none =
      db.policyRow tenantDomain (tenancyPolicyName (rolePrefix ++ role)) none

variable {tenantDomain rolePrefix trustedRolePrefix : Str} {members : List Member}
  {roles roles' : List Str}

theorem Provisioned.refl (db : Database) :
    Provisioned tenantDomain rolePrefix trustedRolePrefix members [] db db where
  rebuilt _ h := nomatch h
  grown _ h := nomatch h
  otherRoles _ _ := rfl
  otherPolicies _ _ := rfl

theorem Provisioned.trans
    (h : Provisioned tenantDomain rolePrefix trustedRolePrefix members roles db db')
    (h' : Provisioned tenantDomain rolePrefix trustedRolePrefix members roles' db' db'') :
    Provisioned tenantDomain rolePrefix trustedRolePrefix members (roles ++ roles') db db'' where
  rebuilt role hmem stored hstored := by
    by_cases hfirst : role ∈ roles
    · obtain ⟨stored', hstored', hrebuilt⟩ := h.rebuilt role hfirst stored hstored
      by_cases hsecond : role ∈ roles'
      · obtain ⟨stored'', hstored'', hrebuilt'⟩ := h'.rebuilt role hsecond stored' hstored'
        exact ⟨stored'', hstored'', hrebuilt.trans hrebuilt'⟩
      · exact ⟨stored', (h'.otherRoles role hsecond).trans hstored', hrebuilt⟩
    · have hsecond := (List.mem_append.1 hmem).resolve_left hfirst
      exact h'.rebuilt role hsecond stored ((h.otherRoles role hfirst).trans hstored)
  grown role hmem := by
    by_cases hfirst : role ∈ roles
    · by_cases hsecond : role ∈ roles'
      · exact (h.grown role hfirst).trans (h'.grown role hsecond)
      · rw [h'.otherPolicies role hsecond]
        exact h.grown role hfirst
    · have hsecond := (List.mem_append.1 hmem).resolve_left hfirst
      rw [← h.otherPolicies role hfirst]
      exact h'.grown role hsecond
  otherRoles role hnot := by
    rw [List.mem_append, not_or] at hnot
    rw [h'.otherRoles role hnot.2, h.otherRoles role hnot.1]
  otherPolicies role hnot := by
    rw [List.mem_append, not_or] at hnot
    rw [h'.otherPolicies role hnot.2, h.otherPolicies role hnot.1]

theorem Provisioned.congr (hroles : ∀ role, role ∈ roles ↔ role ∈ roles')
    (h : Provisioned tenantDomain rolePrefix trustedRolePrefix members roles db db') :
    Provisioned tenantDomain rolePrefix trustedRolePrefix members roles' db db' where
  rebuilt role hmem := h.rebuilt role ((hroles role).2 hmem)
  grown role hmem := h.grown role ((hroles role).2 hmem)
  otherRoles role hnot := h.otherRoles role fun hmem => hnot ((hroles role).1 hmem)
  otherPolicies role hnot := h.otherPolicies role fun hmem => hnot ((hroles role).1 hmem)

theorem addAssumeRolePolicy_provisions (config : Config) (ctx : Context)
    (rolePrefix trustedRolePrefix role : Str) (members : List Member) (tenantDomain : Str) :
    Tx.Returns (addAssumeRolePolicy config ctx rolePrefix trustedRolePrefix role members tenantDomain)
      fun db _ db' =>
        Provisioned tenantDomain rolePrefix trustedRolePrefix members [role] db db' := by
  intro c a c' h
  obtain ⟨hrebuilt, hgrown⟩ := addAssumeRolePolicy_returns config ctx rolePrefix trustedRolePrefix
    role members tenantDomain c a c' h
  constructor
  · intro other hmem
    rw [List.mem_singleton.1 hmem]
    exact hrebuilt
  · intro other hmem
    rw [List.mem_singleton.1 hmem]
    exact hgrown
  · intro other hnot
    have hne : rolePrefix ++ other ≠ rolePrefix ++ role := fun heq =>
      hnot (List.mem_singleton.2 (List.append_cancel_left heq))
    have hleft := addAssumeRolePolicy_leaves (roleTable.hidden_find tenantDomain hne)
      (policyHidden_find _ _ _) config ctx trustedRolePrefix members c a c' h
    exact hleft
  · intro other hnot
    have hne : tenancyPolicyName (rolePrefix ++ other) ≠ tenancyPolicyName (rolePrefix ++ role) :=
      fun heq => hnot (List.mem_singleton.2 (List.append_cancel_left (List.append_cancel_left heq)))
    have hleft := addAssumeRolePolicy_leaves (roleTable_hidden_policyRow _ _ _)
      (policyHidden_policyRow tenantDomain hne) config ctx trustedRolePrefix members c a c' h
    exact hleft

theorem forEach_provisions (config : Config) (ctx : Context) (rolePrefix trustedRolePrefix : Str)
    (members : List Member) (tenantDomain : Str) (roles : List Str) :
    Tx.Returns (forEach (fun role => addAssumeRolePolicy config ctx rolePrefix trustedRolePrefix
      (toLowerCase role) members tenantDomain) roles) fun db _ db' =>
        Provisioned tenantDomain rolePrefix trustedRolePrefix members (roles.map toLowerCase) db db' := by
  induction roles with
  | nil =>
    refine (Tx.Returns.pure ()).mono fun db _ db' h => ?_
    rw [h.2]
    exact .refl db
  | cons role roles ih =>
    refine (Tx.Returns.bind (addAssumeRolePolicy_provisions config ctx rolePrefix trustedRolePrefix
      (toLowerCase role) members tenantDomain) fun _ => ih).mono ?_
    rintro db _ db'' ⟨_, db', hfirst, hrest⟩
    exact hfirst.trans hrest

end Runs

section Preservation

/-- An assertion as it was asked for. -/
def PolicyRow.grants (policy : PolicyRow) (roleName : Str) (assertion : Assertion) : Bool :=
  policy.assertions.any fun a => a.role = roleName && a.resource = assertion.resource &&
    a.action = assertion.action && a.effect = assertion.effect.getD .ALLOW

theorem grants_added (policy : PolicyRow) (roleName : Str) (assertion : Assertion) (id : Nat) :
    (policy.added roleName assertion id).grants roleName assertion = true := by
  refine List.any_eq_true.2 ⟨assertion.row roleName id, List.mem_append_right _
    (List.mem_singleton_self _), ?_⟩
  unfold Assertion.row
  simp only [Bool.and_self, decide_true]

/-- A policy that keeps its assertions and has another one. -/
def Extended (roleName : Str) (assertion : Assertion) (before after : Option PolicyRow) : Prop :=
  ∃ policy, after = some policy ∧ policy.grants roleName assertion = true ∧
    ∀ old, before = some old → ∀ a ∈ old.assertions, a ∈ policy.assertions

theorem Grown.extended_iff [Collation] (h : Grown policyName roleName assertion before after) :
    Extended roleName assertion before after ↔
      ∀ policy, before = some policy → policy.blocks roleName assertion = true →
        policy.grants roleName assertion = true := by
  obtain ⟨id, rfl⟩ := h
  cases before with
  | none =>
    refine iff_of_true ⟨_, rfl, grants_added _ _ _ _, fun _ hold => nomatch hold⟩ ?_
    exact fun _ hsome => nomatch hsome
  | some policy =>
    dsimp only
    constructor
    · rintro ⟨_, hafter, hgrants, _⟩ found hfound hblocks
      cases hfound
      rw [if_pos hblocks] at hafter
      cases hafter
      exact hgrants
    · intro hgrants
      split
      · rename_i hblocks
        exact ⟨policy, rfl, hgrants policy rfl hblocks, fun _ hold _ ha => by cases hold; exact ha⟩
      · refine ⟨_, rfl, grants_added _ _ _ _, fun _ hold a ha => ?_⟩
        cases hold
        exact List.mem_append_left _ ha

variable [CaseRules]

/-- A role that keeps what it has; only new members may have joined. -/
structure RolePreserved (members : List Member) (stored stored' : Collection RoleSettings) : Prop where
  settings : stored'.settings = stored.settings
  tags : stored'.tags = stored.tags
  members : Kept members stored stored'

theorem Rebuilt.preserved_iff (h : Rebuilt others stored stored') :
    RolePreserved others stored stored' ↔ stored.settings.reset = stored.settings := by
  constructor
  · intro hkept
    exact h.settings.symm.trans hkept.settings
  · intro hreset
    have htrust : stored.settings.trust.1 = [] := by rw [← hreset]; rfl
    exact ⟨h.settings.trans hreset, h.tags, h.members htrust⟩

variable [Collation]

/-- What provisioning has to keep of the roles of a request that are there. -/
def RolesKept (tenantDomain rolePrefix trustedRolePrefix : Str) (members : List Member)
    (roles : List Str) (db db' : Database) : Prop :=
  ∀ role ∈ roles, ∀ stored, roleTable.find db tenantDomain (rolePrefix ++ role) = some stored →
    (∃ stored', roleTable.find db' tenantDomain (rolePrefix ++ role) = some stored' ∧
      RolePreserved members stored stored') ∧
    Extended (rolePrefix ++ role) (tenancyAssertion rolePrefix trustedRolePrefix role tenantDomain)
      (db.policyRow tenantDomain (tenancyPolicyName (rolePrefix ++ role)) none)
      (db'.policyRow tenantDomain (tenancyPolicyName (rolePrefix ++ role)) none)

/-- The roles of a request that are there have no settings but the audit flag, and their policies
have no assertion that the store takes for another one. -/
def Replaceable (tenantDomain rolePrefix trustedRolePrefix : Str) (roles : List Str)
    (db : Database) : Prop :=
  ∀ role ∈ roles, ∀ stored, roleTable.find db tenantDomain (rolePrefix ++ role) = some stored →
    stored.settings.reset = stored.settings ∧
    ∀ policy, db.policyRow tenantDomain (tenancyPolicyName (rolePrefix ++ role)) none = some policy →
      policy.blocks (rolePrefix ++ role)
        (tenancyAssertion rolePrefix trustedRolePrefix role tenantDomain) = true →
      policy.grants (rolePrefix ++ role)
        (tenancyAssertion rolePrefix trustedRolePrefix role tenantDomain) = true

theorem Provisioned.kept_iff {others : List Member}
    (h : Provisioned tenantDomain rolePrefix trustedRolePrefix others roles db db') :
    RolesKept tenantDomain rolePrefix trustedRolePrefix others roles db db' ↔
      Replaceable tenantDomain rolePrefix trustedRolePrefix roles db := by
  refine forall_congr' fun role => forall_congr' fun hmem => forall_congr' fun stored =>
    forall_congr' fun hstored => and_congr ?_ (h.grown role hmem).extended_iff
  obtain ⟨stored', hstored', hrebuilt⟩ := h.rebuilt role hmem stored hstored
  rw [← hrebuilt.preserved_iff]
  constructor
  · rintro ⟨found, hfound, hkept⟩
    cases hfound.symm.trans hstored'
    exact hkept
  · exact fun hkept => ⟨stored', hstored', hkept⟩

end Preservation

section Executions

variable [Collation] [CaseRules]

theorem addAssumeRolePolicy_writing (config : Config) (ctx : Context)
    (rolePrefix trustedRolePrefix role : Str) (members : List Member) (tenantDomain : Str) :
    Tx.Writing (addAssumeRolePolicy config ctx rolePrefix trustedRolePrefix role members
      tenantDomain) := by
  unfold addAssumeRolePolicy
  refine (Tx.Writing.query _).bind fun original => (processRole_writing _ _ _ _ _ _ _).bind fun _ =>
    (Tx.Writing.ensure _ _).bind fun _ => Tx.Writing.query_bind fun db =>
    (processPolicy_writing (fun _ => .inl rfl) ?_ _ _ _).bind fun _ => .ensure _ _
  intro policy hpolicy
  obtain ⟨row, _, rfl⟩ := Option.map_eq_some_iff.1 hpolicy
  exact savePolicy_stored _ _

theorem putProviderRolesBody_whole (config : Config) (ctx : Context) (tenantDomain provSvcDomain
    provSvcName : Str) (resourceGroup : Option Str) (roles : List Str)
    (skipPrincipalMember : Option Bool) :
    Tx.Whole (putProviderRolesBody config ctx tenantDomain provSvcDomain provSvcName resourceGroup
      roles skipPrincipalMember) :=
  (checkDomainAuditEnabled_reading _ _ _ _).whole_bind fun _ =>
    (forEach_writing (fun _ => addAssumeRolePolicy_writing _ _ _ _ _ _ _) roles).whole

theorem putProviderRolesBody_returns (config : Config) (ctx : Context) (tenantDomain provSvcDomain
    provSvcName : Str) (resourceGroup : Option Str) (roles : List Str)
    (skipPrincipalMember : Option Bool) :
    Tx.Returns (putProviderRolesBody config ctx tenantDomain provSvcDomain provSvcName resourceGroup
      roles skipPrincipalMember) fun db _ db' => Provisioned tenantDomain
        (getProviderResourceGroupRolePrefix provSvcDomain provSvcName resourceGroup)
        (getTrustedResourceGroupRolePrefix provSvcDomain provSvcName tenantDomain resourceGroup)
        (principalMembers ctx skipPrincipalMember) (roles.map toLowerCase) db db' :=
  (checkDomainAuditEnabled_reading _ _ _ _).returns_bind fun _ => forEach_provisions _ _ _ _ _ _ _

theorem Provisioned.stamp {others : List Member}
    (h : Provisioned tenantDomain rolePrefix trustedRolePrefix others roles db db')
    (domainName : Str) (time : Int) :
    Provisioned tenantDomain rolePrefix trustedRolePrefix others roles db
      (stampDomain domainName time db') := by
  have hroles := Table.find_stampDomain roleTable_timeless domainName time db' tenantDomain
  have hpolicies := fun name =>
    policyRow_stampDomain domainName time db' tenantDomain name none
  constructor
  · intro role hmem stored hstored
    rw [hroles]
    exact h.rebuilt role hmem stored hstored
  · intro role hmem
    rw [hpolicies]
    exact h.grown role hmem
  · intro role hnot
    rw [hroles]
    exact h.otherRoles role hnot
  · intro role hnot
    rw [hpolicies]
    exact h.otherPolicies role hnot

/-- A request that succeeds has provisioned its roles, however often it was tried. -/
theorem executePutProviderRoles_provisions {config : Config} {ctx : Context}
    {resourceGroup : Option Str} {skipPrincipalMember : Option Bool} {events : Nat → Event Failure}
    (h : executePutProviderRoles config ctx tenantDomain provSvcDomain provSvcName resourceGroup
      roles skipPrincipalMember db events = (.ok (), db')) :
    Provisioned tenantDomain
      (getProviderResourceGroupRolePrefix provSvcDomain provSvcName resourceGroup)
      (getTrustedResourceGroupRolePrefix provSvcDomain provSvcName tenantDomain resourceGroup)
      (principalMembers ctx skipPrincipalMember) (roles.map toLowerCase) db db' := by
  have hbody := putProviderRolesBody_returns config ctx tenantDomain provSvcDomain provSvcName
    resourceGroup roles skipPrincipalMember
  refine Tx.attempts_saved_reaches
    (putProviderRolesBody_whole config ctx tenantDomain provSvcDomain provSvcName resourceGroup roles
      skipPrincipalMember).atomic
    (I := fun found => ∃ tried, (∀ role ∈ tried, role ∈ roles.map toLowerCase) ∧
      Provisioned tenantDomain
        (getProviderResourceGroupRolePrefix provSvcDomain provSvcName resourceGroup)
        (getTrustedResourceGroupRolePrefix provSvcDomain provSvcName tenantDomain resourceGroup)
        (principalMembers ctx skipPrincipalMember) tried db found)
    ?_ ?_ ?_ ?_ ⟨[], List.forall_mem_nil _, .refl db⟩ h
  · refine hbody.mono ?_
    rintro found _ found' hround ⟨tried, htried, hfound⟩
    refine ⟨tried ++ roles.map toLowerCase, fun role hmem => ?_, hfound.trans hround⟩
    exact (List.mem_append.1 hmem).elim (htried role) id
  · rintro time found ⟨tried, htried, hfound⟩
    exact ⟨tried, htried, hfound.stamp tenantDomain time⟩
  · refine hbody.mono ?_
    rintro found _ found' hround ⟨tried, htried, hfound⟩
    refine (hfound.trans hround).congr fun role => ?_
    rw [List.mem_append]
    exact or_iff_right_of_imp (htried role)
  · exact fun time found hfound => hfound.stamp tenantDomain time

/-- The roles of a request are kept exactly when they have no settings that the request would take
away, and no assertion stands in for the one to add. -/
theorem executePutProviderRoles_keeps_iff {config : Config} {ctx : Context}
    {resourceGroup : Option Str} {skipPrincipalMember : Option Bool} {events : Nat → Event Failure}
    (h : executePutProviderRoles config ctx tenantDomain provSvcDomain provSvcName resourceGroup
      roles skipPrincipalMember db events = (.ok (), db')) :
    RolesKept tenantDomain
        (getProviderResourceGroupRolePrefix provSvcDomain provSvcName resourceGroup)
        (getTrustedResourceGroupRolePrefix provSvcDomain provSvcName tenantDomain resourceGroup)
        (principalMembers ctx skipPrincipalMember) (roles.map toLowerCase) db db' ↔
      Replaceable tenantDomain
        (getProviderResourceGroupRolePrefix provSvcDomain provSvcName resourceGroup)
        (getTrustedResourceGroupRolePrefix provSvcDomain provSvcName tenantDomain resourceGroup)
        (roles.map toLowerCase) db :=
  (executePutProviderRoles_provisions h).kept_iff

end Executions

section Example

local instance provisioningCollation : Collation := .binary

local instance provisioningCaseRules : CaseRules := .ascii

def provisioningCaller : Context where
  caller := "putproviderresourcegrouproles"
  principal := some "user.jane"

def provisioningEvents (n : Nat) : Event Failure := ⟨n, none⟩

/-- A role of a user that expires after some days. -/
def provisionedRole (memberExpiryDays : Int) : Collection RoleSettings where
  settings := Role.settings { name := [], memberExpiryDays := memberExpiryDays }
  members := (∅ : Map Str MemberRow).insert "user.joe"
    { expiration := some 5000, reviewReminder := none, active := true }

def provisionedStore (memberExpiryDays : Int) : Database where
  domains :=
    let users : Map Str DomainRow := (∅ : Map Str DomainRow).insert "user"
      { settings := Domain.settings { name := "user" }, modified := 0 }
    users.insert "media"
      { settings := Domain.settings { name := "media" }
        modified := 0
        roles := (∅ : Map Str (Collection RoleSettings)).insert "sports.api.reader"
          (provisionedRole memberExpiryDays) }

def provisioningRun (memberExpiryDays : Int) : Except Failure Unit × Database :=
  executePutProviderRoles {} provisioningCaller "media" "sports" "api" none ["reader"] none
    (provisionedStore memberExpiryDays) provisioningEvents

theorem executePutProviderRoles_keeps_reader :
    RolesKept "media" "sports.api." "sports:role.api.tenant.media." [{ memberName := "user.jane" }]
        ["reader"] (provisionedStore 0) (provisioningRun 0).2 ↔
      Replaceable "media" "sports.api." "sports:role.api.tenant.media." ["reader"]
        (provisionedStore 0) :=
  have hok : (provisioningRun 0).1 = .ok () := by decide +kernel
  have hrun : provisioningRun 0 = (.ok (), (provisioningRun 0).2) := by rw [← hok]
  executePutProviderRoles_keeps_iff hrun

/-- A role that its members leave after thirty days keeps them for good once it is asked for. -/
theorem expiringRole_not_kept : (provisioningRun 30).1 = .ok () ∧
    ¬ RolesKept "media" "sports.api." "sports:role.api.tenant.media." [{ memberName := "user.jane" }]
      ["reader"] (provisionedStore 30) (provisioningRun 30).2 := by
  refine ⟨by decide +kernel, fun h => ?_⟩
  have hstored : (roleTable.find (provisionedStore 30) "media" "sports.api.reader").any (fun stored =>
      (roleTable.find (provisioningRun 30).2 "media" "sports.api.reader").all fun stored' =>
        decide (stored'.settings.memberExpiryDays ≠ stored.settings.memberExpiryDays)) = true := by
    decide +kernel
  obtain ⟨stored, hstored, hchanged⟩ := (Option.any_eq_true _ _).1 hstored
  obtain ⟨stored', hstored', hkept⟩ := (h "reader" List.mem_cons_self stored hstored).1
  have hfound : roleTable.find (provisioningRun 30).2 "media" "sports.api.reader" = some stored' :=
    hstored'
  rw [hfound, Option.all_some, decide_eq_true_eq] at hchanged
  exact hchanged (congrArg RoleSettings.memberExpiryDays hkept.settings)

end Example

end Athenz.ZmsServer
