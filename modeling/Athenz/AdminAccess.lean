import Athenz.DbServiceReview
import Athenz.Lib.Result
import Athenz.RowChanges

namespace Athenz.ZmsServer
open Lib Lib.Text Lib.Transaction Lib.Transaction.Tx
set_option autoImplicit true

section Rows

/-- A domain is stored, with a property of its row. -/
def RowHolds (domainName : Str) (P : DomainRow → Prop) (db : Database) : Prop :=
  ∃ row, db.domains.lookup domainName = some row ∧ P row

variable {P : DomainRow → Prop}

theorem RowHolds.insert (h : RowHolds domainName P db) (nextAssertionId : Nat)
    (hrow : otherDomain = domainName → P row) :
    RowHolds domainName P ⟨db.domains.insert otherDomain row, nextAssertionId⟩ := by
  unfold RowHolds
  rw [Map.lookup_insert]
  split
  · rename_i hsame
    exact ⟨row, rfl, hrow hsame.symm⟩
  · exact h

/-- A statement about the row of a domain. -/
theorem onDomain_rowHolds {f : DomainRow → Except Failure (α × DomainRow)}
    (h : ∀ row a row', f row = .ok (a, row') → P row → P row') :
    Preserves (RowHolds domainName P) (onDomain otherDomain f) := by
  refine onDomain_preserves fun db row a row' hrow hf hdb => ?_
  refine hdb.insert db.nextAssertionId ?_
  rintro rfl
  obtain ⟨found, hfound, hP⟩ := hdb
  rw [hrow, Option.some.injEq] at hfound
  exact h row a row' hf (hfound ▸ hP)

/-- A property that is not about the time of the domain. -/
def Undated (P : DomainRow → Prop) : Prop := ∀ row time, P row → P { row with modified := time }

theorem RowHolds.stamp (hP : Undated P) (h : RowHolds domainName P db) (time : Int) :
    RowHolds domainName P (stampDomain otherDomain time db) := by
  obtain ⟨row, hrow, hholds⟩ := h
  unfold RowHolds
  rw [lookup_stampDomain, hrow]
  refine ⟨_, rfl, ?_⟩
  split
  · exact hP row time hholds
  · exact hholds

/-- The change of a role within the row of its domain. -/
theorem RowHolds.admits {R : Collection RoleSettings → Collection RoleSettings → Prop}
    (h : ∀ row stored stored', row.roles.lookup name = some stored → R stored stored' → P row →
      P { row with roles := row.roles.insert name stored' }) :
    roleTable.Admits (RowHolds domainName P) otherDomain name R := by
  intro db stored stored' hstored hR hdb
  obtain ⟨row, hrow, hrole⟩ := Option.bind_eq_some_iff.1 hstored
  rw [Table.focus_put hrow]
  refine hdb.insert db.nextAssertionId ?_
  rintro rfl
  obtain ⟨found, hfound, hP⟩ := hdb
  rw [hrow, Option.some.injEq] at hfound
  exact h row stored stored' hrole hR (hfound ▸ hP)

theorem RowHolds.admitsNew {settings : RoleSettings}
    (h : ∀ row, row.roles.lookup name = none → P row →
      P { row with roles := row.roles.insert name { settings := settings } }) :
    roleTable.AdmitsNew (RowHolds domainName P) otherDomain name settings := by
  intro db row hrow hnone hdb
  rw [Table.focus_put hrow]
  refine hdb.insert db.nextAssertionId ?_
  rintro rfl
  obtain ⟨found, hfound, hP⟩ := hdb
  rw [Table.find, hrow, Option.bind_some] at hnone
  rw [hrow, Option.some.injEq] at hfound
  exact h row hnone (hfound ▸ hP)

end Rows

section Policies

def ADMIN_ROLE_NAME : Str := "admin"

def ADMIN_POLICY_NAME : Str := "admin"

/-- The assertion that gives the admin role every right. -/
def Grants (domainName : Str) (assertion : AssertionRow) : Prop :=
  assertion.role = ADMIN_ROLE_NAME ∧ assertion.resource = domainName ++ ":*".toList ∧
    assertion.action = "*" ∧ assertion.effect = .ALLOW

/-- The versions of the admin policy. -/
def adminPolicies (policies : List PolicyRow) : List PolicyRow :=
  policies.filter (·.name = ADMIN_POLICY_NAME)

theorem filter_set_of_not {l : List α} {p : α → Bool} (ha : l[i]? = some a) (hpa : p a = false)
    (hpb : p b = false) : (l.set i b).filter p = l.filter p := by
  induction l generalizing i with
  | nil => rfl
  | cons c l ih =>
    cases i with
    | zero =>
      cases ha
      rw [List.set_cons_zero, List.filter_cons_of_neg (by rw [hpb]; exact Bool.false_ne_true),
        List.filter_cons_of_neg (by rw [hpa]; exact Bool.false_ne_true)]
    | succ i =>
      rw [List.set_cons_succ, List.filter_cons, List.filter_cons, ih ha]

variable [Collation]

/-- The active admin policy gives the admin role every right. -/
def AdminPolicy (domainName : Str) (policies : List PolicyRow) : Prop :=
  ∃ policy, policies.find? (PolicyRow.isVersion ADMIN_POLICY_NAME none) = some policy ∧
    ∃ assertion ∈ policy.assertions, Grants domainName assertion

theorem find?_admin (policies : List PolicyRow) :
    policies.find? (PolicyRow.isVersion ADMIN_POLICY_NAME none) =
      (adminPolicies policies).find? (PolicyRow.isVersion ADMIN_POLICY_NAME none) := by
  rw [adminPolicies, List.find?_filter]
  congr 1
  funext policy
  rw [Bool.eq_iff_iff, decide_eq_true_eq, isVersion_none, decide_eq_true_eq]
  exact ⟨fun h => ⟨h.1, h⟩, fun h => h.2⟩

/-- The policies of other names do not matter. -/
theorem AdminPolicy.congr (h : AdminPolicy domainName policies)
    (hsame : adminPolicies policies' = adminPolicies policies) :
    AdminPolicy domainName policies' := by
  unfold AdminPolicy at h ⊢
  rw [find?_admin, hsame, ← find?_admin]
  exact h

/-- The change of a policy that keeps its name. -/
def SameName (f : PolicyRow → Except Failure (α × PolicyRow)) : Prop :=
  ∀ policy a policy', f policy = .ok (a, policy') → policy'.name = policy.name

theorem changePolicy_admin {f : PolicyRow → Except Failure (α × PolicyRow)} (hf : SameName f)
    (hname : policyName ≠ ADMIN_POLICY_NAME)
    (h : changePolicy domainName policyName version f row = .ok (a, row')) :
    row' = { row with policies := row'.policies } ∧
      adminPolicies row'.policies = adminPolicies row.policies := by
  obtain ⟨i, policy, policy', hi, hpolicy, hrun, rfl⟩ := changePolicy_eq_ok.1 h
  obtain ⟨found, hfound, hversion, _⟩ := findIdx?_find? hi
  cases hfound.symm.trans hpolicy
  rw [PolicyRow.isVersion, Bool.and_eq_true, decide_eq_true_eq] at hversion
  refine ⟨rfl, filter_set_of_not hpolicy ?_ ?_⟩
  · rw [hversion.1]
    exact decide_eq_false hname
  · rw [hf policy a policy' hrun, hversion.1]
    exact decide_eq_false hname

/-- What the admin role and the admin policy of a domain are to have, with a property of the role. -/
structure AdminRow (domainName : Str) (I : Collection RoleSettings → Prop) (row : DomainRow) :
    Prop where
  role : ∃ stored, row.roles.lookup ADMIN_ROLE_NAME = some stored ∧ I stored
  policy : AdminPolicy domainName row.policies

variable {I : Collection RoleSettings → Prop}

theorem AdminRow.of_policies {policies : List PolicyRow} (h : AdminRow domainName I row)
    (hrow : row' = { row with policies := policies })
    (hsame : adminPolicies policies = adminPolicies row.policies) : AdminRow domainName I row' := by
  rw [hrow]
  exact ⟨h.role, h.policy.congr hsame⟩

theorem adminRow_undated : Undated (AdminRow domainName I) := fun _ _ h => ⟨h.role, h.policy⟩

end Policies

section Statements

theorem objectName_preserves {K : Database → Prop} (domainName fullName separator : Str) :
    Preserves K (objectName domainName fullName separator) := by
  unfold objectName
  split
  · exact .abort _
  · exact .pure _

/-- The name of a policy in its domain. -/
theorem policyName_bind {policy : Policy} {f : Str → Op α}
    (hpolicy : policy.name = policyResourceName domainName policyName) :
    objectName domainName policy.name ":policy." >>= f = f policyName := by
  rw [hpolicy, policyResourceName, objectName_append]
  rfl

variable [Collation] {I : Collection RoleSettings → Prop}

/-- The admin role and policy of a domain. -/
abbrev AdminHolds (domainName : Str) (I : Collection RoleSettings → Prop) : Database → Prop :=
  RowHolds domainName (AdminRow domainName I)

theorem changePolicy_adminHolds {f : PolicyRow → Except Failure (α × PolicyRow)} (hf : SameName f)
    (hname : policyName ≠ ADMIN_POLICY_NAME) (version : Option Str) :
    Preserves (AdminHolds domainName I)
      (onDomain otherDomain (changePolicy otherDomain policyName version f)) := by
  apply onDomain_rowHolds
  intro row a row' hrun hrow
  obtain ⟨hrow', hsame⟩ := changePolicy_admin hf hname hrun
  exact hrow.of_policies hrow' hsame

/-- A statement about the policies of a domain that leaves those of the admin. -/
theorem onPolicies_adminHolds {f : List PolicyRow → α × List PolicyRow}
    (h : ∀ policies, adminPolicies (f policies).2 = adminPolicies policies) :
    Preserves (AdminHolds domainName I)
      (onDomain otherDomain fun row => .ok ((f row.policies).1,
        { row with policies := (f row.policies).2 })) := by
  apply onDomain_rowHolds
  rintro row a row' hrun hrow
  cases hrun
  exact hrow.of_policies rfl (h row.policies)

theorem insertPolicyRow_adminHolds (hname : policyName ≠ ADMIN_POLICY_NAME) (version : Str)
    (active : Bool) :
    Preserves (AdminHolds domainName I) (insertPolicyRow otherDomain policyName version active) := by
  apply onDomain_rowHolds
  intro row a row' hrun hrow
  split at hrun
  · cases hrun
  · cases hrun
    refine hrow.of_policies rfl ?_
    rw [adminPolicies, List.filter_append, List.filter_cons_of_neg, List.filter_nil, List.append_nil]
    · rfl
    · rw [decide_eq_true_eq]
      exact hname

theorem insertPolicy_adminHolds {policy : Policy}
    (hpolicy : policy.name = policyResourceName otherDomain policyName)
    (hname : policyName ≠ ADMIN_POLICY_NAME) :
    Preserves (AdminHolds domainName I) (insertPolicy otherDomain policy) := by
  unfold insertPolicy
  rw [policyName_bind hpolicy]
  refine .ite (fun _ => insertPolicyRow_adminHolds hname _ true) fun _ => ?_
  cases policy.active with
  | none => exact ((readDomain_reading _ _).preserves _).bind fun _ => .raise _
  | some active => exact insertPolicyRow_adminHolds hname _ active

theorem updatePolicy_adminHolds {policy : Policy}
    (hpolicy : policy.name = policyResourceName otherDomain policyName)
    (hname : policyName ≠ ADMIN_POLICY_NAME) :
    Preserves (AdminHolds domainName I) (updatePolicy otherDomain policy) := by
  unfold updatePolicy
  rw [policyName_bind hpolicy]
  refine changePolicy_adminHolds ?_ hname policy.version
  rintro p a p' h
  cases h
  rfl

theorem updatePolicyModTimestamp_adminHolds (hname : policyName ≠ ADMIN_POLICY_NAME)
    (version : Option Str) :
    Preserves (AdminHolds domainName I)
      (updatePolicyModTimestamp otherDomain policyName version) := by
  refine changePolicy_adminHolds ?_ hname version
  rintro p a p' h
  cases h
  rfl

theorem deleteAssertion_adminHolds (hname : policyName ≠ ADMIN_POLICY_NAME) (version : Option Str)
    (assertionId : Nat) :
    Preserves (AdminHolds domainName I)
      (deleteAssertion otherDomain policyName version assertionId) := by
  refine changePolicy_adminHolds ?_ hname version
  rintro p a p' h
  cases h
  rfl

theorem insertAssertion_adminHolds (hname : policyName ≠ ADMIN_POLICY_NAME) (version : Option Str)
    (assertion : Assertion) :
    Preserves (AdminHolds domainName I)
      (insertAssertion otherDomain policyName version assertion) := by
  refine (objectName_preserves _ _ _).bind fun roleName => .statement fun time db added db' hdb hrun => ?_
  split at hrun
  · cases hrun
  · rename_i row hrow
    obtain ⟨⟨added', row'⟩, hchange, hrun⟩ := Result.bind_eq_ok.1 hrun
    cases hrun
    refine hdb.insert _ ?_
    rintro rfl
    obtain ⟨found, hfound, hholds⟩ := hdb
    cases hrow.symm.trans hfound
    have hsame : SameName fun p : PolicyRow =>
        if p.assertions.any fun a => sameText a.role roleName &&
            sameText a.resource assertion.resource && sameText a.action assertion.action &&
            a.effect = assertion.effect.getD .ALLOW then (.ok (none, p) : Except Failure _)
        else .ok (some db.nextAssertionId, { p with
          assertions := p.assertions ++ [⟨db.nextAssertionId, roleName, assertion.resource,
            assertion.action, assertion.effect.getD .ALLOW, []⟩] }) := by
      intro p a p' h
      dsimp only at h
      split at h
      · cases h
        rfl
      · cases h
        rfl
    obtain ⟨hrow', hadmin⟩ := changePolicy_admin hsame hname hchange
    exact hholds.of_policies hrow' hadmin

theorem setActivePolicyVersion_adminHolds (hname : policyName ≠ ADMIN_POLICY_NAME) (version : Str) :
    Preserves (AdminHolds domainName I)
      (setActivePolicyVersion otherDomain policyName version) := by
  refine (onPolicies_adminHolds (f := fun policies => (policies.any (·.name = policyName),
    policies.map fun p =>
      if p.name = policyName then { p with active := sameText p.version version } else p))
    (fun policies => ?_) :)
  dsimp only
  induction policies with
  | nil => rfl
  | cons p policies ih =>
    unfold adminPolicies at ih ⊢
    rw [List.map_cons, List.filter_cons, List.filter_cons, ih]
    by_cases hp : p.name = policyName
    · have hnot : ¬ p.name = ADMIN_POLICY_NAME := fun h => hname (hp.symm.trans h)
      rw [if_pos hp, if_neg, if_neg]
      · rw [decide_eq_true_eq]
        exact hnot
      · rw [decide_eq_true_eq]
        exact hnot
    · rw [if_neg hp]

theorem deletePolicy_adminHolds (hname : policyName ≠ ADMIN_POLICY_NAME) :
    Preserves (AdminHolds domainName I) (deletePolicy otherDomain policyName) := by
  refine onPolicies_adminHolds (f := fun policies => (policies.any (·.name = policyName),
    policies.filter (·.name ≠ policyName))) fun policies => ?_
  dsimp only
  unfold adminPolicies
  rw [List.filter_filter]
  refine List.filter_congr fun p _ => ?_
  rw [Bool.eq_iff_iff, Bool.and_eq_true, decide_eq_true_eq, decide_eq_true_eq]
  exact ⟨fun h => h.1, fun h => ⟨h, fun hp => hname (hp.symm.trans h)⟩⟩

theorem deletePolicyVersion_adminHolds (hname : policyName ≠ ADMIN_POLICY_NAME) (version : Str) :
    Preserves (AdminHolds domainName I) (deletePolicyVersion otherDomain policyName version) := by
  refine onPolicies_adminHolds (f := fun policies => (policies.any fun p =>
      p.name = policyName && sameText p.version version && !p.active,
    policies.filter fun p => !(p.name = policyName && sameText p.version version && !p.active)))
    fun policies => ?_
  dsimp only
  unfold adminPolicies
  rw [List.filter_filter]
  refine List.filter_congr fun p _ => ?_
  by_cases hp : p.name = ADMIN_POLICY_NAME
  · have hnot : ¬ p.name = policyName := fun h => hname (h.symm.trans hp)
    rw [decide_eq_false hnot, decide_eq_true hp]
    rfl
  · rw [decide_eq_false hp]
    rfl

end Statements

section Conditions

theorem find?_map_of_eq {l : List α} {p : α → Bool} {f : α → α} (h : ∀ a, p (f a) = p a) :
    (l.map f).find? p = (l.find? p).map f := by
  rw [List.find?_map]
  congr 2
  funext a
  exact h a

theorem lookup_setConditions {db : Database} (h : db.domains.lookup domainName = some row) :
    (db.setConditions assertionId rows).domains.lookup domainName = some { row with
      policies := row.policies.map fun p => { p with
        assertions := p.assertions.map (·.setConditions assertionId rows) } } := by
  unfold Database.setConditions
  rw [Map.lookup_mapValues, h]
  rfl

variable [Collation] {I : Collection RoleSettings → Prop}

/-- The conditions of assertions have no part in the rights. -/
theorem AdminHolds.setConditions (h : AdminHolds domainName I db) (assertionId : Nat)
    (rows : List ConditionRow) : AdminHolds domainName I (db.setConditions assertionId rows) := by
  obtain ⟨row, hrow, hrole, policy, hpolicy, assertion, hmem, hgrants⟩ := h
  refine ⟨_, lookup_setConditions hrow, hrole, { policy with
    assertions := policy.assertions.map (·.setConditions assertionId rows) }, ?_,
    assertion.setConditions assertionId rows, List.mem_map_of_mem hmem, ?_⟩
  · dsimp only
    rw [find?_map_of_eq, hpolicy, Option.map_some]
    exact fun _ => rfl
  · unfold AssertionRow.setConditions
    split
    · exact hgrants
    · exact hgrants

theorem insertSingle_adminHolds (assertionId : Nat) (conditionId : Int)
    (conditionsMap : Map Str AssertionConditionData) :
    Preserves (AdminHolds domainName I)
      (insertSingleAssertionCondition assertionId conditionId conditionsMap) := by
  refine .statement fun time db done db' hdb hrun => ?_
  unfold insertConditionRows at hrun
  split at hrun
  · cases hrun
    exact hdb
  · split at hrun
    · obtain ⟨rows, _, hrun⟩ := Result.bind_eq_ok.1 hrun
      cases hrun
      exact hdb.setConditions assertionId rows
    · cases hrun

theorem insertAssertionConditions_adminHolds (assertionId : Nat)
    (conditions : List AssertionCondition) :
    Preserves (AdminHolds domainName I) (insertAssertionConditions assertionId conditions) := by
  unfold insertAssertionConditions
  generalize true = result
  induction conditions generalizing result with
  | nil => exact .pure result
  | cons condition conditions ih =>
    refine Preserves.bind ?_ fun result => ih result
    exact (Preserves.query _).bind fun conditionId =>
      .ite (fun _ => insertSingle_adminHolds _ _ _) fun _ => .pure false

end Conditions

section PolicyRequests

variable [Collation] {I : Collection RoleSettings → Prop}

theorem insertAssertions_adminHolds (hname : policyName ≠ ADMIN_POLICY_NAME) (version : Option Str)
    (assertions : List Assertion) :
    Preserves (AdminHolds domainName I)
      (insertAssertions otherDomain policyName version assertions) :=
  .forAll fun assertion _ => (insertAssertion_adminHolds hname version assertion).bind fun _ =>
    .pure true

theorem deleteAssertions_adminHolds (hname : policyName ≠ ADMIN_POLICY_NAME) (version : Option Str)
    (assertions : List Assertion) :
    Preserves (AdminHolds domainName I)
      (deleteAssertions otherDomain policyName version assertions) := by
  refine .forAll fun assertion _ => ?_
  cases assertion.id with
  | none => exact .raise _
  | some id => exact deleteAssertion_adminHolds hname version id

theorem processPolicy_adminHolds {policy : Policy}
    (hpolicy : policy.name = policyResourceName otherDomain policyName)
    (hname : policyName ≠ ADMIN_POLICY_NAME) (originalPolicy : Option Policy)
    (ignoreDeletes : Bool) :
    Preserves (AdminHolds domainName I)
      (processPolicy originalPolicy otherDomain policyName policy ignoreDeletes) := by
  cases originalPolicy with
  | none =>
    exact (insertPolicy_adminHolds hpolicy hname).both (insertAssertions_adminHolds hname _ _)
  | some original =>
    refine (updatePolicy_adminHolds hpolicy hname).both (Preserves.both ?_
      (insertAssertions_adminHolds hname _ _))
    exact .ite (fun _ => .pure true) fun _ => deleteAssertions_adminHolds hname _ _

theorem putPolicyBody_adminHolds {policy : Policy} (config : Config) (ctx : Context)
    (hpolicy : policy.name = policyResourceName otherDomain policyName)
    (hname : policyName ≠ ADMIN_POLICY_NAME) :
    Preserves (AdminHolds domainName I)
      (putPolicyBody config ctx otherDomain policyName policy) := by
  have hversion : ∀ original : Option Policy, Preserves (AdminHolds domainName I)
      (checkPolicyVersion otherDomain policyName policy original) := by
    intro original
    refine .ite (fun _ => (Preserves.query _).bind fun active => ?_) fun _ => .pure ()
    cases policy.active with
    | none => exact .raise _
    | some flag => exact (Preserves.ensure _ _).bind fun _ => .ensure _ _
  exact ((checkDomainAuditEnabled_reading _ _ _ _).preserves _).bind fun _ =>
    ((checkPolicyQuota_reading _ _ _).preserves _).bind fun _ =>
      (Preserves.query _).bind fun original => (hversion original).bind fun _ =>
        (processPolicy_adminHolds hpolicy hname original false).bind fun _ => .ensure _ _

theorem copyAssertion_adminHolds (hname : policyName ≠ ADMIN_POLICY_NAME) (version : Version)
    (assertion : Assertion) :
    Preserves (AdminHolds domainName I)
      (copyAssertion otherDomain policyName version assertion) := by
  unfold copyAssertion
  cases assertion.id with
  | none =>
    exact (insertAssertion_adminHolds hname _ _).bind fun _ => .pure true
  | some id =>
    exact (Preserves.query _).bind fun conditions =>
      (insertAssertion_adminHolds hname _ _).bind fun added =>
        .ite (fun _ => .pure true) fun _ => insertAssertionConditions_adminHolds _ _

theorem putPolicyVersionBody_adminHolds (config : Config) (ctx : Context)
    (hname : policyName ≠ ADMIN_POLICY_NAME) (version : Version) (fromVersion : Option Str) :
    Preserves (AdminHolds domainName I)
      (putPolicyVersionBody config ctx otherDomain policyName version fromVersion) := by
  refine ((checkDomainAuditEnabled_reading _ _ _ _).preserves _).bind fun _ =>
    ((readDomain_reading _ _).preserves _).bind fun versions => (Preserves.ensure _ _).bind fun _ =>
      Preserves.query_bind fun db _ => ?_
  cases hfound : db.policyRow otherDomain policyName fromVersion with
  | none => exact .abort _
  | some row =>
    refine ((checkPolicyQuota_reading _ _ _).preserves _).bind fun _ =>
      (Preserves.both ?_ (.forAll fun assertion _ => copyAssertion_adminHolds hname version assertion)).bind
        fun _ => .ensure _ _
    refine insertPolicy_adminHolds rfl ?_
    obtain ⟨domain, _, hfind⟩ := Option.bind_eq_some_iff.1 hfound
    have hversion := List.find?_some hfind
    rw [PolicyRow.isVersion, Bool.and_eq_true, decide_eq_true_eq] at hversion
    exact hversion.1 ▸ hname

theorem setActivePolicyBody_adminHolds (config : Config) (ctx : Context)
    (hname : policyName ≠ ADMIN_POLICY_NAME) (version : Version) :
    Preserves (AdminHolds domainName I)
      (setActivePolicyBody config ctx otherDomain policyName version) := by
  refine ((checkDomainAuditEnabled_reading _ _ _ _).preserves _).bind fun _ =>
    (Preserves.query _).bind fun original => ?_
  cases original with
  | none => exact .abort _
  | some original =>
    refine (Preserves.query _).bind fun newActive => (Preserves.ensure _ _).bind fun _ =>
      Preserves.bind ?_ fun _ => .ensure _ _
    exact (setActivePolicyVersion_adminHolds hname _).both
      ((updatePolicyModTimestamp_adminHolds hname _).both
        (updatePolicyModTimestamp_adminHolds hname _))

theorem deletePolicyBody_adminHolds (config : Config) (ctx : Context)
    (hname : policyName ≠ ADMIN_POLICY_NAME) :
    Preserves (AdminHolds domainName I) (deletePolicyBody config ctx otherDomain policyName) :=
  ((checkDomainAuditEnabled_reading _ _ _ _).preserves _).bind fun _ =>
    ((readDomain_reading _ _).preserves _).bind fun _ => (Preserves.ensure _ _).bind fun _ =>
      (Preserves.forAll fun _ _ => (Preserves.query _).bind fun _ => .pure _).bind fun _ =>
        (Preserves.ensure _ _).bind fun _ => (deletePolicy_adminHolds hname).bind fun _ =>
          .ensure _ _

theorem deletePolicyVersionBody_adminHolds (config : Config) (ctx : Context)
    (hname : policyName ≠ ADMIN_POLICY_NAME) (version : Version) :
    Preserves (AdminHolds domainName I)
      (deletePolicyVersionBody config ctx otherDomain policyName version) := by
  refine ((checkDomainAuditEnabled_reading _ _ _ _).preserves _).bind fun _ =>
    (Preserves.query _).bind fun found => ?_
  cases found with
  | none => exact .abort _
  | some policy =>
    exact (Preserves.ensure _ _).bind fun _ => (deletePolicyVersion_adminHolds hname _).bind fun _ =>
      .ensure _ _

theorem updateDomainModTimestamp_adminHolds (otherDomain : Str) :
    Preserves (AdminHolds domainName I) (updateDomainModTimestamp otherDomain) := by
  refine .statement fun time db a db' hdb hrun => ?_
  cases hrun
  exact hdb.stamp adminRow_undated time

theorem putAssertionBody_adminHolds (config : Config) (ctx : Context)
    (hname : policyName ≠ ADMIN_POLICY_NAME) (version : Option Str) (assertion : Assertion) :
    Preserves (AdminHolds domainName I)
      (putAssertionBody config ctx otherDomain policyName version assertion) := by
  have hquota : Preserves (AdminHolds domainName I)
      (checkPolicyAssertionQuota config otherDomain policyName version) :=
    .ite (fun _ => ((getDomainQuota_reading _ _).preserves _).bind fun _ =>
      ((readDomain_reading _ _).preserves _).bind fun _ => (checkQuota_reading _ _ _).preserves _)
      fun _ => .pure ()
  exact ((checkDomainAuditEnabled_reading _ _ _ _).preserves _).bind fun _ => hquota.bind fun _ =>
    (insertAssertion_adminHolds hname _ _).bind fun _ =>
      (updatePolicyModTimestamp_adminHolds hname _).bind fun _ =>
        updateDomainModTimestamp_adminHolds _

theorem deleteAssertionBody_adminHolds (config : Config) (ctx : Context)
    (hname : policyName ≠ ADMIN_POLICY_NAME) (version : Option Str) (assertionId : Nat) :
    Preserves (AdminHolds domainName I)
      (deleteAssertionBody config ctx otherDomain policyName version assertionId) :=
  ((checkDomainAuditEnabled_reading _ _ _ _).preserves _).bind fun _ =>
    (Preserves.query _).bind fun _ => (Preserves.permit _ _).bind fun _ =>
      (deleteAssertion_adminHolds hname _ _).bind fun _ => (Preserves.ensure _ _).bind fun _ =>
        (updatePolicyModTimestamp_adminHolds hname _).bind fun _ =>
          updateDomainModTimestamp_adminHolds _

end PolicyRequests

end Athenz.ZmsServer
