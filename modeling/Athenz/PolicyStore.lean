import Athenz.AdminRuns
import Athenz.AssertionConditions

namespace Athenz.ZmsServer
open Lib Lib.Text Lib.Transaction Lib.Transaction.Tx
set_option autoImplicit true

section Thinning

/-- Every version of a list comes from one of another list, less some assertions, or is empty. -/
def Thins (policies policies' : List PolicyRow) : Prop :=
  ∀ policy' ∈ policies', policy'.assertions = [] ∨
    ∃ policy ∈ policies, policy'.name = policy.name ∧ policy'.assertions.Sublist policy.assertions

theorem Thins.refl (policies : List PolicyRow) : Thins policies policies :=
  fun policy hpolicy => .inr ⟨policy, hpolicy, rfl, List.Sublist.refl _⟩

theorem Thins.of_subset (h : policies' ⊆ policies) : Thins policies policies' :=
  fun policy hpolicy => .inr ⟨policy, h hpolicy, rfl, List.Sublist.refl _⟩

theorem Thins.set (hpolicy : policies[i]? = some policy) (hname : policy'.name = policy.name)
    (hassertions : policy'.assertions.Sublist policy.assertions) :
    Thins policies (policies.set i policy') := by
  intro other hother
  rcases List.mem_or_eq_of_mem_set hother with hmem | rfl
  · exact .inr ⟨other, hmem, rfl, List.Sublist.refl _⟩
  · exact .inr ⟨policy, List.mem_of_getElem? hpolicy, hname, hassertions⟩

end Thinning

section Soundness

variable [Collation]

/-- Assertions that the check for duplicates takes for the same. -/
def AssertionRow.Alike (a b : AssertionRow) : Prop :=
  sameText a.role b.role = true ∧ sameText a.resource b.resource = true ∧
    sameText a.action b.action = true ∧ a.effect = b.effect

/-- The numbers of the assertions identify them, lie below the next one, and no version of a policy
holds an assertion twice. -/
structure Database.Sound (db : Database) : Prop where
  numbered : db.Numbered
  bounded : ∀ domainName policyName a, db.HasAssertion domainName policyName a →
    a.id < db.nextAssertionId
  distinct : ∀ domainName, ∀ policy ∈ db.policiesOf domainName,
    policy.assertions.Pairwise fun a b => ¬ a.Alike b

/-- Assertions may go. -/
theorem Database.Sound.of_thins {db db' : Database} (h : db.Sound)
    (hthins : ∀ domainName, Thins (db.policiesOf domainName) (db'.policiesOf domainName))
    (hnext : db.nextAssertionId ≤ db'.nextAssertionId) : db'.Sound := by
  have hback : ∀ {domainName policyName a}, db'.HasAssertion domainName policyName a →
      db.HasAssertion domainName policyName a := by
    rintro domainName policyName a ⟨policy', hpolicy', rfl, ha⟩
    rcases hthins domainName policy' hpolicy' with hempty | ⟨policy, hpolicy, hname, hsub⟩
    · rw [hempty] at ha
      exact absurd ha List.not_mem_nil
    · exact ⟨policy, hpolicy, hname.symm, hsub.subset ha⟩
  refine ⟨?_, ?_, ?_⟩
  · intro domainName policyName a domainName' policyName' a' ha ha' hid
    exact h.numbered _ _ _ _ _ _ (hback ha) (hback ha') hid
  · intro domainName policyName a ha
    exact Nat.lt_of_lt_of_le (h.bounded _ _ _ (hback ha)) hnext
  · intro domainName policy' hpolicy'
    rcases hthins domainName policy' hpolicy' with hempty | ⟨policy, hpolicy, _, hsub⟩
    · rw [hempty]
      exact .nil
    · exact (h.distinct domainName policy hpolicy).sublist hsub

theorem Database.Sound.congr {db db' : Database} (h : db.Sound) (hsame : SamePolicies db db')
    (hnext : db.nextAssertionId ≤ db'.nextAssertionId) : db'.Sound := by
  refine h.of_thins (fun domainName => ?_) hnext
  rw [hsame domainName]
  exact .refl _

theorem Database.Sound.setConditions {db : Database} (h : db.Sound) (assertionId : Nat)
    (rows : List ConditionRow) : (db.setConditions assertionId rows).Sound := by
  refine ⟨h.numbered.setConditions _ _, ?_, ?_⟩
  · intro domainName policyName a ha
    obtain ⟨b, hb, rfl⟩ := hasAssertion_setConditions.1 ha
    rw [b.setConditions_id]
    exact h.bounded _ _ _ hb
  · intro domainName policy' hpolicy'
    rw [policiesOf_setConditions] at hpolicy'
    obtain ⟨policy, hpolicy, rfl⟩ := List.mem_map.1 hpolicy'
    refine List.pairwise_map.2 ((h.distinct domainName policy hpolicy).imp fun hne => ?_)
    unfold AssertionRow.Alike AssertionRow.setConditions at *
    split <;> split <;> exact hne

omit [Collation] in
theorem nextAssertionId_stampDomain (domainName : Str) (time : Int) (db : Database) :
    (stampDomain domainName time db).nextAssertionId = db.nextAssertionId := by
  unfold stampDomain
  split
  · rfl
  · rfl

theorem Database.Sound.stamp {db : Database} (h : db.Sound) (domainName : Str) (time : Int) :
    (stampDomain domainName time db).Sound :=
  h.congr (policiesOf_stampDomain domainName time db)
    (Nat.le_of_eq (nextAssertionId_stampDomain domainName time db).symm)

/-- The row of one domain has its policies thinned. -/
theorem Database.Sound.insert {db : Database} (h : db.Sound)
    (hrow : db.domains.lookup domainName = some row) (hthins : Thins row.policies row'.policies) :
    Database.Sound ⟨db.domains.insert domainName row', db.nextAssertionId⟩ := by
  refine h.of_thins (fun otherName => ?_) (Nat.le_refl _)
  unfold Database.policiesOf
  rw [Map.lookup_insert]
  split
  · rename_i hsame
    rw [hsame, hrow]
    exact hthins
  · exact .refl _

end Soundness

section Statements

variable [Collation]

theorem onDomain_sound {f : DomainRow → Except Failure (α × DomainRow)}
    (hf : ∀ row a row', f row = .ok (a, row') → Thins row.policies row'.policies) :
    Preserves Database.Sound (onDomain domainName f) :=
  onDomain_preserves fun _ row a row' hrow hrun hdb => hdb.insert hrow (hf row a row' hrun)

theorem changePolicy_thins {f : PolicyRow → Except Failure (α × PolicyRow)}
    (hf : ∀ policy a policy', f policy = .ok (a, policy') →
      policy'.name = policy.name ∧ policy'.assertions.Sublist policy.assertions)
    (h : changePolicy domainName policyName version f row = .ok (a, row')) :
    Thins row.policies row'.policies := by
  obtain ⟨i, policy, policy', _, hpolicy, hrun, rfl⟩ := changePolicy_eq_ok.1 h
  obtain ⟨hname, hassertions⟩ := hf policy a policy' hrun
  exact .set hpolicy hname hassertions

theorem insertPolicyRow_sound (domainName policyName version : Str) (active : Bool) :
    Preserves Database.Sound (insertPolicyRow domainName policyName version active) := by
  refine onDomain_sound fun row a row' hrun => ?_
  split at hrun
  · cases hrun
  · cases hrun
    intro policy hpolicy
    rcases List.mem_append.1 hpolicy with hmem | hnew
    · exact .inr ⟨policy, hmem, rfl, List.Sublist.refl _⟩
    · rw [List.mem_singleton.1 hnew]
      exact .inl rfl

theorem objectName_sound (domainName fullName separator : Str) :
    Preserves Database.Sound (objectName domainName fullName separator) := by
  unfold objectName
  split
  · exact .abort _
  · exact .pure _

theorem insertPolicy_sound (domainName : Str) (policy : Policy) :
    Preserves Database.Sound (insertPolicy domainName policy) := by
  refine (objectName_sound _ _ _).bind fun policyName =>
    .ite (fun _ => insertPolicyRow_sound _ _ _ true) fun _ => ?_
  cases policy.active with
  | none => exact ((readDomain_reading _ _).preserves _).bind fun _ => .raise _
  | some active => exact insertPolicyRow_sound _ _ _ active

theorem changePolicy_same_sound (domainName policyName : Str) (version : Option Str) :
    Preserves Database.Sound
      (onDomain domainName (changePolicy domainName policyName version fun p => .ok (true, p))) := by
  refine onDomain_sound fun row a row' hrun => changePolicy_thins ?_ hrun
  intro policy a policy' h
  cases h
  exact ⟨rfl, List.Sublist.refl _⟩

theorem updatePolicy_sound (domainName : Str) (policy : Policy) :
    Preserves Database.Sound (updatePolicy domainName policy) :=
  (objectName_sound _ _ _).bind fun policyName => changePolicy_same_sound _ policyName _

theorem deleteAssertion_sound (domainName policyName : Str) (version : Option Str) (id : Nat) :
    Preserves Database.Sound (deleteAssertion domainName policyName version id) := by
  refine onDomain_sound fun row a row' hrun => changePolicy_thins ?_ hrun
  intro policy a policy' h
  cases h
  exact ⟨rfl, List.filter_sublist⟩

theorem setActivePolicyVersion_sound (domainName policyName version : Str) :
    Preserves Database.Sound (setActivePolicyVersion domainName policyName version) := by
  refine onDomain_sound fun row a row' hrun => ?_
  cases hrun
  intro policy' hpolicy'
  obtain ⟨policy, hpolicy, rfl⟩ := List.mem_map.1 hpolicy'
  refine .inr ⟨policy, hpolicy, ?_⟩
  split
  · exact ⟨rfl, List.Sublist.refl _⟩
  · exact ⟨rfl, List.Sublist.refl _⟩

theorem deletePolicy_sound (domainName policyName : Str) :
    Preserves Database.Sound (deletePolicy domainName policyName) := by
  refine onDomain_sound fun row a row' hrun => ?_
  cases hrun
  exact .of_subset (List.filter_subset_self _)

theorem deletePolicyVersion_sound (domainName policyName version : Str) :
    Preserves Database.Sound (deletePolicyVersion domainName policyName version) := by
  refine onDomain_sound fun row a row' hrun => ?_
  cases hrun
  exact .of_subset (List.filter_subset_self _)

theorem insertSingle_sound (assertionId : Nat) (conditionId : Int)
    (conditionsMap : Map Str AssertionConditionData) :
    Preserves Database.Sound
      (insertSingleAssertionCondition assertionId conditionId conditionsMap) := by
  refine .statement fun time db done db' hdb hrun => ?_
  rcases insertConditionRows_eq_ok hrun with ⟨_, _, rfl⟩ | ⟨_, _, _, rfl⟩
  · exact hdb
  · exact hdb.setConditions _ _

theorem deleteConditionRows_sound (assertionId : Nat) (gone : ConditionRow → Bool) :
    Preserves Database.Sound (deleteConditionRows assertionId gone) := by
  refine .statement fun time db done db' hdb hrun => ?_
  cases hrun
  exact hdb.setConditions _ _

theorem updateDomainModTimestamp_sound (domainName : Str) :
    Preserves Database.Sound (updateDomainModTimestamp domainName) := by
  refine .statement fun time db a db' hdb hrun => ?_
  cases hrun
  exact hdb.stamp domainName time

/-- The policies of a domain with a new assertion at one of them. -/
theorem Database.Sound.addAssertion {db : Database} (h : db.Sound)
    (hrow : db.domains.lookup domainName = some row) (hpolicy : row.policies[i]? = some policy)
    (hnew : ∀ a ∈ policy.assertions, ¬ a.Alike added) (hid : added.id = db.nextAssertionId) :
    Database.Sound ⟨db.domains.insert domainName { row with
      policies := row.policies.set i { policy with assertions := policy.assertions ++ [added] } },
      db.nextAssertionId + 1⟩ := by
  have hpolicies : db.policiesOf domainName = row.policies := by
    rw [Database.policiesOf, hrow]
    rfl
  have hmem : policy ∈ db.policiesOf domainName := by
    rw [hpolicies]
    exact List.mem_of_getElem? hpolicy
  have hback : ∀ {otherName}, ∀ other ∈ (Database.mk (db.domains.insert domainName { row with
      policies := row.policies.set i { policy with assertions := policy.assertions ++ [added] } })
      (db.nextAssertionId + 1)).policiesOf otherName, other ∈ db.policiesOf otherName ∨
        otherName = domainName ∧
          other = { policy with assertions := policy.assertions ++ [added] } := by
    intro otherName other hother
    rw [Database.policiesOf, Map.lookup_insert] at hother
    split at hother
    · rename_i hsame
      rcases List.mem_or_eq_of_mem_set hother with hkept | rfl
      · left
        rw [hsame, hpolicies]
        exact hkept
      · exact .inr ⟨hsame, rfl⟩
    · exact .inl hother
  have hcases : ∀ {otherName policyName a}, (Database.mk (db.domains.insert domainName { row with
      policies := row.policies.set i { policy with assertions := policy.assertions ++ [added] } })
      (db.nextAssertionId + 1)).HasAssertion otherName policyName a →
        db.HasAssertion otherName policyName a ∨
          otherName = domainName ∧ policyName = policy.name ∧ a = added := by
    rintro otherName policyName a ⟨other, hother, rfl, ha⟩
    rcases hback other hother with hkept | ⟨rfl, rfl⟩
    · exact .inl ⟨other, hkept, rfl, ha⟩
    · rcases List.mem_append.1 ha with hold | hadded
      · exact .inl ⟨policy, hmem, rfl, hold⟩
      · exact .inr ⟨rfl, rfl, List.mem_singleton.1 hadded⟩
  refine ⟨?_, ?_, ?_⟩
  · intro domain₁ policy₁ a domain₂ policy₂ b ha hb hsame
    rcases hcases ha with hold | ⟨rfl, rfl, rfl⟩
    · rcases hcases hb with hold' | ⟨rfl, rfl, rfl⟩
      · exact h.numbered _ _ _ _ _ _ hold hold' hsame
      · exact absurd (h.bounded _ _ _ hold) (by rw [hsame, hid]; exact Nat.lt_irrefl _)
    · rcases hcases hb with hold' | ⟨rfl, rfl, rfl⟩
      · exact absurd (h.bounded _ _ _ hold') (by rw [← hsame, hid]; exact Nat.lt_irrefl _)
      · exact ⟨rfl, rfl, rfl⟩
  · intro otherName policyName a ha
    rcases hcases ha with hold | ⟨_, _, rfl⟩
    · exact Nat.lt_succ_of_lt (h.bounded _ _ _ hold)
    · rw [hid]
      exact Nat.lt_succ_self _
  · intro otherName other hother
    rcases hback other hother with hkept | ⟨_, rfl⟩
    · exact h.distinct otherName other hkept
    · refine List.pairwise_append.2 ⟨h.distinct domainName policy hmem, List.pairwise_singleton _ _, ?_⟩
      intro a ha b hb
      rw [List.mem_singleton.1 hb]
      exact hnew a ha

theorem blocks_iff {policy : PolicyRow} (id : Nat) :
    policy.blocks roleName assertion = true ↔
      ∃ a ∈ policy.assertions, a.Alike (assertion.row roleName id) := by
  simp only [PolicyRow.blocks, List.any_eq_true, Bool.and_eq_true, decide_eq_true_eq, and_assoc]
  rfl

/-- What the insertion of an assertion makes of the row of its domain. -/
def Inserted (domainName policyName : Str) (version : Option Str) (roleName : Str)
    (assertion : Assertion) (db : Database) (added : Option Nat) (db' : Database) : Prop :=
  ∃ row i policy, db.domains.lookup domainName = some row ∧
    row.policies.findIdx? (PolicyRow.isVersion policyName version) = some i ∧
    row.policies[i]? = some policy ∧
    (policy.blocks roleName assertion = true ∧ added = none ∧
        db' = ⟨db.domains.insert domainName row, db.nextAssertionId⟩ ∨
      policy.blocks roleName assertion = false ∧ added = some db.nextAssertionId ∧
        db' = ⟨db.domains.insert domainName { row with
          policies := row.policies.set i (policy.added roleName assertion db.nextAssertionId) },
          db.nextAssertionId + 1⟩)

theorem insertAssertion_statement (domainName policyName : Str) (version : Option Str)
    (assertion : Assertion) :
    ∃ f : Str → Int → Database → Except Failure (Option Nat × Database),
      insertAssertion domainName policyName version assertion =
        (objectName domainName assertion.role ":role." >>= fun roleName => Tx.statement (f roleName)) ∧
      ∀ roleName time db added db', f roleName time db = .ok (added, db') →
        Inserted domainName policyName version roleName assertion db added db' := by
  refine ⟨_, rfl, fun roleName time db added db' hrun => ?_⟩
  dsimp only at hrun
  split at hrun
  · cases hrun
  · rename_i row hrow
    obtain ⟨⟨added', row'⟩, hchange, hrun⟩ := Result.bind_eq_ok.1 hrun
    cases hrun
    obtain ⟨i, policy, policy', hi, hpolicy, hstep, rfl⟩ := changePolicy_eq_ok.1 hchange
    refine ⟨row, i, policy, hrow, hi, hpolicy, ?_⟩
    split at hstep
    · rename_i hblocks
      cases hstep
      refine .inl ⟨hblocks, rfl, ?_⟩
      obtain ⟨hlt, rfl⟩ := List.getElem?_eq_some_iff.1 hpolicy
      rw [List.set_getElem_self]
      rfl
    · rename_i hblocks
      cases hstep
      exact .inr ⟨Bool.eq_false_iff.2 hblocks, rfl, rfl⟩

theorem Inserted.sound {db db' : Database}
    (h : Inserted domainName policyName version roleName assertion db added db') (hdb : db.Sound) :
    db'.Sound := by
  obtain ⟨row, i, policy, hrow, hi, hpolicy, ⟨_, _, rfl⟩ | ⟨hblocks, _, rfl⟩⟩ := h
  · exact hdb.insert hrow (.refl _)
  · refine hdb.addAssertion hrow hpolicy (fun a ha halike => ?_) rfl
    have hblocked := (blocks_iff db.nextAssertionId).2 ⟨a, ha, halike⟩
    rw [hblocks] at hblocked
    cases hblocked

theorem insertAssertion_sound (domainName policyName : Str) (version : Option Str)
    (assertion : Assertion) :
    Preserves Database.Sound (insertAssertion domainName policyName version assertion) := by
  obtain ⟨f, hf, hinserted⟩ := insertAssertion_statement domainName policyName version assertion
  rw [hf]
  exact (objectName_sound _ _ _).bind fun roleName =>
    .statement fun time db added db' hdb hrun => (hinserted _ _ _ _ _ hrun).sound hdb

/-- The insertion of an assertion that names a role of its domain. -/
theorem insertAssertion_inserted (policyName : Str) (version : Option Str) {assertion : Assertion}
    (hrole : assertion.role = domainName ++ ":role." ++ roleName) :
    Returns (insertAssertion domainName policyName version assertion) fun db added db' =>
      Inserted domainName policyName version roleName assertion db added db' := by
  obtain ⟨f, hf, hinserted⟩ := insertAssertion_statement domainName policyName version assertion
  rw [hf, hrole, objectName_append]
  refine (Returns.statement _).mono ?_
  rintro db added db' ⟨time, hrun⟩
  exact hinserted _ _ _ _ _ hrun

end Statements

section Requests

variable [Collation]

theorem insertConditionsFrom_sound (assertionId : Nat) (result : Bool)
    (conditions : List AssertionCondition) :
    Preserves Database.Sound (insertConditionsFrom assertionId result conditions) := by
  induction conditions generalizing result with
  | nil => exact .pure result
  | cons condition conditions ih =>
    refine Preserves.bind ?_ fun result => ih result
    exact (Preserves.query _).bind fun conditionId =>
      .ite (fun _ => insertSingle_sound _ _ _) fun _ => .pure false

theorem processPolicy_sound (originalPolicy : Option Policy) (domainName policyName : Str)
    (policy : Policy) (ignoreDeletes : Bool) :
    Preserves Database.Sound
      (processPolicy originalPolicy domainName policyName policy ignoreDeletes) := by
  have hinsert (version : Option Str) (assertions : List Assertion) : Preserves Database.Sound
      (insertAssertions domainName policyName version assertions) :=
    .forAll fun assertion _ => (insertAssertion_sound _ _ version assertion).bind fun _ => .pure true
  have hdelete (version : Option Str) (assertions : List Assertion) : Preserves Database.Sound
      (deleteAssertions domainName policyName version assertions) := by
    refine .forAll fun assertion _ => ?_
    cases assertion.id with
    | none => exact .raise _
    | some id => exact deleteAssertion_sound _ _ version id
  cases originalPolicy with
  | none => exact (insertPolicy_sound _ _).both (hinsert _ _)
  | some original =>
    exact (updatePolicy_sound _ _).both
      (.both (.ite (fun _ => .pure true) fun _ => hdelete _ _) (hinsert _ _))

theorem putPolicyBody_sound (config : Config) (ctx : Context) (domainName policyName : Str)
    (policy : Policy) :
    Preserves Database.Sound (putPolicyBody config ctx domainName policyName policy) := by
  have hversion (original : Option Policy) : Preserves Database.Sound
      (checkPolicyVersion domainName policyName policy original) := by
    refine .ite (fun _ => (Preserves.query _).bind fun active => ?_) fun _ => .pure ()
    cases policy.active with
    | none => exact .raise _
    | some flag => exact (Preserves.ensure _ _).bind fun _ => .ensure _ _
  exact ((checkDomainAuditEnabled_reading _ _ _ _).preserves _).bind fun _ =>
    ((checkPolicyQuota_reading _ _ _).preserves _).bind fun _ =>
      (Preserves.query _).bind fun original => (hversion original).bind fun _ =>
        (processPolicy_sound original _ _ _ false).bind fun _ => .ensure _ _

theorem copyAssertion_sound (domainName policyName : Str) (version : Version)
    (assertion : Assertion) :
    Preserves Database.Sound (copyAssertion domainName policyName version assertion) := by
  unfold copyAssertion
  cases assertion.id with
  | none => exact (insertAssertion_sound _ _ _ _).bind fun _ => .pure true
  | some id =>
    exact (Preserves.query _).bind fun conditions => (insertAssertion_sound _ _ _ _).bind fun added =>
      .ite (fun _ => .pure true) fun _ => insertConditionsFrom_sound _ true _

theorem putPolicyVersionBody_sound (config : Config) (ctx : Context) (domainName policyName : Str)
    (version : Version) (fromVersion : Option Str) :
    Preserves Database.Sound
      (putPolicyVersionBody config ctx domainName policyName version fromVersion) := by
  refine ((checkDomainAuditEnabled_reading _ _ _ _).preserves _).bind fun _ =>
    ((readDomain_reading _ _).preserves _).bind fun versions => (Preserves.ensure _ _).bind fun _ =>
      (Preserves.query _).bind fun found => ?_
  cases found with
  | none => exact .abort _
  | some original =>
    exact ((checkPolicyQuota_reading _ _ _).preserves _).bind fun _ =>
      ((insertPolicy_sound _ _).both (.forAll fun assertion _ =>
        copyAssertion_sound _ _ version assertion)).bind fun _ => .ensure _ _

theorem setActivePolicyBody_sound (config : Config) (ctx : Context) (domainName policyName : Str)
    (version : Version) :
    Preserves Database.Sound (setActivePolicyBody config ctx domainName policyName version) := by
  refine ((checkDomainAuditEnabled_reading _ _ _ _).preserves _).bind fun _ =>
    (Preserves.query _).bind fun original => ?_
  cases original with
  | none => exact .abort _
  | some original =>
    refine (Preserves.query _).bind fun newActive => (Preserves.ensure _ _).bind fun _ =>
      Preserves.bind ?_ fun _ => .ensure _ _
    exact (setActivePolicyVersion_sound _ _ _).both
      ((changePolicy_same_sound _ _ _).both (changePolicy_same_sound _ _ _))

theorem deletePolicyBody_sound (config : Config) (ctx : Context) (domainName policyName : Str) :
    Preserves Database.Sound (deletePolicyBody config ctx domainName policyName) :=
  ((checkDomainAuditEnabled_reading _ _ _ _).preserves _).bind fun _ =>
    ((readDomain_reading _ _).preserves _).bind fun _ => (Preserves.ensure _ _).bind fun _ =>
      (Preserves.forAll fun _ _ => (Preserves.query _).bind fun _ => .pure _).bind fun _ =>
        (Preserves.ensure _ _).bind fun _ => (deletePolicy_sound _ _).bind fun _ => .ensure _ _

theorem deletePolicyVersionBody_sound (config : Config) (ctx : Context)
    (domainName policyName : Str) (version : Version) :
    Preserves Database.Sound (deletePolicyVersionBody config ctx domainName policyName version) := by
  refine ((checkDomainAuditEnabled_reading _ _ _ _).preserves _).bind fun _ =>
    (Preserves.query _).bind fun found => ?_
  cases found with
  | none => exact .abort _
  | some policy =>
    exact (Preserves.ensure _ _).bind fun _ => (deletePolicyVersion_sound _ _ _).bind fun _ =>
      .ensure _ _

theorem putAssertionBody_sound (config : Config) (ctx : Context) (domainName policyName : Str)
    (version : Option Str) (assertion : Assertion) :
    Preserves Database.Sound
      (putAssertionBody config ctx domainName policyName version assertion) := by
  have hquota : Preserves Database.Sound
      (checkPolicyAssertionQuota config domainName policyName version) :=
    .ite (fun _ => ((getDomainQuota_reading _ _).preserves _).bind fun _ =>
      ((readDomain_reading _ _).preserves _).bind fun _ => (checkQuota_reading _ _ _).preserves _)
      fun _ => .pure ()
  exact ((checkDomainAuditEnabled_reading _ _ _ _).preserves _).bind fun _ => hquota.bind fun _ =>
    (insertAssertion_sound _ _ _ _).bind fun _ => (changePolicy_same_sound _ _ _).bind fun _ =>
      updateDomainModTimestamp_sound _

theorem deleteAssertionBody_sound (config : Config) (ctx : Context) (domainName policyName : Str)
    (version : Option Str) (assertionId : Nat) :
    Preserves Database.Sound
      (deleteAssertionBody config ctx domainName policyName version assertionId) :=
  ((checkDomainAuditEnabled_reading _ _ _ _).preserves _).bind fun _ =>
    (Preserves.query _).bind fun _ => (Preserves.permit _ _).bind fun _ =>
      (deleteAssertion_sound _ _ _ _).bind fun _ => (Preserves.ensure _ _).bind fun _ =>
        (changePolicy_same_sound _ _ _).bind fun _ => updateDomainModTimestamp_sound _

theorem ConditionRequest.body_sound (config : Config) (ctx : Context) (domainName policyName : Str)
    (assertionId : Nat) (request : ConditionRequest) :
    Preserves Database.Sound (request.body config ctx domainName policyName assertionId) := by
  have haudit := (checkDomainAuditEnabled_reading config ctx domainName .policy).preserves
    Database.Sound
  have htime := changePolicy_same_sound domainName policyName none
  have hdomain := updateDomainModTimestamp_sound domainName
  cases request with
  | putAssertionConditions conditions =>
    exact haudit.bind fun _ =>
      ((checkAssertionConditionsQuota_reading _ _ _).preserves _).bind fun _ =>
        (insertConditionsFrom_sound _ true _).bind fun _ => (Preserves.permit _ _).bind fun _ =>
          htime.bind fun _ => .pure ()
  | putAssertionCondition condition =>
    refine haudit.bind fun _ => ?_
    have hquota := (checkAssertionConditionQuota_reading config assertionId condition).preserves
      Database.Sound
    cases condition.id with
    | none =>
      have hadd : Preserves Database.Sound
          (addAssertionCondition config ctx policyName assertionId condition) :=
        hquota.bind fun _ => (Preserves.query _).bind fun conditionId =>
          (insertSingle_sound _ conditionId _).bind fun _ => .permit _ _
      exact hadd.bind fun _ => htime.bind fun _ => .pure ()
    | some conditionId =>
      have hreplace : Preserves Database.Sound
          (replaceAssertionCondition config ctx policyName assertionId conditionId condition) :=
        (deleteConditionRows_sound _ _).bind fun _ => (Preserves.permit _ _).bind fun _ =>
          hquota.bind fun _ => (insertSingle_sound _ conditionId _).bind fun _ => .permit _ _
      exact hreplace.bind fun _ => htime.bind fun _ => .pure ()
  | deleteAssertionConditions =>
    exact haudit.bind fun _ => (Preserves.query _).bind fun _ =>
      (deleteConditionRows_sound _ _).bind fun _ => (Preserves.permit _ _).bind fun _ =>
        htime.bind fun _ => hdomain
  | deleteAssertionCondition conditionId =>
    exact haudit.bind fun _ => (Preserves.query _).bind fun _ => (Preserves.permit _ _).bind fun _ =>
      (deleteConditionRows_sound _ _).bind fun _ => (Preserves.permit _ _).bind fun _ =>
        htime.bind fun _ => hdomain

end Requests

section Runs

variable [Collation]

/-- The requests that write policies, their assertions and the conditions of these. -/
inductive PolicyRequest where
  | putPolicy (policy : Policy)
  | putPolicyVersion (version : Version) (fromVersion : Option Str)
  | setActivePolicyVersion (version : Version)
  | deletePolicy
  | deletePolicyVersion (version : Version)
  | putAssertion (version : Option Str) (assertion : Assertion)
  | deleteAssertion (version : Option Str) (assertionId : Nat)
  | conditions (assertionId : Nat) (request : ConditionRequest)

def PolicyRequest.execute (config : Config) (ctx : Context) (domainName policyName : Str) :
    PolicyRequest → Execution Unit
  | .putPolicy policy => executePutPolicy config ctx domainName policyName policy
  | .putPolicyVersion version fromVersion =>
    executePutPolicyVersion config ctx domainName policyName version fromVersion
  | .setActivePolicyVersion version => executeSetActivePolicy config ctx domainName policyName version
  | .deletePolicy => executeDeletePolicy config ctx domainName policyName
  | .deletePolicyVersion version =>
    executeDeletePolicyVersion config ctx domainName policyName version
  | .putAssertion version assertion =>
    executePutAssertion config ctx domainName policyName version assertion
  | .deleteAssertion version assertionId =>
    executeDeleteAssertion config ctx domainName policyName version assertionId
  | .conditions assertionId request => request.execute config ctx domainName policyName assertionId

/-- The stores that the requests for policies reach from one without policies; in between, policies
may be dropped and everything else may change. -/
inductive Reached (config : Config) : Database → Prop
  | start (db : Database) (hempty : ∀ domainName, db.policiesOf domainName = []) : Reached config db
  | request (ctx : Context) (domainName policyName : Str) (request : PolicyRequest)
      (events : Nat → Event Failure) (hdb : Reached config db) :
      Reached config (request.execute config ctx domainName policyName db events).2
  | other (hdb : Reached config db)
      (hthins : ∀ domainName, Thins (db.policiesOf domainName) (db'.policiesOf domainName))
      (hnext : db.nextAssertionId ≤ db'.nextAssertionId) : Reached config db'

theorem Database.sound_of_empty {db : Database} (h : ∀ domainName, db.policiesOf domainName = []) :
    db.Sound := by
  have hnone {domainName policyName a} : ¬ db.HasAssertion domainName policyName a := by
    rintro ⟨policy, hpolicy, _⟩
    rw [h domainName] at hpolicy
    cases hpolicy
  refine ⟨fun _ _ _ _ _ _ ha => absurd ha hnone, fun _ _ _ ha => absurd ha hnone, ?_⟩
  intro domainName policy hpolicy
  rw [h domainName] at hpolicy
  cases hpolicy

theorem PolicyRequest.execute_sound {db : Database} (config : Config) (ctx : Context)
    (domainName policyName : Str) (request : PolicyRequest) (hdb : db.Sound)
    (events : Nat → Event Failure) :
    (request.execute config ctx domainName policyName db events).2.Sound := by
  have hsaved {body : Op Unit} (hbody : Preserves Database.Sound body) :
      Database.Sound (ZmsServer.execute config domainName body db events).2 :=
    execute_preserves (fun otherDomain time _ h => h.stamp otherDomain time) config domainName hbody
      hdb events
  have hauto {body : Op Unit} (hbody : Preserves Database.Sound body) :
      Database.Sound (executeAutoCommit config body db events).2 :=
    executeAutoCommit_preserves config hbody hdb events
  cases request with
  | putPolicy policy => exact hsaved (putPolicyBody_sound _ _ _ _ _)
  | putPolicyVersion version fromVersion => exact hsaved (putPolicyVersionBody_sound _ _ _ _ _ _)
  | setActivePolicyVersion version => exact hsaved (setActivePolicyBody_sound _ _ _ _ _)
  | deletePolicy => exact hsaved (deletePolicyBody_sound _ _ _ _)
  | deletePolicyVersion version => exact hsaved (deletePolicyVersionBody_sound _ _ _ _ _)
  | putAssertion version assertion => exact hauto (putAssertionBody_sound _ _ _ _ _ _)
  | deleteAssertion version assertionId => exact hauto (deleteAssertionBody_sound _ _ _ _ _ _)
  | conditions assertionId request =>
    have hbody := request.body_sound config ctx domainName policyName assertionId
    cases request with
    | putAssertionConditions conditions => exact hsaved hbody
    | putAssertionCondition condition => exact hsaved hbody
    | deleteAssertionConditions => exact hauto hbody
    | deleteAssertionCondition conditionId => exact hauto hbody

theorem Reached.sound (h : Reached config db) : db.Sound := by
  induction h with
  | start db hempty => exact Database.sound_of_empty hempty
  | request ctx domainName policyName request events _ ih =>
    exact request.execute_sound config ctx domainName policyName ih events
  | other _ hthins hnext ih => exact ih.of_thins hthins hnext

end Runs

end Athenz.ZmsServer
