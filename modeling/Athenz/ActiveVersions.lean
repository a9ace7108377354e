import Athenz.AdminCreation
import Athenz.Lib.Precondition
import Athenz.PolicyVersions

namespace Athenz.ZmsServer
open Lib Lib.Text Lib.Transaction Lib.Transaction.Tx
set_option autoImplicit true

section Rows

/-- A version without its assertions. -/
def PolicyRow.bare (p : PolicyRow) : PolicyRow := { p with assertions := [] }

def PolicyRow.inactive (p : PolicyRow) : PolicyRow := { p with active := false }

variable [Collation]

/-- Versions of one policy differ, at most one of them is active, and one is. -/
structure ActiveVersions (policies : List PolicyRow) : Prop where
  distinct : policies.Pairwise fun p q => p.name = q.name →
    sameText p.version q.version = false ∧ ¬ (p.active = true ∧ q.active = true)
  active : ∀ p ∈ policies, ∃ q ∈ policies, q.name = p.name ∧ q.active = true

theorem activeVersions_map {f : PolicyRow → PolicyRow} (hname : ∀ p, (f p).name = p.name)
    (hversion : ∀ p, (f p).version = p.version) (hactive : ∀ p, (f p).active = p.active) :
    ActiveVersions (policies.map f) ↔ ActiveVersions policies := by
  constructor
  · intro h
    refine ⟨?_, ?_⟩
    · refine (List.pairwise_map.1 h.distinct).imp ?_
      intro p q hpq
      rw [hname, hname, hversion, hversion, hactive, hactive] at hpq
      exact hpq
    · intro p hp
      obtain ⟨_, hmem, hsame, hq'⟩ := h.active (f p) (List.mem_map_of_mem hp)
      obtain ⟨q, hq, rfl⟩ := List.mem_map.1 hmem
      rw [hname, hname] at hsame
      rw [hactive] at hq'
      exact ⟨q, hq, hsame, hq'⟩
  · intro h
    refine ⟨?_, ?_⟩
    · refine List.pairwise_map.2 (h.distinct.imp ?_)
      intro p q hpq
      rw [hname, hname, hversion, hversion, hactive, hactive]
      exact hpq
    · intro _ hmem
      obtain ⟨p, hp, rfl⟩ := List.mem_map.1 hmem
      obtain ⟨q, hq, hsame, hq'⟩ := h.active p hp
      refine ⟨f q, List.mem_map_of_mem hq, ?_, ?_⟩
      · rw [hname, hname]
        exact hsame
      · rw [hactive]
        exact hq'

theorem ActiveVersions.congr (h : ActiveVersions policies)
    (hbare : policies'.map PolicyRow.bare = policies.map PolicyRow.bare) :
    ActiveVersions policies' := by
  rw [← activeVersions_map (f := PolicyRow.bare) (fun _ => rfl) (fun _ => rfl) fun _ => rfl, hbare]
  exact (activeVersions_map (f := PolicyRow.bare) (fun _ => rfl) (fun _ => rfl) fun _ => rfl).2 h

/-- A new version is active exactly where it is the first one. -/
theorem ActiveVersions.append (h : ActiveVersions policies)
    (hnew : ∀ p ∈ policies, p.name = policy.name → sameText p.version policy.version = false)
    (hactive : policy.active = true ↔ ∀ p ∈ policies, p.name ≠ policy.name) :
    ActiveVersions (policies ++ [policy]) := by
  refine ⟨?_, ?_⟩
  · refine List.pairwise_append.2 ⟨h.distinct, List.pairwise_singleton _ _, ?_⟩
    intro p hp q hq hname
    rw [List.mem_singleton.1 hq] at hname ⊢
    exact ⟨hnew p hp hname, fun hboth => hactive.1 hboth.2 p hp hname⟩
  · intro p hp
    obtain hp | hp := List.mem_append.1 hp
    · obtain ⟨q, hq, hname, hq'⟩ := h.active p hp
      exact ⟨q, List.mem_append_left _ hq, hname, hq'⟩
    · rw [List.mem_singleton.1 hp]
      by_cases hfirst : policy.active = true
      · exact ⟨policy, List.mem_append_right _ List.mem_cons_self, rfl, hfirst⟩
      · rw [hactive] at hfirst
        push Not at hfirst
        obtain ⟨other, hother, hname⟩ := hfirst
        obtain ⟨q, hq, hsame, hq'⟩ := h.active other hother
        exact ⟨q, List.mem_append_left _ hq, hsame.trans hname, hq'⟩

/-- Whole policies may go, and versions that are not active. -/
theorem ActiveVersions.filter (h : ActiveVersions policies) (keep : PolicyRow → Bool)
    (hkeep : ∀ p ∈ policies, ∀ q ∈ policies, keep p = true → q.name = p.name → q.active = true →
      keep q = true) : ActiveVersions (policies.filter keep) := by
  refine ⟨h.distinct.filter keep, ?_⟩
  intro p hp
  obtain ⟨hp, hkept⟩ := List.mem_filter.1 hp
  obtain ⟨q, hq, hname, hq'⟩ := h.active p hp
  exact ⟨q, List.mem_filter.2 ⟨hq, hkeep p hp q hq hkept hname hq'⟩, hname, hq'⟩

/-- The statement that switches the active version of a policy. -/
def activate (policyName version : Str) (p : PolicyRow) : PolicyRow :=
  if p.name = policyName then { p with active := sameText p.version version } else p

theorem activate_name (p : PolicyRow) : (activate policyName version p).name = p.name := by
  unfold activate
  split
  · rfl
  · rfl

theorem activate_version (p : PolicyRow) : (activate policyName version p).version = p.version := by
  unfold activate
  split
  · rfl
  · rfl

theorem activate_inactive (p : PolicyRow) :
    (activate policyName version p).inactive = p.inactive := by
  unfold activate
  split
  · rfl
  · rfl

theorem activate_active (p : PolicyRow) : (activate policyName version p).active = true ↔
    if p.name = policyName then sameText p.version version = true else p.active = true := by
  unfold activate
  split
  · exact Iff.rfl
  · exact Iff.rfl

/-- An existing version of a policy can be made the active one. -/
theorem ActiveVersions.activate (h : ActiveVersions policies)
    (hexists : ∃ p ∈ policies, p.name = policyName ∧ sameText p.version version = true) :
    ActiveVersions (policies.map (activate policyName version)) := by
  refine ⟨?_, ?_⟩
  · refine List.pairwise_map.2 (h.distinct.imp ?_)
    intro p q hpq hname
    rw [activate_name, activate_name] at hname
    rw [activate_version, activate_version]
    obtain ⟨hversion, hactive⟩ := hpq hname
    refine ⟨hversion, ?_⟩
    rintro ⟨hp, hq⟩
    rw [activate_active] at hp hq
    by_cases hpolicy : p.name = policyName
    · rw [if_pos hpolicy] at hp
      rw [if_pos (hname.symm.trans hpolicy)] at hq
      have hsame : sameText p.version q.version = true :=
        sameText_iff.2 ((sameText_iff.1 hp).trans (sameText_iff.1 hq).symm)
      rw [hversion] at hsame
      cases hsame
    · rw [if_neg hpolicy] at hp
      rw [if_neg fun hq => hpolicy (hname.trans hq)] at hq
      exact hactive ⟨hp, hq⟩
  · intro _ hmem
    obtain ⟨p, hp, rfl⟩ := List.mem_map.1 hmem
    rw [activate_name]
    by_cases hpolicy : p.name = policyName
    · obtain ⟨q, hq, hname, hversion⟩ := hexists
      refine ⟨_, List.mem_map_of_mem hq, ?_, ?_⟩
      · rw [activate_name, hname, hpolicy]
      · rw [activate_active, if_pos hname]
        exact hversion
    · obtain ⟨q, hq, hname, hq'⟩ := h.active p hp
      refine ⟨_, List.mem_map_of_mem hq, ?_, ?_⟩
      · rw [activate_name, hname]
      · rw [activate_active, if_neg fun hq => hpolicy (hname.symm.trans hq)]
        exact hq'

end Rows

section Statements

variable [Collation]

/-- Every policy has exactly one active version. -/
def OneActive (db : Database) : Prop := ∀ domainName, ActiveVersions (db.policiesOf domainName)

theorem OneActive.insert {db : Database} (h : OneActive db)
    (hrow : db.domains.lookup domainName = some row)
    (hpolicies : ActiveVersions row.policies → ActiveVersions row'.policies) :
    OneActive ⟨db.domains.insert domainName row', nextAssertionId⟩ := by
  intro otherName
  have hother := h otherName
  unfold Database.policiesOf at hother ⊢
  rw [Map.lookup_insert]
  split
  · rename_i hsame
    rw [hsame, hrow] at hother
    exact hpolicies hother
  · exact hother

theorem OneActive.stamp (h : OneActive db) (domainName : Str) (time : Int) :
    OneActive (stampDomain domainName time db) := by
  intro otherName
  rw [policiesOf_stampDomain]
  exact h otherName

omit [Collation] in
theorem bare_set {policies : List PolicyRow} {policy policy' : PolicyRow} (hpolicy : policies[i]? = some policy)
    (hbare : policy'.bare = policy.bare) :
    (policies.set i policy').map PolicyRow.bare = policies.map PolicyRow.bare := by
  obtain ⟨hlt, rfl⟩ := List.getElem?_eq_some_iff.1 hpolicy
  rw [List.map_set, hbare, ← List.getElem_map PolicyRow.bare, List.set_getElem_self]
  rwa [List.length_map]

theorem onDomain_oneActive {f : DomainRow → Except Failure (α × DomainRow)}
    (hf : ∀ row a row', f row = .ok (a, row') → ActiveVersions row.policies →
      ActiveVersions row'.policies) : Preserves OneActive (onDomain domainName f) :=
  onDomain_preserves fun _ row a row' hrow hrun hdb => hdb.insert hrow (hf row a row' hrun)

theorem onDomain_from {f : DomainRow → Except Failure (α × DomainRow)} {J : Database → Prop}
    (hf : ∀ db row a row', db.domains.lookup domainName = some row → f row = .ok (a, row') → J db →
      ActiveVersions row.policies → ActiveVersions row'.policies) :
    PreservesFrom J OneActive (onDomain domainName f) := by
  refine PreservesFrom.statement fun time db a db' hdb hJ hrun => ?_
  split at hrun
  · cases hrun
  · rename_i row hrow
    obtain ⟨⟨_, row'⟩, hstep, hrun⟩ := Result.bind_eq_ok.1 hrun
    cases hrun
    exact hdb.insert hrow (hf db row a row' hrow hstep hJ)

theorem changePolicy_oneActive {f : PolicyRow → Except Failure (α × PolicyRow)}
    (hf : ∀ policy a policy', f policy = .ok (a, policy') → policy'.bare = policy.bare)
    (policyName : Str) (version : Option Str) :
    Preserves OneActive (onDomain domainName (changePolicy domainName policyName version f)) := by
  refine onDomain_oneActive fun row a row' hrun hrow => ?_
  obtain ⟨i, policy, policy', _, hpolicy, hstep, rfl⟩ := changePolicy_eq_ok.1 hrun
  exact hrow.congr (bare_set hpolicy (hf policy a policy' hstep))

theorem updatePolicyModTimestamp_oneActive (domainName policyName : Str) (version : Option Str) :
    Preserves OneActive (updatePolicyModTimestamp domainName policyName version) := by
  refine changePolicy_oneActive (fun policy a policy' h => ?_) policyName version
  cases h
  rfl

theorem updatePolicy_oneActive (domainName : Str) (policy : Policy) :
    Preserves OneActive (updatePolicy domainName policy) :=
  (objectName_preserves _ _ _).bind fun policyName => updatePolicyModTimestamp_oneActive _ policyName _

theorem deleteAssertion_oneActive (domainName policyName : Str) (version : Option Str) (id : Nat) :
    Preserves OneActive (deleteAssertion domainName policyName version id) := by
  refine changePolicy_oneActive (fun policy a policy' h => ?_) policyName version
  cases h
  rfl

theorem insertAssertion_oneActive (domainName policyName : Str) (version : Option Str)
    (assertion : Assertion) :
    Preserves OneActive (insertAssertion domainName policyName version assertion) := by
  obtain ⟨f, hf, hinserted⟩ := insertAssertion_statement domainName policyName version assertion
  rw [hf]
  refine (objectName_preserves _ _ _).bind fun roleName => .statement fun time db added db' hdb hrun => ?_
  obtain ⟨row, i, policy, hrow, _, hpolicy, ⟨_, _, rfl⟩ | ⟨_, _, rfl⟩⟩ :=
    hinserted _ _ _ _ _ hrun
  · exact hdb.insert hrow id
  · exact hdb.insert hrow fun h => h.congr (bare_set hpolicy rfl)

theorem insertSingle_oneActive (assertionId : Nat) (conditionId : Int)
    (conditionsMap : Map Str AssertionConditionData) :
    Preserves OneActive (insertSingleAssertionCondition assertionId conditionId conditionsMap) := by
  refine .statement fun time db done db' hdb hrun => ?_
  rcases insertConditionRows_eq_ok hrun with ⟨_, _, rfl⟩ | ⟨_, _, _, rfl⟩
  · exact hdb
  · intro domainName
    rw [policiesOf_setConditions]
    refine (activeVersions_map (fun _ => ?_) (fun _ => ?_) fun _ => ?_).2 (hdb domainName)
    · rfl
    · rfl
    · rfl

theorem insertConditionsFrom_oneActive (assertionId : Nat) (result : Bool)
    (conditions : List AssertionCondition) :
    Preserves OneActive (insertConditionsFrom assertionId result conditions) := by
  induction conditions generalizing result with
  | nil => exact .pure result
  | cons condition conditions ih =>
    refine Preserves.bind ?_ fun result => ih result
    exact (Preserves.query _).bind fun conditionId =>
      .ite (fun _ => insertSingle_oneActive _ _ _) fun _ => .pure false

/-- The first version of a policy is to be active, and no other one. -/
def ActiveIfFirst (domainName policyName : Str) (active : Bool) (db : Database) : Prop :=
  active = true ↔ ∀ p ∈ db.policiesOf domainName, p.name ≠ policyName

theorem policyRow_none_iff (h : OneActive db) : db.policyRow domainName policyName none = none ↔
    ∀ p ∈ db.policiesOf domainName, p.name ≠ policyName := by
  have hrow : db.policyRow domainName policyName none =
      (db.policiesOf domainName).find? (PolicyRow.isVersion policyName none) := by
    unfold Database.policyRow Database.policiesOf
    cases db.domains.lookup domainName with
    | none => rfl
    | some row => rfl
  rw [hrow, List.find?_eq_none]
  constructor
  · intro hnone p hp hname
    obtain ⟨q, hq, hsame, hactive⟩ := (h domainName).active p hp
    exact hnone q hq (isVersion_none.2 ⟨hsame.trans hname, hactive⟩)
  · intro hnone p hp hversion
    exact hnone p hp (isVersion_none.1 hversion).1

theorem isVersion_of_isEmptyVersion (h : isEmptyVersion version = true) :
    PolicyRow.isVersion policyName version = PolicyRow.isVersion policyName none := by
  funext p
  unfold PolicyRow.isVersion
  rw [h]
  rfl

theorem insertPolicyRow_oneActive (domainName policyName version : Str) (active : Bool) :
    PreservesFrom (ActiveIfFirst domainName policyName active) OneActive
      (insertPolicyRow domainName policyName version active) := by
  refine onDomain_from fun db row done row' hrow hrun hfirst h => ?_
  have hpolicies : db.policiesOf domainName = row.policies := by
    rw [Database.policiesOf, hrow]
    rfl
  rw [ActiveIfFirst, hpolicies] at hfirst
  split at hrun
  · cases hrun
  · rename_i hnone
    cases hrun
    refine h.append (fun p hp hname => ?_) hfirst
    refine Bool.eq_false_iff.2 fun hversion => hnone (List.any_eq_true.2 ⟨p, hp, ?_⟩)
    rw [Bool.and_eq_true, decide_eq_true_eq]
    exact ⟨hname, hversion⟩

/-- A policy that is inserted without a version becomes active. -/
theorem insertPolicy_oneActive {policy : Policy}
    (hname : policy.name = policyResourceName domainName policyName) :
    PreservesFrom (fun db => ∀ active, (if isEmptyVersion policy.version then some true
        else policy.active) = some active → ActiveIfFirst domainName policyName active db)
      OneActive (insertPolicy domainName policy) := by
  unfold insertPolicy
  rw [hname, policyResourceName, objectName_append]
  cases hversion : isEmptyVersion policy.version with
  | true => exact (insertPolicyRow_oneActive _ _ _ true).mono fun db _ h => h true rfl
  | false =>
    cases hactive : policy.active with
    | none =>
      exact Preserves.from (((readDomain_reading _ _).preserves _).bind fun _ => .raise _)
    | some active =>
      exact (insertPolicyRow_oneActive _ _ _ active).mono fun db _ h => h active rfl

end Statements

section Requests

variable [Collation]

theorem insertAssertions_oneActive (domainName policyName : Str) (version : Option Str)
    (assertions : List Assertion) :
    Preserves OneActive (insertAssertions domainName policyName version assertions) :=
  .forAll fun assertion _ => (insertAssertion_oneActive _ _ version assertion).bind fun _ => .pure true

theorem processPolicy_update_oneActive (original : Policy) (domainName policyName : Str)
    (policy : Policy) (ignoreDeletes : Bool) :
    Preserves OneActive
      (processPolicy (some original) domainName policyName policy ignoreDeletes) := by
  have hdelete (version : Option Str) (assertions : List Assertion) : Preserves OneActive
      (deleteAssertions domainName policyName version assertions) := by
    refine .forAll fun assertion _ => ?_
    cases assertion.id with
    | none => exact .raise _
    | some id => exact deleteAssertion_oneActive _ _ version id
  exact (updatePolicy_oneActive _ _).both
    (.both (.ite (fun _ => .pure true) fun _ => hdelete _ _) (insertAssertions_oneActive _ _ _ _))

theorem processPolicy_insert_oneActive {policy : Policy}
    (hname : policy.name = policyResourceName domainName policyName) (ignoreDeletes : Bool) :
    PreservesFrom (fun db => ∀ active, (if isEmptyVersion policy.version then some true
        else policy.active) = some active → ActiveIfFirst domainName policyName active db)
      OneActive (processPolicy none domainName policyName policy ignoreDeletes) :=
  (insertPolicy_oneActive hname).both (insertAssertions_oneActive _ _ _ _)

theorem putPolicyBody_oneActive (config : Config) (ctx : Context) {policy : Policy}
    (hname : policy.name = policyResourceName domainName policyName) :
    Preserves OneActive (putPolicyBody config ctx domainName policyName policy) := by
  refine ((checkDomainAuditEnabled_reading _ _ _ _).preserves _).bind fun _ =>
    ((checkPolicyQuota_reading _ _ _).preserves _).bind fun _ =>
      Preserves.query_from fun db hdb => ?_
  cases horiginal : db.policyRow domainName policyName policy.version with
  | some row =>
    have hcheck : checkPolicyVersion domainName policyName policy
        (some (savePolicy domainName row)) = pure () := by
      rw [checkPolicyVersion, Option.isNone_some, Bool.and_false]
      rfl
    rw [Option.map_some, hcheck]
    exact Preserves.from ((processPolicy_update_oneActive _ _ _ _ _).bind fun _ => .ensure _ _)
  | none =>
    have hprocess := (processPolicy_insert_oneActive hname false).bind
      (f := fun done => Tx.ensure done
        (internalServerError ("unable to put policy: ".toList ++ policy.name))) fun _ => .ensure _ _
    rw [Option.map_none, checkPolicyVersion, Option.isNone_none, Bool.and_true]
    cases hversion : isEmptyVersion policy.version with
    | true =>
      refine hprocess.mono ?_
      rintro _ _ rfl active hactive
      rw [hversion] at hactive
      cases hactive
      rw [Database.policyRow, isVersion_of_isEmptyVersion hversion, ← Database.policyRow] at horiginal
      exact ⟨fun _ => (policyRow_none_iff hdb).1 horiginal, fun _ => rfl⟩
    | false =>
      rw [Bool.not_false, if_pos rfl, Tx.bind_assoc]
      refine PreservesFrom.query_bind ?_
      rintro _ _ rfl
      cases hactive : policy.active with
      | none => exact (Preserves.raise _).from
      | some active =>
        dsimp only
        rw [Tx.bind_assoc]
        refine PreservesFrom.ensure_bind fun hfirst => PreservesFrom.ensure_bind fun hother => ?_
        refine hprocess.mono ?_
        rintro _ _ rfl active' hactive'
        rw [hversion, hactive] at hactive'
        cases hactive'
        rw [ActiveIfFirst, ← policyRow_none_iff hdb, ← Option.not_isSome_iff_eq_none,
          ← Option.isSome_map (f := savePolicy domainName)]
        generalize (Option.map (savePolicy domainName) _).isSome = known at hfirst hother
        revert hfirst hother
        cases active <;> cases known <;> decide

theorem copyAssertion_oneActive (domainName policyName : Str) (version : Version)
    (assertion : Assertion) :
    Preserves OneActive (copyAssertion domainName policyName version assertion) := by
  unfold copyAssertion
  cases assertion.id with
  | none => exact (insertAssertion_oneActive _ _ _ _).bind fun _ => .pure true
  | some id =>
    exact (Preserves.query _).bind fun conditions => (insertAssertion_oneActive _ _ _ _).bind fun added =>
      .ite (fun _ => .pure true) fun _ => insertConditionsFrom_oneActive _ true _

/-- The version that a search finds belongs to the policy. -/
theorem mem_policiesOf_of_policyRow {db : Database}
    (h : db.policyRow domainName policyName version = some policy) :
    policy ∈ db.policiesOf domainName ∧ policy.isVersion policyName version = true := by
  obtain ⟨row, hrow, hfind⟩ := Option.bind_eq_some_iff.1 h
  rw [Database.policiesOf, hrow]
  exact ⟨List.mem_of_find?_eq_some hfind, List.find?_some hfind⟩

theorem name_of_isVersion (h : PolicyRow.isVersion policyName version policy = true) :
    policy.name = policyName := by
  rw [PolicyRow.isVersion, Bool.and_eq_true, decide_eq_true_eq] at h
  exact h.1

theorem putPolicyVersionBody_oneActive (config : Config) (ctx : Context)
    (domainName policyName : Str) (version : Version) (fromVersion : Option Str) :
    Preserves OneActive
      (putPolicyVersionBody config ctx domainName policyName version fromVersion) := by
  refine ((checkDomainAuditEnabled_reading _ _ _ _).preserves _).bind fun _ =>
    ((readDomain_reading _ _).preserves _).bind fun versions => (Preserves.ensure _ _).bind fun _ =>
      Preserves.query_from fun db hdb => ?_
  cases hsource : db.policyRow domainName policyName fromVersion with
  | none => exact (Preserves.abort _).from
  | some source =>
    obtain ⟨hmem, hversion⟩ := mem_policiesOf_of_policyRow hsource
    have hname := name_of_isVersion hversion
    have hempty : isEmptyVersion (some version.1) = false := decide_eq_false version.2
    have hcopy : Policy.name { savePolicy domainName source with
        version := some version.1, active := some false } =
        policyResourceName domainName policyName := by
      rw [← hname]
      rfl
    refine (checkPolicyQuota_reading _ _ _).preservesFrom_bind fun _ =>
      PreservesFrom.bind ?_ fun _ => .ensure _ _
    refine ((insertPolicy_oneActive hcopy).mono ?_).both
      (.forAll fun assertion _ => copyAssertion_oneActive _ _ version assertion)
    rintro _ _ rfl active hactive
    rw [hempty] at hactive
    cases hactive
    exact ⟨fun h => absurd h (by decide), fun hnone => absurd hname (hnone source hmem)⟩

theorem setActivePolicyVersion_oneActive (domainName policyName version : Str) :
    PreservesFrom (fun db => ∃ p ∈ db.policiesOf domainName, p.name = policyName ∧
        sameText p.version version = true) OneActive
      (setActivePolicyVersion domainName policyName version) := by
  refine onDomain_from fun db row done row' hrow hrun hexists h => ?_
  rw [Database.policiesOf, hrow] at hexists
  cases hrun
  exact h.activate hexists

theorem setActivePolicyBody_oneActive (config : Config) (ctx : Context)
    (domainName policyName : Str) (version : Version) :
    Preserves OneActive (setActivePolicyBody config ctx domainName policyName version) := by
  refine ((checkDomainAuditEnabled_reading _ _ _ _).preserves _).bind fun _ =>
    (Preserves.query _).bind fun original => ?_
  cases original with
  | none => exact .abort _
  | some original =>
    refine Preserves.query_from fun db hdb => PreservesFrom.ensure_bind fun hfound => ?_
    rw [Option.isSome_map] at hfound
    obtain ⟨policy, hpolicy⟩ := Option.isSome_iff_exists.1 hfound
    obtain ⟨hmem, hversion⟩ := mem_policiesOf_of_policyRow hpolicy
    have hempty : isEmptyVersion (some version.1) = false := decide_eq_false version.2
    rw [PolicyRow.isVersion, Bool.and_eq_true, decide_eq_true_eq, hempty] at hversion
    refine PreservesFrom.bind ?_ fun _ => .ensure _ _
    refine ((setActivePolicyVersion_oneActive domainName policyName version.1).mono ?_).both
      ((updatePolicyModTimestamp_oneActive _ _ _).both (updatePolicyModTimestamp_oneActive _ _ _))
    rintro _ _ rfl
    exact ⟨policy, hmem, hversion⟩

theorem deletePolicyBody_oneActive (config : Config) (ctx : Context) (domainName policyName : Str) :
    Preserves OneActive (deletePolicyBody config ctx domainName policyName) := by
  have hdelete : Preserves OneActive (deletePolicy domainName policyName) := by
    refine onDomain_oneActive fun row done row' hrun h => ?_
    cases hrun
    refine h.filter _ fun p _ q _ hkept hname _ => ?_
    rw [hname]
    exact hkept
  exact ((checkDomainAuditEnabled_reading _ _ _ _).preserves _).bind fun _ =>
    ((readDomain_reading _ _).preserves _).bind fun _ => (Preserves.ensure _ _).bind fun _ =>
      (Preserves.forAll fun _ _ => (Preserves.query _).bind fun _ => .pure _).bind fun _ =>
        (Preserves.ensure _ _).bind fun _ => hdelete.bind fun _ => .ensure _ _

theorem deletePolicyVersionBody_oneActive (config : Config) (ctx : Context)
    (domainName policyName : Str) (version : Version) :
    Preserves OneActive (deletePolicyVersionBody config ctx domainName policyName version) := by
  have hdelete : Preserves OneActive (deletePolicyVersion domainName policyName version.1) := by
    refine onDomain_oneActive fun row done row' hrun h => ?_
    cases hrun
    refine h.filter _ fun p _ q _ _ _ hactive => ?_
    dsimp only
    rw [hactive, Bool.not_true, Bool.and_false, Bool.not_false]
  refine ((checkDomainAuditEnabled_reading _ _ _ _).preserves _).bind fun _ =>
    (Preserves.query _).bind fun found => ?_
  cases found with
  | none => exact .abort _
  | some policy =>
    exact (Preserves.ensure _ _).bind fun _ => hdelete.bind fun _ => .ensure _ _

end Requests

section Templates

/-- A statement that leaves the policies of its domain alone. -/
theorem onDomain_samePolicies [Collation] {f : DomainRow → Except Failure (α × DomainRow)}
    (hf : ∀ row a row', f row = .ok (a, row') → row'.policies = row.policies) :
    Preserves OneActive (onDomain domainName f) :=
  onDomain_oneActive fun row a row' hrun h => by
    rw [hf row a row' hrun]
    exact h

variable [Collation]

theorem roleTable_admits_oneActive (domainName roleName : Str)
    (R : Collection RoleSettings → Collection RoleSettings → Prop) :
    roleTable.Admits OneActive domainName roleName R := by
  intro db stored stored' hfind _ hdb
  obtain ⟨row, hrow, _⟩ := Option.bind_eq_some_iff.1 hfind
  rw [Table.focus_put hrow]
  exact hdb.insert hrow id

theorem roleTable_admitsNew_oneActive (domainName roleName : Str) (settings : RoleSettings) :
    roleTable.AdmitsNew OneActive domainName roleName settings := by
  intro db row hrow _ hdb
  rw [Table.focus_put hrow]
  exact hdb.insert hrow id

theorem roleTable_ignores_oneActive (domainName roleName : Str) :
    roleTable.Ignores OneActive domainName roleName where
  beside := roleTable_admits_oneActive _ _ _
  stamp time _ h := h.stamp domainName time

theorem onService_oneActive (domainName serviceName : Str)
    (f : ServiceRow → Except Failure (α × ServiceRow)) :
    Preserves OneActive (onService domainName serviceName f) := by
  refine onDomain_samePolicies fun row a row' h => ?_
  split at h
  · cases h
  · obtain ⟨⟨_, service⟩, _, h⟩ := Result.bind_eq_ok.1 h
    cases h
    rfl

theorem processServiceIdentity_oneActive (originalService : Option ServiceIdentity)
    (domainName serviceName : Str) (service : ServiceIdentity) (ignoreDeletes : Bool) :
    Preserves OneActive (processServiceIdentity originalService domainName serviceName service
      ignoreDeletes) := by
  have hinsert service : Preserves OneActive (insertServiceIdentity domainName service) := by
    refine (objectName_preserves _ _ _).bind fun serviceName =>
      onDomain_samePolicies fun row a row' h => ?_
    split at h
    · cases h
    · cases h
      rfl
  have hkeys : ∀ keys, Preserves OneActive
      (Tx.forAll (insertPublicKeyEntry domainName serviceName) keys) :=
    fun keys => .forAll fun _ _ => onService_oneActive _ _ _
  refine Preserves.both ?_ ((Preserves.forAll fun _ _ => onService_oneActive _ _ _).both
    (.forAll fun _ _ => onService_oneActive _ _ _))
  cases originalService with
  | none => exact (hinsert _).both (hkeys _)
  | some original =>
    refine Preserves.both ?_ (Preserves.both ?_ (hkeys _))
    · exact (objectName_preserves _ _ _).bind fun _ => onService_oneActive _ _ _
    · exact .ite (fun _ => .pure true) fun _ => .forAll fun _ _ => onService_oneActive _ _ _

theorem listTemplate_oneActive (domainName templateName : Str) (template : Template) :
    Preserves OneActive (listTemplate domainName templateName template) := by
  have hlisted : Preserves OneActive (ensureListed domainName templateName) := by
    refine ((readDomain_reading _ _).preserves _).bind fun _ => .ite (fun _ => .pure ()) fun _ => ?_
    refine onDomain_samePolicies fun row a row' h => ?_
    split at h
    · cases h
    · cases h
      rfl
  refine hlisted.bind fun _ => ?_
  cases template.metadata with
  | none => exact .raise _
  | some metadata =>
    dsimp only
    cases metadata.latestVersion with
    | none => exact .pure true
    | some version =>
      refine Preserves.bind (onDomain_samePolicies fun row a row' h => ?_) fun _ => .pure true
      split at h
      · cases h
        rfl
      · cases h
        rfl

theorem addTemplatePolicy_oneActive (domainName : Str) (params : Option (List TemplateParam))
    (policy : Policy) : Preserves OneActive (addTemplatePolicy domainName params policy) := by
  refine Preserves.query_from fun db hdb => ?_
  cases horiginal : db.policyRow domainName (removeDomainPrefix
      (updateTemplatePolicy policy domainName params).name domainName ":policy.") none with
  | some row => exact (processPolicy_update_oneActive _ _ _ _ _).from
  | none =>
    cases hextract : extractObjectName domainName (updateTemplatePolicy policy domainName params).name
      ":policy." with
    | none =>
      refine PreservesFrom.both ?_ (insertAssertions_oneActive _ _ _ _)
      unfold insertPolicy objectName
      rw [hextract]
      exact (Preserves.abort _).from
    | some policyName =>
      have hstripped : removeDomainPrefix (updateTemplatePolicy policy domainName params).name
          domainName ":policy." = policyName := by
        unfold removeDomainPrefix
        rw [hextract]
        rfl
      rw [hstripped] at horiginal ⊢
      refine (processPolicy_insert_oneActive (extractObjectName_eq hextract) true).mono ?_
      rintro _ _ rfl active hactive
      cases hactive
      exact ⟨fun _ => (policyRow_none_iff hdb).1 horiginal, fun _ => rfl⟩

variable [CaseRules]

theorem processRole_oneActive (config : Config) (originalRole : Option Role)
    (domainName roleName : Str) (role : Role) (admin : Option Str) (ignoreDeletes : Bool) :
    Preserves OneActive
      (processRole config originalRole domainName roleName role admin ignoreDeletes) := by
  have hignores := roleTable_ignores_oneActive domainName roleName
  have htags := hignores.processTags config.roleTagsLimit role.tags
  have hjoins : ∀ member ∈ role.roleMembers.getD [],
      roleTable.Admits OneActive domainName roleName (roleTable.Joins member admin) :=
    fun _ _ => roleTable_admits_oneActive _ _ _
  cases originalRole with
  | none =>
    refine Preserves.both ?_ (Preserves.both (hignores.insertMembers hjoins) (htags none))
    exact (objectName_preserves _ _ _).bind fun _ =>
      Table.insertRow_admits (roleTable_admitsNew_oneActive _ _ _)
  | some original =>
    refine Preserves.both ?_ (Preserves.both
      (hignores.processUpdateMembers hjoins (fun _ => roleTable_admits_oneActive _ _ _)
        original.roleMembers ignoreDeletes) (htags (some original.tags)))
    exact (objectName_preserves _ _ _).bind fun _ =>
      Table.updateRow_admits (roleTable_admits_oneActive _ _ _)

theorem putDomainTemplateBody_oneActive (config : Config) (ctx : Context) (domainName : Str)
    (templateNames : List Str) (params : Option (List TemplateParam)) :
    Preserves OneActive (putDomainTemplateBody config ctx domainName templateNames params) := by
  refine ((checkDomainAuditEnabled_reading _ _ _ _).preserves _).bind fun _ =>
    Preserves.bind (.forAll fun templateName _ => ?_) fun _ => .ensure _ _
  unfold addSolutionTemplate
  cases config.templates.lookup templateName with
  | none => exact .pure true
  | some template =>
    refine Preserves.both (.forAll fun role _ => (Preserves.query _).bind fun _ =>
      processRole_oneActive _ _ _ _ _ _ _) (Preserves.both (.forAll fun policy _ =>
        addTemplatePolicy_oneActive _ _ policy) (Preserves.both (.forAll fun service _ => ?_)
          (listTemplate_oneActive _ _ _)))
    exact (Preserves.query _).bind fun _ => processServiceIdentity_oneActive _ _ _ _ _

end Templates

section Activation

variable [Collation]

/-- The policies of each domain, whichever versions are active. -/
def Database.inactive (db : Database) (domainName : Str) : List PolicyRow :=
  (db.policiesOf domainName).map PolicyRow.inactive

theorem setActivePolicyBody_inactive (config : Config) (ctx : Context)
    (domainName policyName : Str) (version : Version) (before : Str → List PolicyRow) :
    Preserves (fun db => db.inactive = before)
      (setActivePolicyBody config ctx domainName policyName version) := by
  have hstatement : ∀ {f : DomainRow → Except Failure (Bool × DomainRow)},
      (∀ row a row', f row = .ok (a, row') →
        row'.policies.map PolicyRow.inactive = row.policies.map PolicyRow.inactive) →
      Preserves (fun db : Database => db.inactive = before) (onDomain domainName f) := by
    intro f hf
    refine onDomain_preserves fun db row a row' hrow hrun hdb => ?_
    rw [← hdb]
    funext otherName
    show (Database.policiesOf ⟨db.domains.insert domainName row', _⟩ otherName).map _ = _
    unfold Database.inactive Database.policiesOf
    rw [Map.lookup_insert]
    split
    · rename_i hsame
      rw [hsame, hrow]
      exact hf row a row' hrun
    · rfl
  have htime (version : Option Str) : Preserves (fun db : Database => db.inactive = before)
      (updatePolicyModTimestamp domainName policyName version) := by
    refine hstatement fun row a row' hrun => ?_
    obtain ⟨i, policy, policy', _, hpolicy, hstep, rfl⟩ := changePolicy_eq_ok.1 hrun
    cases hstep
    obtain ⟨hlt, rfl⟩ := List.getElem?_eq_some_iff.1 hpolicy
    dsimp only
    rw [List.set_getElem_self]
  refine ((checkDomainAuditEnabled_reading _ _ _ _).preserves _).bind fun _ =>
    (Preserves.query _).bind fun original => ?_
  cases original with
  | none => exact .abort _
  | some original =>
    refine (Preserves.query _).bind fun newActive => (Preserves.ensure _ _).bind fun _ =>
      Preserves.bind ?_ fun _ => .ensure _ _
    refine Preserves.both (hstatement fun row a row' hrun => ?_) ((htime _).both (htime _))
    cases hrun
    dsimp only
    rw [List.map_map]
    exact List.map_congr_left fun p _ => activate_inactive p

end Activation

section Runs

variable [Collation] [CaseRules]

/-- The requests that write the versions of policies, and those for templates. -/
inductive VersionRequest where
  | putPolicy (policyName : Str) (policy : Policy)
  | putPolicyVersion (policyName : Str) (version : Version) (fromVersion : Option Str)
  | setActivePolicy (policyName : Str) (version : Version)
  | deletePolicyVersion (policyName : Str) (version : Version)
  | deletePolicy (policyName : Str)
  | putDomainTemplate (templateNames : List Str) (params : Option (List TemplateParam))

namespace VersionRequest

/-- A policy is put under its own name. -/
def Consistent (domainName : Str) : VersionRequest → Prop
  | .putPolicy policyName policy => policy.name = policyResourceName domainName policyName
  | _ => True

def execute (config : Config) (ctx : Context) (domainName : Str) : VersionRequest → Execution Unit
  | .putPolicy policyName policy => executePutPolicy config ctx domainName policyName policy
  | .putPolicyVersion policyName version fromVersion =>
    executePutPolicyVersion config ctx domainName policyName version fromVersion
  | .setActivePolicy policyName version =>
    executeSetActivePolicy config ctx domainName policyName version
  | .deletePolicyVersion policyName version =>
    executeDeletePolicyVersion config ctx domainName policyName version
  | .deletePolicy policyName => executeDeletePolicy config ctx domainName policyName
  | .putDomainTemplate templateNames params =>
    executePutDomainTemplate config ctx domainName templateNames params

theorem execute_oneActive {db : Database} (config : Config) (ctx : Context)
    {request : VersionRequest} (h : request.Consistent domainName) (hdb : OneActive db)
    (events : Nat → Event Failure) :
    OneActive (request.execute config ctx domainName db events).2 := by
  have hsaved {body : Op Unit} (hbody : Preserves OneActive body) :
      OneActive (ZmsServer.execute config domainName body db events).2 :=
    execute_preserves (fun otherDomain time _ h => h.stamp otherDomain time) config domainName hbody
      hdb events
  cases request with
  | putPolicy policyName policy => exact hsaved (putPolicyBody_oneActive _ _ h)
  | putPolicyVersion policyName version fromVersion =>
    exact hsaved (putPolicyVersionBody_oneActive _ _ _ _ _ _)
  | setActivePolicy policyName version => exact hsaved (setActivePolicyBody_oneActive _ _ _ _ _)
  | deletePolicyVersion policyName version =>
    exact hsaved (deletePolicyVersionBody_oneActive _ _ _ _ _)
  | deletePolicy policyName => exact hsaved (deletePolicyBody_oneActive _ _ _ _)
  | putDomainTemplate templateNames params =>
    exact hsaved (putDomainTemplateBody_oneActive _ _ _ _ _)

end VersionRequest

/-- The stores that such requests reach from one without policies, whatever fails on the way. -/
inductive VersionsReached (config : Config) : Database → Prop
  | start (db : Database) (hempty : ∀ domainName, db.policiesOf domainName = []) :
    VersionsReached config db
  | request (ctx : Context) (domainName : Str) (request : VersionRequest)
      (events : Nat → Event Failure) (hconsistent : request.Consistent domainName)
      (hdb : VersionsReached config db) :
      VersionsReached config (request.execute config ctx domainName db events).2

theorem VersionsReached.oneActive (h : VersionsReached config db) : OneActive db := by
  induction h with
  | start db hempty =>
    intro domainName
    rw [hempty]
    exact ⟨.nil, fun p hp => absurd hp List.not_mem_nil⟩
  | request ctx domainName request events hconsistent _ ih =>
    exact request.execute_oneActive config ctx hconsistent ih events

/-- The versions of a policy in a domain. -/
def policyVersions (db : Database) (domainName policyName : Str) : List PolicyRow :=
  (db.policiesOf domainName).filter (·.name = policyName)

omit [CaseRules] in
theorem OneActive.versions_nodup (h : OneActive db) (domainName policyName : Str) :
    ((policyVersions db domainName policyName).map (·.version)).Nodup := by
  refine List.pairwise_map.2 (List.Pairwise.imp_of_mem ?_ ((h domainName).distinct.filter _))
  intro p q hp hq hpq hversion
  have hname : p.name = q.name :=
    (of_decide_eq_true (List.mem_filter.1 hp).2).trans (of_decide_eq_true (List.mem_filter.1 hq).2).symm
  have hdiffer := (hpq hname).1
  rw [hversion, sameText_refl] at hdiffer
  cases hdiffer

omit [CaseRules] in
theorem OneActive.length_active (h : OneActive db) (domainName policyName : Str)
    (hsome : policyVersions db domainName policyName ≠ []) :
    ((policyVersions db domainName policyName).filter (·.active)).length = 1 := by
  obtain ⟨p, hp⟩ := List.exists_mem_of_ne_nil _ hsome
  obtain ⟨hp, hname⟩ := List.mem_filter.1 hp
  obtain ⟨q, hq, hsame, hactive⟩ := (h domainName).active p hp
  have hmem : q ∈ (policyVersions db domainName policyName).filter (·.active) :=
    List.mem_filter.2 ⟨List.mem_filter.2 ⟨hq, by rw [hsame]; exact hname⟩, hactive⟩
  have hpairs : ((policyVersions db domainName policyName).filter (·.active)).Pairwise
      fun _ _ => False := by
    refine List.Pairwise.imp_of_mem ?_ (((h domainName).distinct.filter _).filter _)
    intro p q hp hq hpq
    obtain ⟨hp, hpactive⟩ := List.mem_filter.1 hp
    obtain ⟨hq, hqactive⟩ := List.mem_filter.1 hq
    have hname := (of_decide_eq_true (List.mem_filter.1 hp).2).trans
      (of_decide_eq_true (List.mem_filter.1 hq).2).symm
    exact (hpq hname).2 ⟨hpactive, hqactive⟩
  generalize (policyVersions db domainName policyName).filter (·.active) = active at hmem hpairs
  cases hmem with
  | head rest =>
    cases hpairs with
    | cons hfirst _ =>
      cases rest with
      | nil => rfl
      | cons other rest => exact (hfirst other List.mem_cons_self).elim
  | tail first hmem =>
    cases hpairs with
    | cons hfirst _ => exact (hfirst q hmem).elim

/-- In every store that requests reach, a policy with versions has one active version, and its
versions are distinct; switching the active version changes no assertion of any version. -/
theorem one_active_version (config : Config) :
    (∀ db, VersionsReached config db → ∀ domainName policyName,
      ((policyVersions db domainName policyName).map (·.version)).Nodup ∧
      (policyVersions db domainName policyName ≠ [] →
        ((policyVersions db domainName policyName).filter (·.active)).length = 1)) ∧
    ∀ ctx domainName policyName version db events,
      (executeSetActivePolicy config ctx domainName policyName version db events).2.inactive =
        db.inactive := by
  constructor
  · intro db hdb domainName policyName
    have h := hdb.oneActive
    exact ⟨h.versions_nodup domainName policyName, h.length_active domainName policyName⟩
  · intro ctx domainName policyName version db events
    refine execute_preserves (K := fun found => found.inactive = db.inactive) ?_ config domainName
      (setActivePolicyBody_inactive config ctx domainName policyName version db.inactive) rfl events
    intro otherDomain time found h
    rw [← h]
    funext other
    unfold Database.inactive
    rw [policiesOf_stampDomain]

end Runs

section Example

local instance activeCollation : Collation := .binary
local instance activeCaseRules : CaseRules := .ascii

def editorsVersion : Version := ⟨['1'], List.cons_ne_nil _ _⟩

/-- A policy gets a second version, which is made the active one. -/
def editorsRequests : List VersionRequest :=
  [.putPolicy "writers" writersPolicy, .putPolicyVersion "writers" editorsVersion none,
    .setActivePolicy "writers" editorsVersion]

def editorsStore : Database :=
  editorsRequests.foldl (fun db request =>
    (request.execute {} { caller := "putpolicy" } "media" db fun n => ⟨n, none⟩).2) mediaStore

theorem editors_version_active :
    (policyVersions editorsStore "media" "writers").map (·.version) = ["0".toList, "1".toList] ∧
    ((policyVersions editorsStore "media" "writers").filter (·.active)).length = 1 := by
  have hreached : VersionsReached {} editorsStore :=
    .request _ _ _ _ trivial (.request _ _ _ _ trivial
      (.request _ _ _ _ rfl (.start mediaStore policiesOf_mediaStore)))
  have hversions : (policyVersions editorsStore "media" "writers").map (·.version) =
      ["0".toList, "1".toList] := by decide +kernel
  refine ⟨hversions, ((one_active_version {}).1 editorsStore hreached "media" "writers").2 ?_⟩
  intro hnone
  rw [hnone] at hversions
  cases hversions

end Example

end Athenz.ZmsServer
