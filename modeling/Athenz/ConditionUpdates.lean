import Athenz.AssertionConditions

namespace Athenz.ZmsServer.Conditions
open Lib Lib.Text Lib.Transaction Lib.Transaction.Tx
set_option autoImplicit true

section Updates

/-- The requests that put conditions. -/
inductive ConditionUpdate where
  | all (conditions : List AssertionCondition)
  | one (condition : AssertionCondition)

/-- A number of conditions is within the quota. -/
def fitsQuota (config : Config) (count : Nat) : Bool :=
  !config.quotaCheckEnabled || count ≤ config.assertionConditionsQuota

/-- The domain is there and has the audit reference that it asks for. -/
def auditPasses (config : Config) (ctx : Context) (domainName : Str) (db : Database) : Bool :=
  !config.auditRefSet .policy || (db.domains.lookup domainName).any fun row =>
    !row.settings.auditEnabled || ctx.auditRef.any (· ≠ []) &&
      config.validateReference ctx.auditRef ctx.principal ctx.caller

variable [Collation]

/-- The keys of a condition are different ones to the store. -/
def distinctKeys : List (Sigma fun _ : Str => AssertionConditionData) → Bool
  | [] => true
  | entry :: entries =>
    !(entries.any fun other => sameText entry.1 other.1) && distinctKeys entries

/-- Behind conditions that are inserted comes one without keys. -/
def stopsShort : List AssertionCondition → Bool
  | [] => false
  | condition :: conditions =>
    condition.conditionsMap.entries.isEmpty ||
      distinctKeys condition.conditionsMap.entries && stopsShort conditions

/-- The first condition is inserted, and a later one is not. -/
def partlyInserted : List AssertionCondition → Bool
  | [] => false
  | condition :: conditions =>
    !condition.conditionsMap.entries.isEmpty && distinctKeys condition.conditionsMap.entries &&
      stopsShort conditions

/-- What decides whether an update that fails spoils the conditions of its assertion. -/
structure ConditionView where
  audited : Bool
  stored : Bool
  rows : List ConditionRow
deriving DecidableEq

def conditionView (config : Config) (ctx : Context) (domainName : Str) (assertionId : Nat)
    (db : Database) : ConditionView where
  audited := auditPasses config ctx domainName db
  stored := db.storesAssertion assertionId
  rows := db.conditionRows assertionId

/-- Some conditions of a list are inserted before one without keys, or a condition is deleted whose
replacement does not fit into the quota or has no keys. -/
def ConditionUpdate.spoils (config : Config) (view : ConditionView) : ConditionUpdate → Bool
  | .all conditions => view.audited && view.stored && partlyInserted conditions &&
      fitsQuota config
        (view.rows.length + (conditions.map (·.conditionsMap.entries.length)).sum)
  | .one condition => view.audited && condition.id.any fun conditionId =>
      view.rows.any (·.id = conditionId) &&
        (condition.conditionsMap.entries.isEmpty || !fitsQuota config
          ((view.rows.filter fun row => !decide (row.id = conditionId)).length +
            condition.conditionsMap.entries.length))

def ConditionUpdate.body (config : Config) (ctx : Context) (domainName policyName : Str)
    (assertionId : Nat) : ConditionUpdate → Op Unit
  | .all conditions =>
    putAssertionConditionsBody config ctx domainName policyName assertionId conditions
  | .one condition =>
    putAssertionConditionBody config ctx domainName policyName assertionId condition

def ConditionUpdate.execute (config : Config) (ctx : Context) (domainName policyName : Str)
    (assertionId : Nat) : ConditionUpdate → Execution Unit
  | .all conditions =>
    executePutAssertionConditions config ctx domainName policyName assertionId conditions
  | .one condition =>
    executePutAssertionCondition config ctx domainName policyName assertionId condition

/-- In every attempt a commit that fails has not been made, and the time of the domain can be set
behind one that succeeds. -/
def ConditionUpdate.Settled (config : Config) (ctx : Context) (domainName policyName : Str)
    (assertionId : Nat) (update : ConditionUpdate) (db : Database)
    (events : Nat → Event Failure) : Prop :=
  EveryAttempt (Tx.Settled (update.body config ctx domainName policyName assertionId)) false
    shouldRetryOperation (Tx.saved (stampDomain domainName)
      (update.body config ctx domainName policyName assertionId))
    (config.defaultRetryCount - 1) db events

/-- Whatever fails, an update that fails leaves the conditions of its assertion. -/
def ConditionUpdate.FailsUnchanged (config : Config) (ctx : Context) (domainName policyName : Str)
    (assertionId : Nat) (update : ConditionUpdate) (db : Database) : Prop :=
  ∀ events e db', update.Settled config ctx domainName policyName assertionId db events →
    update.execute config ctx domainName policyName assertionId db events = (.error e, db') →
    ∀ row, row ∈ db'.conditionRows assertionId ↔ row ∈ db.conditionRows assertionId

end Updates

section Refusals

variable {config : Config} {ctx : Context} {domainName : Str} {assertionId : Nat}
variable {view : ConditionView} {I : Database → Prop}

theorem auditPasses_secure (config : Config) (ctx : Context) (domainName : Str)
    (assertionId : Nat) (view : ConditionView) :
    Secure I (fun db => conditionView config ctx domainName assertionId db = view)
      (checkDomainAuditEnabled config ctx domainName .policy)
      fun _ db => conditionView config ctx domainName assertionId db = view ∧
        view.audited = true := by
  unfold checkDomainAuditEnabled
  refine .ite (fun hset => ?_) fun hset => ?_
  · refine (Secure.query (Q := fun found db =>
      conditionView config ctx domainName assertionId db = view ∧
        found = (db.domains.lookup domainName).map (saveDomainSettings domainName))
      fun db hdb => ⟨hdb, rfl⟩).bind fun found => ?_
    cases found with
    | none => exact .abort _
    | some domain =>
      have hpasses : ∀ db, some domain = (db.domains.lookup domainName).map
          (saveDomainSettings domainName) → conditionView config ctx domainName assertionId db = view →
          (domain.auditEnabled = some true → (ctx.auditRef.any (· ≠ []) &&
            config.validateReference ctx.auditRef ctx.principal ctx.caller) = true) →
          view.audited = true := by
        intro db hfound hview hreference
        obtain ⟨row, hrow, hdomain⟩ := Option.map_eq_some_iff.1 hfound.symm
        rw [← hview]
        refine Bool.or_eq_true_iff.2 (.inr ?_)
        rw [hrow, Option.any_some]
        cases haudit : row.settings.auditEnabled with
        | false => rfl
        | true =>
          refine Bool.or_eq_true_iff.2 (.inr (hreference ?_))
          rw [← hdomain]
          exact congrArg some haudit
      refine .ite (fun haudit => ?_) fun haudit => ?_
      · have hfirst : Secure I (fun db => conditionView config ctx domainName assertionId db = view ∧
            some domain = (db.domains.lookup domainName).map (saveDomainSettings domainName))
            (Tx.ensure (ctx.auditRef.any (· ≠ [])) (requestError (ctx.caller ++
              ": Audit reference required for domain: ".toList ++ domainName)))
            fun _ db => (conditionView config ctx domainName assertionId db = view ∧
              some domain = (db.domains.lookup domainName).map (saveDomainSettings domainName)) ∧
              ctx.auditRef.any (· ≠ []) = true := Secure.ensure fun href db hdb => ⟨hdb, href⟩
        refine hfirst.bind fun _ => Secure.ensure fun hvalid db hdb => ⟨hdb.1.1, ?_⟩
        refine hpasses db hdb.1.2 hdb.1.1 fun _ => ?_
        rw [hdb.2, hvalid]
        rfl
      · refine (Secure.pure ()).mono (fun db hdb => ?_) fun _ _ h => h
        exact ⟨hdb.1, hpasses db hdb.2 hdb.1 fun htrue => absurd htrue haudit⟩
  · refine (Secure.pure ()).mono (fun db hdb => ⟨hdb, ?_⟩) fun _ _ h => h
    rw [← hdb]
    refine Bool.or_eq_true_iff.2 (.inl ?_)
    rw [Bool.not_eq_true', Bool.eq_false_iff]
    exact hset

/-- The count is the only thing that the quota looks at. -/
theorem checkConditionsCount_secure (config : Config) (assertionId newCount : Nat)
    {pre : Database → Prop} {rows : List ConditionRow}
    (hrows : ∀ db, pre db → db.conditionRows assertionId = rows)
    (hrefused : rows.length + newCount > config.assertionConditionsQuota → ∀ db, pre db → I db) :
    Secure I pre (checkConditionsCount config assertionId newCount) fun _ db =>
      pre db ∧ rows.length + newCount ≤ config.assertionConditionsQuota := by
  refine (Secure.query (Q := fun count db => pre db ∧ count = rows.length) fun db hdb =>
    ⟨hdb, congrArg List.length (hrows db hdb)⟩).bind fun count => ?_
  refine Secure.permit (fun hok db hdb => ?_) fun hover db hdb => ?_
  · rw [← hdb.2]
    exact ⟨hdb.1, of_decide_eq_true hok⟩
  · refine hrefused ?_ db hdb.1
    rw [← hdb.2]
    exact Nat.lt_of_not_le (of_decide_eq_false hover)

theorem checkAssertionConditionsQuota_secure (config : Config) (assertionId : Nat)
    (conditions : List AssertionCondition) {pre : Database → Prop} {rows : List ConditionRow}
    (hrows : ∀ db, pre db → db.conditionRows assertionId = rows) (hI : ∀ db, pre db → I db) :
    Secure I pre (checkAssertionConditionsQuota config assertionId conditions) fun _ db =>
      pre db ∧ (conditions ≠ [] → fitsQuota config
        (rows.length + (conditions.map (·.conditionsMap.entries.length)).sum) = true) := by
  refine .ite (fun _ => ?_) fun hoff => ?_
  · refine (checkConditionsCount_secure config assertionId _ hrows fun _ => hI).mono
      (fun _ h => h) fun _ db h => ⟨h.1, fun _ => ?_⟩
    exact Bool.or_eq_true_iff.2 (.inr (decide_eq_true h.2))
  · refine (Secure.pure ()).mono (fun db hdb => ⟨hdb, fun hsome => ?_⟩) fun _ _ h => h
    rw [Bool.and_eq_true, not_and_or, Bool.not_eq_true'] at hoff
    rcases hoff with hdisabled | hnone
    · exact Bool.or_eq_true_iff.2 (.inl (by rw [Bool.eq_false_iff.2 hdisabled]; rfl))
    · rw [Bool.not_eq_false] at hnone
      exact absurd (List.isEmpty_iff.1 hnone) hsome

theorem checkAssertionConditionQuota_secure (config : Config) (assertionId : Nat)
    (condition : AssertionCondition) {pre : Database → Prop} {rows : List ConditionRow}
    (hrows : ∀ db, pre db → db.conditionRows assertionId = rows)
    (hI : fitsQuota config (rows.length + condition.conditionsMap.entries.length) = false →
      ∀ db, pre db → I db) :
    Secure I pre (checkAssertionConditionQuota config assertionId condition) fun _ db => pre db := by
  refine .ite (fun hon => ?_) fun _ => Secure.pure (Q := fun _ => pre) ()
  refine (checkConditionsCount_secure config assertionId _ hrows fun hover => hI ?_).mono
    (fun _ h => h) fun _ db h => h.1
  rw [fitsQuota, hon, decide_eq_false (Nat.not_le_of_gt hover)]
  rfl

theorem conditionView_setConditions {db : Database}
    (hrows : db.conditionRows assertionId = rows) :
    conditionView config ctx domainName assertionId (db.setConditions assertionId rows) =
      conditionView config ctx domainName assertionId db := by
  have haudit : auditPasses config ctx domainName (db.setConditions assertionId rows) =
      auditPasses config ctx domainName db := by
    unfold auditPasses Database.setConditions
    rw [Map.lookup_mapValues, Option.any_map]
  have hkept : (db.setConditions assertionId rows).conditionRows assertionId =
      db.conditionRows assertionId := by
    cases hstored : db.storesAssertion assertionId with
    | true => rw [conditionRows_setConditions hstored, hrows]
    | false =>
      have hstored' := storesAssertion_setConditions db assertionId rows
      rw [hstored] at hstored'
      rw [conditionRows_of_not_stored hstored', conditionRows_of_not_stored hstored]
  rw [conditionView, haudit, storesAssertion_setConditions, hkept, conditionView]

variable [Collation]

/-- A key that the rows have already cannot be added under their number. -/
theorem addConditionRows_taken {entries : List (Sigma fun _ : Str => AssertionConditionData)}
    {row : ConditionRow} (hentry : entry ∈ entries) (hsame : sameText row.key entry.1 = true)
    (hrow : row ∈ rows) :
    ∀ rows', addConditionRows row.id entries rows ≠ .ok rows' := by
  induction entries generalizing rows with
  | nil => cases hentry
  | cons first entries ih =>
    intro rows' hrun
    rw [addConditionRows] at hrun
    split at hrun
    · cases hrun
    · rename_i hfree
      rcases List.mem_cons.1 hentry with rfl | hentry
      · refine hfree (List.any_eq_true.2 ⟨row, hrow, ?_⟩)
        rw [hsame, decide_eq_true rfl]
        rfl
      · exact ih hentry (List.mem_append_left _ hrow) _ hrun

theorem addConditionRows_repeated
    {entries : List (Sigma fun _ : Str => AssertionConditionData)} (h : distinctKeys entries = false)
    (conditionId : Int) (rows : List ConditionRow) :
    ∀ rows', addConditionRows conditionId entries rows ≠ .ok rows' := by
  induction entries generalizing rows with
  | nil => cases h
  | cons entry entries ih =>
    intro rows' hrun
    rw [addConditionRows] at hrun
    split at hrun
    · cases hrun
    · rw [distinctKeys, Bool.and_eq_false_iff, Bool.not_eq_false'] at h
      rcases h with hrepeated | hrest
      · obtain ⟨other, hother, hsame⟩ := List.any_eq_true.1 hrepeated
        have hnew : (⟨conditionId, entry.1, entry.2⟩ : ConditionRow) ∈
            rows ++ [⟨conditionId, entry.1, entry.2⟩] :=
          List.mem_append_right _ (List.mem_singleton_self _)
        exact addConditionRows_taken hother hsame hnew _ hrun
      · exact ih hrest _ _ hrun

/-- A condition that is inserted has distinct keys. -/
theorem distinctKeys_of_inserted {db db' : Database}
    (h : insertConditionRows assertionId conditionId conditionsMap db = .ok (true, db')) :
    distinctKeys conditionsMap.entries = true := by
  unfold insertConditionRows at h
  split at h
  · cases h
  · split at h
    · obtain ⟨rows, hrows, _⟩ := Result.bind_eq_ok.1 h
      cases hkeys : distinctKeys conditionsMap.entries with
      | true => rfl
      | false => exact absurd hrows (addConditionRows_repeated hkeys _ _ _)
    · cases h

/-- Behind a condition that was not inserted nothing is. -/
theorem insertConditionsFrom_false_secure (assertionId : Nat) (conditions : List AssertionCondition)
    {pre : Database → Prop} :
    Secure I pre (insertConditionsFrom assertionId false conditions) fun _ => pre := by
  induction conditions with
  | nil => exact Secure.pure (Q := fun _ => pre) false
  | cons condition conditions ih =>
    have hnext : Secure I pre (insertNextCondition assertionId false condition) fun done db =>
        done = false ∧ pre db := by
      refine (Secure.query (Q := fun _ => pre) fun _ h => h).bind fun _ => ?_
      exact (Secure.pure (Q := fun done db => done = false ∧ pre db) false).mono
        (fun db hdb => ⟨rfl, hdb⟩) fun _ _ h => h
    refine hnext.bind fun done => ?_
    cases done with
    | false => exact ih.mono (fun _ h => h.2) fun _ _ h => h
    | true => exact .of_false fun _ h => Bool.false_ne_true h.1.symm

theorem insertSingle_secure (assertionId : Nat) (conditionId : Int)
    (conditionsMap : Map Str AssertionConditionData) {pre : Database → Prop} :
    Secure I pre (insertSingleAssertionCondition assertionId conditionId conditionsMap)
      fun done db => done = false ∧ conditionsMap.entries = [] ∧ pre db ∨
        done = true ∧ conditionsMap.entries ≠ [] ∧ distinctKeys conditionsMap.entries = true := by
  refine Secure.statement fun _ db done db' hdb h => ?_
  rcases insertConditionRows_eq_ok h with ⟨rfl, hnone, rfl⟩ | ⟨rfl, hsome, _⟩
  · exact .inl ⟨rfl, hnone, hdb⟩
  · exact .inr ⟨rfl, hsome, distinctKeys_of_inserted h⟩

theorem insertNextCondition_secure (assertionId : Nat) (condition : AssertionCondition)
    {pre : Database → Prop} :
    Secure I pre (insertNextCondition assertionId true condition) fun done db =>
      done = false ∧ condition.conditionsMap.entries = [] ∧ pre db ∨
      done = true ∧ condition.conditionsMap.entries ≠ [] ∧
        distinctKeys condition.conditionsMap.entries = true := by
  refine (Secure.query (Q := fun _ => pre) fun _ h => h).bind fun conditionId => ?_
  rw [if_pos rfl]
  exact insertSingle_secure assertionId conditionId _

/-- Conditions that do not stop short are all inserted. -/
theorem insertConditionsFrom_all_secure (assertionId : Nat) {conditions : List AssertionCondition}
    {pre : Database → Prop} (h : stopsShort conditions = false) :
    Secure I pre (insertConditionsFrom assertionId true conditions) fun done _ => done = true := by
  induction conditions generalizing pre with
  | nil => exact (Secure.pure (Q := fun done _ => done = true) true).mono (fun _ _ => rfl) fun _ _ h => h
  | cons condition conditions ih =>
    rw [stopsShort, Bool.or_eq_false_iff] at h
    refine (insertNextCondition_secure assertionId condition).bind fun done => ?_
    cases done with
    | false =>
      refine .of_false fun db hdb => ?_
      rcases hdb with ⟨_, hnone, _⟩ | ⟨hfalse, _⟩
      · rw [hnone] at h
        cases h.1
      · cases hfalse
    | true =>
      cases hrest : stopsShort conditions with
      | false => exact ih hrest
      | true =>
        refine .of_false fun db hdb => ?_
        rcases hdb with ⟨hfalse, _⟩ | ⟨_, _, hkeys⟩
        · cases hfalse
        · rw [hkeys, hrest] at h
          cases h.2

/-- Conditions that are not inserted in part leave the store when not all are inserted. -/
theorem insertAssertionConditions_secure (assertionId : Nat) {conditions : List AssertionCondition}
    {pre : Database → Prop} (h : partlyInserted conditions = false) :
    Secure I pre (insertAssertionConditions assertionId conditions) fun done db =>
      done = false → pre db := by
  cases conditions with
  | nil =>
    exact (Secure.pure (Q := fun done db => done = false → pre db) true).mono
      (fun _ _ hfalse => absurd hfalse (by decide)) fun _ _ h => h
  | cons condition conditions =>
    refine (insertNextCondition_secure assertionId condition).bind fun done => ?_
    cases done with
    | false =>
      refine (insertConditionsFrom_false_secure assertionId conditions).mono (fun db hdb => ?_)
        fun _ db hdb _ => hdb
      rcases hdb with ⟨_, _, hdb⟩ | ⟨hfalse, _⟩
      · exact hdb
      · cases hfalse
    | true =>
      cases hrest : stopsShort conditions with
      | false =>
        refine (insertConditionsFrom_all_secure assertionId hrest).mono (fun _ h => h)
          fun done _ hdone hfalse => ?_
        rw [hdone] at hfalse
        cases hfalse
      | true =>
        refine .of_false fun db hdb => ?_
        rcases hdb with ⟨hfalse, _⟩ | ⟨_, hsome, hkeys⟩
        · cases hfalse
        · rw [partlyInserted, hkeys, hrest, Bool.and_true, Bool.and_true, Bool.not_eq_false'] at h
          exact hsome (List.isEmpty_iff.1 h)

/-- Nothing is inserted for an assertion that is not stored. -/
theorem insertConditionsFrom_unstored_secure (assertionId : Nat) (result : Bool)
    (conditions : List AssertionCondition) {pre : Database → Prop}
    (h : ∀ db, pre db → db.storesAssertion assertionId = false) :
    Secure I pre (insertConditionsFrom assertionId result conditions) fun _ => pre := by
  induction conditions generalizing result with
  | nil => exact Secure.pure (Q := fun _ => pre) result
  | cons condition conditions ih =>
    have hnext : Secure I pre (insertNextCondition assertionId result condition) fun _ => pre := by
      refine (Secure.query (Q := fun _ => pre) fun _ h => h).bind fun conditionId => ?_
      refine .ite (fun _ => Secure.statement fun _ db done db' hdb hrun => ?_) fun _ =>
        Secure.pure (Q := fun _ => pre) false
      rcases insertConditionRows_eq_ok hrun with ⟨_, _, rfl⟩ | ⟨_, _, hstored, _⟩
      · exact hdb
      · rw [h db hdb] at hstored
        cases hstored
    exact hnext.bind fun done => ih done

theorem addAssertionCondition_secure (config : Config) (ctx : Context) (policyName : Str)
    (assertionId : Nat) (condition : AssertionCondition) {rows : List ConditionRow}
    (hI : ∀ db, I db → db.conditionRows assertionId = rows) :
    Secure I I (addAssertionCondition config ctx policyName assertionId condition)
      fun _ _ => True := by
  refine (checkAssertionConditionQuota_secure config assertionId condition hI fun _ _ h => h).bind
    fun _ => ?_
  refine (Secure.query (Q := fun _ => I) fun _ h => h).bind fun conditionId => ?_
  refine (insertSingle_secure assertionId conditionId condition.conditionsMap).bind fun done => ?_
  refine Secure.permit (fun _ _ _ => trivial) fun hfalse db hdb => ?_
  rcases hdb with ⟨_, _, hdb⟩ | ⟨htrue, _⟩
  · exact hdb
  · rw [htrue] at hfalse
    cases hfalse

/-- A replacement that has keys and fits in the quota is not refused behind the deletion. -/
theorem replaceAssertionCondition_secure (config : Config) (ctx : Context) (policyName : Str)
    (assertionId : Nat) (conditionId : Int) (condition : AssertionCondition)
    {rows : List ConditionRow} (hI : ∀ db, I db → db.conditionRows assertionId = rows)
    (hkept : ∀ db, I db → rows.any (·.id = conditionId) = false →
      I (db.setConditions assertionId (rows.filter fun row => !decide (row.id = conditionId))))
    (hfits : rows.any (·.id = conditionId) = true →
      condition.conditionsMap.entries ≠ [] ∧ fitsQuota config
        ((rows.filter fun row => !decide (row.id = conditionId)).length +
          condition.conditionsMap.entries.length) = true) :
    Secure I I (replaceAssertionCondition config ctx policyName assertionId conditionId condition)
      fun _ _ => True := by
  have hdelete : Secure I I (deleteAssertionCondition assertionId conditionId) fun deleted db =>
      deleted = rows.any (·.id = conditionId) ∧
        db.conditionRows assertionId = (rows.filter fun row => !decide (row.id = conditionId)) ∧
        (rows.any (·.id = conditionId) = false → I db) := by
    unfold deleteAssertionCondition deleteConditionRows
    refine Secure.statement fun _ db deleted db' hdb h => ?_
    cases h
    rw [conditionRows_filter, hI db hdb]
    exact ⟨rfl, rfl, hkept db hdb⟩
  refine hdelete.bind fun deleted => ?_
  have hpass : Secure I (fun db => deleted = rows.any (·.id = conditionId) ∧
      db.conditionRows assertionId = (rows.filter fun row => !decide (row.id = conditionId)) ∧
      (rows.any (·.id = conditionId) = false → I db))
      (Tx.permit deleted (Failure.resource 404 (conditionIdText (ctx.caller ++
        ": unable to delete assertion condition during putAssertionCondition".toList) policyName
        assertionId conditionId)))
      fun _ db => rows.any (·.id = conditionId) = true ∧ db.conditionRows assertionId =
        (rows.filter fun row => !decide (row.id = conditionId)) := by
    refine Secure.permit (fun htrue _ hdb => ⟨hdb.1.symm.trans htrue, hdb.2.1⟩)
      fun hfalse db hdb => hdb.2.2 (hdb.1.symm.trans hfalse)
  refine hpass.bind fun _ => ?_
  by_cases hany : rows.any (·.id = conditionId) = true
  · obtain ⟨hkeys, hquota⟩ := hfits hany
    refine (checkAssertionConditionQuota_secure config assertionId condition (fun _ h => h.2)
      fun hover => ?_).bind fun _ => ?_
    · rw [hquota] at hover
      cases hover
    · refine (insertSingle_secure assertionId conditionId condition.conditionsMap).bind
        fun done => Secure.permit (fun _ _ _ => trivial) fun hfalse db hdb => ?_
      rcases hdb with ⟨_, hnone, _⟩ | ⟨htrue, _⟩
      · exact absurd hnone hkeys
      · rw [htrue] at hfalse
        cases hfalse
  · exact .of_false fun _ hdb => hany hdb.1

/-- An update that does not spoil anything leaves what decides about it when it fails. -/
theorem ConditionUpdate.body_secure (policyName : Str) {update : ConditionUpdate}
    (h : update.spoils config view = false) :
    Secure (fun db => conditionView config ctx domainName assertionId db = view)
      (fun db => conditionView config ctx domainName assertionId db = view)
      (update.body config ctx domainName policyName assertionId) fun _ _ => True := by
  have hrows : ∀ db, conditionView config ctx domainName assertionId db = view →
      db.conditionRows assertionId = view.rows := fun _ hdb => congrArg ConditionView.rows hdb
  have hstamp : ∀ {pre : Database → Prop}, Secure
      (fun db => conditionView config ctx domainName assertionId db = view) pre
      (updatePolicyModTimestamp domainName policyName none) fun _ _ => True := by
    intro pre
    unfold updatePolicyModTimestamp onDomain
    exact Secure.statement fun _ _ _ _ _ _ => trivial
  have htime : ∀ {pre : Database → Prop}, Secure
      (fun db => conditionView config ctx domainName assertionId db = view) pre
      (do let _ ← updatePolicyModTimestamp domainName policyName none) fun _ _ => True :=
    hstamp.bind fun _ => Secure.pure (Q := fun _ _ => True) ()
  cases update with
  | all conditions =>
    refine (auditPasses_secure config ctx domainName assertionId view).bind fun _ => ?_
    refine (checkAssertionConditionsQuota_secure config assertionId conditions
      (fun db hdb => hrows db hdb.1) fun db hdb => hdb.1).bind fun _ => ?_
    refine Secure.bind (M := fun done db => done = false →
      conditionView config ctx domainName assertionId db = view) ?_ fun done =>
        (Secure.permit (Q := fun _ _ => True) (fun _ _ _ => trivial)
          fun hfalse db hdb => hdb hfalse).bind fun _ => htime
    cases hstored : view.stored with
    | false =>
      refine (insertConditionsFrom_unstored_secure assertionId true conditions fun db hdb => ?_).mono
        (fun _ h => h) fun _ db hdb _ => hdb.1.1
      rw [← hstored, ← hdb.1.1]
      rfl
    | true =>
      cases hpartly : partlyInserted conditions with
      | false =>
        exact (insertAssertionConditions_secure assertionId hpartly).mono (fun _ h => h)
          fun _ db hdb hfalse => (hdb hfalse).1.1
      | true =>
        refine .of_false fun db hdb => ?_
        have hsome : conditions ≠ [] := by
          rintro rfl
          cases hpartly
        rw [ConditionUpdate.spoils, hdb.1.2, hstored, hpartly, hdb.2 hsome] at h
        cases h
  | one condition =>
    refine (auditPasses_secure config ctx domainName assertionId view).bind fun _ => ?_
    cases hid : condition.id with
    | none =>
      exact ((addAssertionCondition_secure config ctx policyName assertionId condition hrows).mono
        (fun _ hdb => hdb.1) fun _ _ h => h).bind fun _ => htime
    | some conditionId =>
      refine Secure.bind (M := fun _ _ => True) ?_ fun _ => htime
      cases haudited : view.audited with
      | false =>
        exact .of_false fun _ hdb => Bool.false_ne_true hdb.2
      | true =>
        refine (replaceAssertionCondition_secure config ctx policyName assertionId conditionId
          condition hrows (fun db hdb hnone => ?_) fun hany => ?_).mono (fun _ hdb => hdb.1)
          fun _ _ h => h
        · rw [conditionView_setConditions, hdb]
          rw [hrows db hdb]
          refine (List.filter_eq_self.2 fun row hrow => ?_).symm
          rw [List.any_eq_false] at hnone
          rw [decide_eq_false fun hsame => hnone row hrow (decide_eq_true hsame)]
          rfl
        · rw [ConditionUpdate.spoils, haudited, hid, Option.any_some, hany, Bool.true_and,
            Bool.true_and, Bool.or_eq_false_iff, Bool.not_eq_false'] at h
          refine ⟨fun hnone => ?_, h.2⟩
          rw [hnone] at h
          cases h.1

theorem ConditionUpdate.failsUnchanged (policyName : Str) {update : ConditionUpdate}
    {db : Database}
    (h : update.spoils config (conditionView config ctx domainName assertionId db) = false) :
    update.FailsUnchanged config ctx domainName policyName assertionId db := by
  intro events e db' hsettled hrun row
  have hattempts : attempts false shouldRetryOperation (Tx.saved (stampDomain domainName)
      (update.body config ctx domainName policyName assertionId)) (config.defaultRetryCount - 1)
      db events = (.error e, db') := by
    cases update with
    | all conditions => exact hrun
    | one condition => exact hrun
  have hview := attempts_error_invariant
    (fun s events e s' events' hs hsettled hattempt =>
      (update.body_secure policyName h).attempt hs hs hsettled hattempt)
    (rfl : conditionView config ctx domainName assertionId db = _) hsettled hattempts
  have hrows : db'.conditionRows assertionId = db.conditionRows assertionId :=
    congrArg ConditionView.rows hview
  rw [hrows]

end Refusals

section Losses

variable {config : Config} {ctx : Context} {domainName : Str} {assertionId : Nat}

theorem checkQuota_ends (what : Str) {limit actual : Nat} (h : actual ≤ limit) (db : Database) :
    Ends (checkQuota what limit actual) db (.ok ()) db :=
  .permit _ db (decide_eq_true h)

theorem checkAssertionConditionsQuota_ends {conditions : List AssertionCondition} {db : Database}
    (h : fitsQuota config ((db.conditionRows assertionId).length +
      (conditions.map (·.conditionsMap.entries.length)).sum) = true) :
    Ends (checkAssertionConditionsQuota config assertionId conditions) db (.ok ()) db := by
  unfold checkAssertionConditionsQuota
  split
  · rename_i hon
    rw [Bool.and_eq_true] at hon
    rw [fitsQuota, hon.1, Bool.not_true, Bool.false_or] at h
    exact (Ends.query _ db).bind (checkQuota_ends _ (of_decide_eq_true h) db)
  · exact .pure () db

theorem checkAssertionConditionQuota_ends {condition : AssertionCondition} {db : Database}
    (h : fitsQuota config ((db.conditionRows assertionId).length +
      condition.conditionsMap.entries.length) = true) :
    Ends (checkAssertionConditionQuota config assertionId condition) db (.ok ()) db := by
  unfold checkAssertionConditionQuota
  split
  · rename_i hon
    rw [fitsQuota, hon, Bool.not_true, Bool.false_or] at h
    exact (Ends.query _ db).bind (checkQuota_ends _ (of_decide_eq_true h) db)
  · exact .pure () db

theorem checkAssertionConditionQuota_exceeded {condition : AssertionCondition} {db : Database}
    (h : fitsQuota config ((db.conditionRows assertionId).length +
      condition.conditionsMap.entries.length) = false) :
    ∃ e, shouldRetryOperation e = false ∧
      Ends (checkAssertionConditionQuota config assertionId condition) db (.error e) db := by
  rw [fitsQuota, Bool.or_eq_false_iff, Bool.not_eq_false'] at h
  unfold checkAssertionConditionQuota
  rw [if_pos h.1]
  exact ⟨.quotaLimit _ _ _, rfl, (Ends.query _ db).bind (.refuse _ db h.2)⟩

theorem auditPasses_ends {db : Database} (h : auditPasses config ctx domainName db = true) :
    Ends (checkDomainAuditEnabled config ctx domainName .policy) db (.ok ()) db := by
  unfold checkDomainAuditEnabled
  cases hset : config.auditRefSet .policy with
  | false => exact .pure () db
  | true =>
    rw [auditPasses, hset, Bool.not_true, Bool.false_or] at h
    obtain ⟨row, hrow, hpasses⟩ := (Option.any_eq_true _ _).1 h
    have hdomain : Ends (getDomain domainName) db
        (.ok (some (saveDomainSettings domainName row))) db := by
      have hread := Ends.query (ε := Failure) (fun db : Database =>
        (db.domains.lookup domainName).map (saveDomainSettings domainName)) db
      rw [Option.mem_def.1 hrow, Option.map_some] at hread
      exact hread
    refine hdomain.bind ?_
    cases haudit : row.settings.auditEnabled with
    | false =>
      dsimp only
      rw [if_neg]
      · exact .pure () db
      · intro htrue
        have hflag : some row.settings.auditEnabled = some true := htrue
        rw [haudit] at hflag
        cases hflag
    | true =>
      rw [haudit, Bool.not_true, Bool.false_or, Bool.and_eq_true] at hpasses
      have hflag : (saveDomainSettings domainName row).auditEnabled = some true :=
        congrArg some haudit
      dsimp only
      rw [if_pos hflag]
      exact (Ends.ensure _ db hpasses.1).bind (.ensure _ db hpasses.2)

variable [Collation]

theorem addConditionRows_distinct {entries : List (Sigma fun _ : Str => AssertionConditionData)}
    (h : distinctKeys entries = true) {rows : List ConditionRow}
    (hfree : ∀ row ∈ rows, row.id = conditionId → ∀ entry ∈ entries,
      sameText row.key entry.1 = false) :
    ∃ rows', addConditionRows conditionId entries rows = .ok rows' := by
  induction entries generalizing rows with
  | nil => exact ⟨rows, rfl⟩
  | cons entry entries ih =>
    rw [distinctKeys, Bool.and_eq_true, Bool.not_eq_true'] at h
    have hnone : ¬ (rows.any fun row => row.id = conditionId && sameText row.key entry.1) = true := by
      intro hany
      obtain ⟨row, hrow, htaken⟩ := List.any_eq_true.1 hany
      rw [Bool.and_eq_true] at htaken
      have hsame := hfree row hrow (of_decide_eq_true htaken.1) entry List.mem_cons_self
      rw [hsame] at htaken
      cases htaken.2
    rw [addConditionRows, if_neg hnone]
    apply ih h.2
    intro row hrow hid other hother
    rcases List.mem_append.1 hrow with hold | hnew
    · exact hfree row hold hid other (List.mem_cons_of_mem entry hother)
    · rw [List.mem_singleton.1 hnew]
      have hdistinct := List.any_eq_false.1 h.1 other hother
      exact Bool.eq_false_iff.2 hdistinct

/-- A condition with distinct keys is inserted under the next number. -/
theorem insertNextCondition_ends {db : Database} (hstored : db.storesAssertion assertionId = true)
    {condition : AssertionCondition} (hsome : condition.conditionsMap.entries ≠ [])
    (hkeys : distinctKeys condition.conditionsMap.entries = true) :
    ∃ db', Ends (insertNextCondition assertionId true condition) db (.ok true) db' ∧
      db'.storesAssertion assertionId = true ∧ Added assertionId true db db' := by
  have hfresh : ∀ row ∈ db.conditionRows assertionId,
      row.id = nextConditionId (db.conditionRows assertionId) →
      ∀ entry ∈ condition.conditionsMap.entries, sameText row.key entry.1 = false := by
    intro row hrow hid
    exact absurd hid (Int.ne_of_lt (lt_nextConditionId hrow))
  obtain ⟨rows, hrows⟩ := addConditionRows_distinct hkeys hfresh
  have hrun : insertConditionRows assertionId (nextConditionId (db.conditionRows assertionId))
      condition.conditionsMap db = .ok (true, db.setConditions assertionId rows) := by
    rw [insertConditionRows, if_neg hsome, if_pos hstored, hrows]
    rfl
  refine ⟨_, (Ends.query _ db).bind ?_, ?_, insertNext_added hrun⟩
  · rw [if_pos rfl]
    exact Ends.statement fun _ => hrun
  · rw [storesAssertion_setConditions]
    exact hstored

theorem insertSingle_empty_ends {conditionsMap : Map Str AssertionConditionData}
    (h : conditionsMap.entries = []) (conditionId : Int) (db : Database) :
    Ends (insertSingleAssertionCondition assertionId conditionId conditionsMap) db (.ok false) db := by
  unfold insertSingleAssertionCondition
  exact Ends.statement fun _ => if_pos h

theorem insertConditionsFrom_false_ends (conditions : List AssertionCondition) (db : Database) :
    Ends (insertConditionsFrom assertionId false conditions) db (.ok false) db := by
  induction conditions with
  | nil => exact .pure false db
  | cons condition conditions ih =>
    have hnext : Ends (insertNextCondition assertionId false condition) db (.ok false) db :=
      (Ends.query _ db).bind (.pure false db)
    exact hnext.bind ih

theorem insertConditionsFrom_short_ends {conditions : List AssertionCondition}
    (h : stopsShort conditions = true) {db : Database}
    (hstored : db.storesAssertion assertionId = true) :
    ∃ db', Ends (insertConditionsFrom assertionId true conditions) db (.ok false) db' ∧
      db.conditionRows assertionId ⊆ db'.conditionRows assertionId := by
  induction conditions generalizing db with
  | nil => cases h
  | cons condition conditions ih =>
    by_cases hnone : condition.conditionsMap.entries = []
    · have hnext : Ends (insertNextCondition assertionId true condition) db (.ok false) db := by
        refine (Ends.query _ db).bind ?_
        rw [if_pos rfl]
        exact insertSingle_empty_ends hnone _ db
      exact ⟨db, hnext.bind (insertConditionsFrom_false_ends conditions db), List.Subset.refl _⟩
    · have hempty : condition.conditionsMap.entries.isEmpty = false := by
        rw [Bool.eq_false_iff]
        exact fun hempty => hnone (List.isEmpty_iff.1 hempty)
      rw [stopsShort, hempty, Bool.false_or, Bool.and_eq_true] at h
      obtain ⟨db₁, hnext, hstored₁, hadded⟩ := insertNextCondition_ends hstored hnone h.1
      obtain ⟨db', hrest, hkept⟩ := ih h.2 hstored₁
      exact ⟨db', hnext.bind hrest, List.Subset.trans hadded.kept hkept⟩

/-- An update that spoils something fails and has changed the conditions of its assertion. -/
theorem ConditionUpdate.body_ends (policyName : Str) {update : ConditionUpdate} {db : Database}
    (h : update.spoils config (conditionView config ctx domainName assertionId db) = true) :
    ∃ e db', shouldRetryOperation e = false ∧
      Ends (update.body config ctx domainName policyName assertionId) db (.error e) db' ∧
      ¬ ∀ row, row ∈ db'.conditionRows assertionId ↔ row ∈ db.conditionRows assertionId := by
  cases update with
  | all conditions =>
    rw [ConditionUpdate.spoils, Bool.and_eq_true, Bool.and_eq_true, Bool.and_eq_true] at h
    obtain ⟨⟨⟨haudited, hstored⟩, hpartly⟩, hfits⟩ := h
    cases conditions with
    | nil => cases hpartly
    | cons condition conditions =>
      rw [partlyInserted, Bool.and_eq_true, Bool.and_eq_true, Bool.not_eq_true'] at hpartly
      obtain ⟨⟨hsome, hkeys⟩, hshort⟩ := hpartly
      have hentries : condition.conditionsMap.entries ≠ [] := by
        intro hnone
        rw [hnone] at hsome
        cases hsome
      obtain ⟨db₁, hnext, hstored₁, hadded⟩ := insertNextCondition_ends hstored hentries hkeys
      obtain ⟨db', hrest, hkept⟩ := insertConditionsFrom_short_ends hshort hstored₁
      have hinsert : Ends (insertAssertionConditions assertionId (condition :: conditions)) db
          (.ok false) db' := hnext.bind hrest
      refine ⟨_, db', ?_, (auditPasses_ends haudited).bind
        ((checkAssertionConditionsQuota_ends hfits).bind
          (hinsert.bind (Ends.bind_error (Ends.refuse _ db' rfl)))), ?_⟩
      · rfl
      · intro hsame
        obtain ⟨row, hrow, hnew⟩ := hadded.added rfl
        exact hnew ((hsame row).1 (hkept hrow))
  | one condition =>
    rw [ConditionUpdate.spoils, Bool.and_eq_true] at h
    obtain ⟨haudited, h⟩ := h
    obtain ⟨conditionId, hid, hspoils⟩ := (Option.any_eq_true _ _).1 h
    rw [Bool.and_eq_true, Bool.or_eq_true] at hspoils
    obtain ⟨hany, hrefused⟩ := hspoils
    have hdelete : Ends (deleteAssertionCondition assertionId conditionId) db (.ok true)
        (db.setConditions assertionId
          ((db.conditionRows assertionId).filter fun row => !decide (row.id = conditionId))) := by
      unfold deleteAssertionCondition deleteConditionRows
      refine Ends.statement fun _ => ?_
      rw [show (db.conditionRows assertionId).any (fun row => decide (row.id = conditionId)) = true
        from hany]
    have hchanged : ¬ ∀ row, row ∈ (db.setConditions assertionId
        ((db.conditionRows assertionId).filter fun row =>
          !decide (row.id = conditionId))).conditionRows assertionId ↔
        row ∈ db.conditionRows assertionId := by
      intro hsame
      obtain ⟨row, hrow, hnumber⟩ := List.any_eq_true.1 hany
      have hkept := (hsame row).2 hrow
      rw [conditionRows_filter, List.mem_filter, hnumber] at hkept
      cases hkept.2
    have hbody : ∀ {e}, Ends (replaceAssertionCondition config ctx policyName assertionId conditionId
          condition) db (.error e) (db.setConditions assertionId
            ((db.conditionRows assertionId).filter fun row => !decide (row.id = conditionId))) →
        Ends (putAssertionConditionBody config ctx domainName policyName assertionId condition) db
          (.error e) (db.setConditions assertionId
            ((db.conditionRows assertionId).filter fun row => !decide (row.id = conditionId))) := by
      intro e hreplace
      refine (auditPasses_ends haudited).bind ?_
      rw [hid]
      exact hreplace.bind_error
    have hcount : (db.setConditions assertionId ((db.conditionRows assertionId).filter fun row =>
        !decide (row.id = conditionId))).conditionRows assertionId =
        (db.conditionRows assertionId).filter fun row => !decide (row.id = conditionId) :=
      conditionRows_filter db assertionId _
    cases hfits : fitsQuota config (((db.conditionRows assertionId).filter fun row =>
        !decide (row.id = conditionId)).length + condition.conditionsMap.entries.length) with
    | false =>
      rw [← hcount] at hfits
      obtain ⟨e, hretry, hquota⟩ := checkAssertionConditionQuota_exceeded hfits
      exact ⟨e, _, hretry, hbody (hdelete.bind ((Ends.permit _ _ rfl).bind hquota.bind_error)),
        hchanged⟩
    | true =>
      have hnone : condition.conditionsMap.entries = [] := by
        rcases hrefused with hempty | hover
        · exact List.isEmpty_iff.1 hempty
        · rw [Bool.not_eq_true'] at hover
          exact absurd (hover.symm.trans hfits) (by decide)
      rw [← hcount] at hfits
      refine ⟨_, _, ?_, hbody (hdelete.bind ((Ends.permit _ _ rfl).bind
        ((checkAssertionConditionQuota_ends hfits).bind
          ((insertSingle_empty_ends hnone _ _).bind (Ends.refuse _ _ rfl))))), hchanged⟩
      rfl

/-- An update that fails leaves the conditions of its assertion, whatever else fails, exactly when it
does not spoil them. -/
theorem conditionUpdate_failsUnchanged_iff (config : Config) (ctx : Context)
    (domainName policyName : Str) (assertionId : Nat) (update : ConditionUpdate) (db : Database) :
    update.FailsUnchanged config ctx domainName policyName assertionId db ↔
      update.spoils config (conditionView config ctx domainName assertionId db) = false := by
  constructor
  · intro hunchanged
    by_contra hspoils
    rw [Bool.not_eq_false] at hspoils
    obtain ⟨e, db', hretry, hends, hchanged⟩ := update.body_ends policyName hspoils
    have hevents : ∀ n : Nat, ((fun _ => ⟨0, none⟩ : Nat → Event Failure) n).fault = none :=
      fun _ => rfl
    have hrun : attempts false shouldRetryOperation (Tx.saved (stampDomain domainName)
        (update.body config ctx domainName policyName assertionId)) (config.defaultRetryCount - 1)
        db (fun _ => ⟨0, none⟩) = (.error e, db') :=
      hends.attempts_error hretry (config.defaultRetryCount - 1) hevents
    refine hchanged (hunchanged (fun _ => ⟨0, none⟩) e db' ?_ ?_)
    · exact hends.everyAttempt_settled hretry (config.defaultRetryCount - 1) hevents
    · cases update with
      | all conditions => exact hrun
      | one condition => exact hrun
  · exact ConditionUpdate.failsUnchanged policyName

end Losses

section Example

local instance updateCollation : Collation := .binary

/-- An assertion with a condition of one key. -/
def conditionedStore : Database where
  domains := (∅ : Map Str DomainRow).insert "media"
    { settings := Domain.settings { name := "media" }
      modified := 0
      policies := [⟨"writers", "0", true, [⟨1, "editors", "media:article", "write", .ALLOW,
        [⟨1, "instance", { value := "host1" }⟩]⟩]⟩] }
  nextAssertionId := 2

def twoKeys : Map Str AssertionConditionData :=
  let host : AssertionConditionData := { value := "host2" }
  let zone : AssertionConditionData := { value := "west" }
  let one : Map Str AssertionConditionData := (∅ : Map Str AssertionConditionData).insert "instance" host
  one.insert "zone" zone

/-- The condition is replaced by one with two keys where the quota is one key. -/
def oversizedRun : Except Failure Unit × Database :=
  executePutAssertionCondition { assertionConditionsQuota := 1 } { caller := "putassertioncondition" }
    "media" "writers" 1
    { id := some 1, conditionsMap := twoKeys } conditionedStore fun n => ⟨n, none⟩

/-- The update fails and the condition is gone. -/
theorem oversizedRun_loses : oversizedRun.1 = .error (.quotaLimit "assertion conditions" 1 2) ∧
    conditionedStore.conditionRows 1 ≠ [] ∧ oversizedRun.2.conditionRows 1 = [] := by
  decide +kernel

end Example

end Athenz.ZmsServer.Conditions
