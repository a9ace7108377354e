import Athenz.Lib.Failing
import Athenz.RowChanges
import Athenz.ZmsImpl

namespace Athenz.ZmsServer
open Lib Lib.Text Lib.Transaction Lib.Transaction.Tx
set_option autoImplicit true

section Rows

def Database.policiesOf (db : Database) (domainName : Str) : List PolicyRow :=
  (db.domains.lookup domainName).elim [] (·.policies)

/-- An assertion of some version of a policy. -/
def Database.HasAssertion (db : Database) (domainName policyName : Str) (a : AssertionRow) : Prop :=
  ∃ policy ∈ db.policiesOf domainName, policy.name = policyName ∧ a ∈ policy.assertions

/-- The number of an assertion identifies it in the whole store. -/
def Database.Numbered (db : Database) : Prop :=
  ∀ domainName policyName a domainName' policyName' a', db.HasAssertion domainName policyName a →
    db.HasAssertion domainName' policyName' a' → a.id = a'.id →
    domainName = domainName' ∧ policyName = policyName' ∧ a = a'

def Database.HasCondition (db : Database) (domainName policyName : Str) (assertionId : Nat)
    (row : ConditionRow) : Prop :=
  ∃ a, db.HasAssertion domainName policyName a ∧ a.id = assertionId ∧ row ∈ a.conditions

def PolicyRow.setConditions (assertionId : Nat) (rows : List ConditionRow) (policy : PolicyRow) :
    PolicyRow :=
  { policy with assertions := policy.assertions.map (·.setConditions assertionId rows) }

theorem AssertionRow.setConditions_id (assertionId : Nat) (rows : List ConditionRow)
    (a : AssertionRow) : (a.setConditions assertionId rows).id = a.id := by
  unfold AssertionRow.setConditions
  split
  · rfl
  · rfl

theorem AssertionRow.setConditions_twice (assertionId : Nat) (rows rows' : List ConditionRow)
    (a : AssertionRow) : (a.setConditions assertionId rows).setConditions assertionId rows' =
      a.setConditions assertionId rows' := by
  by_cases h : a.id = assertionId
  · rw [AssertionRow.setConditions, AssertionRow.setConditions_id, if_pos h,
      AssertionRow.setConditions, if_pos h, AssertionRow.setConditions, if_pos h]
  · have hidle : a.setConditions assertionId rows = a := if_neg h
    rw [hidle]

theorem PolicyRow.setConditions_twice (assertionId : Nat) (rows rows' : List ConditionRow)
    (policy : PolicyRow) : (policy.setConditions assertionId rows).setConditions assertionId rows' =
      policy.setConditions assertionId rows' := by
  unfold PolicyRow.setConditions
  rw [List.map_map]
  congr 1
  exact List.map_congr_left fun a _ => a.setConditions_twice assertionId rows rows'

theorem mem_assertions {db : Database} {a : AssertionRow} :
    a ∈ db.policyRows.flatMap (·.assertions) ↔
      ∃ domainName policyName, db.HasAssertion domainName policyName a := by
  rw [List.mem_flatMap]
  constructor
  · rintro ⟨policy, hpolicy, ha⟩
    obtain ⟨entry, hentry, hpolicy⟩ := List.mem_flatMap.1 hpolicy
    have hlookup : db.domains.lookup entry.1 = some entry.2 := Map.mem_entries_iff.1 hentry
    refine ⟨entry.1, policy.name, policy, ?_, rfl, ha⟩
    rw [Database.policiesOf, hlookup]
    exact hpolicy
  · rintro ⟨domainName, policyName, policy, hpolicy, _, ha⟩
    refine ⟨policy, ?_, ha⟩
    cases hrow : db.domains.lookup domainName with
    | none =>
      rw [Database.policiesOf, hrow] at hpolicy
      cases hpolicy
    | some row =>
      rw [Database.policiesOf, hrow] at hpolicy
      exact List.mem_flatMap.2 ⟨⟨domainName, row⟩, Map.mem_entries_iff.2 hrow, hpolicy⟩

theorem storesAssertion_iff {db : Database} :
    db.storesAssertion assertionId = true ↔
      ∃ domainName policyName a, db.HasAssertion domainName policyName a ∧ a.id = assertionId := by
  rw [Database.storesAssertion, List.any_eq_true]
  constructor
  · rintro ⟨a, ha, hid⟩
    obtain ⟨domainName, policyName, ha⟩ := mem_assertions.1 ha
    exact ⟨domainName, policyName, a, ha, of_decide_eq_true hid⟩
  · rintro ⟨domainName, policyName, a, ha, hid⟩
    exact ⟨a, mem_assertions.2 ⟨domainName, policyName, ha⟩, decide_eq_true hid⟩

/-- The assertions with the domains and the policies they belong to. -/
def Database.placedAssertions (db : Database) : List (Str × Str × AssertionRow) :=
  db.domains.entries.flatMap fun domain => domain.2.policies.flatMap fun policy =>
    policy.assertions.map fun a => (domain.1, policy.name, a)

theorem mem_placedAssertions {db : Database} (h : db.HasAssertion domainName policyName a) :
    (domainName, policyName, a) ∈ db.placedAssertions := by
  obtain ⟨policy, hpolicy, rfl, ha⟩ := h
  cases hrow : db.domains.lookup domainName with
  | none =>
    rw [Database.policiesOf, hrow] at hpolicy
    cases hpolicy
  | some row =>
    rw [Database.policiesOf, hrow] at hpolicy
    exact List.mem_flatMap.2 ⟨⟨domainName, row⟩, Map.mem_entries_iff.2 hrow,
      List.mem_flatMap.2 ⟨policy, hpolicy, List.mem_map_of_mem ha⟩⟩

theorem Database.numbered_of_nodup {db : Database}
    (h : (db.placedAssertions.map fun placed => placed.2.2.id).Nodup) : db.Numbered := by
  intro domainName policyName a domainName' policyName' a' ha ha' hid
  have hsame := List.inj_on_of_nodup_map h (mem_placedAssertions ha) (mem_placedAssertions ha') hid
  rw [Prod.mk.injEq, Prod.mk.injEq] at hsame
  exact hsame

theorem Database.Numbered.conditionRows {db : Database} (h : db.Numbered)
    (ha : db.HasAssertion domainName policyName a) : db.conditionRows a.id = a.conditions := by
  cases hfound : (db.policyRows.flatMap (·.assertions)).find? (·.id = a.id) with
  | none =>
    have hnone := List.find?_eq_none.1 hfound a (mem_assertions.2 ⟨domainName, policyName, ha⟩)
    exact absurd (decide_eq_true rfl) hnone
  | some found =>
    have htrue := List.find?_some hfound
    have hid : found.id = a.id := of_decide_eq_true htrue
    obtain ⟨domainName', policyName', hfound'⟩ := mem_assertions.1 (List.mem_of_find?_eq_some hfound)
    have hsame := (h _ _ _ _ _ _ hfound' ha hid).2.2
    rw [Database.conditionRows, hfound, hsame]
    rfl

theorem conditionRows_of_not_stored {db : Database} (h : db.storesAssertion assertionId = false) :
    db.conditionRows assertionId = [] := by
  have hnone : (db.policyRows.flatMap (·.assertions)).find? (·.id = assertionId) = none := by
    refine List.find?_eq_none.2 fun a ha hid => ?_
    have hany : db.storesAssertion assertionId = true := List.any_eq_true.2 ⟨a, ha, hid⟩
    rw [h] at hany
    cases hany
  rw [Database.conditionRows, hnone]
  rfl

theorem policiesOf_setConditions (db : Database) (assertionId : Nat) (rows : List ConditionRow)
    (domainName : Str) : (db.setConditions assertionId rows).policiesOf domainName =
      (db.policiesOf domainName).map (·.setConditions assertionId rows) := by
  rw [Database.policiesOf, Database.setConditions, Map.lookup_mapValues, Database.policiesOf]
  cases db.domains.lookup domainName with
  | none => rfl
  | some row => rfl

theorem hasAssertion_setConditions {db : Database} :
    (db.setConditions assertionId rows).HasAssertion domainName policyName a ↔
      ∃ b, db.HasAssertion domainName policyName b ∧ b.setConditions assertionId rows = a := by
  unfold Database.HasAssertion
  rw [policiesOf_setConditions]
  constructor
  · rintro ⟨_, hchanged, hname, ha⟩
    obtain ⟨policy, hpolicy, rfl⟩ := List.mem_map.1 hchanged
    obtain ⟨b, hb, rfl⟩ := List.mem_map.1 ha
    exact ⟨b, ⟨policy, hpolicy, hname, hb⟩, rfl⟩
  · rintro ⟨b, ⟨policy, hpolicy, hname, hb⟩, rfl⟩
    exact ⟨_, List.mem_map_of_mem hpolicy, hname, List.mem_map_of_mem hb⟩

theorem assertions_setConditions (db : Database) (assertionId : Nat) (rows : List ConditionRow) :
    (db.setConditions assertionId rows).policyRows.flatMap (·.assertions) =
      (db.policyRows.flatMap (·.assertions)).map (·.setConditions assertionId rows) := by
  unfold Database.policyRows Database.setConditions Map.mapValues
  simp only [List.flatMap_map, List.map_flatMap, List.flatMap_assoc]

theorem conditionRows_setConditions {db : Database} (h : db.storesAssertion assertionId = true)
    (rows : List ConditionRow) : (db.setConditions assertionId rows).conditionRows assertionId = rows := by
  rw [Database.conditionRows, assertions_setConditions, List.find?_map]
  have hsame : ((fun a : AssertionRow => decide (a.id = assertionId)) ∘
      AssertionRow.setConditions assertionId rows) = fun a => decide (a.id = assertionId) := by
    funext a
    rw [Function.comp, a.setConditions_id]
  rw [hsame]
  cases hfound : (db.policyRows.flatMap (·.assertions)).find? (·.id = assertionId) with
  | none =>
    obtain ⟨a, ha, hid⟩ := List.any_eq_true.1 h
    exact absurd hid (List.find?_eq_none.1 hfound a ha)
  | some a =>
    have htrue := List.find?_some hfound
    have hid : a.id = assertionId := of_decide_eq_true htrue
    rw [Option.map_some, Option.elim_some, AssertionRow.setConditions, if_pos hid]

theorem storesAssertion_setConditions (db : Database) (assertionId : Nat)
    (rows : List ConditionRow) :
    (db.setConditions assertionId rows).storesAssertion assertionId =
      db.storesAssertion assertionId := by
  rw [Database.storesAssertion, assertions_setConditions, List.any_map, Database.storesAssertion]
  congr 1
  funext a
  rw [Function.comp, a.setConditions_id]

theorem conditionRows_filter (db : Database) (assertionId : Nat) (kept : ConditionRow → Bool) :
    (db.setConditions assertionId ((db.conditionRows assertionId).filter kept)).conditionRows
      assertionId = (db.conditionRows assertionId).filter kept := by
  cases hstored : db.storesAssertion assertionId with
  | true => exact conditionRows_setConditions hstored _
  | false =>
    rw [conditionRows_of_not_stored hstored]
    refine conditionRows_of_not_stored ?_
    rw [storesAssertion_setConditions]
    exact hstored

end Rows

section Reaching

/-- The store still holds the assertions of another one; only the conditions of one of them may have
changed. -/
def Alike (assertionId : Nat) (before db : Database) : Prop :=
  ∃ rows, ∀ domainName, db.policiesOf domainName =
    (before.policiesOf domainName).map (·.setConditions assertionId rows)

theorem AssertionRow.setConditions_self (a : AssertionRow) (h : a.id = assertionId → a.conditions = rows) :
    a.setConditions assertionId rows = a := by
  unfold AssertionRow.setConditions
  split
  · rename_i hid
    rw [← h hid]
  · rfl

theorem Alike.refl {db : Database} (h : db.Numbered) (assertionId : Nat) :
    Alike assertionId db db := by
  refine ⟨db.conditionRows assertionId, fun domainName => ?_⟩
  have hself : ∀ policy ∈ db.policiesOf domainName,
      policy.setConditions assertionId (db.conditionRows assertionId) = policy := by
    intro policy hpolicy
    have hassertions : policy.assertions.map
        (·.setConditions assertionId (db.conditionRows assertionId)) = policy.assertions := by
      refine (List.map_congr_left fun a ha => ?_).trans (List.map_id _)
      refine a.setConditions_self fun hid => ?_
      rw [← hid]
      exact (h.conditionRows ⟨policy, hpolicy, rfl, ha⟩).symm
    rw [PolicyRow.setConditions, hassertions]
  exact ((List.map_congr_left hself).trans (List.map_id _)).symm

theorem Alike.setConditions {before db : Database} (h : Alike assertionId before db)
    (rows : List ConditionRow) : Alike assertionId before (db.setConditions assertionId rows) := by
  obtain ⟨rows', hrows⟩ := h
  refine ⟨rows, fun domainName => ?_⟩
  rw [policiesOf_setConditions, hrows, List.map_map]
  exact List.map_congr_left fun policy _ => policy.setConditions_twice assertionId rows' rows

theorem Alike.congr {before db db' : Database} (h : Alike assertionId before db)
    (hsame : ∀ domainName, db'.policiesOf domainName = db.policiesOf domainName) :
    Alike assertionId before db' := by
  obtain ⟨rows, hrows⟩ := h
  exact ⟨rows, fun domainName => (hsame domainName).trans (hrows domainName)⟩

theorem Alike.hasAssertion {before db : Database} (h : Alike assertionId before db)
    (ha : db.HasAssertion domainName policyName a) : ∃ b rows,
      before.HasAssertion domainName policyName b ∧ a = b.setConditions assertionId rows ∧
        ∀ domainName, db.policiesOf domainName =
          (before.policiesOf domainName).map (·.setConditions assertionId rows) := by
  obtain ⟨rows, hrows⟩ := h
  obtain ⟨policy, hpolicy, hname, ha⟩ := ha
  rw [hrows] at hpolicy
  obtain ⟨stored, hstored, rfl⟩ := List.mem_map.1 hpolicy
  obtain ⟨b, hb, hset⟩ := List.mem_map.1 ha
  exact ⟨b, rows, ⟨stored, hstored, hname, hb⟩, hset.symm, hrows⟩

theorem Alike.numbered {before db : Database} (h : Alike assertionId before db)
    (hbefore : before.Numbered) : db.Numbered := by
  obtain ⟨rows, hrows⟩ := h
  have hback : ∀ {domainName policyName a}, db.HasAssertion domainName policyName a →
      ∃ b, before.HasAssertion domainName policyName b ∧ b.setConditions assertionId rows = a := by
    rintro domainName policyName a ⟨policy, hpolicy, hname, ha⟩
    rw [hrows] at hpolicy
    obtain ⟨stored, hstored, rfl⟩ := List.mem_map.1 hpolicy
    obtain ⟨b, hb, hset⟩ := List.mem_map.1 ha
    exact ⟨b, ⟨stored, hstored, hname, hb⟩, hset⟩
  intro domainName policyName a domainName' policyName' a' ha ha' hid
  obtain ⟨b, hb, rfl⟩ := hback ha
  obtain ⟨b', hb', rfl⟩ := hback ha'
  rw [b.setConditions_id, b'.setConditions_id] at hid
  obtain ⟨hdomain, hpolicy, rfl⟩ := hbefore _ _ _ _ _ _ hb hb' hid
  exact ⟨hdomain, hpolicy, rfl⟩

/-- Of the conditions only those of one assertion have changed, to what the store finds there. -/
theorem Alike.hasCondition_iff {before db : Database} (h : Alike assertionId before db)
    (hbefore : before.Numbered) :
    db.HasCondition domainName policyName number row ↔
      ∃ a, before.HasAssertion domainName policyName a ∧ a.id = number ∧
        if number = assertionId then row ∈ db.conditionRows assertionId else row ∈ a.conditions := by
  have hnumbered := h.numbered hbefore
  constructor
  · rintro ⟨a, ha, rfl, hrow⟩
    obtain ⟨b, rows, hb, rfl, -⟩ := h.hasAssertion ha
    rw [b.setConditions_id]
    refine ⟨b, hb, rfl, ?_⟩
    have hfound := hnumbered.conditionRows ha
    rw [b.setConditions_id] at hfound
    split
    · rename_i hid
      rw [← hid, hfound]
      exact hrow
    · rename_i hid
      rw [AssertionRow.setConditions, if_neg hid] at hrow
      exact hrow
  · rintro ⟨b, hb, rfl, hrow⟩
    obtain ⟨rows, hrows⟩ := h
    have ha : db.HasAssertion domainName policyName (b.setConditions assertionId rows) := by
      obtain ⟨policy, hpolicy, hname, hmem⟩ := hb
      refine ⟨policy.setConditions assertionId rows, ?_, hname, List.mem_map_of_mem hmem⟩
      rw [hrows]
      exact List.mem_map_of_mem hpolicy
    refine ⟨_, ha, b.setConditions_id assertionId rows, ?_⟩
    rw [← hnumbered.conditionRows ha, b.setConditions_id]
    split at hrow
    · rename_i hid
      rw [hid]
      exact hrow
    · rename_i hid
      have hfound := hnumbered.conditionRows ha
      rw [b.setConditions_id, AssertionRow.setConditions, if_neg hid] at hfound
      rw [hfound]
      exact hrow

theorem policiesOf_insert {db : Database} (h : db.domains.lookup name = some row)
    (hsame : row'.policies = row.policies) (domainName : Str) :
    ({ db with domains := db.domains.insert name row' } : Database).policiesOf domainName =
      db.policiesOf domainName := by
  rw [Database.policiesOf, Map.lookup_insert, Database.policiesOf]
  split
  · rename_i hname
    rw [hname, h, Option.elim_some, Option.elim_some, hsame]
  · rfl

theorem policiesOf_stampDomain (name : Str) (time : Int) (db : Database) (domainName : Str) :
    (stampDomain name time db).policiesOf domainName = db.policiesOf domainName := by
  unfold stampDomain
  cases hrow : db.domains.lookup name with
  | none => rfl
  | some row =>
    have hsame : { row with modified := time }.policies = row.policies := rfl
    exact policiesOf_insert hrow hsame domainName

theorem conditionRows_congr {db db' : Database} (h : db.Numbered)
    (hsame : ∀ domainName, db'.policiesOf domainName = db.policiesOf domainName) (assertionId : Nat) :
    db'.conditionRows assertionId = db.conditionRows assertionId := by
  have hhas : ∀ {domainName policyName a}, db'.HasAssertion domainName policyName a ↔
      db.HasAssertion domainName policyName a := by
    intro domainName policyName a
    unfold Database.HasAssertion
    rw [hsame]
  have hnumbered : db'.Numbered := fun _ _ _ _ _ _ ha ha' =>
    h _ _ _ _ _ _ (hhas.1 ha) (hhas.1 ha')
  cases hstored : db.storesAssertion assertionId with
  | true =>
    obtain ⟨domainName, policyName, a, ha, rfl⟩ := storesAssertion_iff.1 hstored
    rw [h.conditionRows ha, hnumbered.conditionRows (hhas.2 ha)]
  | false =>
    have hstored' : db'.storesAssertion assertionId = false := by
      rw [Bool.eq_false_iff] at hstored ⊢
      intro hsome
      obtain ⟨domainName, policyName, a, ha, hid⟩ := storesAssertion_iff.1 hsome
      exact hstored (storesAssertion_iff.2 ⟨domainName, policyName, a, hhas.1 ha, hid⟩)
    rw [conditionRows_of_not_stored hstored, conditionRows_of_not_stored hstored']

end Reaching

section Effects

/-- The rows of a condition under a number. -/
def entryRows (conditionId : Int) (conditionsMap : Map Str AssertionConditionData) :
    List ConditionRow :=
  conditionsMap.entries.map fun entry => ⟨conditionId, entry.1, entry.2⟩

theorem addConditionRows_eq_ok [Collation]
    {entries : List (Sigma fun _ : Str => AssertionConditionData)}
    (h : addConditionRows conditionId entries rows = .ok rows') :
    rows' = rows ++ entries.map fun entry => ⟨conditionId, entry.1, entry.2⟩ := by
  induction entries generalizing rows with
  | nil =>
    cases h
    rw [List.map_nil, List.append_nil]
  | cons entry entries ih =>
    rw [addConditionRows] at h
    split at h
    · cases h
    · rw [ih h, List.append_assoc]
      rfl

theorem insertConditionRows_eq_ok [Collation] {db db' : Database}
    (h : insertConditionRows assertionId conditionId conditionsMap db = .ok (done, db')) :
    done = false ∧ conditionsMap.entries = [] ∧ db' = db ∨
    done = true ∧ conditionsMap.entries ≠ [] ∧ db.storesAssertion assertionId = true ∧
      db' = db.setConditions assertionId
        (db.conditionRows assertionId ++ entryRows conditionId conditionsMap) := by
  unfold insertConditionRows at h
  split at h
  · rename_i hempty
    cases h
    exact .inl ⟨rfl, hempty, rfl⟩
  · rename_i hentries
    split at h
    · rename_i hstored
      obtain ⟨rows, hrows, hdone⟩ := Result.bind_eq_ok.1 h
      cases hdone
      rw [addConditionRows_eq_ok hrows]
      exact .inr ⟨rfl, hentries, hstored, rfl⟩
    · cases h

theorem lt_nextConditionId {rows : List ConditionRow} (h : row ∈ rows) :
    row.id < nextConditionId rows := by
  have hmem : row.id ∈ rows.map (·.id) := List.mem_map_of_mem h
  cases hmax : (rows.map (·.id)).max? with
  | none =>
    rw [List.max?_eq_none_iff.1 hmax] at hmem
    cases hmem
  | some greatest =>
    have hle := (List.max?_eq_some_iff.1 hmax).2 row.id hmem
    rw [nextConditionId, hmax, Option.elim_some]
    exact Int.lt_add_one_of_le hle

/-- Nothing differs for an assertion with these conditions. -/
def ConditionRequest.WritesBack (rows : List ConditionRow) : ConditionRequest → Prop
  | .putAssertionConditions conditions => conditions = []
  | .putAssertionCondition condition => ∃ conditionId, condition.id = some conditionId ∧
      ∀ row, row.id = conditionId →
        (row ∈ rows ↔ row ∈ entryRows conditionId condition.conditionsMap)
  | .deleteAssertionConditions => False
  | .deleteAssertionCondition _ => False

/-- What a request may make of the conditions, however often it is tried. -/
def ConditionRequest.Reach (before rows : List ConditionRow) : ConditionRequest → Prop
  | .putAssertionConditions conditions => before ⊆ rows ∧ (conditions = [] → rows = before)
  | .putAssertionCondition condition =>
    match condition.id with
    | none => before ⊆ rows
    | some conditionId => ∀ row, row.id ≠ conditionId → (row ∈ rows ↔ row ∈ before)
  | .deleteAssertionConditions => rows ⊆ before
  | .deleteAssertionCondition _ => rows ⊆ before

/-- What a request that succeeds has made of the conditions that it has found. -/
def ConditionRequest.Done (found rows : List ConditionRow) : ConditionRequest → Prop
  | .putAssertionConditions conditions => conditions ≠ [] → ∃ row ∈ rows, row ∉ found
  | .putAssertionCondition condition =>
    match condition.id with
    | none => ∃ row ∈ rows, row ∉ found
    | some conditionId => ∀ row, row.id = conditionId →
      (row ∈ rows ↔ row ∈ entryRows conditionId condition.conditionsMap)
  | .deleteAssertionConditions => ∃ row ∈ found, row ∉ rows
  | .deleteAssertionCondition _ => ∃ row ∈ found, row ∉ rows

theorem ConditionRequest.Reach.refl (rows : List ConditionRow) (request : ConditionRequest) :
    request.Reach rows rows := by
  cases request with
  | putAssertionConditions conditions => exact ⟨List.Subset.refl rows, fun _ => rfl⟩
  | putAssertionCondition condition =>
    cases hid : condition.id with
    | none =>
      simp only [ConditionRequest.Reach, hid]
      exact List.Subset.refl rows
    | some conditionId =>
      simp only [ConditionRequest.Reach, hid]
      exact fun _ _ => trivial
  | deleteAssertionConditions => exact List.Subset.refl rows
  | deleteAssertionCondition conditionId => exact List.Subset.refl rows

/-- The conditions are the same behind a request that has succeeded only if they are written back. -/
theorem ConditionRequest.Done.same_iff {request : ConditionRequest}
    (hfound : request.Reach before found) (hrows : request.Reach before rows)
    (h : request.Done found rows) :
    (∀ row, row ∈ rows ↔ row ∈ before) ↔ request.WritesBack before := by
  cases request with
  | putAssertionConditions conditions =>
    constructor
    · intro hsame
      by_contra hsome
      obtain ⟨row, hrow, hnew⟩ := h hsome
      exact hnew (hfound.1 ((hsame row).1 hrow))
    · intro hnone row
      rw [hrows.2 hnone]
  | putAssertionCondition condition =>
    cases hid : condition.id with
    | none =>
      simp only [ConditionRequest.Done, ConditionRequest.Reach, hid] at hfound h
      obtain ⟨row, hrow, hnew⟩ := h
      constructor
      · intro hsame
        exact absurd (hfound ((hsame row).1 hrow)) hnew
      · rintro ⟨conditionId, hsome, _⟩
        rw [hid] at hsome
        cases hsome
    | some conditionId =>
      simp only [ConditionRequest.Done, ConditionRequest.Reach, hid] at hrows h
      constructor
      · intro hsame
        refine ⟨conditionId, hid, fun row hrow => ?_⟩
        rw [← hsame row, h row hrow]
      · rintro ⟨conditionId', hsome, hback⟩ row
        rw [hid, Option.some.injEq] at hsome
        subst hsome
        by_cases hrow : row.id = conditionId
        · rw [h row hrow, hback row hrow]
        · exact hrows row hrow
  | deleteAssertionConditions =>
    obtain ⟨row, hrow, hgone⟩ := h
    exact ⟨fun hsame => hgone ((hsame row).2 (hfound hrow)), False.elim⟩
  | deleteAssertionCondition conditionId =>
    obtain ⟨row, hrow, hgone⟩ := h
    exact ⟨fun hsame => hgone ((hsame row).2 (hfound hrow)), False.elim⟩

end Effects

section Statements

/-- A statement that leaves the policies of all domains. -/
def SamePolicies (db db' : Database) : Prop :=
  ∀ domainName, db'.policiesOf domainName = db.policiesOf domainName

variable {K : Database → Prop}

theorem updateDomainModTimestamp_samePolicies (hK : ∀ db db', SamePolicies db db' → K db → K db')
    (domainName : Str) : Preserves K (updateDomainModTimestamp domainName) := by
  refine .statement fun time db done db' hdb h => ?_
  cases h
  exact hK _ _ (policiesOf_stampDomain domainName time db) hdb

variable [Collation]

theorem changePolicy_same {row row' : DomainRow} {done : Bool}
    (h : changePolicy domainName policyName version (fun p => .ok (true, p)) row = .ok (done, row')) :
    row'.policies = row.policies := by
  unfold changePolicy at h
  split at h
  · cases h
  · split at h
    · cases h
    · rename_i i _ policy hpolicy
      cases h
      obtain ⟨hi, rfl⟩ := List.getElem?_eq_some_iff.1 hpolicy
      exact List.set_getElem_self hi

theorem updatePolicyModTimestamp_returns (domainName policyName : Str) (version : Option Str) :
    Returns (updatePolicyModTimestamp domainName policyName version) fun db _ db' =>
      SamePolicies db db' := by
  refine (onDomain_returns _).mono ?_
  rintro db done db' ⟨row, row', hrow, hchange, rfl⟩
  exact policiesOf_insert hrow (changePolicy_same hchange)

theorem updatePolicyModTimestamp_preserves (hK : ∀ db db', SamePolicies db db' → K db → K db')
    (domainName policyName : Str) (version : Option Str) :
    Preserves K (updatePolicyModTimestamp domainName policyName version) := by
  refine onDomain_preserves fun db row done row' hrow hchange hdb => ?_
  exact hK _ _ (policiesOf_insert hrow (changePolicy_same hchange)) hdb

end Statements

section Requests

theorem checkConditionsCount_reading (config : Config) (assertionId newCount : Nat) :
    Reading (checkConditionsCount config assertionId newCount) :=
  (Reading.query _).bind fun _ => checkQuota_reading _ _ _

theorem checkAssertionConditionsQuota_reading (config : Config) (assertionId : Nat)
    (conditions : List AssertionCondition) :
    Reading (checkAssertionConditionsQuota config assertionId conditions) :=
  .ite (checkConditionsCount_reading _ _ _) (.pure ())

theorem checkAssertionConditionQuota_reading (config : Config) (assertionId : Nat)
    (condition : AssertionCondition) :
    Reading (checkAssertionConditionQuota config assertionId condition) :=
  .ite (checkConditionsCount_reading _ _ _) (.pure ())

/-- What every request keeps: it has only worked on the conditions of its assertion. -/
structure ConditionRequest.Kept (request : ConditionRequest) (assertionId : Nat)
    (before db : Database) : Prop where
  alike : Alike assertionId before db
  reach : request.Reach (before.conditionRows assertionId) (db.conditionRows assertionId)

variable {request : ConditionRequest} {before : Database}

theorem ConditionRequest.Kept.congr (hbefore : before.Numbered)
    (h : request.Kept assertionId before db) (hsame : SamePolicies db db') :
    request.Kept assertionId before db' where
  alike := h.alike.congr hsame
  reach := by
    rw [conditionRows_congr (h.alike.numbered hbefore) hsame]
    exact h.reach

/-- A request may insert conditions with a number. -/
def ConditionRequest.Inserts (request : ConditionRequest) (conditionId : Int) : Prop :=
  ∀ before rows conditionsMap, request.Reach before rows →
    request.Reach before (rows ++ entryRows conditionId conditionsMap)

/-- A request may delete these conditions. -/
def ConditionRequest.Deletes (request : ConditionRequest) (gone : ConditionRow → Bool) : Prop :=
  ∀ before rows, request.Reach before rows → request.Reach before (rows.filter (!gone ·))

theorem deleteConditionRows_preserves (hdeletes : request.Deletes gone) (assertionId : Nat) :
    Preserves (request.Kept assertionId before) (deleteConditionRows assertionId gone) := by
  refine .statement fun _ db done db' h hrun => ?_
  cases hrun
  refine ⟨h.alike.setConditions _, ?_⟩
  rw [conditionRows_filter]
  exact hdeletes _ _ h.reach

variable [Collation]

theorem insertConditionRows_kept (hinserts : request.Inserts conditionId)
    (h : request.Kept assertionId before db)
    (hrun : insertConditionRows assertionId conditionId conditionsMap db = .ok (done, db')) :
    request.Kept assertionId before db' := by
  rcases insertConditionRows_eq_ok hrun with ⟨_, _, rfl⟩ | ⟨_, _, hstored, rfl⟩
  · exact h
  · refine ⟨h.alike.setConditions _, ?_⟩
    rw [conditionRows_setConditions hstored]
    exact hinserts _ _ _ h.reach

theorem insertSingle_preserves (hinserts : request.Inserts conditionId) (assertionId : Nat)
    (conditionsMap : Map Str AssertionConditionData) :
    Preserves (request.Kept assertionId before)
      (insertSingleAssertionCondition assertionId conditionId conditionsMap) :=
  .statement fun _ _ _ _ h hrun => insertConditionRows_kept hinserts h hrun

theorem insertConditionsFrom_preserves (hinserts : ∀ conditionId, request.Inserts conditionId)
    (assertionId : Nat) (result : Bool) (conditions : List AssertionCondition) :
    Preserves (request.Kept assertionId before)
      (insertConditionsFrom assertionId result conditions) := by
  induction conditions generalizing result with
  | nil => exact .pure result
  | cons condition conditions ih =>
    have hnext : Preserves (request.Kept assertionId before)
        (insertNextCondition assertionId result condition) :=
      (Preserves.query _).bind fun conditionId =>
        .ite (fun _ => insertSingle_preserves (hinserts conditionId) assertionId _) fun _ =>
          .pure false
    exact hnext.bind fun done => ih done

end Requests

section Bodies

theorem inserts_new (hnone : condition.id = none) (conditionId : Int) :
    (ConditionRequest.putAssertionCondition condition).Inserts conditionId := by
  intro before rows conditionsMap h
  simp only [ConditionRequest.Reach, hnone] at h ⊢
  exact List.subset_append_of_subset_left _ h

theorem inserts_replaced (hid : condition.id = some conditionId) :
    (ConditionRequest.putAssertionCondition condition).Inserts conditionId := by
  intro before rows conditionsMap h
  simp only [ConditionRequest.Reach, hid] at h ⊢
  intro row hrow
  have hnew : row ∉ entryRows conditionId conditionsMap := by
    intro hmem
    obtain ⟨entry, _, rfl⟩ := List.mem_map.1 hmem
    exact hrow rfl
  rw [List.mem_append, or_iff_left hnew]
  exact h row hrow

theorem inserts_listed (hsome : conditions ≠ []) (conditionId : Int) :
    (ConditionRequest.putAssertionConditions conditions).Inserts conditionId :=
  fun _ _ _ h => ⟨List.subset_append_of_subset_left _ h.1, fun hnone => absurd hnone hsome⟩

theorem deletes_replaced (hid : condition.id = some conditionId) :
    (ConditionRequest.putAssertionCondition condition).Deletes (·.id = conditionId) := by
  intro before rows h
  simp only [ConditionRequest.Reach, hid] at h ⊢
  intro row hrow
  rw [List.mem_filter, and_iff_left, h row hrow]
  rw [decide_eq_false hrow]
  rfl

variable [Collation]

def ConditionRequest.body (config : Config) (ctx : Context) (domainName policyName : Str)
    (assertionId : Nat) : ConditionRequest → Op Unit
  | .putAssertionConditions conditions =>
    putAssertionConditionsBody config ctx domainName policyName assertionId conditions
  | .putAssertionCondition condition =>
    putAssertionConditionBody config ctx domainName policyName assertionId condition
  | .deleteAssertionConditions =>
    deleteAssertionConditionsBody config ctx domainName policyName assertionId
  | .deleteAssertionCondition conditionId =>
    deleteAssertionConditionBody config ctx domainName policyName assertionId conditionId

theorem ConditionRequest.body_preserves (config : Config) (ctx : Context)
    (domainName policyName : Str) {before : Database} (hbefore : before.Numbered)
    (request : ConditionRequest) :
    Preserves (request.Kept assertionId before)
      (request.body config ctx domainName policyName assertionId) := by
  have hsame : ∀ db db', SamePolicies db db' → request.Kept assertionId before db →
      request.Kept assertionId before db' := fun _ _ hsame h => h.congr hbefore hsame
  have haudit := (checkDomainAuditEnabled_reading config ctx domainName .policy).preserves
    (request.Kept assertionId before)
  have htime := updatePolicyModTimestamp_preserves hsame domainName policyName none
  have hdomain := updateDomainModTimestamp_samePolicies hsame domainName
  cases request with
  | putAssertionConditions conditions =>
    have hinsert : Preserves ((ConditionRequest.putAssertionConditions conditions).Kept assertionId
        before) (insertAssertionConditions assertionId conditions) := by
      by_cases hnone : conditions = []
      · rw [hnone]
        exact .pure true
      · exact insertConditionsFrom_preserves (inserts_listed hnone) assertionId true conditions
    exact haudit.bind fun _ =>
      ((checkAssertionConditionsQuota_reading _ _ _).preserves _).bind fun _ =>
        hinsert.bind fun _ => (Preserves.permit _ _).bind fun _ => htime.bind fun _ => .pure ()
  | putAssertionCondition condition =>
    refine haudit.bind fun _ => ?_
    have hquota := (checkAssertionConditionQuota_reading config assertionId condition).preserves
      ((ConditionRequest.putAssertionCondition condition).Kept assertionId before)
    cases hid : condition.id with
    | none =>
      have hadd : Preserves ((ConditionRequest.putAssertionCondition condition).Kept assertionId
          before) (addAssertionCondition config ctx policyName assertionId condition) :=
        hquota.bind fun _ => (Preserves.query _).bind fun conditionId =>
          (insertSingle_preserves (inserts_new hid conditionId) assertionId _).bind fun _ =>
            .permit _ _
      exact hadd.bind fun _ => htime.bind fun _ => .pure ()
    | some conditionId =>
      have hreplace : Preserves ((ConditionRequest.putAssertionCondition condition).Kept assertionId
          before)
          (replaceAssertionCondition config ctx policyName assertionId conditionId condition) :=
        (deleteConditionRows_preserves (deletes_replaced hid) assertionId).bind fun _ =>
          (Preserves.permit _ _).bind fun _ => hquota.bind fun _ =>
            (insertSingle_preserves (inserts_replaced hid) assertionId _).bind fun _ =>
              .permit _ _
      exact hreplace.bind fun _ => htime.bind fun _ => .pure ()
  | deleteAssertionConditions =>
    have hdeletes : ConditionRequest.deleteAssertionConditions.Deletes fun _ => true :=
      fun _ _ h _ hrow => h (List.mem_of_mem_filter hrow)
    exact haudit.bind fun _ => (Preserves.query _).bind fun _ =>
      (deleteConditionRows_preserves hdeletes assertionId).bind fun _ =>
        (Preserves.permit _ _).bind fun _ => htime.bind fun _ => hdomain
  | deleteAssertionCondition conditionId =>
    have hdeletes : (ConditionRequest.deleteAssertionCondition conditionId).Deletes
        (·.id = conditionId) :=
      fun _ _ h _ hrow => h (List.mem_of_mem_filter hrow)
    exact haudit.bind fun _ => (Preserves.query _).bind fun _ =>
      (Preserves.permit _ _).bind fun _ =>
        (deleteConditionRows_preserves hdeletes assertionId).bind fun _ =>
          (Preserves.permit _ _).bind fun _ => htime.bind fun _ => hdomain

end Bodies

section Outcomes

theorem Database.Numbered.setConditions {db : Database} (h : db.Numbered) (assertionId : Nat)
    (rows : List ConditionRow) : (db.setConditions assertionId rows).Numbered :=
  ((Alike.refl h assertionId).setConditions rows).numbered h

theorem SamePolicies.conditionRows {db db' : Database} (h : SamePolicies db db')
    (hdb : db.Numbered) (assertionId : Nat) :
    db'.conditionRows assertionId = db.conditionRows assertionId := conditionRows_congr hdb h assertionId

theorem new_of_entries (rows : List ConditionRow) {conditionsMap : Map Str AssertionConditionData}
    (h : conditionsMap.entries ≠ []) :
    ∃ row ∈ entryRows (nextConditionId rows) conditionsMap, row ∉ rows := by
  obtain ⟨entry, hentry⟩ := List.exists_mem_of_ne_nil _ h
  refine ⟨_, List.mem_map_of_mem hentry, fun hmem => ?_⟩
  exact absurd (lt_nextConditionId hmem) (Int.lt_irrefl _)

/-- Conditions have only been added, and one of them if the insertion has succeeded. -/
structure Added (assertionId : Nat) (done : Bool) (db db' : Database) : Prop where
  numbered : db.Numbered → db'.Numbered
  kept : db.conditionRows assertionId ⊆ db'.conditionRows assertionId
  added : done = true → ∃ row ∈ db'.conditionRows assertionId, row ∉ db.conditionRows assertionId

theorem Added.trans (h : Added assertionId done db db') (h' : Added assertionId done' db' db'')
    (hdone : done' = true → done = true) : Added assertionId done' db db'' where
  numbered hdb := h'.numbered (h.numbered hdb)
  kept := List.Subset.trans h.kept h'.kept
  added hdone' := by
    obtain ⟨row, hrow, hnew⟩ := h.added (hdone hdone')
    exact ⟨row, h'.kept hrow, hnew⟩

theorem deleteConditionRows_returns (assertionId : Nat) (gone : ConditionRow → Bool) :
    Returns (deleteConditionRows assertionId gone) fun db deleted db' =>
      deleted = (db.conditionRows assertionId).any gone ∧ db' = db.setConditions assertionId
        ((db.conditionRows assertionId).filter (!gone ·)) := by
  refine (Returns.statement _).mono ?_
  rintro db deleted db' ⟨_, h⟩
  cases h
  exact ⟨rfl, rfl⟩

theorem updateDomainModTimestamp_returns (domainName : Str) :
    Returns (updateDomainModTimestamp domainName) fun db _ db' => SamePolicies db db' := by
  refine (Returns.statement _).mono ?_
  rintro db _ db' ⟨time, h⟩
  cases h
  exact policiesOf_stampDomain domainName time db

/-- What the deletion of some conditions has deleted is gone. -/
theorem gone_of_deleted {db db₁ db' : Database} (hdb : db.Numbered)
    (hdeleted : (db.conditionRows assertionId).any gone = true)
    (hset : db₁ = db.setConditions assertionId ((db.conditionRows assertionId).filter (!gone ·)))
    (hsame : SamePolicies db₁ db') :
    ∃ row ∈ db.conditionRows assertionId, row ∉ db'.conditionRows assertionId := by
  obtain ⟨row, hrow, hgone⟩ := List.any_eq_true.1 hdeleted
  refine ⟨row, hrow, ?_⟩
  have hdb₁ : db₁.Numbered := by
    rw [hset]
    exact hdb.setConditions _ _
  rw [hsame.conditionRows hdb₁, hset, conditionRows_filter, List.mem_filter, hgone]
  exact fun h => Bool.false_ne_true h.2

theorem checkDomainAuditEnabled_aligned (config : Config) (ctx : Context) (domainName : Str)
    (objectType : AuditType) :
    Aligned (checkDomainAuditEnabled config ctx domainName objectType) := by
  refine .ite ((Aligned.query _).bind fun domain => ?_) (.pure ())
  cases domain with
  | none => exact .abort _
  | some domain =>
    exact .ite ((Aligned.ensure _ _).bind fun _ => .ensure _ _) (.pure ())

variable [Collation]

theorem insertNext_added {db db' : Database}
    (h : insertConditionRows assertionId (nextConditionId (db.conditionRows assertionId))
      conditionsMap db = .ok (done, db')) : Added assertionId done db db' := by
  rcases insertConditionRows_eq_ok h with ⟨rfl, _, rfl⟩ | ⟨rfl, hentries, hstored, rfl⟩
  · exact ⟨id, List.Subset.refl _, nofun⟩
  · refine ⟨fun hdb => hdb.setConditions _ _, ?_, fun _ => ?_⟩
    · rw [conditionRows_setConditions hstored]
      exact List.subset_append_left _ _
    · obtain ⟨row, hrow, hnew⟩ := new_of_entries (db.conditionRows assertionId) hentries
      rw [conditionRows_setConditions hstored]
      exact ⟨row, List.mem_append_right _ hrow, hnew⟩

theorem insertNextCondition_returns (assertionId : Nat) (result : Bool)
    (condition : AssertionCondition) :
    Returns (insertNextCondition assertionId result condition) fun db done db' =>
      Added assertionId done db db' ∧ (done = true → result = true) := by
  intro c done c' h
  obtain ⟨conditionId, d, hquery, hrun⟩ := bind_eq_ok.1 h
  obtain ⟨_, rfl, rfl⟩ := query_eq_ok.1 hquery
  split at hrun
  · rename_i hresult
    obtain ⟨_, db', hinsert, rfl⟩ := statement_eq_ok.1 hrun
    exact ⟨insertNext_added hinsert, fun _ => hresult⟩
  · cases hrun
    exact ⟨⟨id, List.Subset.refl _, nofun⟩, nofun⟩

theorem insertConditionsFrom_returns (assertionId : Nat) (result : Bool)
    (conditions : List AssertionCondition) (hsome : conditions ≠ []) :
    Returns (insertConditionsFrom assertionId result conditions) fun db done db' =>
      Added assertionId done db db' ∧ (done = true → result = true) := by
  induction conditions generalizing result with
  | nil => exact absurd rfl hsome
  | cons condition conditions ih =>
    cases conditions with
    | nil =>
      refine (Returns.bind (insertNextCondition_returns assertionId result condition)
        fun done => Returns.pure done).mono ?_
      rintro db done db' ⟨_, _, h, rfl, rfl⟩
      exact h
    | cons next conditions =>
      refine (Returns.bind (insertNextCondition_returns assertionId result condition)
        fun done => ih done (List.cons_ne_nil _ _)).mono ?_
      rintro db done db' ⟨first, db₁, ⟨hfirst, hresult⟩, hrest, hdone⟩
      exact ⟨hfirst.trans hrest hdone, fun h => hresult (hdone h)⟩

/-- The end of a request for a policy: its time is set. -/
theorem stamped_returns {p : Op Unit} {R : Database → Unit → Database → Prop} (hp : Returns p R)
    (domainName policyName : Str) :
    Returns (do
      p
      let _ ← updatePolicyModTimestamp domainName policyName none) fun db _ db' =>
        ∃ db₁, R db () db₁ ∧ SamePolicies db₁ db' := by
  refine (Returns.bind hp fun _ => Returns.bind
    (updatePolicyModTimestamp_returns domainName policyName none) fun _ => Returns.pure ()).mono ?_
  rintro db _ db' ⟨_, db₁, hR, _, db₂, hsame, _, rfl⟩
  exact ⟨db₁, hR, hsame⟩

theorem addAssertionCondition_returns (config : Config) (ctx : Context) (policyName : Str)
    (assertionId : Nat) (condition : AssertionCondition) :
    Returns (addAssertionCondition config ctx policyName assertionId condition) fun db _ db' =>
      Added assertionId true db db' := by
  refine (checkAssertionConditionQuota_reading _ _ _).returns_bind fun _ => ?_
  have hrun : ∀ db : Database, Returns (do
      let done ← insertSingleAssertionCondition assertionId
        (nextConditionId (db.conditionRows assertionId)) condition.conditionsMap
      Tx.permit done (requestError (conditionText
        (ctx.caller ++ ": unable to insert new assertion condition".toList) policyName assertionId)))
      fun found _ db' => found = db → Added assertionId true found db' := by
    intro db
    refine (Returns.bind (Returns.statement _) fun _ => Returns.permit _ _).mono ?_
    rintro found _ db' ⟨done, db₁, ⟨_, h⟩, rfl, rfl⟩ rfl
    exact insertNext_added h
  refine (Returns.query_bind hrun).mono ?_
  intro db _ db' h
  exact h rfl

theorem replaceAssertionCondition_returns (config : Config) (ctx : Context) (policyName : Str)
    (assertionId : Nat) (conditionId : Int) (condition : AssertionCondition) :
    Returns (replaceAssertionCondition config ctx policyName assertionId conditionId condition)
      fun db _ db' => db.Numbered → db'.Numbered ∧ ∀ row, row.id = conditionId →
        (row ∈ db'.conditionRows assertionId ↔
          row ∈ entryRows conditionId condition.conditionsMap) := by
  have hinsert : Returns (do
      let done ← insertSingleAssertionCondition assertionId conditionId condition.conditionsMap
      Tx.permit done (requestError (conditionText
        (ctx.caller ++ ": unable to insert assertion condition".toList) policyName assertionId)))
      fun db _ db' => db.storesAssertion assertionId = true ∧ db' = db.setConditions assertionId
        (db.conditionRows assertionId ++ entryRows conditionId condition.conditionsMap) := by
    refine (Returns.bind (Returns.statement _) fun _ => Returns.permit _ _).mono ?_
    rintro db _ db' ⟨done, db₁, ⟨_, h⟩, rfl, rfl⟩
    rcases insertConditionRows_eq_ok h with ⟨hfalse, _⟩ | ⟨_, _, hstored, rfl⟩
    · cases hfalse
    · exact ⟨hstored, rfl⟩
  refine (Returns.bind (deleteConditionRows_returns assertionId _) fun _ =>
    Returns.bind (Returns.permit _ _) fun _ =>
      (checkAssertionConditionQuota_reading _ _ _).returns_bind fun _ => hinsert).mono ?_
  rintro db _ db' ⟨_, db₁, ⟨_, rfl⟩, _, db₂, ⟨_, rfl⟩, hstored, rfl⟩ hdb
  refine ⟨(hdb.setConditions _ _).setConditions _ _, fun row hrow => ?_⟩
  rw [conditionRows_setConditions hstored, conditionRows_filter, List.mem_append, List.mem_filter,
    or_iff_right]
  rintro ⟨_, hkept⟩
  rw [decide_eq_true hrow] at hkept
  cases hkept

/-- A request that ends has made its change. -/
theorem ConditionRequest.body_returns (config : Config) (ctx : Context)
    (domainName policyName : Str) (assertionId : Nat) (request : ConditionRequest) :
    Returns (request.body config ctx domainName policyName assertionId) fun db _ db' =>
      db.Numbered → request.Done (db.conditionRows assertionId) (db'.conditionRows assertionId) := by
  have haudit := checkDomainAuditEnabled_reading config ctx domainName .policy
  cases request with
  | putAssertionConditions conditions =>
    refine haudit.returns_bind fun _ =>
      (checkAssertionConditionsQuota_reading _ _ _).returns_bind fun _ => ?_
    by_cases hnone : conditions = []
    · exact fun _ _ _ _ _ hsome => absurd hnone hsome
    · refine (Returns.bind (insertConditionsFrom_returns assertionId true conditions hnone)
        fun done => Returns.bind (Returns.permit _ _) fun _ => Returns.bind
          (updatePolicyModTimestamp_returns domainName policyName none) fun _ =>
            Returns.pure ()).mono ?_
      rintro db _ db' ⟨done, db₁, ⟨hadded, _⟩, _, _, ⟨rfl, rfl⟩, _, _, hsame, _, rfl⟩ hdb _
      rw [hsame.conditionRows (hadded.numbered hdb)]
      exact hadded.added rfl
  | putAssertionCondition condition =>
    refine haudit.returns_bind fun _ => ?_
    cases hid : condition.id with
    | none =>
      refine (stamped_returns (addAssertionCondition_returns config ctx policyName assertionId
        condition) domainName policyName).mono ?_
      rintro db _ db' ⟨db₁, hadded, hsame⟩ hdb
      simp only [ConditionRequest.Done, hid]
      rw [hsame.conditionRows (hadded.numbered hdb)]
      exact hadded.added rfl
    | some conditionId =>
      refine (stamped_returns (replaceAssertionCondition_returns config ctx policyName assertionId
        conditionId condition) domainName policyName).mono ?_
      rintro db _ db' ⟨db₁, hreplaced, hsame⟩ hdb
      simp only [ConditionRequest.Done, hid]
      rw [hsame.conditionRows (hreplaced hdb).1]
      exact (hreplaced hdb).2
  | deleteAssertionConditions =>
    refine haudit.returns_bind fun _ => (Reading.query _).returns_bind fun _ => ?_
    refine (Returns.bind (deleteConditionRows_returns assertionId _) fun _ =>
      Returns.bind (Returns.permit _ _) fun _ => Returns.bind
        (updatePolicyModTimestamp_returns domainName policyName none) fun _ =>
          updateDomainModTimestamp_returns domainName).mono ?_
    rintro db _ db' ⟨deleted, db₁, ⟨hdeleted, hset⟩, _, _, ⟨rfl, rfl⟩, _, _, hfirst, hsame⟩ hdb
    exact gone_of_deleted hdb hdeleted.symm hset fun domainName =>
      (hsame domainName).trans (hfirst domainName)
  | deleteAssertionCondition conditionId =>
    refine haudit.returns_bind fun _ => (Reading.query _).returns_bind fun _ =>
      (Reading.permit _ _).returns_bind fun _ => ?_
    refine (Returns.bind (deleteConditionRows_returns assertionId _) fun _ =>
      Returns.bind (Returns.permit _ _) fun _ => Returns.bind
        (updatePolicyModTimestamp_returns domainName policyName none) fun _ =>
          updateDomainModTimestamp_returns domainName).mono ?_
    rintro db _ db' ⟨deleted, db₁, ⟨hdeleted, hset⟩, _, _, ⟨rfl, rfl⟩, _, _, hfirst, hsame⟩ hdb
    exact gone_of_deleted hdb hdeleted.symm hset fun domainName =>
      (hsame domainName).trans (hfirst domainName)

theorem ConditionRequest.execute_eq_ok {config : Config} {ctx : Context}
    {request : ConditionRequest} {db db' : Database} (hdb : db.Numbered)
    (h : request.execute config ctx domainName policyName assertionId db events = (.ok (), db')) :
    ∃ found, request.Kept assertionId db found ∧ request.Kept assertionId db db' ∧
      request.Done (found.conditionRows assertionId) (db'.conditionRows assertionId) := by
  have hbody := request.body_returns config ctx domainName policyName assertionId
  have hkeeps : Preserves (request.Kept assertionId db)
      (request.body config ctx domainName policyName assertionId) :=
    request.body_preserves config ctx domainName policyName hdb
  have hstart : request.Kept assertionId db db := ⟨.refl hdb assertionId, .refl _ request⟩
  have hsaved : Preserves (request.Kept assertionId db) (Tx.saved (stampDomain domainName)
      (request.body config ctx domainName policyName assertionId)) :=
    Preserves.saved hkeeps fun time s hs => hs.congr hdb (policiesOf_stampDomain domainName time s)
  have hput : ∀ {retries}, attempts false shouldRetryOperation (Tx.saved (stampDomain domainName)
      (request.body config ctx domainName policyName assertionId)) retries db events =
        (.ok (), db') → ∃ found, request.Kept assertionId db found ∧
          request.Kept assertionId db db' ∧
          request.Done (found.conditionRows assertionId) (db'.conditionRows assertionId) := by
    intro retries hrun
    have hend : request.Kept assertionId db (attempts false shouldRetryOperation
        (Tx.saved (stampDomain domainName)
          (request.body config ctx domainName policyName assertionId)) retries db events).2 :=
      attempts_preserves hsaved hstart
    rw [hrun] at hend
    have hbegun : request.Kept assertionId db (begun false shouldRetryOperation
        (Tx.saved (stampDomain domainName)
          (request.body config ctx domainName policyName assertionId)) retries db events) :=
      begun_preserves hsaved hstart
    obtain ⟨_, _, hlast⟩ := attempts_eq_ok hrun
    obtain ⟨made, time, hmade, rfl⟩ := attempt_saved_ok hbody hlast
    refine ⟨_, hbegun, hend, ?_⟩
    have hnumbered := hbegun.alike.numbered hdb
    have hsame : SamePolicies (stampDomain domainName time made) made := fun name =>
      (policiesOf_stampDomain domainName time made name).symm
    rw [← hsame.conditionRows (hend.alike.numbered hdb)]
    exact hmade hnumbered
  have hdelete : Aligned (request.body config ctx domainName policyName assertionId) →
      ∀ {retries}, attempts true shouldRetryOperation
        (request.body config ctx domainName policyName assertionId) retries db events =
          (.ok (), db') → ∃ found, request.Kept assertionId db found ∧
            request.Kept assertionId db db' ∧
            request.Done (found.conditionRows assertionId) (db'.conditionRows assertionId) := by
    intro haligned retries hrun
    have hend : request.Kept assertionId db (attempts true shouldRetryOperation
        (request.body config ctx domainName policyName assertionId) retries db events).2 :=
      attempts_preserves hkeeps hstart
    rw [hrun] at hend
    have hbegun : request.Kept assertionId db (begun true shouldRetryOperation
        (request.body config ctx domainName policyName assertionId) retries db events) :=
      begun_preserves hkeeps hstart
    obtain ⟨_, _, hlast⟩ := attempts_eq_ok hrun
    exact ⟨_, hbegun, hend, attempt_aligned_ok hbody haligned hlast (hbegun.alike.numbered hdb)⟩
  have haudit := checkDomainAuditEnabled_aligned config ctx domainName .policy
  have hrows : ∀ gone, Aligned (deleteConditionRows assertionId gone) := fun _ => .statement _
  have htime : Aligned (updatePolicyModTimestamp domainName policyName none) := .statement _
  have hdomain : Aligned (updateDomainModTimestamp domainName) := .statement _
  cases request with
  | putAssertionConditions conditions => exact hput h
  | putAssertionCondition condition => exact hput h
  | deleteAssertionConditions =>
    exact hdelete (haudit.bind fun _ => (Aligned.query _).bind fun _ =>
      (hrows _).bind fun _ => (Aligned.permit _ _).bind fun _ => htime.bind fun _ => hdomain) h
  | deleteAssertionCondition conditionId =>
    exact hdelete (haudit.bind fun _ => (Aligned.query _).bind fun _ =>
      (Aligned.permit _ _).bind fun _ => (hrows _).bind fun _ =>
        (Aligned.permit _ _).bind fun _ => htime.bind fun _ => hdomain) h

end Outcomes

end Athenz.ZmsServer
