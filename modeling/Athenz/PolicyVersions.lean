import Athenz.PolicyStore

namespace Athenz.ZmsServer
open Lib Lib.Text Lib.Transaction Lib.Transaction.Tx
set_option autoImplicit true

section Conditions

/-- Conditions with the same data under every key. -/
def SameCondition (condition condition' : AssertionCondition) : Prop :=
  ∀ key, condition'.conditionsMap.lookup key = condition.conditionsMap.lookup key

/-- The numbers of the conditions in rows. -/
def conditionIds (rows : List ConditionRow) : List Int :=
  ((rows.map (·.id)).dedup).mergeSort (· ≤ ·)

theorem conditionsOf_nil : conditionsOf [] = [] := by
  rw [conditionsOf, List.map_nil, List.dedup_nil, List.mergeSort_nil, List.map_nil]

theorem mem_conditionIds : k ∈ conditionIds rows ↔ ∃ row ∈ rows, row.id = k := by
  rw [conditionIds, List.mem_mergeSort, List.mem_dedup, List.mem_map]

theorem nodup_conditionIds (rows : List ConditionRow) : (conditionIds rows).Nodup :=
  (List.mergeSort_perm _ _).nodup_iff.2 (List.nodup_dedup _)

theorem pairwise_conditionIds (rows : List ConditionRow) :
    (conditionIds rows).Pairwise fun a b => a ≤ b := by
  have hsorted : (conditionIds rows).Pairwise fun a b => decide (a ≤ b) = true := by
    refine List.pairwise_mergeSort ?_ ?_ _
    · intro a b c hab hbc
      exact decide_eq_true (Int.le_trans (of_decide_eq_true hab) (of_decide_eq_true hbc))
    · intro a b
      rw [Bool.or_eq_true, decide_eq_true_eq, decide_eq_true_eq]
      exact Int.le_total a b
  exact hsorted.imp fun h => of_decide_eq_true h

variable {rows : List ConditionRow} {conditionsMap : Map Str AssertionConditionData}

/-- A condition under a greater number comes last. -/
theorem conditionIds_append (hlt : ∀ row ∈ rows, row.id < n) (hsome : conditionsMap.entries ≠ []) :
    conditionIds (rows ++ entryRows n conditionsMap) = conditionIds rows ++ [n] := by
  have hbelow : ∀ k ∈ conditionIds rows, k < n := by
    intro k hid
    obtain ⟨row, hrow, rfl⟩ := mem_conditionIds.1 hid
    exact hlt row hrow
  have hnodup : (conditionIds rows ++ [n]).Nodup := by
    refine List.nodup_append.2 ⟨nodup_conditionIds rows, List.nodup_singleton n, ?_⟩
    rintro k hid m hm rfl
    rw [List.mem_singleton.1 hm] at hid
    exact absurd (hbelow n hid) (Int.lt_irrefl n)
  have hmem : ∀ k, k ∈ conditionIds (rows ++ entryRows n conditionsMap) ↔
      k ∈ conditionIds rows ++ [n] := by
    intro k
    simp only [mem_conditionIds, List.mem_append, List.mem_singleton, or_and_right, exists_or]
    refine or_congr Iff.rfl ⟨?_, ?_⟩
    · rintro ⟨row, hrow, rfl⟩
      obtain ⟨entry, _, rfl⟩ := List.mem_map.1 hrow
      rfl
    · rintro rfl
      obtain ⟨entry, hentry⟩ := List.exists_mem_of_ne_nil _ hsome
      exact ⟨_, List.mem_map_of_mem hentry, rfl⟩
  refine List.Perm.eq_of_pairwise (fun a b _ _ hab hba => Int.le_antisymm hab hba)
    (pairwise_conditionIds _) ?_
    ((List.perm_ext_iff_of_nodup (nodup_conditionIds _) hnodup).2 hmem)
  refine List.pairwise_append.2 ⟨pairwise_conditionIds rows, List.pairwise_singleton _ _, ?_⟩
  intro k hid m hm
  rw [List.mem_singleton.1 hm]
  exact Int.le_of_lt (hbelow k hid)

theorem conditionOf_append_of_ne (hne : k ≠ n) :
    conditionOf (rows ++ entryRows n conditionsMap) k = conditionOf rows k := by
  have hnone : (entryRows n conditionsMap).filter (·.id = k) = [] := by
    refine List.filter_eq_nil_iff.2 fun row hrow => ?_
    obtain ⟨entry, _, rfl⟩ := List.mem_map.1 hrow
    rw [decide_eq_true_eq]
    exact Ne.symm hne
  unfold conditionOf
  rw [List.filter_append, hnone, List.append_nil]

theorem conditionOf_append_self (hlt : ∀ row ∈ rows, row.id < n) :
    conditionOf (rows ++ entryRows n conditionsMap) n =
      ⟨some n, conditionsMap.entries.foldl (fun keys entry => keys.insert entry.1 entry.2) ∅⟩ := by
  have hnone : rows.filter (·.id = n) = [] := by
    refine List.filter_eq_nil_iff.2 fun row hrow => ?_
    rw [decide_eq_true_eq]
    exact Int.ne_of_lt (hlt row hrow)
  have hall : (entryRows n conditionsMap).filter (·.id = n) = entryRows n conditionsMap := by
    refine List.filter_eq_self.2 fun row hrow => ?_
    obtain ⟨entry, _, rfl⟩ := List.mem_map.1 hrow
    exact decide_eq_true rfl
  unfold conditionOf
  rw [List.filter_append, hnone, hall, List.nil_append, entryRows, List.foldl_map]

theorem lookup_foldl_insert_entries (key : Str) :
    (conditionsMap.entries.foldl (fun (keys : Map Str AssertionConditionData) entry =>
      keys.insert entry.1 entry.2) ∅).lookup key = conditionsMap.lookup key := by
  rw [Map.lookup_foldl_entries (c := fun v _ => some v)
    (fun m entry k => Map.lookup_insert m entry.1 k entry.2)]
  cases conditionsMap.lookup key <;> rfl

/-- The conditions of rows behind which a new one is inserted. -/
theorem conditionsOf_append (hlt : ∀ row ∈ rows, row.id < n) (hsome : conditionsMap.entries ≠ [])
    (hrows : List.Forall₂ SameCondition conditions (conditionsOf rows))
    (hcondition : condition.conditionsMap = conditionsMap) :
    List.Forall₂ SameCondition (conditions ++ [condition])
      (conditionsOf (rows ++ entryRows n conditionsMap)) := by
  have hids : conditionsOf (rows ++ entryRows n conditionsMap) =
      (conditionIds (rows ++ entryRows n conditionsMap)).map
        (conditionOf (rows ++ entryRows n conditionsMap)) := rfl
  have hkept : (conditionIds rows).map (conditionOf (rows ++ entryRows n conditionsMap)) =
      conditionsOf rows := by
    refine List.map_congr_left fun k hid => conditionOf_append_of_ne ?_
    obtain ⟨row, hrow, rfl⟩ := mem_conditionIds.1 hid
    exact Int.ne_of_lt (hlt row hrow)
  rw [hids, conditionIds_append hlt hsome, List.map_append, hkept, List.map_singleton,
    conditionOf_append_self hlt]
  refine List.rel_append hrows (.cons (fun key => ?_) .nil)
  rw [hcondition]
  exact lookup_foldl_insert_entries key

end Conditions

section Insertion

/-- A store whose only change is in the conditions of one assertion. -/
structure ConditionsSet (assertionId : Nat) (rows : List ConditionRow) (db db' : Database) : Prop where
  domains : ∀ domainName, db'.domains.lookup domainName = (db.domains.lookup domainName).map fun row =>
    { row with policies := row.policies.map (·.setConditions assertionId rows) }
  next : db'.nextAssertionId = db.nextAssertionId

theorem conditionsSet (assertionId : Nat) (rows : List ConditionRow) (db : Database) :
    ConditionsSet assertionId rows db (db.setConditions assertionId rows) :=
  ⟨fun _ => Map.lookup_mapValues, rfl⟩

theorem ConditionsSet.trans (h : ConditionsSet assertionId rows db db')
    (h' : ConditionsSet assertionId rows' db' db'') : ConditionsSet assertionId rows' db db'' := by
  refine ⟨fun domainName => ?_, h'.next.trans h.next⟩
  rw [h'.domains, h.domains, Option.map_map]
  congr 1
  funext row
  rw [Function.comp, List.map_map]
  congr 1
  exact List.map_congr_left fun policy _ => policy.setConditions_twice _ _ _

variable [Collation]

theorem ConditionsSet.sound (h : ConditionsSet assertionId rows db db') (hdb : db.Sound) :
    db'.Sound := by
  refine (hdb.setConditions assertionId rows).congr (fun domainName => ?_) (Nat.le_of_eq h.next.symm)
  rw [policiesOf_setConditions, Database.policiesOf, h.domains, Database.policiesOf]
  cases db.domains.lookup domainName <;> rfl

/-- An insertion of conditions that succeeds adds all of them behind those of the assertion. -/
theorem insertConditionsFrom_copies (assertionId : Nat) (result : Bool)
    (conditions : List AssertionCondition) :
    Returns (insertConditionsFrom assertionId result conditions) fun db done db' =>
      done = true → result = true ∧ (db.storesAssertion assertionId = true →
        ∀ stored, List.Forall₂ SameCondition stored (conditionsOf (db.conditionRows assertionId)) →
          (conditions = [] ∧ db' = db ∨ ∃ rows, ConditionsSet assertionId rows db db' ∧
            List.Forall₂ SameCondition (stored ++ conditions) (conditionsOf rows))) := by
  induction conditions generalizing result with
  | nil =>
    refine (Returns.pure result).mono ?_
    rintro db done db' ⟨rfl, rfl⟩ hdone
    exact ⟨hdone, fun _ _ _ => .inl ⟨rfl, rfl⟩⟩
  | cons condition conditions ih =>
    have hfirst : Returns (insertNextCondition assertionId result condition) fun db done db' =>
        done = true → result = true ∧ condition.conditionsMap.entries ≠ [] ∧
          db' = db.setConditions assertionId (db.conditionRows assertionId ++
            entryRows (nextConditionId (db.conditionRows assertionId)) condition.conditionsMap) := by
      intro c done c' h hdone
      obtain ⟨conditionId, d, hquery, hrun⟩ := bind_eq_ok.1 h
      obtain ⟨_, rfl, rfl⟩ := query_eq_ok.1 hquery
      split at hrun
      · rename_i hresult
        obtain ⟨_, db', hinsert, rfl⟩ := statement_eq_ok.1 hrun
        rcases insertConditionRows_eq_ok hinsert with ⟨rfl, _⟩ | ⟨_, hsome, _, rfl⟩
        · cases hdone
        · exact ⟨hresult, hsome, rfl⟩
      · cases hrun
        cases hdone
    refine (Returns.bind hfirst fun done => ih done).mono ?_
    rintro db done db' ⟨first, db₁, hfirst, hrest⟩ hdone
    obtain ⟨rfl, hall⟩ := hrest hdone
    obtain ⟨hresult, hsome, rfl⟩ := hfirst rfl
    refine ⟨hresult, fun hstored stored hsame => .inr ?_⟩
    have hset := conditionsSet assertionId (db.conditionRows assertionId ++
      entryRows (nextConditionId (db.conditionRows assertionId)) condition.conditionsMap) db
    have hnext := conditionsOf_append (fun row hrow => lt_nextConditionId hrow) hsome hsame rfl
    rw [storesAssertion_setConditions, conditionRows_setConditions hstored] at hall
    rcases hall hstored _ hnext with ⟨rfl, rfl⟩ | ⟨rows, hrows, hcopied⟩
    · exact ⟨_, hset, hnext⟩
    · rw [List.append_assoc] at hcopied
      exact ⟨rows, hset.trans hrows, hcopied⟩

end Insertion

section Copies

variable [Collation]

/-- An assertion with the values of another one and with its conditions. -/
structure AssertionRow.CopiedAs (a b : AssertionRow) : Prop where
  role : b.role = a.role
  resource : b.resource = a.resource
  action : b.action = a.action
  effect : b.effect = a.effect
  conditions : List.Forall₂ SameCondition (conditionsOf a.conditions) (conditionsOf b.conditions)

theorem AssertionRow.CopiedAs.alike_iff (h : AssertionRow.CopiedAs a b) :
    b.Alike c ↔ a.Alike c := by
  unfold AssertionRow.Alike
  rw [h.role, h.resource, h.action, h.effect]

/-- The row of a domain with a new version of a policy. -/
def withVersion (row : DomainRow) (policyName : Str) (version : Version) (copies : List AssertionRow) :
    DomainRow :=
  { row with policies := row.policies ++ [⟨policyName, version.1, false, copies⟩] }

/-- The store with a new version of a policy in one domain. -/
structure Copying (before : Database) (row : DomainRow) (domainName policyName : Str)
    (version : Version) (copies : List AssertionRow) (db : Database) : Prop where
  here : db.domains.lookup domainName = some (withVersion row policyName version copies)
  elsewhere : ∀ other, other ≠ domainName → db.domains.lookup other = before.domains.lookup other
  sound : db.Sound

theorem Copying.policiesOf (h : Copying before row domainName policyName version copies db) :
    db.policiesOf domainName = row.policies ++ [⟨policyName, version.1, false, copies⟩] := by
  rw [Database.policiesOf, h.here]
  rfl

theorem setConditions_fresh {db : Database} (hdb : db.Sound)
    (hpolicy : policy ∈ db.policiesOf domainName) (rows : List ConditionRow) :
    policy.setConditions db.nextAssertionId rows = policy := by
  have hassertions : policy.assertions.map (·.setConditions db.nextAssertionId rows) =
      policy.assertions := by
    refine (List.map_congr_left fun a ha => ?_).trans (List.map_id _)
    exact if_neg (Nat.ne_of_lt (hdb.bounded _ _ _ ⟨policy, hpolicy, rfl, ha⟩))
  rw [PolicyRow.setConditions, hassertions]

/-- The place of a version that no other one of its policy has. -/
theorem findIdx?_version {policies : List PolicyRow} {version : Version}
    (hnew : ∀ policy ∈ policies, policy.isVersion policyName version.1 = false) :
    (policies ++ [(⟨policyName, version.1, false, copies⟩ : PolicyRow)]).findIdx?
      (PolicyRow.isVersion policyName version.1) = some policies.length := by
  have hempty : isEmptyVersion (some version.1) = false := decide_eq_false version.2
  have hself : PolicyRow.isVersion policyName version.1 ⟨policyName, version.1, false, copies⟩ = true := by
    rw [PolicyRow.isVersion, hempty]
    simp [sameText]
  rw [List.findIdx?_append, List.findIdx?_eq_none_iff.2 hnew, List.findIdx?_cons, if_pos hself]
  simp

/-- The insertion of a copy behind the others. -/
theorem Copying.inserted {db db' : Database}
    (h : Copying before row domainName policyName version copies db)
    (hnew : ∀ policy ∈ row.policies, policy.isVersion policyName version.1 = false)
    (hother : ∀ c ∈ copies, ¬ c.Alike a)
    (hinserted : Inserted domainName policyName version.1 a.role (a.toAssertion domainName) db added db') :
    added = some db.nextAssertionId ∧ Copying before row domainName policyName version
      (copies ++ [{ a with id := db.nextAssertionId, conditions := [] }]) db' := by
  have hsound := hinserted.sound h.sound
  obtain ⟨row', i, policy, hrow, hi, hpolicy, hcases⟩ := hinserted
  cases h.here.symm.trans hrow
  rw [withVersion, findIdx?_version hnew] at hi
  cases hi
  have hlast : policy = ⟨policyName, version.1, false, copies⟩ := by
    rw [withVersion, List.getElem?_append_right (Nat.le_refl _), Nat.sub_self] at hpolicy
    exact (Option.some.inj hpolicy).symm
  subst hlast
  rcases hcases with ⟨hblocks, _⟩ | ⟨_, rfl, rfl⟩
  · obtain ⟨c, hc, halike⟩ := (blocks_iff 0).1 hblocks
    exact absurd halike (hother c hc)
  · refine ⟨rfl, ⟨?_, ?_, hsound⟩⟩
    · rw [Map.lookup_insert, if_pos rfl, withVersion, withVersion]
      congr 2
      dsimp only
      rw [List.set_append_right _ _ (Nat.le_refl _), Nat.sub_self, List.set_cons_zero]
      rfl
    · intro other hne
      rw [Map.lookup_insert, if_neg hne]
      exact h.elsewhere other hne

/-- The conditions of the copy that was inserted last. -/
theorem Copying.conditioned {db db₁ db' : Database} {copy : AssertionRow} (hdb : db.Sound)
    (hfound : db.policiesOf domainName = row.policies ++ [⟨policyName, version.1, false, copies⟩])
    (hkept : ∀ other, other ≠ domainName → db.domains.lookup other = before.domains.lookup other)
    (hid : copy.id = db.nextAssertionId)
    (h : Copying before row domainName policyName version (copies ++ [copy]) db₁)
    (hset : ConditionsSet copy.id rows db₁ db') :
    Copying before row domainName policyName version (copies ++ [{ copy with conditions := rows }])
      db' := by
  have hfresh : ∀ name, ∀ policy ∈ db.policiesOf name, policy.setConditions copy.id rows = policy := by
    intro name policy hpolicy
    rw [hid]
    exact setConditions_fresh hdb hpolicy rows
  refine ⟨?_, fun other hne => ?_, hset.sound h.sound⟩
  · rw [hset.domains, h.here, Option.map_some, withVersion, withVersion]
    congr 2
    dsimp only
    have hold : row.policies.map (·.setConditions copy.id rows) = row.policies := by
      refine (List.map_congr_left fun policy hpolicy => ?_).trans (List.map_id _)
      exact hfresh domainName policy (by rw [hfound]; exact List.mem_append_left _ hpolicy)
    have hversion : PolicyRow.setConditions copy.id rows ⟨policyName, version.1, false, copies⟩ =
        ⟨policyName, version.1, false, copies⟩ :=
      hfresh domainName _ (by rw [hfound]; exact List.mem_append_right _ List.mem_cons_self)
    have hcopies : copies.map (·.setConditions copy.id rows) = copies :=
      congrArg PolicyRow.assertions hversion
    have hcopy : copy.setConditions copy.id rows = { copy with conditions := rows } := if_pos rfl
    rw [List.map_append, hold, List.map_singleton, PolicyRow.setConditions, List.map_append, hcopies,
      List.map_singleton, hcopy]
  · rw [hset.domains, h.elsewhere other hne, ← hkept other hne]
    cases hrow : db.domains.lookup other with
    | none => rfl
    | some otherRow =>
      have hall : otherRow.policies.map (·.setConditions copy.id rows) = otherRow.policies := by
        refine (List.map_congr_left fun policy hpolicy => ?_).trans (List.map_id _)
        refine hfresh other policy ?_
        rw [Database.policiesOf, hrow]
        exact hpolicy
      rw [Option.map_some, hall]

variable {source : PolicyRow} {row : DomainRow}

theorem copyAssertion_copies (before : Database) (hsource : source ∈ row.policies) (ha : a ∈ source.assertions)
    (hnew : ∀ policy ∈ row.policies, policy.isVersion policyName version.1 = false) :
    Accepts (copyAssertion domainName policyName version (a.toAssertion domainName)) fun db db' =>
      ∀ copies, Copying before row domainName policyName version copies db →
        (∀ c ∈ copies, ¬ c.Alike a) → ∃ copy, a.CopiedAs copy ∧
          Copying before row domainName policyName version (copies ++ [copy]) db' := by
  intro c c' h copies hcopying hother
  obtain ⟨conditions, d, hquery, hrun⟩ := bind_eq_ok.1 h
  obtain ⟨_, rfl, rfl⟩ := query_eq_ok.1 hquery
  obtain ⟨added, d₁, hinsert, hrun⟩ := bind_eq_ok.1 hrun
  have hstored : c.working.HasAssertion domainName source.name a :=
    ⟨source, by rw [hcopying.policiesOf]; exact List.mem_append_left _ hsource, rfl, ha⟩
  rw [hcopying.sound.numbered.conditionRows hstored] at hrun
  have hinserted : Inserted domainName policyName version.1 a.role (a.toAssertion domainName)
      c.working added d₁.working :=
    insertAssertion_inserted policyName version.1 rfl (c.tick.write c.working) _ _ hinsert
  obtain ⟨rfl, hcopied⟩ := hcopying.inserted hnew hother hinserted
  split at hrun
  · rename_i hempty
    cases hrun
    refine ⟨_, ?_, hcopied⟩
    refine ⟨rfl, rfl, rfl, rfl, ?_⟩
    rw [List.isEmpty_iff.1 hempty, conditionsOf_nil]
    exact .nil
  · rename_i hsome
    have hcopy : d₁.working.HasAssertion domainName policyName
        { a with id := c.working.nextAssertionId, conditions := [] } :=
      ⟨⟨policyName, version.1, false, _⟩, by
        rw [hcopied.policiesOf]
        exact List.mem_append_right _ List.mem_cons_self, rfl,
        List.mem_append_right _ List.mem_cons_self⟩
    have hnone := hcopied.sound.numbered.conditionRows hcopy
    dsimp only at hnone
    obtain ⟨_, hcopies⟩ := insertConditionsFrom_copies c.working.nextAssertionId true _ _ _ _ hrun rfl
    have hrows := hcopies (storesAssertion_iff.2 ⟨_, _, _, hcopy, rfl⟩) []
    rw [hnone, conditionsOf_nil] at hrows
    rcases hrows .nil with ⟨hempty, _⟩ | ⟨rows, hset, hall⟩
    · exact absurd (List.isEmpty_iff.2 hempty) hsome
    · have hend := Copying.conditioned hcopying.sound hcopying.policiesOf hcopying.elsewhere rfl
        hcopied hset
      refine ⟨_, ?_, hend⟩
      exact ⟨rfl, rfl, rfl, rfl, hall⟩

theorem copyAssertions_copy (before : Database) (hsource : source ∈ row.policies) {assertions : List AssertionRow}
    (hassertions : assertions ⊆ source.assertions)
    (hdistinct : assertions.Pairwise fun a b => ¬ a.Alike b)
    (hnew : ∀ policy ∈ row.policies, policy.isVersion policyName version.1 = false) :
    Accepts (Tx.forAll (copyAssertion domainName policyName version)
      (assertions.map (·.toAssertion domainName))) fun db db' =>
      ∀ copies, Copying before row domainName policyName version copies db →
        (∀ c ∈ copies, ∀ a ∈ assertions, ¬ c.Alike a) → ∃ added,
          List.Forall₂ AssertionRow.CopiedAs assertions added ∧
            Copying before row domainName policyName version (copies ++ added) db' := by
  induction assertions with
  | nil =>
    refine Accepts.pure.mono ?_
    rintro db db' rfl copies hcopying _
    exact ⟨[], .nil, by rw [List.append_nil]; exact hcopying⟩
  | cons a assertions ih =>
    obtain ⟨hfirst, hrest⟩ := List.pairwise_cons.1 hdistinct
    refine ((copyAssertion_copies before hsource (hassertions List.mem_cons_self) hnew).both
      (ih (fun b hb => hassertions (List.mem_cons_of_mem a hb)) hrest)).mono ?_
    rintro db db'' ⟨db', hcopy, hcopies⟩ copies hcopying hother
    obtain ⟨copy, hcopied, hnext⟩ := hcopy copies hcopying fun c hc =>
      hother c hc a List.mem_cons_self
    obtain ⟨added, hadded, hend⟩ := hcopies _ hnext fun c hc b hb => by
      rcases List.mem_append.1 hc with hold | hlast
      · exact hother c hold b (List.mem_cons_of_mem a hb)
      · rw [List.mem_singleton.1 hlast, hcopied.alike_iff]
        exact hfirst b hb
    rw [List.append_assoc] at hend
    exact ⟨copy :: added, .cons hcopied hadded, hend⟩

end Copies

section Versions

variable [Collation]

/-- The store has a version of a policy. -/
def HasVersion (domainName policyName : Str) (version : Version) (db : Database) : Prop :=
  ∃ policy ∈ db.policiesOf domainName, policy.isVersion policyName version.1 = true

/-- The second store is the first one with a new inactive version of a policy: it holds a copy of each
assertion of the source, with its conditions, and everything else is as before but for the time of the
domain. -/
def VersionCopied (domainName policyName : Str) (version : Version) (fromVersion : Option Str)
    (db db' : Database) : Prop :=
  ∃ row source copies modified, db.domains.lookup domainName = some row ∧
    db.policyRow domainName policyName fromVersion = some source ∧
    List.Forall₂ AssertionRow.CopiedAs source.assertions copies ∧
    db'.domains.lookup domainName = some { row with
      policies := row.policies ++ [⟨policyName, version.1, false, copies⟩]
      modified := modified } ∧
    ∀ other, other ≠ domainName → db'.domains.lookup other = db.domains.lookup other

theorem VersionCopied.stamp (h : VersionCopied domainName policyName version fromVersion db db')
    (time : Int) :
    VersionCopied domainName policyName version fromVersion db (stampDomain domainName time db') := by
  obtain ⟨row, source, copies, modified, hrow, hsource, hcopied, hhere, helsewhere⟩ := h
  refine ⟨row, source, copies, time, hrow, hsource, hcopied, ?_, fun other hne => ?_⟩
  · rw [lookup_stampDomain, hhere, Option.map_some, if_pos rfl]
  · rw [lookup_stampDomain, helsewhere other hne]
    simp only [if_neg hne, Option.map_id']

theorem insertPolicy_inserts (policy : Policy) (version : Version)
    (hpolicy : policy.name = domainName ++ ":policy." ++ policyName)
    (hversion : policy.version = some version.1) (hactive : policy.active = some false) :
    Returns (insertPolicy domainName policy) fun db _ db' => ∃ row,
      db.domains.lookup domainName = some row ∧
      (∀ other ∈ row.policies, other.isVersion policyName version.1 = false) ∧
      db' = ⟨db.domains.insert domainName (withVersion row policyName version []), db.nextAssertionId⟩ := by
  have hempty : isEmptyVersion (some version.1) = false := decide_eq_false version.2
  unfold insertPolicy
  rw [hpolicy, objectName_append, hversion, hempty, hactive]
  refine (onDomain_returns _).mono ?_
  rintro db done db' ⟨row, row', hrow, hrun, rfl⟩
  split at hrun
  · cases hrun
  · rename_i hnone
    cases hrun
    refine ⟨row, hrow, fun other hother => ?_, rfl⟩
    rw [PolicyRow.isVersion, hempty]
    exact Bool.eq_false_iff.2 fun h => hnone (List.any_eq_true.2 ⟨other, hother, h⟩)

theorem putPolicyVersionBody_copies (config : Config) (ctx : Context) (domainName policyName : Str)
    (version : Version) (fromVersion : Option Str) :
    Returns (putPolicyVersionBody config ctx domainName policyName version fromVersion)
      fun db _ db' => db.Sound → ¬ HasVersion domainName policyName version db ∧
        HasVersion domainName policyName version db' ∧ db'.Sound ∧
        VersionCopied domainName policyName version fromVersion db db' := by
  refine (checkDomainAuditEnabled_reading _ _ _ _).returns_bind fun _ =>
    (readDomain_reading _ _).returns_bind fun _ => (Reading.ensure _ _).returns_bind fun _ => ?_
  refine (Returns.query_bind (T := fun db found _ db' => found = db → db.Sound →
    ¬ HasVersion domainName policyName version db ∧ HasVersion domainName policyName version db' ∧
      db'.Sound ∧ VersionCopied domainName policyName version fromVersion db db') fun db => ?_).mono
    fun db _ db' h => h rfl
  cases hsource : db.policyRow domainName policyName fromVersion with
  | none => exact (Returns.abort _).mono fun _ _ _ h => h.elim
  | some source =>
    obtain ⟨row, hrow, hfind⟩ := Option.bind_eq_some_iff.1 hsource
    have hname : source.name = policyName := by
      have hversion := List.find?_some hfind
      rw [PolicyRow.isVersion, Bool.and_eq_true, decide_eq_true_eq] at hversion
      exact hversion.1
    have hmem : source ∈ row.policies := List.mem_of_find?_eq_some hfind
    refine (checkPolicyQuota_reading _ _ _).returns_bind fun _ => ?_
    have hcopy : Accepts (Tx.forAll (copyAssertion domainName policyName version)
        (source.assertions.map (·.toAssertion domainName))) fun db₁ db' => db.Sound →
          (∀ policy ∈ row.policies, policy.isVersion policyName version.1 = false) →
          Copying db row domainName policyName version [] db₁ → ∃ copies,
            List.Forall₂ AssertionRow.CopiedAs source.assertions copies ∧
              Copying db row domainName policyName version copies db' := by
      intro c c' hrun hsound hnew hcopying
      have hpolicy : source ∈ db.policiesOf domainName := by
        rw [Database.policiesOf, hrow]
        exact hmem
      exact copyAssertions_copy db hmem (List.Subset.refl _)
        (hsound.distinct domainName source hpolicy) hnew c c' hrun [] hcopying
        fun _ h => absurd h List.not_mem_nil
    have hinsert := insertPolicy_inserts
      { savePolicy domainName source with version := version.1, active := some false } version
      rfl rfl rfl
    refine (Accepts.ensure_bind (hinsert.toAccepts.both hcopy) _).mono ?_
    rintro found _ db' ⟨db₁, ⟨row₁, hrow₁, hnew, rfl⟩, hcopies⟩ rfl hsound
    cases hrow.symm.trans hrow₁
    rw [hname] at hnew hcopies
    have hstart : Copying found row domainName policyName version []
        ⟨found.domains.insert domainName (withVersion row policyName version []),
          found.nextAssertionId⟩ := by
      refine ⟨by rw [Map.lookup_insert, if_pos rfl], fun other hne => ?_, ?_⟩
      · rw [Map.lookup_insert, if_neg hne]
      · refine hsound.insert hrow fun policy hpolicy => ?_
        rcases List.mem_append.1 hpolicy with hold | hlast
        · exact .inr ⟨policy, hold, rfl, List.Sublist.refl _⟩
        · rw [List.mem_singleton.1 hlast]
          exact .inl rfl
    obtain ⟨copies, hcopied, hend⟩ := hcopies hsound hnew hstart
    refine ⟨?_, ?_, hend.sound, row, source, copies, row.modified, hrow, hsource, hcopied,
      hend.here, hend.elsewhere⟩
    · rintro ⟨policy, hpolicy, hversion⟩
      rw [Database.policiesOf, hrow] at hpolicy
      rw [hnew policy hpolicy] at hversion
      cases hversion
    · refine ⟨⟨policyName, version.1, false, copies⟩, ?_, ?_⟩
      · rw [hend.policiesOf]
        exact List.mem_append_right _ List.mem_cons_self
      · have hempty : isEmptyVersion (some version.1) = false := decide_eq_false version.2
        rw [PolicyRow.isVersion, hempty]
        simp [sameText]

theorem HasVersion.stamp (h : HasVersion domainName policyName version db) (otherDomain : Str)
    (time : Int) : HasVersion domainName policyName version (stampDomain otherDomain time db) := by
  obtain ⟨policy, hpolicy, hversion⟩ := h
  refine ⟨policy, ?_, hversion⟩
  rw [policiesOf_stampDomain]
  exact hpolicy

/-- Stores that differ in the time of one domain at most. -/
structure SameButTime (domainName : Str) (db db' : Database) : Prop where
  here : (db'.domains.lookup domainName).map (fun row => { row with modified := 0 }) =
    (db.domains.lookup domainName).map fun row => { row with modified := 0 }
  elsewhere : ∀ other, other ≠ domainName → db'.domains.lookup other = db.domains.lookup other

omit [Collation] in
theorem SameButTime.stamp (h : SameButTime domainName db db') (time : Int) :
    SameButTime domainName db (stampDomain domainName time db') := by
  refine ⟨?_, fun other hne => ?_⟩
  · rw [lookup_stampDomain, Option.map_map, ← h.here]
    simp only [if_pos]
    rfl
  · rw [lookup_stampDomain, h.elsewhere other hne]
    simp only [if_neg hne, Option.map_id']

theorem VersionCopied.of_sameButTime (hsame : SameButTime domainName db found)
    (h : VersionCopied domainName policyName version fromVersion found db') :
    VersionCopied domainName policyName version fromVersion db db' := by
  obtain ⟨row, source, copies, modified, hrow, hsource, hcopied, hhere, helsewhere⟩ := h
  have hstored := hsame.here
  rw [hrow, Option.map_some] at hstored
  obtain ⟨row₁, hrow₁, heq⟩ := Option.map_eq_some_iff.1 hstored.symm
  have hpolicies := congrArg DomainRow.policies heq
  dsimp only at hpolicies
  refine ⟨row₁, source, copies, modified, hrow₁, ?_, hcopied, ?_, fun other hne => ?_⟩
  · rw [Database.policyRow, hrow, Option.bind_some] at hsource
    rw [Database.policyRow, hrow₁, Option.bind_some, hpolicies]
    exact hsource
  · rw [hhere, hpolicies]
    have hrest := congrArg (fun r : DomainRow => some { r with
      policies := row.policies ++ [(⟨policyName, version.1, false, copies⟩ : PolicyRow)]
      modified := modified }) heq
    exact hrest.symm
  · rw [helsewhere other hne, hsame.elsewhere other hne]

/-- A request for a new version of a policy that succeeds has made a faithful copy of its source. -/
theorem policy_version_copied (config : Config) (ctx : Context) (domainName policyName : Str)
    (version : Version) (fromVersion : Option Str) (events : Nat → Event Failure)
    (hdb : Reached config db)
    (h : executePutPolicyVersion config ctx domainName policyName version fromVersion db events =
      (.ok (), db')) : VersionCopied domainName policyName version fromVersion db db' := by
  have hbody := putPolicyVersionBody_copies config ctx domainName policyName version fromVersion
  have hatomic := (putPolicyVersionBody_whole config ctx domainName policyName version fromVersion).1
  refine attempts_saved_reaches
    (I := fun found : Database => found.Sound ∧
      (SameButTime domainName db found ∨ HasVersion domainName policyName version found))
    hatomic ?_ ?_ ?_ (fun time found hfound => hfound.stamp time)
    ⟨hdb.sound, .inl ⟨rfl, fun _ _ => rfl⟩⟩ h
  · refine hbody.mono ?_
    rintro found _ found' hmade ⟨hsound, _⟩
    obtain ⟨_, hhas, hsound', _⟩ := hmade hsound
    exact ⟨hsound', .inr hhas⟩
  · rintro time found ⟨hsound, hsame | hhas⟩
    · exact ⟨hsound.stamp _ time, .inl (hsame.stamp time)⟩
    · exact ⟨hsound.stamp _ time, .inr (hhas.stamp _ time)⟩
  · refine hbody.mono ?_
    rintro found _ found' hmade ⟨hsound, hsame | hhas⟩
    · exact (hmade hsound).2.2.2.of_sameButTime hsame
    · exact absurd hhas (hmade hsound).1

end Versions

section Example

local instance versionCollation : Collation := .binary

/-- A domain without policies. -/
def mediaStore : Database where
  domains := (∅ : Map Str DomainRow).insert "media"
    { settings := Domain.settings { name := "media" }, modified := 0 }

theorem policiesOf_mediaStore (domainName : Str) : mediaStore.policiesOf domainName = [] := by
  rw [Database.policiesOf, mediaStore, Map.lookup_insert]
  split
  · rfl
  · rfl

/-- The first version of a policy. -/
def writersPolicy : Policy where
  name := "media:policy.writers"
  assertions := some [{ role := "media:role.editors", resource := "media:article", action := "write" }]

def writersStore : Database :=
  ((PolicyRequest.putPolicy writersPolicy).execute {} { caller := "putpolicy" } "media" "writers"
    mediaStore fun n => ⟨n, none⟩).2

/-- The assertion gets a condition. -/
def hostWritersStore : Database :=
  ((PolicyRequest.conditions 1 (.putAssertionCondition
      { conditionsMap := (∅ : Map Str AssertionConditionData).insert "instance" { value := "host1" } })).execute
    {} { caller := "putassertioncondition" } "media" "writers" writersStore fun n => ⟨n, none⟩).2

theorem reached_hostWritersStore : Reached {} hostWritersStore :=
  .request _ _ _ _ _ (.request _ _ _ _ _ (.start mediaStore policiesOf_mediaStore))

/-- The second version, from the active one. -/
def secondVersion : Except Failure Unit × Database :=
  executePutPolicyVersion {} { caller := "putpolicyversion" } "media" "writers"
    ⟨"1".toList, List.cons_ne_nil _ _⟩ none hostWritersStore fun n => ⟨n, none⟩

theorem secondVersion_eq : secondVersion = (.ok (), secondVersion.2) := by
  have hok : secondVersion.1 = .ok () := by decide +kernel
  rw [← hok]

theorem second_version_copied :
    VersionCopied "media" "writers" ⟨"1".toList, List.cons_ne_nil _ _⟩ none hostWritersStore
      secondVersion.2 :=
  policy_version_copied {} { caller := "putpolicyversion" } "media" "writers" _ none _
    reached_hostWritersStore secondVersion_eq

end Example

end Athenz.ZmsServer
