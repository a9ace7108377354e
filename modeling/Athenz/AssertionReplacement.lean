import Athenz.Lib.Focus
import Athenz.Lib.Matching
import Athenz.PolicyVersions

namespace Athenz.ZmsServer
open Lib Lib.Text Lib.Transaction
set_option autoImplicit true

section Versions

variable [Collation]

/-- The first row of a version gets other assertions. -/
def withAssertions (policyName : Str) (version : Option Str) (assertions : List AssertionRow) :
    List PolicyRow → List PolicyRow
  | [] => []
  | policy :: policies =>
    if policy.isVersion policyName version then { policy with assertions := assertions } :: policies
    else policy :: withAssertions policyName version assertions policies

theorem withAssertions_set {policies : List PolicyRow}
    (hi : policies.findIdx? (PolicyRow.isVersion policyName version) = some i)
    (hpolicy : policies[i]? = some policy) (assertions : List AssertionRow) :
    withAssertions policyName version assertions policies =
      policies.set i { policy with assertions := assertions } := by
  induction policies generalizing i with
  | nil => cases hi
  | cons other policies ih =>
    rw [List.findIdx?_cons] at hi
    rw [withAssertions]
    split at hi
    · rename_i hother
      cases hi
      cases hpolicy
      rw [if_pos hother]
      rfl
    · rename_i hother
      obtain ⟨j, hj, rfl⟩ := Option.map_eq_some_iff.1 hi
      rw [if_neg hother, ih hj hpolicy]
      rfl

theorem find?_withAssertions (policies : List PolicyRow) (assertions : List AssertionRow) :
    (withAssertions policyName version assertions policies).find?
        (PolicyRow.isVersion policyName version) =
      (policies.find? (PolicyRow.isVersion policyName version)).map
        fun policy => { policy with assertions := assertions } := by
  induction policies with
  | nil => rfl
  | cons policy policies ih =>
    rw [withAssertions]
    split
    · rename_i hversion
      rw [List.find?_cons_of_pos hversion, List.find?_cons_of_pos]
      · rfl
      · exact hversion
    · rename_i hother
      rw [List.find?_cons_of_neg hother, List.find?_cons_of_neg hother, ih]

theorem withAssertions_withAssertions (policies : List PolicyRow)
    (assertions assertions' : List AssertionRow) :
    withAssertions policyName version assertions'
        (withAssertions policyName version assertions policies) =
      withAssertions policyName version assertions' policies := by
  induction policies with
  | nil => rfl
  | cons policy policies ih =>
    rw [withAssertions, withAssertions]
    split
    · rename_i hversion
      rw [withAssertions, if_pos]
      exact hversion
    · rename_i hother
      rw [withAssertions, if_neg hother, ih]

/-- The rows of other versions are the same. -/
theorem mem_withAssertions {policies : List PolicyRow}
    (h : policy.isVersion policyName version = false) (assertions : List AssertionRow) :
    policy ∈ withAssertions policyName version assertions policies ↔ policy ∈ policies := by
  induction policies with
  | nil => exact Iff.rfl
  | cons other policies ih =>
    rw [withAssertions]
    split
    · rename_i hversion
      rw [List.mem_cons, List.mem_cons]
      have hother : ∀ other' : PolicyRow, other'.isVersion policyName version = true →
          policy ≠ other' := by
        rintro other' hother' rfl
        rw [h] at hother'
        cases hother'
      exact or_congr_left (iff_of_false (hother _ hversion) (hother _ hversion))
    · rw [List.mem_cons, List.mem_cons, ih]

/-- The assertions of a version, and the number that the next one gets. -/
abbrev Stock := List AssertionRow × Nat

/-- The assertions of a version in the store. -/
def policyFocus (domainName policyName : Str) (version : Option Str) : Focus Database Stock where
  get db := (db.policyRow domainName policyName version).map fun policy =>
    (policy.assertions, db.nextAssertionId)
  put db stock :=
    match db.domains.lookup domainName with
    | none => { db with nextAssertionId := stock.2 }
    | some row => ⟨db.domains.insert domainName { row with
        policies := withAssertions policyName version stock.1 row.policies }, stock.2⟩
  get_put := by
    intro db stock h stock'
    obtain ⟨policy, hpolicy, _⟩ := Option.map_eq_some_iff.1 h
    obtain ⟨row, hrow, hfind⟩ := Option.bind_eq_some_iff.1 hpolicy
    rw [hrow]
    dsimp only
    rw [policyRow_eq (AList.lookup_insert _), find?_withAssertions, hfind]
    rfl
  put_put := by
    intro db stock stock'
    cases hrow : db.domains.lookup domainName with
    | none =>
      dsimp only
      rw [hrow]
    | some row =>
      dsimp only
      rw [AList.lookup_insert]
      dsimp only
      rw [withAssertions_withAssertions, AList.insert_insert]

variable {domainName policyName : Str} {version : Option Str}

theorem policyFocus_put {db : Database} (hrow : db.domains.lookup domainName = some row)
    (stock : Stock) : (policyFocus domainName policyName version).put db stock =
      ⟨db.domains.insert domainName { row with
        policies := withAssertions policyName version stock.1 row.policies }, stock.2⟩ := by
  unfold policyFocus
  dsimp only
  rw [hrow]

theorem policyFocus_get {db : Database} (hrow : db.domains.lookup domainName = some row)
    (hi : row.policies.findIdx? (PolicyRow.isVersion policyName version) = some i)
    (hpolicy : row.policies[i]? = some policy) :
    (policyFocus domainName policyName version).get db =
      some (policy.assertions, db.nextAssertionId) := by
  obtain ⟨found, hfound, _, hfind⟩ := findIdx?_find? hi
  cases hfound.symm.trans hpolicy
  exact congrArg (Option.map _) ((policyRow_eq hrow).trans hfind)

/-- A change of the assertions of one version. -/
theorem changePolicy_accepts {f : PolicyRow → Except Failure (Bool × PolicyRow)}
    {g : List AssertionRow → List AssertionRow}
    (hf : ∀ policy a policy', f policy = .ok (a, policy') →
      policy' = { policy with assertions := g policy.assertions }) :
    (policyFocus domainName policyName version).Accepts
      (onDomain domainName (changePolicy domainName policyName version f))
      fun stock stock' => stock' = (g stock.1, stock.2) := by
  intro c c' hrun stock hstock
  obtain ⟨_, row, row', hrow, hchange, rfl⟩ := onDomain_eq_ok.1 hrun
  obtain ⟨i, policy, policy', hi, hpolicy, hstep, rfl⟩ := changePolicy_eq_ok.1 hchange
  cases hstock.symm.trans (policyFocus_get hrow hi hpolicy)
  refine ⟨_, rfl, .inl ?_⟩
  rw [policyFocus_put hrow, withAssertions_set hi hpolicy, hf policy true policy' hstep]
  rfl

theorem updatePolicy_accepts {policy : Policy}
    (hname : policy.name = domainName ++ ":policy." ++ policyName) :
    (policyFocus domainName policyName policy.version).Accepts (updatePolicy domainName policy)
      fun stock stock' => stock' = stock := by
  unfold updatePolicy
  rw [hname, objectName_append]
  refine (changePolicy_accepts (g := id) fun policy a policy' h => ?_).mono fun _ _ h => h
  cases h
  rfl

/-- The assertions without one. -/
def Stock.drop (stock : Stock) (id : Nat) : Stock := (stock.1.filter (·.id ≠ id), stock.2)

theorem deleteAssertion_accepts (id : Nat) :
    (policyFocus domainName policyName version).Accepts
      (deleteAssertion domainName policyName version id) fun stock stock' => stock' = stock.drop id := by
  refine changePolicy_accepts fun policy a policy' h => ?_
  cases h
  rfl

/-- An assertion goes to the others unless one of them is taken for the same. -/
def Stock.add (roleName : Str) (assertion : Assertion) (stock : Stock) : Stock :=
  let row := assertion.row roleName stock.2
  if stock.1.any fun a => sameText a.role row.role && sameText a.resource row.resource &&
      sameText a.action row.action && a.effect = row.effect then stock
  else (stock.1 ++ [row], stock.2 + 1)

theorem add_cases (roleName : Str) (assertion : Assertion) (stock : Stock) :
    (∃ a ∈ stock.1, a.Alike (assertion.row roleName stock.2)) ∧
        stock.add roleName assertion = stock ∨
      (∀ a ∈ stock.1, ¬ a.Alike (assertion.row roleName stock.2)) ∧
        stock.add roleName assertion =
          (stock.1 ++ [assertion.row roleName stock.2], stock.2 + 1) := by
  have halike : (stock.1.any fun a => sameText a.role (assertion.row roleName stock.2).role &&
      sameText a.resource (assertion.row roleName stock.2).resource &&
      sameText a.action (assertion.row roleName stock.2).action &&
      a.effect = (assertion.row roleName stock.2).effect) = true ↔
        ∃ a ∈ stock.1, a.Alike (assertion.row roleName stock.2) := by
    simp only [List.any_eq_true, Bool.and_eq_true, decide_eq_true_eq, and_assoc]
    rfl
  unfold Stock.add
  dsimp only
  split
  · rename_i hany
    exact .inl ⟨halike.1 hany, rfl⟩
  · rename_i hnone
    exact .inr ⟨fun a ha hsame => hnone (halike.2 ⟨a, ha, hsame⟩), rfl⟩

/-- An assertion of the domain is added. -/
def Stock.Adds (domainName : Str) (assertion : Assertion) (stock stock' : Stock) : Prop :=
  ∃ roleName, assertion.role = domainName ++ ":role." ++ roleName ∧
    stock' = stock.add roleName assertion

/-- An assertion is dropped by its number. -/
def Stock.Drops (assertion : Assertion) (stock stock' : Stock) : Prop :=
  ∃ id, assertion.id = some id ∧ stock' = stock.drop id

/-- The insertion of an assertion of the domain; that of another one is refused. -/
theorem insertAssertion_accepts (assertion : Assertion) :
    (policyFocus domainName policyName version).Accepts (do
      let _ ← insertAssertion domainName policyName version assertion
      pure true) (Stock.Adds domainName assertion) := by
  intro c c' hrun stock hstock
  obtain ⟨added, d, hinsert, hpure⟩ := Tx.bind_eq_ok.1 hrun
  cases hpure
  cases hrole : extractObjectName domainName assertion.role ":role." with
  | none => exact (objectName_refused hrole c added c' hinsert).elim
  | some roleName =>
    refine ⟨_, ⟨roleName, extractObjectName_eq hrole, rfl⟩, ?_⟩
    obtain ⟨row, i, policy, hrow, hi, hpolicy, hcases⟩ :=
      insertAssertion_inserted policyName version (extractObjectName_eq hrole) c added c' hinsert
    cases hstock.symm.trans (policyFocus_get hrow hi hpolicy)
    left
    rw [policyFocus_put hrow, withAssertions_set hi hpolicy]
    obtain ⟨hblocks, _, hdone⟩ | ⟨hblocks, _, hdone⟩ := hcases
    · have hadd : Stock.add roleName assertion (policy.assertions, c.working.nextAssertionId) =
          (policy.assertions, c.working.nextAssertionId) := if_pos hblocks
      obtain ⟨hlt, rfl⟩ := List.getElem?_eq_some_iff.1 hpolicy
      rw [hdone, hadd, List.set_getElem_self]
    · have hadd : Stock.add roleName assertion (policy.assertions, c.working.nextAssertionId) =
          (policy.assertions ++ [assertion.row roleName c.working.nextAssertionId],
            c.working.nextAssertionId + 1) := if_neg (Bool.eq_false_iff.1 hblocks)
      rw [hdone, hadd]
      rfl

theorem insertAssertions_accepts (assertions : List Assertion) :
    (policyFocus domainName policyName version).Accepts
      (insertAssertions domainName policyName version assertions)
      (Tx.Steps (Stock.Adds domainName) assertions) :=
  .steps fun assertion _ => insertAssertion_accepts assertion

theorem deleteAssertions_accepts (assertions : List Assertion) :
    (policyFocus domainName policyName version).Accepts
      (deleteAssertions domainName policyName version assertions)
      (Tx.Steps Stock.Drops assertions) := by
  refine .steps fun assertion _ => ?_
  cases hid : assertion.id with
  | none => exact (Tx.Accepts.raise _).mono fun _ _ h => h.elim
  | some id => exact (deleteAssertion_accepts id).mono fun _ _ h => ⟨id, hid, h⟩

end Versions

section Stocks

variable [Collation]

theorem AssertionRow.Alike.refl (a : AssertionRow) : a.Alike a :=
  ⟨sameText_refl _, sameText_refl _, sameText_refl _, rfl⟩

/-- No assertion stands twice, and each has a number of its own below the next one. -/
structure Stock.Kept (stock : Stock) : Prop where
  distinct : stock.1.Pairwise fun a b => ¬ a.Alike b
  numbered : (stock.1.map (·.id)).Nodup
  bounded : ∀ a ∈ stock.1, a.id < stock.2

theorem Stock.Kept.sublist {stock : Stock} (h : stock.Kept) (hsub : assertions.Sublist stock.1) :
    Stock.Kept (assertions, stock.2) :=
  ⟨h.distinct.sublist hsub, h.numbered.sublist (hsub.map _), fun a ha => h.bounded a (hsub.subset ha)⟩

theorem Stock.Kept.add {stock : Stock} (h : stock.Kept) (roleName : Str) (assertion : Assertion) :
    (stock.add roleName assertion).Kept := by
  obtain ⟨_, hsame⟩ | ⟨hnew, hadded⟩ := add_cases roleName assertion stock
  · rw [hsame]
    exact h
  · rw [hadded]
    refine ⟨?_, ?_, fun a ha => ?_⟩
    · refine List.pairwise_append.2 ⟨h.distinct, List.pairwise_singleton _ _, fun a ha b hb => ?_⟩
      rw [List.mem_singleton.1 hb]
      exact hnew a ha
    · rw [List.map_append, List.map_singleton]
      refine List.nodup_append.2 ⟨h.numbered, List.nodup_singleton _, ?_⟩
      rintro id hid _ hlast rfl
      obtain ⟨a, ha, rfl⟩ := List.mem_map.1 hid
      exact absurd (h.bounded a ha) (by rw [List.mem_singleton.1 hlast]; exact Nat.lt_irrefl _)
    · obtain hold | hlast := List.mem_append.1 ha
      · exact Nat.lt_succ_of_lt (h.bounded a hold)
      · rw [List.mem_singleton.1 hlast]
        exact Nat.lt_succ_self _

/-- The request has an assertion with the values of a row. -/
def AssertionRow.Requested (domainName : Str) (requested : List Assertion) (a : AssertionRow) : Prop :=
  ∃ assertion ∈ requested, matchesAssertion assertion (a.toAssertion domainName) = true

/-- The store has a row for an assertion. -/
def Stock.Covers (domainName : Str) (stock : Stock) (assertion : Assertion) : Prop :=
  ∃ roleName, assertion.role = domainName ++ ":role." ++ roleName ∧
    ∃ a ∈ stock.1, a.Alike (assertion.row roleName a.id)

/-- The rows are replaced by those of a request: the rows with requested values remain as they are,
the others are gone unless deletions are ignored, and each new row was missing. -/
structure Stock.Replaced (domainName : Str) (ignoreDeletes : Bool) (requested : List Assertion)
    (stock stock' : Stock) : Prop where
  remain : ∀ a ∈ stock.1, ignoreDeletes = true ∨ a.Requested domainName requested → a ∈ stock'.1
  origin : ∀ a ∈ stock'.1,
    (a ∈ stock.1 ∧ (ignoreDeletes = true ∨ a.Requested domainName requested)) ∨
      (stock.2 ≤ a.id ∧ a.conditions = [] ∧ a.Requested domainName requested)
  covered : ∀ assertion ∈ requested, stock'.Covers domainName assertion
  next : stock.2 ≤ stock'.2
  kept : stock'.Kept

omit [Collation] in
theorem matchesAssertion_iff {a : AssertionRow} :
    matchesAssertion assertion (a.toAssertion domainName) = true ↔
      assertion.role = domainName ++ ":role." ++ a.role ∧ assertion.resource = a.resource ∧
        assertion.action = a.action ∧ assertion.effect.getD .ALLOW = a.effect := by
  unfold matchesAssertion AssertionRow.toAssertion
  simp only [Bool.and_eq_true, decide_eq_true_eq, Option.getD_some]
  constructor
  · rintro ⟨⟨⟨haction, hresource⟩, hrole⟩, heffect⟩
    exact ⟨hrole, hresource, haction, heffect⟩
  · rintro ⟨hrole, hresource, haction, heffect⟩
    exact ⟨⟨⟨haction, hresource⟩, hrole⟩, heffect⟩

omit [Collation] in
theorem requested_row {assertion : Assertion} (h : assertion ∈ requested)
    (hrole : assertion.role = domainName ++ ":role." ++ roleName) (id : Nat) :
    (assertion.row roleName id).Requested domainName requested :=
  ⟨assertion, h, matchesAssertion_iff.2 ⟨hrole, rfl, rfl, rfl⟩⟩

omit [Collation] in
theorem AssertionRow.Requested.mono {a : AssertionRow} (h : a.Requested domainName requested)
    (hsub : requested ⊆ requested') : a.Requested domainName requested' :=
  h.imp fun _ hmatch => ⟨hsub hmatch.1, hmatch.2⟩

theorem Stock.Covers.of_requested {stock : Stock} (ha : a ∈ stock.1)
    (h : matchesAssertion assertion (a.toAssertion domainName) = true) :
    stock.Covers domainName assertion := by
  obtain ⟨hrole, hresource, haction, heffect⟩ := matchesAssertion_iff.1 h
  refine ⟨a.role, hrole, a, ha, sameText_refl _, ?_, ?_, heffect.symm⟩
  · rw [show (assertion.row a.role a.id).resource = a.resource from hresource]
    exact sameText_refl _
  · rw [show (assertion.row a.role a.id).action = a.action from haction]
    exact sameText_refl _

theorem Stock.Covers.mono {stock stock' : Stock} (h : stock.Covers domainName assertion)
    (hsub : stock.1 ⊆ stock'.1) : stock'.Covers domainName assertion := by
  obtain ⟨roleName, hrole, a, ha, halike⟩ := h
  exact ⟨roleName, hrole, a, hsub ha, halike⟩

/-- The assertions of a list are added one after the other. -/
theorem Stock.Replaced.of_add {stock stock' : Stock}
    (h : Tx.Steps (Stock.Adds domainName) assertions stock stock') (hkept : stock.Kept) :
    stock.Replaced domainName true assertions stock' := by
  induction assertions generalizing stock with
  | nil =>
    cases h
    exact ⟨fun a ha _ => ha, fun a ha => .inl ⟨ha, .inl rfl⟩, fun _ h => (nomatch h), Nat.le_refl _,
      hkept⟩
  | cons assertion assertions ih =>
    obtain ⟨middle, ⟨roleName, hrole, rfl⟩, hrest⟩ := h
    have hih := ih hrest (hkept.add roleName assertion)
    have hcases := add_cases roleName assertion stock
    have hsub : stock.1 ⊆ (stock.add roleName assertion).1 := by
      obtain ⟨_, hsame⟩ | ⟨_, hadded⟩ := hcases
      · rw [hsame]
        exact List.Subset.refl _
      · rw [hadded]
        exact List.subset_append_left _ _
    refine ⟨fun a ha _ => hih.remain a (hsub ha) (.inl rfl), fun a ha => ?_, ?_, ?_, hih.kept⟩
    · have hmono : assertions ⊆ assertion :: assertions := List.subset_cons_self _ _
      obtain ⟨hsame, hadd⟩ | ⟨_, hadd⟩ := hcases
      · rw [hadd] at hih
        exact (hih.origin a ha).imp (fun h => ⟨h.1, .inl rfl⟩) fun h => ⟨h.1, h.2.1, h.2.2.mono hmono⟩
      · rw [hadd] at hih
        obtain ⟨hmiddle, _⟩ | ⟨hid, hconditions, hrequested⟩ := hih.origin a ha
        · obtain hold | hlast := List.mem_append.1 hmiddle
          · exact .inl ⟨hold, .inl rfl⟩
          · rw [List.mem_singleton.1 hlast]
            exact .inr ⟨Nat.le_refl _, rfl, requested_row List.mem_cons_self hrole _⟩
        · exact .inr ⟨Nat.le_of_succ_le hid, hconditions, hrequested.mono hmono⟩
    · refine List.forall_mem_cons.2 ⟨?_, hih.covered⟩
      have hmiddle : (stock.add roleName assertion).Covers domainName assertion := by
        obtain ⟨⟨a, ha, halike⟩, hadd⟩ | ⟨_, hadd⟩ := hcases
        · rw [hadd]
          exact ⟨roleName, hrole, a, ha, halike⟩
        · rw [hadd]
          exact ⟨roleName, hrole, _, List.mem_append_right _ List.mem_cons_self, .refl _⟩
      exact hmiddle.mono fun a ha => hih.remain a ha (.inl rfl)
    · refine Nat.le_trans ?_ hih.next
      obtain ⟨_, hadd⟩ | ⟨_, hadd⟩ := hcases
      · rw [hadd]
      · rw [hadd]
        exact Nat.le_succ _

omit [Collation] in
/-- The assertions of a list are dropped by their numbers. -/
theorem mem_drops {stock stock' : Stock}
    (h : Tx.Steps Stock.Drops assertions stock stock') :
    stock'.2 = stock.2 ∧ stock'.1.Sublist stock.1 ∧ ∀ a, a ∈ stock'.1 ↔
      a ∈ stock.1 ∧ ∀ assertion ∈ assertions, assertion.id ≠ some a.id := by
  induction assertions generalizing stock with
  | nil =>
    cases h
    exact ⟨rfl, List.Sublist.refl _, fun a => ⟨fun ha => ⟨ha, fun _ h => (nomatch h)⟩, And.left⟩⟩
  | cons assertion assertions ih =>
    obtain ⟨middle, ⟨id, hid, rfl⟩, hrest⟩ := h
    obtain ⟨hnext, hsub, hmem⟩ := ih hrest
    refine ⟨hnext, hsub.trans List.filter_sublist, fun a => ?_⟩
    rw [hmem, List.forall_mem_cons, ← and_assoc]
    refine and_congr_left fun _ => ?_
    unfold Stock.drop
    rw [List.mem_filter, decide_eq_true_eq, hid, ne_eq, ne_eq, Option.some.injEq, eq_comm]

omit [Collation] in
theorem policyAssertionChanges_eq (requested current : List Assertion) :
    policyAssertionChanges requested current = unmatched matchesAssertion requested current := by
  induction requested generalizing current with
  | nil => rfl
  | cons assertion requested ih =>
    rw [policyAssertionChanges, unmatched]
    dsimp only [removeMatchedAssertion]
    rw [ih]

/-- No two rows have the same values. -/
theorem Stock.Kept.apart {stock : Stock} (h : stock.Kept) (domainName : Str) :
    Apart matchesAssertion (stock.1.map (·.toAssertion domainName)) := by
  refine List.pairwise_map.2 (h.distinct.imp fun {a b} hne assertion ha => Bool.eq_false_iff.2 ?_)
  intro hb
  obtain ⟨hrole, hresource, haction, heffect⟩ := matchesAssertion_iff.1 ha
  obtain ⟨hrole', hresource', haction', heffect'⟩ := matchesAssertion_iff.1 hb
  refine hne ⟨?_, ?_, ?_, heffect.symm.trans heffect'⟩
  · rw [List.append_cancel_left (hrole.symm.trans hrole')]
    exact sameText_refl _
  · rw [hresource.symm.trans hresource']
    exact sameText_refl _
  · rw [haction.symm.trans haction']
    exact sameText_refl _

/-- What the changes of a request make of the rows. -/
theorem Stock.Replaced.of_changes {stock middle stock' : Stock} (hkept : stock.Kept)
    (hdrop : if ignoreDeletes then middle = stock else
      Tx.Steps Stock.Drops
        (policyAssertionChanges requested (stock.1.map (·.toAssertion domainName))).2 stock middle)
    (hadd : Tx.Steps (Stock.Adds domainName)
      (policyAssertionChanges requested (stock.1.map (·.toAssertion domainName))).1 middle stock') :
    stock.Replaced domainName ignoreDeletes requested stock' := by
  rw [policyAssertionChanges_eq] at hdrop hadd
  have hapart := hkept.apart domainName
  have hmiddle : middle.2 = stock.2 ∧ middle.1.Sublist stock.1 ∧ ∀ a, a ∈ middle.1 ↔
      a ∈ stock.1 ∧ (ignoreDeletes = true ∨ a.Requested domainName requested) := by
    split at hdrop
    · rename_i hignore
      rw [hdrop]
      exact ⟨rfl, List.Sublist.refl _, fun a => ⟨fun ha => ⟨ha, .inl hignore⟩, And.left⟩⟩
    · rename_i hignore
      obtain ⟨hnext, hsub, hmem⟩ := mem_drops hdrop
      refine ⟨hnext, hsub, fun a => (hmem a).trans (and_congr_right fun ha => ?_)⟩
      rw [or_iff_right hignore]
      constructor
      · intro hstays
        by_contra hnot
        refine hstays (a.toAssertion domainName) ((mem_leftOver hapart).2
          ⟨List.mem_map_of_mem ha, fun assertion hassertion => Bool.eq_false_iff.2 fun hmatch =>
            hnot ⟨assertion, hassertion, hmatch⟩⟩) rfl
      · rintro ⟨assertion, hassertion, hmatch⟩ gone hgone hid
        obtain ⟨hcurrent, hnone⟩ := (mem_leftOver hapart).1 hgone
        obtain ⟨b, hb, rfl⟩ := List.mem_map.1 hcurrent
        cases List.inj_on_of_nodup_map hkept.numbered hb ha (Option.some.inj hid)
        rw [hnone assertion hassertion] at hmatch
        cases hmatch
  obtain ⟨hnext, hsub, hmem⟩ := hmiddle
  have hmiddle : middle.Kept := by
    have hsublist := hkept.sublist hsub
    rw [← hnext] at hsublist
    exact hsublist
  have hadded := Stock.Replaced.of_add hadd hmiddle
  have hrequested : (unmatched matchesAssertion requested
      (stock.1.map (·.toAssertion domainName))).1 ⊆ requested := fun _ => mem_of_mem_unmatched
  refine ⟨fun a ha hstays => hadded.remain a ((hmem a).2 ⟨ha, hstays⟩) (.inl rfl), fun a ha => ?_,
    fun assertion hassertion => ?_, hnext ▸ hadded.next, hadded.kept⟩
  · rw [← hnext]
    exact (hadded.origin a ha).imp (fun h => (hmem a).1 h.1)
      fun h => ⟨h.1, h.2.1, h.2.2.mono hrequested⟩
  · obtain hnew | ⟨found, hfound, hmatch⟩ :=
      mem_unmatched_or matchesAssertion (stock.1.map (·.toAssertion domainName)) hassertion
    · exact hadded.covered assertion hnew
    · obtain ⟨a, ha, rfl⟩ := List.mem_map.1 hfound
      exact .of_requested (hadded.remain a ((hmem a).2 ⟨ha, .inr ⟨assertion, hassertion, hmatch⟩⟩)
        (.inl rfl)) hmatch

/-- Rows that are replaced twice by the same request. -/
theorem Stock.Replaced.trans {stock stock' stock'' : Stock}
    (h : stock.Replaced domainName ignoreDeletes requested stock')
    (h' : stock'.Replaced domainName ignoreDeletes requested stock'') :
    stock.Replaced domainName ignoreDeletes requested stock'' := by
  refine ⟨fun a ha hstays => h'.remain a (h.remain a ha hstays) hstays, fun a ha => ?_, h'.covered,
    h.next.trans h'.next, h'.kept⟩
  obtain ⟨ha, hstays⟩ | ⟨hid, hrest⟩ := h'.origin a ha
  · exact h.origin a ha
  · exact .inr ⟨h.next.trans hid, hrest⟩

end Stocks

section Puts

variable [Collation] {domainName policyName : Str} {version : Option Str}

theorem policyRow_eq_find? (db : Database) :
    db.policyRow domainName policyName version =
      (db.policiesOf domainName).find? (PolicyRow.isVersion policyName version) := by
  unfold Database.policyRow Database.policiesOf
  cases db.domains.lookup domainName with
  | none => rfl
  | some row => rfl

/-- The assertions of a version that may be missing. -/
def Database.stock (db : Database) (domainName policyName : Str) (version : Option Str) : Stock :=
  (((db.policyRow domainName policyName version).map (·.assertions)).getD [], db.nextAssertionId)

theorem Database.Sound.stock {db : Database} (h : db.Sound) (domainName policyName : Str)
    (version : Option Str) : (db.stock domainName policyName version).Kept := by
  unfold Database.stock
  cases hpolicy : db.policyRow domainName policyName version with
  | none => exact ⟨.nil, List.nodup_nil, fun _ ha => (nomatch ha)⟩
  | some policy =>
    rw [policyRow_eq_find?] at hpolicy
    have hmem : policy ∈ db.policiesOf domainName := List.mem_of_find?_eq_some hpolicy
    have hdistinct := h.distinct domainName policy hmem
    have hnodup : policy.assertions.Nodup :=
      hdistinct.imp fun {a b} (hne : ¬ a.Alike b) (hsame : a = b) => hne (hsame ▸ .refl a)
    refine ⟨hdistinct, hnodup.map_on fun a ha b hb hid => ?_, fun a ha => ?_⟩
    · exact (h.numbered _ _ _ _ _ _ ⟨policy, hmem, rfl, ha⟩ ⟨policy, hmem, rfl, hb⟩ hid).2.2
    · exact h.bounded _ _ _ ⟨policy, hmem, rfl, ha⟩

/-- The assertions of a version are replaced by those of a request, and nothing else has changed. -/
structure PolicyPut (domainName policyName : Str) (version : Option Str)
    (requested : List Assertion) (db db' : Database) : Prop where
  assertions : (db.stock domainName policyName version).Replaced domainName false requested
    (db'.stock domainName policyName version)
  stored : ∃ policy', db'.policyRow domainName policyName version = some policy' ∧
    ∀ policy, db.policyRow domainName policyName version = some policy →
      policy' = { policy with assertions := policy'.assertions }
  others : ∀ otherDomain policy,
    ¬ (otherDomain = domainName ∧ policy.isVersion policyName version = true) →
      (policy ∈ db'.policiesOf otherDomain ↔ policy ∈ db.policiesOf otherDomain)

theorem PolicyPut.trans (h : PolicyPut domainName policyName version requested db db')
    (h' : PolicyPut domainName policyName version requested db' db'') :
    PolicyPut domainName policyName version requested db db'' := by
  obtain ⟨policy', hpolicy', hsame⟩ := h.stored
  obtain ⟨policy'', hpolicy'', hsame'⟩ := h'.stored
  refine ⟨h.assertions.trans h'.assertions, ⟨policy'', hpolicy'', fun policy hpolicy => ?_⟩,
    fun otherDomain policy hother => (h'.others _ _ hother).trans (h.others _ _ hother)⟩
  rw [hsame' policy' hpolicy', hsame policy hpolicy]

/-- The store before a put can be another one, as far as the put can see. -/
theorem PolicyPut.of_before
    (hstock : before.stock domainName policyName version = db.stock domainName policyName version)
    (hstored : ∀ policy, before.policyRow domainName policyName version = some policy →
      db.policyRow domainName policyName version = some policy)
    (hothers : ∀ otherDomain policy,
      ¬ (otherDomain = domainName ∧ policy.isVersion policyName version = true) →
        (policy ∈ db.policiesOf otherDomain ↔ policy ∈ before.policiesOf otherDomain))
    (h : PolicyPut domainName policyName version requested db db') :
    PolicyPut domainName policyName version requested before db' := by
  obtain ⟨policy', hpolicy', hsame⟩ := h.stored
  refine ⟨hstock ▸ h.assertions, ⟨policy', hpolicy', fun policy hpolicy => hsame policy
    (hstored policy hpolicy)⟩, fun otherDomain policy hother =>
    (h.others otherDomain policy hother).trans (hothers otherDomain policy hother)⟩

/-- Stores with the same policies. -/
structure Database.Alike (db db' : Database) : Prop where
  policies : SamePolicies db db'
  next : db'.nextAssertionId = db.nextAssertionId

theorem Database.Alike.policyRow {db db' : Database} (h : db.Alike db')
    (domainName policyName : Str) (version : Option Str) :
    db'.policyRow domainName policyName version = db.policyRow domainName policyName version := by
  rw [policyRow_eq_find?, policyRow_eq_find?, h.policies]

theorem Database.Alike.stock {db db' : Database} (h : db.Alike db') (domainName policyName : Str)
    (version : Option Str) :
    db'.stock domainName policyName version = db.stock domainName policyName version := by
  rw [Database.stock, Database.stock, h.policyRow, h.next]

omit [Collation] in
theorem Database.Alike.stamp (domainName : Str) (time : Int) (db : Database) :
    db.Alike (stampDomain domainName time db) :=
  ⟨policiesOf_stampDomain domainName time db, nextAssertionId_stampDomain domainName time db⟩

omit [Collation] in
theorem Database.Alike.trans {db db' db'' : Database} (h : db.Alike db') (h' : db'.Alike db'') :
    db.Alike db'' :=
  ⟨fun domainName => (h'.policies domainName).trans (h.policies domainName), h'.next.trans h.next⟩

theorem PolicyPut.before {before db : Database} (hsame : before.Alike db)
    (h : PolicyPut domainName policyName version requested db db') :
    PolicyPut domainName policyName version requested before db' :=
  h.of_before (hsame.stock _ _ _).symm
    (fun _ hpolicy => (hsame.policyRow _ _ _).trans hpolicy)
    fun otherDomain policy _ => by rw [hsame.policies]

theorem PolicyPut.after {db' after : Database}
    (h : PolicyPut domainName policyName version requested db db') (hsame : db'.Alike after) : PolicyPut domainName policyName version requested db after := by
  refine ⟨(hsame.stock _ _ _).symm ▸ h.assertions, ?_, fun otherDomain policy hother => ?_⟩
  · rw [hsame.policyRow]
    exact h.stored
  · rw [hsame.policies]
    exact h.others otherDomain policy hother

theorem policyFocus_get_eq {db : Database}
    (h : (policyFocus domainName policyName version).get db = some stock) :
    db.stock domainName policyName version = stock := by
  obtain ⟨policy, hpolicy, rfl⟩ := Option.map_eq_some_iff.1 h
  rw [Database.stock, hpolicy]
  rfl

/-- What a change of the assertions of one version leaves. -/
theorem PolicyPut.of_reaches {db db' : Database}
    (hstock : (policyFocus domainName policyName version).get db = some stock)
    (hreach : (policyFocus domainName policyName version).Reaches db stock' db')
    (h : stock.Replaced domainName false requested stock') :
    PolicyPut domainName policyName version requested db db' := by
  obtain ⟨policy, hpolicy, _⟩ := Option.map_eq_some_iff.1 hstock
  obtain ⟨row, hrow, hfind⟩ := Option.bind_eq_some_iff.1 hpolicy
  refine ⟨?_, ?_, ?_⟩
  · rw [policyFocus_get_eq hstock, policyFocus_get_eq (hreach.get hstock)]
    exact h
  · obtain rfl | ⟨rfl, _⟩ := hreach
    · rw [policyFocus_put hrow, policyRow_eq (AList.lookup_insert _), find?_withAssertions, hfind]
      refine ⟨_, rfl, fun other hother => ?_⟩
      cases hpolicy.symm.trans hother
      rfl
    · refine ⟨policy, hpolicy, fun other hother => ?_⟩
      cases hpolicy.symm.trans hother
      rfl
  · intro otherDomain other hother
    obtain rfl | ⟨rfl, _⟩ := hreach
    · rw [policyFocus_put hrow]
      unfold Database.policiesOf
      rw [Map.lookup_insert]
      split
      · rename_i hsame
        rw [hsame, hrow]
        exact mem_withAssertions (Bool.eq_false_iff.2 fun hversion => hother ⟨hsame, hversion⟩) _
      · exact Iff.rfl
    · exact Iff.rfl

/-- The row that a put makes of a version that is not stored. -/
theorem insertPolicy_puts {policy : Policy}
    (hname : policy.name = domainName ++ ":policy." ++ policyName) :
    Tx.Accepts (insertPolicy domainName policy) fun db db' =>
      ∃ row created, db.domains.lookup domainName = some row ∧
        created.isVersion policyName policy.version = true ∧ created.assertions = [] ∧
        db' = ⟨db.domains.insert domainName { row with policies := row.policies ++ [created] },
          db.nextAssertionId⟩ := by
  have hrow (version : Str) (active : Bool)
      (hversion : PolicyRow.isVersion policyName policy.version ⟨policyName, version, active, []⟩ =
        true) : Tx.Accepts (insertPolicyRow domainName policyName version active) fun db db' =>
          ∃ row created, db.domains.lookup domainName = some row ∧
            created.isVersion policyName policy.version = true ∧ created.assertions = [] ∧
            db' = ⟨db.domains.insert domainName { row with policies := row.policies ++ [created] },
              db.nextAssertionId⟩ := by
    refine (onDomain_returns _).toAccepts.mono ?_
    rintro db db' ⟨row, row', hfound, hrun, rfl⟩
    split at hrun
    · cases hrun
    · cases hrun
      exact ⟨row, _, hfound, hversion, rfl, rfl⟩
  unfold insertPolicy
  rw [hname, objectName_append]
  refine Tx.Accepts.ite (fun hempty => hrow "0".toList true ?_) fun hsome => ?_
  · rw [PolicyRow.isVersion, hempty]
    simp
  · cases policy.active with
    | none =>
      intro c c' hrun
      obtain ⟨_, _, _, hraise⟩ := Tx.bind_eq_ok.1 hrun
      cases hraise
    | some active =>
      refine hrow _ active ?_
      rw [PolicyRow.isVersion, Bool.eq_false_iff.2 hsome]
      simp [sameText]

/-- What the processing of a policy does to the rows of its version. -/
theorem processPolicy_puts (found : Database) {policy : Policy}
    (hname : policy.name = domainName ++ ":policy." ++ policyName) :
    Tx.Accepts (processPolicy ((found.policyRow domainName policyName policy.version).map
      (savePolicy domainName)) domainName policyName policy false) fun db db' =>
        db.policyRow domainName policyName policy.version =
          found.policyRow domainName policyName policy.version →
        (db.stock domainName policyName policy.version).Kept →
        PolicyPut domainName policyName policy.version (policy.assertions.getD []) db db' := by
  cases hstored : found.policyRow domainName policyName policy.version with
  | none =>
    refine ((insertPolicy_puts hname).both (insertAssertions_accepts _)).mono ?_
    rintro db db' ⟨_, ⟨row, created, hrow, hversion, hempty, rfl⟩, hinsert⟩ hnone hkept
    have hfind : row.policies.find? (PolicyRow.isVersion policyName policy.version) = none :=
      (policyRow_eq hrow).symm.trans hnone
    let opened : Database := ⟨db.domains.insert domainName { row with
      policies := row.policies ++ [created] }, db.nextAssertionId⟩
    have hcreated : opened.policyRow domainName policyName policy.version = some created := by
      refine (policyRow_eq (AList.lookup_insert _)).trans ?_
      rw [List.find?_append, hfind, Option.none_or]
      exact List.find?_cons_of_pos hversion
    have hget : (policyFocus domainName policyName policy.version).get opened =
        some ([], db.nextAssertionId) := by
      refine (congrArg (Option.map _) hcreated).trans ?_
      rw [← hempty]
      rfl
    have hstock : db.stock domainName policyName policy.version = ([], db.nextAssertionId) := by
      rw [Database.stock, hnone]
      rfl
    obtain ⟨stock', hsteps, hreach⟩ := hinsert _ hget
    rw [hstock] at hkept
    have hreplaced : Stock.Replaced domainName false (policy.assertions.getD [])
        ([], db.nextAssertionId) stock' := by
      have hchanges : policyAssertionChanges (policy.assertions.getD []) [] =
          (policy.assertions.getD [], []) := policyAssertionChanges_self [] _
      refine Stock.Replaced.of_changes hkept
        (?_ : Tx.Steps Stock.Drops _ _ ([], db.nextAssertionId)) ?_
      · rw [List.map_nil, hchanges]
        rfl
      · rw [List.map_nil, hchanges]
        exact hsteps
    refine (PolicyPut.of_reaches hget hreach hreplaced).of_before ?_ ?_ ?_
    · rw [hstock, policyFocus_get_eq hget]
    · intro other hother
      rw [hnone] at hother
      cases hother
    · intro otherDomain other hother
      unfold Database.policiesOf
      rw [Map.lookup_insert]
      split
      · rename_i hsame
        rw [hsame, hrow]
        refine ⟨fun hmem => (List.mem_append.1 hmem).resolve_right fun hlast => ?_,
          List.mem_append_left _⟩
        rw [List.mem_singleton.1 hlast] at hother
        exact hother ⟨hsame, hversion⟩
      · exact Iff.rfl
  | some original =>
    let changes := policyAssertionChanges (policy.assertions.getD [])
      (original.assertions.map (·.toAssertion domainName))
    have hboth := (updatePolicy_accepts hname).both
      ((deleteAssertions_accepts changes.2).both (insertAssertions_accepts changes.1))
    refine Tx.Accepts.mono hboth ?_
    intro db db' hput hsame hkept
    have hget : (policyFocus domainName policyName policy.version).get db =
        some (original.assertions, db.nextAssertionId) := congrArg (Option.map _) hsame
    rw [policyFocus_get_eq hget] at hkept
    obtain ⟨stock', ⟨_, rfl, middle, hdrop, hadd⟩, hreach⟩ := hput _ hget
    exact .of_reaches hget hreach (.of_changes hkept hdrop hadd)

theorem checkPolicyVersion_reading (domainName policyName : Str) (policy : Policy)
    (originalPolicy : Option Policy) :
    Tx.Reading (checkPolicyVersion domainName policyName policy originalPolicy) := by
  refine .ite ((Tx.Reading.query _).bind fun found => ?_) (.pure ())
  cases policy.active with
  | none => exact .raise _
  | some active => exact (Tx.Reading.ensure _ _).bind fun _ => .ensure _ _

theorem putPolicyBody_puts (config : Config) (ctx : Context) {policy : Policy}
    (hname : policy.name = domainName ++ ":policy." ++ policyName) :
    Tx.Returns (putPolicyBody config ctx domainName policyName policy) fun db _ db' =>
      (db.stock domainName policyName policy.version).Kept →
        PolicyPut domainName policyName policy.version (policy.assertions.getD []) db db' := by
  refine (checkDomainAuditEnabled_reading _ _ _ _).returns_bind fun _ =>
    (checkPolicyQuota_reading _ _ _).returns_bind fun _ => ?_
  refine (Tx.Returns.query_bind (T := fun found db _ db' =>
    db.policyRow domainName policyName policy.version =
      found.policyRow domainName policyName policy.version →
    (db.stock domainName policyName policy.version).Kept →
      PolicyPut domainName policyName policy.version (policy.assertions.getD []) db db')
    fun found => ?_).mono fun db _ db' h => h rfl
  exact (checkPolicyVersion_reading _ _ _ _).returns_bind fun _ =>
    (processPolicy_puts found hname).ensure_bind _

/-- A put that succeeds, whatever has failed before, replaces the assertions of its version by those
of the request. -/
theorem executePutPolicy_replaces (ctx : Context) {policy : Policy}
    (hname : policy.name = domainName ++ ":policy." ++ policyName) (hreached : Reached config db)
    (h : executePutPolicy config ctx domainName policyName policy db events = (.ok (), db')) :
    PolicyPut domainName policyName policy.version (policy.assertions.getD []) db db' := by
  let I (found : Database) : Prop := (found.stock domainName policyName policy.version).Kept ∧
    (db.Alike found ∨
      PolicyPut domainName policyName policy.version (policy.assertions.getD []) db found)
  have hmake : Tx.Returns (putPolicyBody config ctx domainName policyName policy) fun found _ after =>
      I found →
        PolicyPut domainName policyName policy.version (policy.assertions.getD []) db after := by
    refine (putPolicyBody_puts config ctx hname).mono ?_
    rintro found _ after hput ⟨hkept, hsame | hput'⟩
    · exact (hput hkept).before hsame
    · exact hput'.trans (hput hkept)
  have hstamp : ∀ time found, I found → I (stampDomain domainName time found) := by
    rintro time found ⟨hkept, hcases⟩
    have hstamped := Database.Alike.stamp domainName time found
    refine ⟨hstamped.stock _ _ _ ▸ hkept, hcases.imp (·.trans hstamped) (·.after hstamped)⟩
  exact Tx.attempts_saved_reaches (putPolicyBody_whole _ _ _ _ _).atomic
    (hmake.mono fun found _ after hafter hI => ⟨(hafter hI).assertions.kept, .inr (hafter hI)⟩)
    hstamp hmake (fun time found hput => hput.after (.stamp domainName time found))
    ⟨hreached.sound.stock _ _ _, .inl ⟨fun _ => rfl, rfl⟩⟩ h

end Puts

section Example

local instance revisionCollation : Collation := .binary

/-- The policy with its assertion in two copies and a new one. -/
def revisedPolicy : Policy where
  name := "media:policy.writers"
  assertions := some [
    { role := "media:role.editors", resource := "media:article", action := "write" },
    { role := "media:role.guests", resource := "media:article", action := "write", effect := some .DENY },
    { role := "media:role.editors", resource := "media:article", action := "write",
      effect := some .ALLOW }]

/-- The first commit goes through, and its answer is lost. -/
def revisedStore : Except Failure Unit × Database :=
  executePutPolicy {} { caller := "putpolicy" } "media" "writers" revisedPolicy hostWritersStore
    fun n => if n = 7 then ⟨n, some (.resource 410 [], true)⟩ else ⟨n, none⟩

theorem revisedStore_eq : revisedStore = (.ok (), revisedStore.2) := by
  have hok : revisedStore.1 = .ok () := by decide +kernel
  rw [← hok]

theorem executePutPolicy_revises :
    PolicyPut "media" "writers" none (revisedPolicy.assertions.getD []) hostWritersStore
      revisedStore.2 :=
  executePutPolicy_replaces { caller := "putpolicy" } rfl reached_hostWritersStore revisedStore_eq

end Example

end Athenz.ZmsServer
