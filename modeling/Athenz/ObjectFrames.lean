import Athenz.Lib.Frame
import Athenz.Lib.Result
import Athenz.StoreSpec
import Athenz.TenancyOperations

namespace Athenz.ZmsServer
open Lib Lib.Text Lib.Transaction
set_option autoImplicit true

section Lists

theorem findIdx?_find? {l : List α} {p : α → Bool} (h : l.findIdx? p = some i) :
    ∃ a, l[i]? = some a ∧ p a = true ∧ l.find? p = some a := by
  induction l generalizing i with
  | nil => cases h
  | cons x l ih =>
    rw [List.findIdx?_cons] at h
    split at h
    · rename_i hx
      cases h
      exact ⟨x, rfl, hx, List.find?_cons_of_pos hx⟩
    · rename_i hx
      obtain ⟨j, hj, rfl⟩ := Option.map_eq_some_iff.1 h
      obtain ⟨a, ha, hpa, hfind⟩ := ih hj
      refine ⟨a, ha, hpa, ?_⟩
      rw [List.find?_cons_of_neg hx]
      exact hfind

theorem find?_set {l : List α} {p : α → Bool} (h : l.findIdx? p = some i) (hb : p b = true) :
    (l.set i b).find? p = some b := by
  induction l generalizing i with
  | nil => cases h
  | cons x l ih =>
    rw [List.findIdx?_cons] at h
    split at h
    · cases h
      exact List.find?_cons_of_pos hb
    · rename_i hx
      obtain ⟨j, hj, rfl⟩ := Option.map_eq_some_iff.1 h
      rw [List.set_cons_succ, List.find?_cons_of_neg hx]
      exact ih hj

theorem find?_set_of_not {l : List α} {p : α → Bool} (ha : l[i]? = some a) (hpa : p a = false)
    (hpb : p b = false) : (l.set i b).find? p = l.find? p := by
  induction l generalizing i with
  | nil => cases ha
  | cons x l ih =>
    cases i with
    | zero =>
      cases ha
      rw [List.set_cons_zero, List.find?_cons_of_neg (Bool.eq_false_iff.1 hpb),
        List.find?_cons_of_neg (Bool.eq_false_iff.1 hpa)]
    | succ i =>
      rw [List.set_cons_succ, List.find?_cons, List.find?_cons, ih ha]

theorem policyAssertionChanges_self (assertions added : List Assertion) :
    policyAssertionChanges (assertions ++ added) assertions = (added, []) := by
  have hnone : ∀ added, policyAssertionChanges added [] = (added, []) := by
    intro added
    induction added with
    | nil => rfl
    | cons assertion added ih =>
      rw [policyAssertionChanges]
      dsimp only [removeMatchedAssertion, List.eraseP_nil, List.any_nil]
      rw [ih]
      rfl
  induction assertions with
  | nil => exact hnone added
  | cons assertion assertions ih =>
    have hmatches : matchesAssertion assertion assertion = true := by
      unfold matchesAssertion
      simp only [decide_true, Bool.and_self]
    rw [List.cons_append, policyAssertionChanges]
    dsimp only [removeMatchedAssertion]
    rw [List.eraseP_cons_of_pos hmatches, List.any_cons, hmatches, Bool.true_or, ih]
    rfl

end Lists

section Objects

variable {table : Table S} {view : Database → β}

theorem extractObjectName_eq (h : extractObjectName domainName fullName separator = some name) :
    fullName = domainName ++ separator ++ name := by
  unfold extractObjectName at h
  split at h
  · rename_i hstarts
    cases h
    obtain ⟨rest, rfl⟩ := hstarts
    rw [List.drop_left]
  · cases h

theorem objectName_refused {f : Str → Op α} (h : extractObjectName domainName fullName separator = none) :
    Tx.Returns (objectName domainName fullName separator >>= f) fun _ _ _ => False := by
  intro c a c' hrun
  unfold objectName at hrun
  rw [h] at hrun
  cases hrun

theorem objectName_leaves {f : Str → Op α} (domainName fullName separator : Str)
    (h : ∀ name, fullName = domainName ++ separator ++ name → Tx.Leaves view (f name)) :
    Tx.Leaves view (objectName domainName fullName separator >>= f) := by
  cases hname : extractObjectName domainName fullName separator with
  | none => exact (objectName_refused hname).mono fun _ _ _ hfalse => hfalse.elim
  | some name =>
    unfold objectName
    rw [hname]
    exact h name (extractObjectName_eq hname)

/-- A view that does not show the object of a name. -/
def Table.Hidden (table : Table S) (domainName name : Str) (view : Database → β) : Prop :=
  ∀ db row m, db.domains.lookup domainName = some row →
    (∀ other, other ≠ name → m.lookup other = (table.get row).lookup other) →
    view { db with domains := db.domains.insert domainName (table.set m row) } = view db

theorem Table.hidden_find (table : Table S) (domainName : Str) (h : other ≠ name) :
    table.Hidden domainName name fun db => table.find db domainName other := by
  intro db row m hrow hothers
  dsimp only [Table.find]
  rw [AList.lookup_insert, hrow, Option.bind_some, Option.bind_some, table.get_set]
  exact hothers other h

theorem onDomain_leaves {f : DomainRow → Except Failure (α × DomainRow)}
    (h : ∀ db row a row', db.domains.lookup domainName = some row → f row = .ok (a, row') →
      view { db with domains := db.domains.insert domainName row' } = view db) :
    Tx.Leaves view (onDomain domainName f) := by
  refine (onDomain_returns f).mono ?_
  rintro db a db' ⟨row, row', hrow, hf, rfl⟩
  exact h db row a row' hrow hf

theorem Table.on_leaves (hview : table.Hidden domainName name view)
    (f : Collection S → Except Failure (α × Collection S)) :
    Tx.Leaves view (table.on domainName name f) := by
  refine onDomain_leaves fun db row a row' hrow hf => ?_
  unfold Table.change at hf
  split at hf
  · cases hf
  · rename_i stored hstored
    cases hrun : f stored with
    | error e =>
      rw [hrun] at hf
      cases hf
    | ok result =>
      rw [hrun] at hf
      cases hf
      exact hview db row _ hrow fun other hother => AList.lookup_insert_ne hother

theorem Table.insertRow_leaves (hview : table.Hidden domainName name view) (settings : S) :
    Tx.Leaves view (table.insertRow domainName name settings) := by
  refine onDomain_leaves fun db row a row' hrow hf => ?_
  split at hf
  · cases hf
  · cases hf
    exact hview db row _ hrow fun other hother => AList.lookup_insert_ne hother

theorem Table.insertAuditLog_leaves (hview : table.Hidden domainName name view)
    (admin : Option Str) (member action : Str) :
    Tx.Leaves view (table.insertAuditLog domainName name admin member action) :=
  Table.on_leaves hview _

theorem Table.insertMember_leaves (hview : table.Hidden domainName name view) (member : Member)
    (admin : Option Str) : Tx.Leaves view (table.insertMember domainName name member admin) := by
  refine Tx.Leaves.bind ((Tx.Leaves.query _).bind fun known =>
    .ite (.abort _) (Table.on_leaves hview _)) fun action => ?_
  cases action with
  | none => exact .pure true
  | some action => exact Table.insertAuditLog_leaves hview admin member.memberName action

theorem Table.deleteMember_leaves (hview : table.Hidden domainName name view) (memberName : Str)
    (admin : Option Str) : Tx.Leaves view (table.deleteMember domainName name memberName admin) :=
  (Table.on_leaves hview _).bind fun _ =>
    .ite (.pure false) (Table.insertAuditLog_leaves hview admin memberName _)

theorem insertRole_eq {role : Role} (hname : role.name = domainName ++ ":role." ++ roleName) :
    insertRole domainName role = roleTable.insertRow domainName roleName role.settings := by
  unfold insertRole
  rw [hname, objectName_append]
  rfl

theorem processTags_leaves {insert : Tags → Op Bool} {delete : List Column → Op Bool}
    (hinsert : ∀ tags, Tx.Leaves view (insert tags)) (hdelete : ∀ keys, Tx.Leaves view (delete keys))
    (tags : Option Tags) (originalTags : Option (Option Tags)) :
    Tx.Leaves view (processTags insert delete tags originalTags) := by
  unfold processTags
  refine .ite (.pure true) ?_
  cases originalTags with
  | none => exact hinsert _
  | some originalTags =>
    dsimp only
    unfold processUpdateTags
    refine .ite (.ite (.pure true) (hinsert _)) ?_
    cases tags with
    | none => exact .raise _
    | some currentTags => exact (hdelete _).both (hinsert _)

variable [CaseRules]

theorem Table.processUpdateMembers_leaves (hview : table.Hidden domainName name view)
    (originalMembers members : Option (List Member)) (ignoreDeletes : Bool) (admin : Option Str) :
    Tx.Leaves view (table.processUpdateMembers originalMembers members ignoreDeletes domainName name
      admin) :=
  (Tx.Leaves.ite (.pure true) (.forAll fun _ _ => Table.deleteMember_leaves hview _ admin)).both
    (.forAll fun _ _ => Table.insertMember_leaves hview _ admin)

variable [Collation]

/-- The processing of a role is not seen where the role is not shown. -/
theorem processRole_leaves (hview : roleTable.Hidden domainName roleName view) {role : Role}
    (hname : role.name = domainName ++ ":role." ++ roleName) (config : Config)
    (originalRole : Option Role) (admin : Option Str) (ignoreDeletes : Bool) :
    Tx.Leaves view (processRole config originalRole domainName roleName role admin ignoreDeletes) := by
  have htags : Tx.Leaves view (processRoleTags config role roleName domainName originalRole) :=
    processTags_leaves (fun _ => Table.on_leaves hview _) (fun _ => Table.on_leaves hview _) _ _
  cases originalRole with
  | none =>
    rw [processRole, insertRole_eq (show { role with auditEnabled := some false }.name = _ from hname)]
    exact (Table.insertRow_leaves hview _).both
      ((Tx.Leaves.forAll fun _ _ => Table.insertMember_leaves hview _ admin).both htags)
  | some original =>
    rw [processRole, updateRole_eq
      (show { role with auditEnabled := original.auditEnabled }.name = _ from hname)]
    exact (Table.on_leaves hview _).both
      ((Table.processUpdateMembers_leaves hview _ _ ignoreDeletes admin).both htags)

end Objects

section Policies

variable {view : Database → β}

/-- A view that does not show the policies of a name. -/
def PolicyHidden [Collation] (domainName policyName : Str) (view : Database → β) : Prop :=
  ∀ db row policies nextAssertionId, db.domains.lookup domainName = some row →
    (∀ other, other ≠ policyName → policies.find? (PolicyRow.isVersion other none) =
      row.policies.find? (PolicyRow.isVersion other none)) →
    view ⟨db.domains.insert domainName { row with policies := policies }, nextAssertionId⟩ = view db

/-- A change of the active version that leaves what it is. -/
def SameVersion (f : PolicyRow → Except Failure (α × PolicyRow)) : Prop :=
  ∀ policy a policy', f policy = .ok (a, policy') →
    policy'.name = policy.name ∧ policy'.active = policy.active

theorem sameVersion_self : SameVersion fun policy => .ok (true, policy) := by
  intro policy a policy' h
  cases h
  exact ⟨rfl, rfl⟩

theorem deleteAssertion_sameVersion (id : Nat) : SameVersion fun p : PolicyRow =>
    .ok (p.assertions.any (·.id = id), { p with assertions := p.assertions.filter (·.id ≠ id) }) := by
  intro policy a policy' h
  cases h
  exact ⟨rfl, rfl⟩

variable [Collation]

theorem isVersion_none {policy : PolicyRow} :
    policy.isVersion policyName none = true ↔ policy.name = policyName ∧ policy.active = true := by
  unfold PolicyRow.isVersion
  rw [Bool.and_eq_true, decide_eq_true_eq]
  exact Iff.rfl

theorem changePolicy_eq_ok {f : PolicyRow → Except Failure (α × PolicyRow)} :
    changePolicy domainName policyName version f row = .ok (a, row') ↔
      ∃ i policy policy', row.policies.findIdx? (PolicyRow.isVersion policyName version) = some i ∧
        row.policies[i]? = some policy ∧ f policy = .ok (a, policy') ∧
        row' = { row with policies := row.policies.set i policy' } := by
  unfold changePolicy
  constructor
  · intro h
    split at h
    · cases h
    · rename_i i hi
      split at h
      · cases h
      · rename_i policy hpolicy
        cases hf : f policy with
        | error e =>
          rw [hf] at h
          cases h
        | ok result =>
          rw [hf] at h
          cases h
          exact ⟨i, policy, _, hi, hpolicy, hf, rfl⟩
  · rintro ⟨i, policy, policy', hi, hpolicy, hf, rfl⟩
    rw [hi]
    dsimp only
    rw [hpolicy]
    dsimp only
    rw [hf]
    rfl

theorem policyRow_eq {db : Database} (h : db.domains.lookup domainName = some row) :
    db.policyRow domainName policyName version =
      row.policies.find? (PolicyRow.isVersion policyName version) := by
  rw [Database.policyRow, h]
  rfl

theorem policyRow_stampDomain (domainName : Str) (time : Int) (db : Database)
    (otherDomain policyName : Str) (version : Option Str) :
    (stampDomain domainName time db).policyRow otherDomain policyName version =
      db.policyRow otherDomain policyName version := by
  unfold Database.policyRow
  rw [lookup_stampDomain]
  cases db.domains.lookup otherDomain with
  | none => rfl
  | some row =>
    dsimp only [Option.map_some, Option.bind_some]
    split
    · rfl
    · rfl

theorem roleTable_hidden_policyRow (domainName roleName policyName : Str) :
    roleTable.Hidden domainName roleName fun db => db.policyRow domainName policyName none := by
  intro db row m hrow _
  dsimp only [Database.policyRow]
  rw [AList.lookup_insert, hrow]
  rfl

theorem policyHidden_find (domainName policyName roleName : Str) :
    PolicyHidden domainName policyName fun db => roleTable.find db domainName roleName := by
  intro db row policies nextAssertionId hrow _
  dsimp only [Table.find]
  rw [AList.lookup_insert, hrow]
  rfl

theorem policyHidden_policyRow (domainName : Str) (h : other ≠ policyName) :
    PolicyHidden domainName policyName fun db => db.policyRow domainName other none := by
  intro db row policies nextAssertionId hrow hothers
  dsimp only [Database.policyRow]
  rw [AList.lookup_insert, hrow]
  exact hothers other h

theorem SameVersion.isVersion {f : PolicyRow → Except Failure (α × PolicyRow)} (hf : SameVersion f)
    (h : f policy = .ok (a, policy')) (name : Str) :
    policy'.isVersion name none = policy.isVersion name none := by
  obtain ⟨hname, hactive⟩ := hf policy a policy' h
  rw [Bool.eq_iff_iff, isVersion_none, isVersion_none, hname, hactive]

/-- What the change of an active version does to the active versions of a domain. -/
theorem changePolicy_find {f : PolicyRow → Except Failure (α × PolicyRow)} (hf : SameVersion f)
    (h : changePolicy domainName policyName none f row = .ok (a, row')) :
    ∃ policy policy', row.policies.find? (PolicyRow.isVersion policyName none) = some policy ∧
      f policy = .ok (a, policy') ∧
      row'.policies.find? (PolicyRow.isVersion policyName none) = some policy' ∧
      row' = { row with policies := row'.policies } ∧
      ∀ other, other ≠ policyName → row'.policies.find? (PolicyRow.isVersion other none) =
        row.policies.find? (PolicyRow.isVersion other none) := by
  obtain ⟨i, policy, policy', hi, hpolicy, hrun, rfl⟩ := changePolicy_eq_ok.1 h
  obtain ⟨found, hfound, hversion, hfind⟩ := findIdx?_find? hi
  cases hfound.symm.trans hpolicy
  have hversion' := (hf.isVersion hrun policyName).trans hversion
  refine ⟨policy, policy', hfind, hrun, find?_set hi hversion', rfl, fun other hother => ?_⟩
  have hother' : policy.isVersion other none = false := by
    rw [Bool.eq_false_iff, Ne, isVersion_none]
    exact fun hname => hother (hname.1.symm.trans (isVersion_none.1 hversion).1)
  exact find?_set_of_not hpolicy hother' ((hf.isVersion hrun other).trans hother')

theorem onPolicy_leaves (hview : PolicyHidden domainName policyName view)
    {f : PolicyRow → Except Failure (α × PolicyRow)} (hf : SameVersion f) :
    Tx.Leaves view (onDomain domainName (changePolicy domainName policyName none f)) := by
  refine onDomain_leaves fun db row a row' hrow hrun => ?_
  obtain ⟨_, _, _, _, _, hrow', hothers⟩ := changePolicy_find hf hrun
  rw [hrow']
  exact hview db row row'.policies db.nextAssertionId hrow hothers

theorem onPolicy_returns {f : PolicyRow → Except Failure (α × PolicyRow)} (hf : SameVersion f) :
    Tx.Returns (onDomain domainName (changePolicy domainName policyName none f)) fun db a db' =>
      ∃ policy policy', db.policyRow domainName policyName none = some policy ∧
        f policy = .ok (a, policy') ∧ db'.policyRow domainName policyName none = some policy' := by
  refine (onDomain_returns _).mono ?_
  rintro db a db' ⟨row, row', hrow, hrun, rfl⟩
  obtain ⟨policy, policy', hfind, hf', hfind', _⟩ := changePolicy_find hf hrun
  refine ⟨policy, policy', (policyRow_eq hrow).trans hfind, hf', ?_⟩
  exact (policyRow_eq (AList.lookup_insert _)).trans hfind'

theorem insertPolicyRow_leaves (hview : PolicyHidden domainName policyName view) (version : Str)
    (active : Bool) : Tx.Leaves view (insertPolicyRow domainName policyName version active) := by
  refine onDomain_leaves fun db row a row' hrow hf => ?_
  split at hf
  · cases hf
  · cases hf
    refine hview db row _ db.nextAssertionId hrow fun other hother => ?_
    rw [List.find?_append, List.find?_cons_of_neg, List.find?_nil, Option.or_none]
    rw [isVersion_none]
    exact fun hname => hother hname.1.symm

/-- The first version of a policy is the active one. -/
theorem insertPolicyRow_returns (domainName policyName version : Str) :
    Tx.Returns (insertPolicyRow domainName policyName version true) fun db _ db' =>
      db.policyRow domainName policyName none = none →
        db'.policyRow domainName policyName none = some ⟨policyName, version, true, []⟩ := by
  refine (onDomain_returns _).mono ?_
  rintro db a db' ⟨row, row', hrow, hf, rfl⟩ hnone
  split at hf
  · cases hf
  · cases hf
    rw [policyRow_eq hrow] at hnone
    refine (policyRow_eq (AList.lookup_insert _)).trans ?_
    rw [List.find?_append, hnone, Option.none_or]
    exact List.find?_cons_of_pos (isVersion_none.2 ⟨rfl, rfl⟩)

/-- An assertion that the store takes for the one to insert. -/
def PolicyRow.blocks (policy : PolicyRow) (roleName : Str) (assertion : Assertion) : Bool :=
  policy.assertions.any fun a => sameText a.role roleName &&
    sameText a.resource assertion.resource && sameText a.action assertion.action &&
    a.effect = assertion.effect.getD .ALLOW

theorem insertAssertion_eq {assertion : Assertion}
    (hrole : assertion.role = domainName ++ ":role." ++ roleName) :
    insertAssertion domainName policyName none assertion = Tx.statement fun _ db =>
      match db.domains.lookup domainName with
      | none => .error (notFoundError "domain" domainName)
      | some row => do
        let (added, row) ← changePolicy domainName policyName none
          (fun p =>
            if p.blocks roleName assertion then .ok (none, p)
            else .ok (some db.nextAssertionId, { p with
              assertions := p.assertions ++ [⟨db.nextAssertionId, roleName, assertion.resource,
                assertion.action, assertion.effect.getD .ALLOW, []⟩] }))
          row
        return (added, { db with
          domains := db.domains.insert domainName row
          nextAssertionId := if added.isSome then db.nextAssertionId + 1 else db.nextAssertionId }) := by
  unfold insertAssertion
  rw [hrole, objectName_append]
  rfl

/-- The row that an assertion gets. -/
def Assertion.row (assertion : Assertion) (roleName : Str) (id : Nat) : AssertionRow :=
  ⟨id, roleName, assertion.resource, assertion.action, assertion.effect.getD .ALLOW, []⟩

def PolicyRow.added (policy : PolicyRow) (roleName : Str) (assertion : Assertion) (id : Nat) :
    PolicyRow :=
  { policy with assertions := policy.assertions ++ [assertion.row roleName id] }

/-- What the insertion of an assertion does to the rows of a domain. -/
theorem insertAssertion_row {assertion : Assertion} {db : Database}
    (hrow : db.domains.lookup domainName = some row)
    (h : changePolicy domainName policyName none
      (fun p =>
        if p.blocks roleName assertion then .ok (none, p)
        else .ok (some db.nextAssertionId, { p with
          assertions := p.assertions ++ [⟨db.nextAssertionId, roleName, assertion.resource,
            assertion.action, assertion.effect.getD .ALLOW, []⟩] })) row = .ok (added, row')) :
    ∃ policy, db.policyRow domainName policyName none = some policy ∧
      row'.policies.find? (PolicyRow.isVersion policyName none) =
        some (if policy.blocks roleName assertion then policy
          else policy.added roleName assertion db.nextAssertionId) ∧
      row' = { row with policies := row'.policies } ∧
      ∀ other, other ≠ policyName → row'.policies.find? (PolicyRow.isVersion other none) =
        row.policies.find? (PolicyRow.isVersion other none) := by
  have hsame : SameVersion fun p : PolicyRow =>
      (if p.blocks roleName assertion then .ok (none, p)
        else .ok (some db.nextAssertionId, { p with
          assertions := p.assertions ++ [⟨db.nextAssertionId, roleName, assertion.resource,
            assertion.action, assertion.effect.getD .ALLOW, []⟩] }) :
        Except Failure (Option Nat × PolicyRow)) := by
    intro policy a policy' hf
    dsimp only at hf
    split at hf
    · cases hf
      exact ⟨rfl, rfl⟩
    · cases hf
      exact ⟨rfl, rfl⟩
  obtain ⟨policy, policy', hfind, hf, hfind', hrow', hothers⟩ := changePolicy_find hsame h
  refine ⟨policy, (policyRow_eq hrow).trans hfind, ?_, hrow', hothers⟩
  rw [hfind']
  split at hf
  · rename_i hblocked
    cases hf
    rw [if_pos hblocked]
  · rename_i hfree
    cases hf
    rw [if_neg hfree]
    rfl

/-- An assertion on a role of another domain is refused. -/
theorem insertAssertion_leaves (hview : PolicyHidden domainName policyName view)
    (assertion : Assertion) : Tx.Leaves view (insertAssertion domainName policyName none assertion) := by
  by_cases hrole : ∃ roleName, assertion.role = domainName ++ ":role." ++ roleName
  · obtain ⟨roleName, hrole⟩ := hrole
    rw [insertAssertion_eq hrole]
    refine (Tx.Returns.statement _).mono ?_
    rintro db a db' ⟨_, hf⟩
    split at hf
    · cases hf
    · rename_i row hrow
      obtain ⟨⟨added, row'⟩, hchange, hf⟩ := Result.bind_eq_ok.1 hf
      obtain ⟨_, _, _, hrow', hothers⟩ := insertAssertion_row hrow hchange
      cases hf
      rw [hrow']
      exact hview db row row'.policies _ hrow hothers
  · exact objectName_leaves _ _ _ fun roleName h => absurd ⟨roleName, h⟩ hrole

theorem insertAssertion_returns (policyName : Str) {assertion : Assertion}
    (hrole : assertion.role = domainName ++ ":role." ++ roleName) :
    Tx.Returns (insertAssertion domainName policyName none assertion) fun db _ db' =>
      ∃ policy, db.policyRow domainName policyName none = some policy ∧
        db'.policyRow domainName policyName none =
          some (if policy.blocks roleName assertion then policy
            else policy.added roleName assertion db.nextAssertionId) := by
  rw [insertAssertion_eq hrole]
  refine (Tx.Returns.statement _).mono ?_
  rintro db a db' ⟨_, hf⟩
  split at hf
  · cases hf
  · rename_i row hrow
    obtain ⟨⟨added, row'⟩, hchange, hf⟩ := Result.bind_eq_ok.1 hf
    obtain ⟨policy, hpolicy, hfind', _⟩ := insertAssertion_row hrow hchange
    cases hf
    exact ⟨policy, hpolicy, (policyRow_eq (AList.lookup_insert _)).trans hfind'⟩

theorem insertPolicy_eq {policy : Policy} (hversion : policy.version = none)
    (hname : policy.name = domainName ++ ":policy." ++ policyName) :
    insertPolicy domainName policy = insertPolicyRow domainName policyName "0" true := by
  unfold insertPolicy
  rw [hname, objectName_append, hversion]
  rfl

theorem updatePolicy_eq {policy : Policy} (hversion : policy.version = none)
    (hname : policy.name = domainName ++ ":policy." ++ policyName) :
    updatePolicy domainName policy =
      onDomain domainName (changePolicy domainName policyName none fun p => .ok (true, p)) := by
  unfold updatePolicy
  rw [hname, objectName_append, hversion]
  rfl

/-- The processing of a policy is not seen where the policy is not shown. -/
theorem processPolicy_leaves (hview : PolicyHidden domainName policyName view) {policy : Policy}
    (hversion : policy.version = none)
    (hname : policy.name = domainName ++ ":policy." ++ policyName)
    (originalPolicy : Option Policy) (ignoreDeletes : Bool) :
    Tx.Leaves view (processPolicy originalPolicy domainName policyName policy ignoreDeletes) := by
  have hinsert : ∀ assertions,
      Tx.Leaves view (insertAssertions domainName policyName policy.version assertions) := by
    refine fun assertions => .forAll fun assertion _ => ?_
    rw [hversion]
    exact (insertAssertion_leaves hview assertion).bind fun _ => .pure true
  cases originalPolicy with
  | none =>
    rw [processPolicy, insertPolicy_eq hversion hname]
    exact (insertPolicyRow_leaves hview "0" true).both (hinsert _)
  | some original =>
    have hdelete : ∀ assertions,
        Tx.Leaves view (deleteAssertions domainName policyName policy.version assertions) := by
      refine fun assertions => .forAll fun assertion _ => ?_
      rw [hversion]
      cases assertion.id with
      | none => exact .raise _
      | some id => exact onPolicy_leaves hview (deleteAssertion_sameVersion id)
    rw [processPolicy, updatePolicy_eq hversion hname]
    exact (onPolicy_leaves hview sameVersion_self).both
      ((Tx.Leaves.ite (.pure true) (hdelete _)).both (hinsert _))

end Policies

end Athenz.ZmsServer
