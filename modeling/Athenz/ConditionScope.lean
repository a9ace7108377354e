import Athenz.AssertionConditions

namespace Athenz.ZmsServer.Conditions
open Lib Lib.Text Lib.Transaction Lib.Transaction.Tx
set_option autoImplicit true

section Scope

/-- The conditions of the assertions of all other policies are what they were. -/
def OthersKept (domainName policyName : Str) (before after : Database) : Prop :=
  ∀ otherDomain otherPolicy assertionId row,
    (otherDomain, otherPolicy) ≠ (domainName, policyName) →
    (after.HasCondition otherDomain otherPolicy assertionId row ↔
      before.HasCondition otherDomain otherPolicy assertionId row)

/-- The assertion of a request is one of the policy that it names, or nothing differs for it. -/
def Addressed (domainName policyName : Str) (assertionId : Nat) (request : ConditionRequest)
    (db : Database) : Prop :=
  ∀ otherDomain otherPolicy a, db.HasAssertion otherDomain otherPolicy a → a.id = assertionId →
    (otherDomain, otherPolicy) = (domainName, policyName) ∨ request.WritesBack a.conditions

variable [Collation] [CaseRules]

/-- A request that succeeds keeps the conditions of the other policies exactly when its assertion is
one of its own policy, or the request writes back what is there. -/
theorem conditionRequest_othersKept_iff (config : Config) (ctx : Context)
    (domainName policyName : Str) (assertionId : Nat) (request : ConditionRequest)
    (db db' : Database) (events : Nat → Event Failure) (hdb : db.Numbered)
    (h : request.run config ctx domainName policyName assertionId db events = (.ok (), db')) :
    OthersKept domainName policyName db db' ↔
      Addressed domainName policyName assertionId request db := by
  have hrun : request.execute config ctx domainName policyName assertionId db events =
      (.ok (), db') := by
    unfold ConditionRequest.run at h
    split at h
    · cases h
    · exact h
  obtain ⟨found, hfound, hend, hdone⟩ := ConditionRequest.execute_eq_ok hdb hrun
  have hsame := hdone.same_iff hfound.reach hend.reach
  constructor
  · intro hkept otherDomain otherPolicy a ha hid
    by_cases hown : (otherDomain, otherPolicy) = (domainName, policyName)
    · exact .inl hown
    · right
      rw [← hdb.conditionRows ha, hid]
      apply hsame.1
      intro row
      have hiff := hkept otherDomain otherPolicy assertionId row hown
      have hbefore : db.HasCondition otherDomain otherPolicy assertionId row ↔
          row ∈ db.conditionRows assertionId := by
        rw [← hid, hdb.conditionRows ha]
        constructor
        · rintro ⟨b, hb, hsameId, hrow⟩
          have hab := (hdb _ _ _ _ _ _ hb ha hsameId).2.2
          rw [← hab]
          exact hrow
        · intro hrow
          exact ⟨a, ha, rfl, hrow⟩
      rw [← hbefore, ← hiff, hend.alike.hasCondition_iff hdb]
      simp only [if_true]
      exact ⟨fun hrow => ⟨a, ha, hid, hrow⟩, fun ⟨_, _, _, hrow⟩ => hrow⟩
  · intro haddressed otherDomain otherPolicy number row hother
    rw [hend.alike.hasCondition_iff hdb]
    constructor
    · rintro ⟨a, ha, rfl, hrow⟩
      split at hrow
      · rename_i hid
        rcases haddressed otherDomain otherPolicy a ha hid with hown | hback
        · exact absurd hown hother
        · rw [← hdb.conditionRows ha, hid] at hback
          have hstored := (hsame.2 hback row).1 hrow
          rw [← hid, hdb.conditionRows ha] at hstored
          exact ⟨a, ha, rfl, hstored⟩
      · exact ⟨a, ha, rfl, hrow⟩
    · rintro ⟨a, ha, rfl, hrow⟩
      refine ⟨a, ha, rfl, ?_⟩
      split
      · rename_i hid
        rcases haddressed otherDomain otherPolicy a ha hid with hown | hback
        · exact absurd hown hother
        · rw [← hdb.conditionRows ha, hid] at hback
          rw [← hdb.conditionRows ha, hid] at hrow
          exact (hsame.2 hback row).2 hrow
      · exact hrow

end Scope

section Strangers

local instance strangersCollation : Collation := .binary

local instance strangersCaseRules : CaseRules := .ascii

def conditionCaller : Context where
  caller := "deleteassertionconditions"

def conditionEvents (n : Nat) : Event Failure := ⟨n, none⟩

/-- Two domains with a policy each; the assertion of the one has a condition. -/
def strangersStore : Database where
  domains :=
    let media : Map Str DomainRow := (∅ : Map Str DomainRow).insert "media"
      { settings := Domain.settings { name := "media" }
        modified := 0
        policies := [⟨"writers", "0", true, [⟨1, "editors", "media:article", "write", .ALLOW,
          [⟨1, "instance", { value := "host1" }⟩]⟩]⟩] }
    media.insert "sports"
      { settings := Domain.settings { name := "sports" }
        modified := 0
        policies := [⟨"readers", "0", true, [⟨2, "editors", "sports:article", "read", .ALLOW, []⟩]⟩] }
  nextAssertionId := 3

/-- The conditions of an assertion are deleted under the name of a policy. -/
def deleteOf (domainName policyName : Str) : Except Failure Unit × Database :=
  ConditionRequest.deleteAssertionConditions.run {} conditionCaller domainName policyName 1
    strangersStore conditionEvents

theorem strangersStore_numbered : strangersStore.Numbered :=
  Database.numbered_of_nodup (by decide +kernel)

theorem conditionRequest_othersKept_iff_own :
    (deleteOf "media" "writers").1 = .ok () ∧
      (OthersKept "media" "writers" strangersStore (deleteOf "media" "writers").2 ↔
        Addressed "media" "writers" 1 .deleteAssertionConditions strangersStore) := by
  have hok : (deleteOf "media" "writers").1 = .ok () := by decide +kernel
  exact ⟨hok, conditionRequest_othersKept_iff {} conditionCaller "media" "writers" 1
    .deleteAssertionConditions strangersStore _ conditionEvents strangersStore_numbered
    (Prod.ext hok rfl)⟩

/-- The conditions of a policy of another domain are deleted. -/
theorem strangersConditions_deleted :
    (deleteOf "sports" "readers").1 = .ok () ∧
      ¬ OthersKept "sports" "readers" strangersStore (deleteOf "sports" "readers").2 := by
  refine ⟨by decide +kernel, fun hkept => ?_⟩
  have hbefore : strangersStore.HasCondition "media" "writers" 1
      ⟨1, "instance", { value := "host1" }⟩ :=
    ⟨_, ⟨_, List.mem_singleton_self _, rfl, List.mem_singleton_self _⟩, rfl,
      List.mem_singleton_self _⟩
  have hnone : ∀ policy ∈ (deleteOf "sports" "readers").2.policiesOf "media",
      ∀ a ∈ policy.assertions, a.conditions = [] := by decide +kernel
  obtain ⟨a, ⟨policy, hpolicy, _, ha⟩, _, hrow⟩ :=
    (hkept "media" "writers" 1 _ (by decide)).2 hbefore
  rw [hnone policy hpolicy a ha] at hrow
  cases hrow

end Strangers

end Athenz.ZmsServer.Conditions
