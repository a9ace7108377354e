import Athenz.ZtsAuthorizer

namespace Athenz.Zts
open Lib Lib.Text Lib.Index Lib.Result AuthzHelper DataStore
set_option autoImplicit true

section Policies

variable [CaseRules]

/-- The check of an assertion passes: it is one to assume a role, its resource matches the role and
one of the roles that it names has the member. -/
structure Delegates (now : Int) (fetcher : GroupMembersFetcher) (roles : List Role)
    (roleName roleMember : Str) (assertion : Assertion) : Prop where
  action : equalsIgnoreCase "assume_role" assertion.action = true
  resource : matchesPattern (patternFromGlob assertion.resource) roleName = true
  member : ∃ role ∈ roles, matchesPattern (patternFromGlob assertion.role) role.name = true ∧
    isMemberOfRole now fetcher role roleMember = true

theorem matchDelegatedTrustAssertion_iff :
    matchDelegatedTrustAssertion now fetcher assertion roleName roleMember roles = .ok true ↔
      Delegates now fetcher (roles.getD []) roleName roleMember assertion := by
  unfold matchDelegatedTrustAssertion assumeRoleResourceMatch
  constructor
  · intro h
    cases hmatch : equalsIgnoreCase "assume_role".toList assertion.action &&
        matchesPattern (patternFromGlob assertion.resource) roleName with
    | false =>
      rw [hmatch] at h
      exact nomatch h
    | true =>
      obtain ⟨haction, hresource⟩ := Bool.and_eq_true_iff.1 hmatch
      rw [hmatch] at h
      cases roles with
      | none => exact nomatch h
      | some roles =>
        obtain ⟨role, hrole, hboth⟩ := List.any_eq_true.1 (Except.ok.inj h)
        exact ⟨haction, hresource, role, hrole, Bool.and_eq_true_iff.1 hboth⟩
  · rintro ⟨haction, hresource, role, hrole, hglob, hmember⟩
    rw [haction, hresource]
    cases roles with
    | none => exact absurd hrole List.not_mem_nil
    | some roles =>
      refine congrArg Except.ok (List.any_eq_true.2 ⟨role, hrole, ?_⟩)
      rw [hglob, hmember]
      rfl

/-- With a list of roles no check fails. -/
theorem matchDelegatedTrustAssertion_ok (now : Int) (fetcher : GroupMembersFetcher)
    (assertion : Assertion) (roleName roleMember : Str) (roles : List Role) :
    ∃ result, matchDelegatedTrustAssertion now fetcher assertion roleName roleMember (some roles) =
      .ok result := by
  unfold matchDelegatedTrustAssertion
  split
  · exact ⟨_, rfl⟩
  · exact ⟨_, rfl⟩

theorem matchDelegatedTrustPolicy_iff :
    matchDelegatedTrustPolicy now fetcher policy roleName roleMember roles = .ok true ↔
      ∃ assertion ∈ policy.assertions.getD [],
        Delegates now fetcher (roles.getD []) roleName roleMember assertion := by
  unfold matchDelegatedTrustPolicy
  constructor
  · intro h
    obtain ⟨assertion, hassertion, hmatch⟩ := exists_of_anyM h
    exact ⟨assertion, hassertion, matchDelegatedTrustAssertion_iff.1 hmatch⟩
  · rintro ⟨assertion, hassertion, hdelegates⟩
    cases roles with
    | none =>
      obtain ⟨role, hrole, _⟩ := hdelegates.member
      exact absurd hrole List.not_mem_nil
    | some roles =>
      apply anyM_of_exists hassertion (matchDelegatedTrustAssertion_iff.2 hdelegates)
      intro other _
      exact matchDelegatedTrustAssertion_ok ..

theorem matchDelegatedTrustPolicy_ok (now : Int) (fetcher : GroupMembersFetcher) (policy : Policy)
    (roleName roleMember : Str) (roles : List Role) :
    ∃ result, matchDelegatedTrustPolicy now fetcher policy roleName roleMember (some roles) =
      .ok result := by
  apply anyM_terminates
  intro assertion _
  exact matchDelegatedTrustAssertion_ok ..

theorem delegatedTrust_iff {store : DataStore} :
    ZTSAuthorizer.delegatedTrust store now domainName roleName roleMember = .ok true ↔
      ∃ domain, store.cacheStore.lookup domainName = some domain ∧
        ∃ assertion ∈ activeAssertions domain.domainData,
          Delegates now store.getGroupMembers (domain.domainData.roles.getD []) roleName roleMember
            assertion := by
  unfold ZTSAuthorizer.delegatedTrust activeAssertions
  cases store.cacheStore.lookup domainName with
  | none => simp
  | some domain =>
    simp only [Option.some.injEq, exists_eq_left']
    cases hpolicies : domain.domainData.policies with
    | none => simp [activePolicies]
    | some policies =>
      simp only [Option.getD_some, List.mem_flatMap]
      constructor
      · intro h
        obtain ⟨policy, hpolicy, hmatch⟩ := exists_of_anyM h
        obtain ⟨assertion, hassertion, hdelegates⟩ := matchDelegatedTrustPolicy_iff.1 hmatch
        exact ⟨assertion, ⟨policy, hpolicy, hassertion⟩, hdelegates⟩
      · rintro ⟨assertion, ⟨policy, hpolicy, hassertion⟩, hdelegates⟩
        apply anyM_of_exists hpolicy (matchDelegatedTrustPolicy_iff.2 ⟨assertion, hassertion, hdelegates⟩)
        intro other _
        cases hroles : domain.domainData.roles with
        | none =>
          obtain ⟨role, hrole, _⟩ := hdelegates.member
          rw [hroles] at hrole
          exact absurd hrole List.not_mem_nil
        | some roles => exact matchDelegatedTrustPolicy_ok ..

end Policies

section Listing

variable [CaseRules] {domains : List DomainData}

/-- An assertion lets a member assume a role by the rules of the index. -/
def Honoured (now : Int) (domains : List DomainData) (trusted : DomainData) (roleMember : Str)
    (assertion : Assertion) : Prop :=
  ∃ assumed, Assumes trusted assertion assumed ∧ MemberOf now (allGroups domains) assumed roleMember

/-- Some assertion is honoured for a role: one of the trusted domain or one of its own domain. -/
def SomeHonoured (now : Int) (domains : List DomainData) (domainData : DomainData) (role : Role)
    (roleMember : Str) : Prop :=
  (∃ trusted ∈ domains, role.trust = some trusted.name ∧
    ∃ assertion, Honoured now domains trusted roleMember assertion ∧
      GlobMatch assertion.resource role.name) ∨
  ∃ assertion, Honoured now domains domainData roleMember assertion ∧ assertion.resource = role.name

omit [CaseRules] in
theorem accessible_iff_someHonoured (hwf : WellFormed domains) (hdomain : domainData ∈ domains)
    (hrole : role ∈ domainData.roles.getD []) (hmembers : role.roleMembers = none) :
    Accessible now domains domainData roleMember role.name ↔
      SomeHonoured now domains domainData role roleMember := by
  constructor
  · intro h
    generalize hname : role.name = name at h
    cases h with
    | member hfound hmember =>
      obtain rfl := hwf.eq_of_name_eq (mem_allRoles hdomain hrole) (mem_allRoles hdomain hfound) hname
      obtain ⟨entry, ⟨hentry, _⟩, _⟩ := hmember
      rw [hmembers] at hentry
      exact absurd hentry List.not_mem_nil
    | trust hfound htrusted htrust hassumes hmember hglob =>
      obtain rfl := hwf.eq_of_name_eq (mem_allRoles hdomain hrole) (mem_allRoles hdomain hfound) hname
      exact .inl ⟨_, htrusted, htrust, _, ⟨_, hassumes, hmember⟩, hglob⟩
    | assertion hassumes hmember => exact .inr ⟨_, ⟨_, hassumes, hmember⟩, hname.symm⟩
  · rintro (⟨trusted, htrusted, htrust, assertion, ⟨assumed, hassumes, hmember⟩, hglob⟩ |
      ⟨assertion, ⟨assumed, hassumes, hmember⟩, hresource⟩)
    · exact .trust hrole htrusted htrust hassumes hmember hglob
    · exact hresource ▸ .assertion hassumes hmember

omit [CaseRules] in
theorem getD_normalized_roles (domainData : DomainData) :
    (normalized domainData).roles.getD [] = (domainData.roles.getD []).map setRoleMemberGroupType := by
  unfold normalized
  cases domainData.roles <;> rfl

theorem matchPrincipalInRole_iff {store : DataStore} (hstore : Loaded codec loaded domains store)
    (hbuilt : ∀ domainData ∈ domains, ∃ cache, buildCache codec loaded domainData = .ok cache)
    (hmembers : role.roleMembers = none) :
    ZTSAuthorizer.matchPrincipalInRole store now role roleMember trustDomain = .ok true ↔
      shouldRunDelegatedTrustCheck role.trust trustDomain = true ∧
        ∃ trusted ∈ domains, role.trust = some trusted.name ∧
          ∃ assertion ∈ activeAssertions trusted, Delegates now store.getGroupMembers
            ((trusted.roles.getD []).map setRoleMemberGroupType) role.name roleMember assertion := by
  unfold ZTSAuthorizer.matchPrincipalInRole
  rw [hmembers]
  cases htrust : role.trust with
  | none => simp [shouldRunDelegatedTrustCheck]
  | some trust =>
    cases hrun : shouldRunDelegatedTrustCheck (some trust) trustDomain with
    | false => simp
    | true =>
      simp only [Option.isSome_none, Bool.false_eq_true, if_false, Bool.not_true, Option.getD_some,
        true_and, Option.some.injEq, delegatedTrust_iff]
      constructor
      · rintro ⟨domain, hlookup, assertion, hassertion, hdelegates⟩
        obtain ⟨trusted, htrusted, rfl, cache, _, rfl⟩ := (hstore.caches _ _).1 hlookup
        rw [getD_normalized_roles] at hdelegates
        exact ⟨trusted, htrusted, rfl, assertion, hassertion, hdelegates⟩
      · rintro ⟨trusted, htrusted, rfl, assertion, hassertion, hdelegates⟩
        obtain ⟨cache, hbuild⟩ := hbuilt trusted htrusted
        rw [← getD_normalized_roles] at hdelegates
        exact ⟨_, (hstore.caches _ _).2 ⟨trusted, htrusted, rfl, cache, hbuild, rfl⟩, assertion, hassertion,
          hdelegates⟩

/-- A delegation that the authorizer follows is one that the policy allows, and one that the index lists,
exactly when no assertion that it should not follow is the only one. -/
theorem delegated_trust_honours_effects_iff (codec : Codec) (loaded now : Int)
    (domains : List DomainData) (domainData : DomainData) (role : Role) (roleMember : Str)
    (trustDomain : Option Str) (hle : loaded ≤ now) (hwf : WellFormed domains)
    (hbuilt : ∀ domainData ∈ domains, ∃ cache, buildCache codec loaded domainData = .ok cache)
    (hdomain : domainData ∈ domains) (hrole : role ∈ domainData.roles.getD [])
    (hname : domainData.name ++ ":role.".toList <+: role.name) (hmembers : role.roleMembers = none) :
    (∀ (fetcher : GroupMembersFetcher) (policy : Policy) (roles : Option (List Role)) (roleName : Str),
      ((matchDelegatedTrustPolicy now fetcher policy roleName roleMember roles = .ok true →
          ∃ assertion ∈ policy.assertions.getD [], assertion.effect ≠ some .DENY ∧
            Delegates now fetcher (roles.getD []) roleName roleMember assertion) ↔
        ∀ denial ∈ policy.assertions.getD [], denial.effect = some .DENY →
          Delegates now fetcher (roles.getD []) roleName roleMember denial →
          ∃ assertion ∈ policy.assertions.getD [], assertion.effect ≠ some .DENY ∧
            Delegates now fetcher (roles.getD []) roleName roleMember assertion)) ∧
    ((ZTSAuthorizer.matchPrincipalInRole (loadDomains codec loaded domains {}) now role roleMember
          trustDomain = .ok true →
        role.name ∈ (loadDomains codec loaded domains {}).getAccessibleRoles now
          ⟨domainData.name, none, true⟩
          (((loadDomains codec loaded domains {}).cacheStore.lookup domainData.name).map
            (·.toDataCache)) roleMember []) ↔
      (shouldRunDelegatedTrustCheck role.trust trustDomain = true →
        ∀ trusted ∈ domains, role.trust = some trusted.name →
        ∀ assertion ∈ activeAssertions trusted,
          Delegates now (loadDomains codec loaded domains {}).getGroupMembers
            ((trusted.roles.getD []).map setRoleMemberGroupType) role.name roleMember assertion →
          ¬ Honoured now domains trusted roleMember assertion →
          SomeHonoured now domains domainData role roleMember)) := by
  constructor
  · intro fetcher policy roles roleName
    rw [matchDelegatedTrustPolicy_iff]
    constructor
    · intro h denial hdenial _ hdelegates
      exact h ⟨denial, hdenial, hdelegates⟩
    · rintro h ⟨assertion, hassertion, hdelegates⟩
      by_cases heffect : assertion.effect = some .DENY
      · exact h assertion hassertion heffect hdelegates
      · exact ⟨assertion, hassertion, heffect, hdelegates⟩
  · obtain ⟨hstore, _⟩ := Loaded.loadDomains (loaded_empty codec loaded) listsLoaded_empty
      hwf.domainNames hwf.groupNames hbuilt
    have hlisted : role.name ∈ (loadDomains codec loaded domains {}).getAccessibleRoles now
        ⟨domainData.name, none, true⟩ (((loadDomains codec loaded domains {}).cacheStore.lookup
          domainData.name).map (·.toDataCache)) roleMember [] ↔
          SomeHonoured now domains domainData role roleMember := by
      rw [← accessible_iff_someHonoured hwf hdomain hrole hmembers,
        mem_getAccessibleRoles_iff hwf hstore hle hbuilt hdomain]
      obtain ⟨rest, hrest⟩ := hname
      simp only [if_true]
      constructor
      · rintro ⟨roleName, haccessible, hsame⟩
        rw [hsame]
        exact haccessible
      · intro haccessible
        exact ⟨rest, hrest ▸ haccessible, hrest.symm⟩
    rw [hlisted, matchPrincipalInRole_iff hstore hbuilt hmembers]
    constructor
    · intro h hrun trusted htrusted htrust assertion hassertion hdelegates _
      exact h ⟨hrun, trusted, htrusted, htrust, assertion, hassertion, hdelegates⟩
    · rintro h ⟨hrun, trusted, htrusted, htrust, assertion, hassertion, hdelegates⟩
      by_cases hhonoured : Honoured now domains trusted roleMember assertion
      · have hline := (hwf.plainRoles role (mem_allRoles hdomain hrole)).oneLine
        exact .inl ⟨trusted, htrusted, htrust, assertion, hhonoured,
          (matchesPattern_iff hline).1 hdelegates.resource⟩
      · exact h hrun trusted htrusted htrust assertion hassertion hdelegates hhonoured

end Listing

section Sample

local instance trustCaseRules : CaseRules := .ascii

def forecastReaders : Role where
  name := "sports:role.readers"
  trust := some "weather"

def readingDomain : DomainData where
  name := "sports"
  roles := some [forecastReaders]

def forecasters : Role where
  name := "weather:role.forecasters"
  roleMembers := some [{ memberName := "user.joe" }]

def forecastAssertion (effect : AssertionEffect) : Assertion where
  role := "weather:role.forecasters"
  resource := "sports:role.readers"
  action := "assume_role"
  effect := some effect

def forecastPolicy (effect : AssertionEffect) : Policy where
  assertions := some [forecastAssertion effect]

/-- A domain whose forecasters are let into the role of another domain, or kept out of it. -/
def forecastDomain (effect : AssertionEffect) : DomainData where
  name := "weather"
  roles := some [forecasters]
  policies := some [forecastPolicy effect]

def forecastStore (effect : AssertionEffect) : DataStore :=
  loadDomains plainCodec 100 [readingDomain, forecastDomain effect] {}

theorem forecaster_reads : forecastReaders.name ∈ (forecastStore .ALLOW).getAccessibleRoles 100
    ⟨readingDomain.name, none, true⟩
    (((forecastStore .ALLOW).cacheStore.lookup readingDomain.name).map (·.toDataCache))
    ↑"user.joe" [] := by
  refine (delegated_trust_honours_effects_iff plainCodec 100 100 [readingDomain, forecastDomain .ALLOW]
    readingDomain forecastReaders ↑"user.joe" none (Int.le_refl _) ?_ ?_ List.mem_cons_self
    List.mem_cons_self (by decide) rfl).2.2 ?_ (by decide +kernel)
  · constructor <;> decide +kernel
  · intro domainData hdomain
    obtain rfl | rfl := List.mem_pair.1 hdomain
    · exact ⟨_, rfl⟩
    · exact ⟨_, rfl⟩
  · intro _ trusted htrusted htrust assertion hassertion _ hnot
    obtain rfl | rfl := List.mem_pair.1 htrusted
    · exact absurd htrust (by decide)
    · have hassertion : assertion = forecastAssertion .ALLOW := List.mem_singleton.1 hassertion
      subst hassertion
      have hassumes : Assumes (forecastDomain .ALLOW) (forecastAssertion .ALLOW) forecasters :=
        ⟨⟨_, List.mem_cons_self, by decide, List.mem_cons_self⟩, rfl, by decide, List.mem_cons_self, rfl⟩
      exact absurd ⟨forecasters, hassumes, _, ⟨List.mem_cons_self, rfl, rfl⟩, .self⟩ hnot

/-- The assertion that keeps a forecaster out lets the forecaster in. -/
theorem denial_lets_in :
    matchDelegatedTrustPolicy 100 (forecastStore .DENY).getGroupMembers (forecastPolicy .DENY)
        forecastReaders.name ↑"user.joe" (some [forecasters]) = .ok true ∧
      (∀ assertion ∈ (forecastPolicy .DENY).assertions.getD [], assertion.effect = some .DENY) ∧
      ZTSAuthorizer.matchPrincipalInRole (forecastStore .DENY) 100 forecastReaders ↑"user.joe" none =
        .ok true ∧
      forecastReaders.name ∉ (forecastStore .DENY).getAccessibleRoles 100 ⟨readingDomain.name, none, true⟩
        (((forecastStore .DENY).cacheStore.lookup readingDomain.name).map (·.toDataCache))
        ↑"user.joe" [] := by
  refine ⟨?_, ?_, ?_, ?_⟩ <;> decide +kernel

end Sample

end Athenz.Zts
