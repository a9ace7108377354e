import Athenz.DataStore

namespace Athenz.Zts
open Lib Lib.Text Lib.Result Lib.Index
set_option autoImplicit true

/-- Where the indexes keep a member: with all users, under a start of names, or under a name. -/
inductive MemberKey where
  | all | start (text : Str) | name (text : Str)
deriving DecidableEq

def memberKey (memberName : Str) : MemberKey :=
  if memberName = "*" then .all
  else if ['*'] <:+ memberName then .start memberName.dropLast
  else .name memberName

namespace DataCache

/-- The entries of a domain that are kept in one place. -/
def entriesAt (cache : DataCache) : MemberKey → List MemberRole
  | .all => cache.memberAllRoleCache
  | .start text => cache.memberPrefixRoleCache.listAt text
  | .name text => cache.memberRoleCache.listAt text

/-- The entry that a member of a role leaves in the indexes, under the name of the role. -/
def Leaves (now : Int) (roleName : Str) (member : RoleMember) (key : MemberKey)
    (entry : MemberRole) : Prop :=
  isMemberDisabled member.systemDisabled = false ∧
    isExpiredAt member.expirationMillis now = false ∧ memberKey member.memberName = key ∧
    entry = ⟨roleName, member.expirationMillis⟩

theorem mem_entriesAt_processRoleMember {cache : DataCache} :
    entry ∈ (processRoleMember now roleName cache member).entriesAt key ↔
      entry ∈ cache.entriesAt key ∨ Leaves now roleName member key entry := by
  unfold processRoleMember Leaves
  by_cases hd : isMemberDisabled member.systemDisabled = true
  · simp only [hd, if_true, Bool.true_eq_false, false_and, or_false]
  by_cases hx : isExpiredAt member.expirationMillis now = true
  · simp only [hd, hx, if_true, Bool.false_eq_true, if_false, Bool.true_eq_false, false_and,
      and_false, or_false]
  simp only [hd, hx, Bool.false_eq_true, if_false, true_and, memberKey]
  split
  · cases key <;> simp [entriesAt, or_comm]
  split
  · cases key <;> simp [entriesAt, Map.mem_listAt_addTo, or_comm, eq_comm]
  · cases key <;> simp [entriesAt, Map.mem_listAt_addTo, or_comm, eq_comm]

theorem mem_entriesAt_processRoleMembers {cache : DataCache} :
    entry ∈ (processRoleMembers now roleName members cache).entriesAt key ↔
      entry ∈ cache.entriesAt key ∨
        ∃ member ∈ members.getD [], Leaves now roleName member key entry :=
  foldl_adds (Q := fun c => entry ∈ entriesAt c key) (f := processRoleMember now roleName)
    fun _ _ => mem_entriesAt_processRoleMember

/-- Two caches that answer alike about members and delegations. -/
def SameIndex (cache cache' : DataCache) : Prop :=
  cache'.entriesAt = cache.entriesAt ∧ cache'.trustCache = cache.trustCache

theorem SameIndex.refl (cache : DataCache) : SameIndex cache cache := ⟨rfl, rfl⟩

theorem SameIndex.trans (h : SameIndex cache cache') (h' : SameIndex cache' cache'') :
    SameIndex cache cache'' :=
  ⟨h'.1.trans h.1, h'.2.trans h.2⟩

theorem entriesAt_congr {cache cache' : DataCache}
    (hname : cache'.memberRoleCache = cache.memberRoleCache)
    (hstart : cache'.memberPrefixRoleCache = cache.memberPrefixRoleCache)
    (hall : cache'.memberAllRoleCache = cache.memberAllRoleCache) :
    cache'.entriesAt = cache.entriesAt := by
  funext key
  cases key with
  | all => exact hall
  | start text => exact congrArg (·.listAt text) hstart
  | name text => exact congrArg (·.listAt text) hname

theorem entriesAt_processRoleTrustDomain {cache : DataCache} :
    (processRoleTrustDomain roleName trustDomain cache).entriesAt = cache.entriesAt := by
  cases trustDomain with
  | none => rfl
  | some trustDomain => exact entriesAt_congr rfl rfl rfl

theorem sameIndex_processRoleMeta : SameIndex cache (processRoleMeta role cache) := by
  unfold processRoleMeta
  split
  · exact .refl cache
  · exact ⟨entriesAt_congr rfl rfl rfl, rfl⟩

theorem mem_entriesAt_processRole {cache : DataCache} :
    entry ∈ (processRole now cache role).entriesAt key ↔ entry ∈ cache.entriesAt key ∨
      ∃ member ∈ role.roleMembers.getD [], Leaves now role.name member key entry := by
  rw [processRole, sameIndex_processRoleMeta.1, entriesAt_processRoleTrustDomain]
  exact mem_entriesAt_processRoleMembers

theorem trustCache_processRoleMembers {cache : DataCache} :
    (processRoleMembers now roleName members cache).trustCache = cache.trustCache := by
  refine foldl_invariant (P := fun c : DataCache => c.trustCache = cache.trustCache)
    (fun acc member hacc => ?_) _ rfl
  rw [← hacc]
  unfold processRoleMember
  split
  · rfl
  split
  · rfl
  split
  · rfl
  split <;> rfl

theorem mem_trustCache_processRole {cache : DataCache} :
    name ∈ (processRole now cache role).trustCache.listAt domain ↔
      name ∈ cache.trustCache.listAt domain ∨ role.trust = some domain ∧ name = role.name := by
  rw [processRole, sameIndex_processRoleMeta.2]
  cases role.trust with
  | none => simp only [processRoleTrustDomain, trustCache_processRoleMembers, reduceCtorEq,
      false_and, or_false]
  | some trustDomain =>
    simp only [processRoleTrustDomain, Map.mem_listAt_addTo, trustCache_processRoleMembers, Option.some.injEq]
    rw [or_comm, eq_comm (a := domain)]

/-- An assertion that lets the members of a role assume the role it names. -/
def GivesRole (now : Int) (roles : Map Str Role) (assertion : Assertion) (key : MemberKey)
    (entry : MemberRole) : Prop :=
  assertion.action = "assume_role" ∧ assertion.effect ≠ some .DENY ∧
    ∃ role, roles.lookup assertion.role = some role ∧
      ∃ member ∈ role.roleMembers.getD [], Leaves now assertion.resource member key entry

theorem sameIndex_processAWSAssumeRoleAssertion {a : Assertion} :
    SameIndex cache (processAWSAssumeRoleAssertion a cache) := by
  unfold processAWSAssumeRoleAssertion
  split
  · exact .refl cache
  · exact ⟨entriesAt_congr rfl rfl rfl, rfl⟩

theorem sameIndex_processLaunchAssertion :
    SameIndex cache (processLaunchAssertion domainName assertion roles cache) := by
  unfold processLaunchAssertion
  split
  · exact .refl cache
  · exact ⟨entriesAt_congr rfl rfl rfl, rfl⟩

theorem sameIndex_processTransportRulesAssertion
    (h : processTransportRulesAssertion domainName assertion roles cache = .ok cache') :
    SameIndex cache cache' := by
  simp only [processTransportRulesAssertion, bind_eq_ok, pure_eq_ok] at h
  obtain ⟨_, _, rfl⟩ := h
  exact ⟨entriesAt_congr rfl rfl rfl, rfl⟩

/-- An assertion for another action changes nothing that is asked about members. -/
theorem sameIndex_processAssertion
    (h : processAssertion now domainName roles cache assertion = .ok cache')
    (haction : assertion.action ≠ "assume_role") : SameIndex cache cache' := by
  unfold processAssertion at h
  rw [if_neg haction] at h
  split at h
  · cases h
    exact sameIndex_processAWSAssumeRoleAssertion
  split at h
  · cases h
    exact sameIndex_processLaunchAssertion
  split at h
  · exact sameIndex_processTransportRulesAssertion h
  · cases h
    exact .refl cache

theorem mem_entriesAt_processAssumeRoleAssertion {cache : DataCache} :
    entry ∈ (processAssumeRoleAssertion now assertion roles cache).entriesAt key ↔
      entry ∈ cache.entriesAt key ∨ assertion.effect ≠ some .DENY ∧
        ∃ role, roles.lookup assertion.role = some role ∧
          ∃ member ∈ role.roleMembers.getD [], Leaves now assertion.resource member key entry := by
  unfold processAssumeRoleAssertion
  split
  · rename_i hdeny
    simp only [hdeny, ne_eq, not_true_eq_false, false_and, or_false]
  · rename_i hallow
    cases roles.lookup assertion.role with
    | none => simp only [reduceCtorEq, false_and, exists_false, and_false, or_false]
    | some role =>
      simp only [hallow, ne_eq, not_false_eq_true, true_and, Option.some.injEq, exists_eq_left']
      exact mem_entriesAt_processRoleMembers

theorem trustCache_processAssumeRoleAssertion {cache : DataCache} :
    (processAssumeRoleAssertion now assertion roles cache).trustCache = cache.trustCache := by
  unfold processAssumeRoleAssertion
  split
  · rfl
  · cases roles.lookup assertion.role with
    | none => rfl
    | some role => exact trustCache_processRoleMembers

theorem processAssertion_assumeRole {assertion : Assertion}
    (haction : assertion.action = "assume_role") :
    processAssertion now domainName roles cache assertion =
      .ok (processAssumeRoleAssertion now assertion roles cache) := by
  simp only [processAssertion, haction, String.toList_inj, String.reduceEq, if_false, if_true]

theorem mem_entriesAt_processAssertion
    (h : processAssertion now domainName roles cache assertion = .ok cache') :
    entry ∈ cache'.entriesAt key ↔ entry ∈ cache.entriesAt key ∨
      GivesRole now roles assertion key entry := by
  unfold GivesRole
  by_cases haction : assertion.action = "assume_role"
  · rw [processAssertion_assumeRole haction] at h
    cases h
    simp only [haction, true_and]
    exact mem_entriesAt_processAssumeRoleAssertion
  · simp only [(sameIndex_processAssertion h haction).1, haction, false_and, or_false]

theorem trustCache_processAssertion
    (h : processAssertion now domainName roles cache assertion = .ok cache') :
    cache'.trustCache = cache.trustCache := by
  by_cases haction : assertion.action = "assume_role"
  · rw [processAssertion_assumeRole haction] at h
    cases h
    exact trustCache_processAssumeRoleAssertion
  · exact (sameIndex_processAssertion h haction).2

theorem mem_entriesAt_processPolicy
    (h : processPolicy now domainName roles cache policy = .ok cache') :
    entry ∈ cache'.entriesAt key ↔ entry ∈ cache.entriesAt key ∨
      ∃ assertion ∈ policy.assertions.getD [], GivesRole now roles assertion key entry := by
  unfold processPolicy at h
  refine foldlM_adds (Q := fun c => entry ∈ entriesAt c key) ?_ h
  intro c assertion c' hstep
  exact mem_entriesAt_processAssertion hstep

theorem trustCache_processPolicy
    (h : processPolicy now domainName roles cache policy = .ok cache') :
    cache'.trustCache = cache.trustCache := by
  unfold processPolicy at h
  refine foldlM_invariant (P := fun c => c.trustCache = cache.trustCache) ?_ h rfl
  intro c assertion c' hstep hc
  exact (trustCache_processAssertion hstep).trans hc

theorem sameIndex_processServiceIdentity :
    SameIndex cache (processServiceIdentity codec cache service) :=
  ⟨entriesAt_congr rfl rfl rfl, rfl⟩

theorem sameIndex_processEntity (h : processEntity codec domainName cache entity = .ok cache') :
    SameIndex cache cache' := by
  unfold processEntity at h
  split at h
  · cases h
    exact .refl cache
  obtain ⟨data, _, h⟩ := bind_eq_ok.1 h
  split at h
  · cases h
    exact .refl cache
  split at h
  · cases h
  · cases h
    exact ⟨entriesAt_congr rfl rfl rfl, rfl⟩

theorem sameIndex_processSystemBehaviorRoles
    (h : processSystemBehaviorRoles domainData cache = .ok cache') : SameIndex cache cache' := by
  unfold processSystemBehaviorRoles at h
  split at h
  · cases h
    exact .refl cache
  split at h
  · cases h
  · obtain ⟨current, _, h⟩ := bind_eq_ok.1 h
    cases h
    exact ⟨entriesAt_congr rfl rfl rfl, rfl⟩

end DataCache

namespace DataStore

open DataCache

/-- An assertion of an active policy of a domain that lets the members of a role assume a role. -/
structure Assumes (domainData : DomainData) (assertion : Assertion) (role : Role) : Prop where
  policy : ∃ policy ∈ domainData.policies.getD [], policy.active ≠ some false ∧
    assertion ∈ policy.assertions.getD []
  action : assertion.action = "assume_role"
  effect : assertion.effect ≠ some .DENY
  role : role ∈ domainData.roles.getD [] ∧ role.name = assertion.role

/-- A name under which the members of a role are indexed. -/
def IndexedAs (domainData : DomainData) (role : Role) (name : Str) : Prop :=
  role ∈ domainData.roles.getD [] ∧ role.name = name ∨
    ∃ assertion, Assumes domainData assertion role ∧ assertion.resource = name

theorem IndexedAs.mem_roles (h : IndexedAs domainData role name) :
    role ∈ domainData.roles.getD [] := by
  obtain ⟨hrole, _⟩ | ⟨assertion, hassumes, _⟩ := h
  · exact hrole
  · exact hassumes.role.1

/-- The roles of a domain by their names. -/
def rolesByName (domainData : DomainData) : Map Str Role :=
  (domainData.roles.getD []).foldl (fun (m : Map Str Role) role => m.insert role.name role) ∅

theorem processDomainPolicies_ok (h : processDomainPolicies now domainData cache = .ok cache') :
    ((domainData.policies.getD []).filter (·.active ≠ some false)).foldlM
      (processPolicy now domainData.name (rolesByName domainData)) cache = .ok cache' := by
  unfold processDomainPolicies at h
  unfold rolesByName
  cases hpolicies : domainData.policies with
  | none =>
    rw [hpolicies] at h
    exact h
  | some policies =>
    cases hroles : domainData.roles with
    | none =>
      rw [hpolicies, hroles] at h
      cases h
    | some roles =>
      rw [hpolicies, hroles] at h
      exact h

theorem mem_entriesAt_processDomainPolicies
    (h : processDomainPolicies now domainData cache = .ok cache')
    (hunique : ((domainData.roles.getD []).map (·.name)).Nodup) :
    entry ∈ cache'.entriesAt key ↔ entry ∈ cache.entriesAt key ∨
      ∃ assertion role, Assumes domainData assertion role ∧
        ∃ member ∈ role.roleMembers.getD [], Leaves now assertion.resource member key entry := by
  have hlookup : ∀ name role, (rolesByName domainData).lookup name = some role ↔
      role ∈ domainData.roles.getD [] ∧ role.name = name := by
    intro name role
    unfold rolesByName
    rw [Map.lookup_foldl_insert hunique, AList.lookup_empty]
    simp only [reduceCtorEq, and_false, or_false, exists_eq_right_right]
  have hfold := processDomainPolicies_ok h
  rw [foldlM_adds (Q := fun c => entry ∈ entriesAt c key) (fun c policy c' hstep =>
    mem_entriesAt_processPolicy hstep) hfold]
  refine or_congr_right ⟨?_, ?_⟩
  · rintro ⟨policy, hpolicy, assertion, hassertion, haction, heffect, role, hrole, hmember⟩
    obtain ⟨hpolicy, hactive⟩ := List.mem_filter.1 hpolicy
    exact ⟨assertion, role, ⟨⟨policy, hpolicy, of_decide_eq_true hactive, hassertion⟩, haction,
      heffect, (hlookup _ _).1 hrole⟩, hmember⟩
  · rintro ⟨assertion, role, ⟨⟨policy, hpolicy, hactive, hassertion⟩, haction, heffect, hrole⟩,
      hmember⟩
    exact ⟨policy, List.mem_filter.2 ⟨hpolicy, decide_eq_true hactive⟩, assertion, hassertion,
      haction, heffect, role, (hlookup _ _).2 hrole, hmember⟩

theorem trustCache_processDomainPolicies
    (h : processDomainPolicies now domainData cache = .ok cache') :
    cache'.trustCache = cache.trustCache := by
  refine foldlM_invariant (P := fun c => c.trustCache = cache.trustCache) ?_
    (processDomainPolicies_ok h) rfl
  intro c policy c' hstep hc
  exact (trustCache_processPolicy hstep).trans hc

/-- Behind the roles and policies nothing changes what is asked about members. -/
theorem buildCache_ok (h : buildCache codec now domainData = .ok cache) :
    ∃ indexed, processDomainPolicies now domainData
        ((domainData.roles.getD []).foldl (processRole now) {}) = .ok indexed ∧
      SameIndex indexed cache := by
  simp only [buildCache, bind_eq_ok] at h
  obtain ⟨indexed, hindexed, withEntities, hentities, hsystem⟩ := h
  refine ⟨indexed, hindexed, ?_⟩
  have hservices : SameIndex indexed (processDomainServiceIdentities codec domainData indexed) := by
    refine foldl_invariant (P := fun c => SameIndex indexed c) ?_ _ (.refl indexed)
    intro c service hc
    exact hc.trans sameIndex_processServiceIdentity
  have hentries : SameIndex indexed withEntities := by
    refine foldlM_invariant (P := fun c => SameIndex indexed c) ?_ hentities hservices
    intro c entity c' hstep hc
    exact hc.trans (sameIndex_processEntity hstep)
  exact hentries.trans (sameIndex_processSystemBehaviorRoles hsystem)

/-- The indexes of a domain hold the entries of its roles' members, under the names of the roles
and under the resources that its assertions give away. -/
theorem mem_entriesAt_buildCache (h : buildCache codec now domainData = .ok cache)
    (hunique : ((domainData.roles.getD []).map (·.name)).Nodup) :
    entry ∈ cache.entriesAt key ↔ ∃ role name, IndexedAs domainData role name ∧
      ∃ member ∈ role.roleMembers.getD [], Leaves now name member key entry := by
  obtain ⟨indexed, hindexed, hsame, _⟩ := buildCache_ok h
  have hempty : entry ∉ entriesAt {} key := by
    cases key <;> exact List.not_mem_nil
  rw [hsame, mem_entriesAt_processDomainPolicies hindexed hunique,
    foldl_adds (Q := fun c => entry ∈ entriesAt c key) (f := processRole now)
      fun c role => mem_entriesAt_processRole]
  simp only [hempty, false_or, IndexedAs]
  constructor
  · rintro (⟨role, hrole, hmember⟩ | ⟨assertion, role, hassumes, hmember⟩)
    · exact ⟨role, role.name, .inl ⟨hrole, rfl⟩, hmember⟩
    · exact ⟨role, assertion.resource, .inr ⟨assertion, hassumes, rfl⟩, hmember⟩
  · rintro ⟨role, name, ⟨hrole, rfl⟩ | ⟨assertion, hassumes, rfl⟩, hmember⟩
    · exact .inl ⟨role, hrole, hmember⟩
    · exact .inr ⟨assertion, role, hassumes, hmember⟩

/-- The delegations of a domain are those of its roles. -/
theorem mem_trustCache_buildCache (h : buildCache codec now domainData = .ok cache) :
    name ∈ cache.trustCache.listAt domain ↔
      ∃ role ∈ domainData.roles.getD [], role.trust = some domain ∧ name = role.name := by
  obtain ⟨indexed, hindexed, _, htrust⟩ := buildCache_ok h
  rw [htrust, trustCache_processDomainPolicies hindexed,
    foldl_adds (Q := fun c => name ∈ Map.listAt c.trustCache domain) (f := processRole now)
      fun c role => mem_trustCache_processRole]
  exact or_iff_right List.not_mem_nil

end DataStore

end Athenz.Zts
