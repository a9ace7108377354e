import Athenz.ZpeDecision
import Athenz.ZtsAuthorizer

namespace Athenz
open Lib Lib.Text Lib.Index Lib.Result Zts Zts.DataStore AuthzHelper Zpe
set_option autoImplicit true

section Membership

/-- A member name is the one of a group. -/
def isGroupName (name : Str) : Bool := (":group." : Str) <:+: name

/-- The entries of the roles of a domain are those of principals and groups, and at most one entry of
a list is for the principal. -/
structure Regular (domains : List DomainData) (domainData : DomainData) (principal : Str) : Prop where
  noGroup : isGroupName principal = false
  groupNames : ∀ group ∈ allGroups domains, isGroupName group.name = true
  groupMembers : ∀ group ∈ allGroups domains, ∀ entry ∈ group.groupMembers.getD [],
    ¬ ['*'] <:+ entry.memberName
  groupTypes : ∀ role ∈ domainData.roles.getD [], ∀ entry ∈ role.roleMembers.getD [],
    isGroupEntry entry = true → isGroupName entry.memberName = true
  groupsEnabled : ∀ role ∈ domainData.roles.getD [], ∀ entry ∈ role.roleMembers.getD [],
    isGroupName entry.memberName = true → isMemberDisabled entry.systemDisabled = false
  roleEntries : ∀ role ∈ domainData.roles.getD [],
    AtMostOne (fun entry => !isGroupName entry.memberName && memberNameMatch entry.memberName principal)
      (role.roleMembers.getD [])
  groupEntries : ∀ group ∈ allGroups domains,
    AtMostOne (fun entry => memberNameMatch entry.memberName principal) (group.groupMembers.getD [])

/-- The mark that processing leaves on the entry of a group. -/
def markGroup (entry : RoleMember) : RoleMember :=
  if (":group." : Str) <:+: entry.memberName then { entry with principalType := some 3 } else entry

theorem getD_setRoleMemberGroupType (role : Role) :
    (setRoleMemberGroupType role).roleMembers.getD [] = (role.roleMembers.getD []).map markGroup := by
  unfold setRoleMemberGroupType
  cases role.roleMembers <;> rfl

theorem markGroup_fields (entry : RoleMember) : (markGroup entry).memberName = entry.memberName ∧
    (markGroup entry).expiration = entry.expiration ∧
      (markGroup entry).systemDisabled = entry.systemDisabled := by
  unfold markGroup
  by_cases hgroup : (":group." : Str) <:+: entry.memberName
  · rw [if_pos hgroup]
    exact ⟨rfl, rfl, rfl⟩
  · rw [if_neg hgroup]
    exact ⟨rfl, rfl, rfl⟩

theorem isGroupEntry_markGroup (h : isGroupEntry entry = true → isGroupName entry.memberName = true) :
    isGroupEntry (markGroup entry) = isGroupName entry.memberName := by
  unfold markGroup isGroupName at *
  by_cases hgroup : (":group." : Str) <:+: entry.memberName
  · rw [if_pos hgroup, decide_eq_true hgroup]
    rfl
  · rw [if_neg hgroup]
    rw [decide_eq_false hgroup] at h ⊢
    exact eq_false_of_ne_true fun hentry => Bool.false_ne_true (h hentry)

/-- A wildcard with the name of a group in it matches no principal. -/
theorem not_memberNameMatch_of_group (hprincipal : isGroupName principal = false)
    (hgroup : isGroupName name = true) : memberNameMatch name principal = false := by
  apply eq_false_of_ne_true
  intro hmatch
  have hinside : (":group." : Str) <:+: name := of_decide_eq_true hgroup
  have hnot : ¬ (":group." : Str) <:+: principal := of_decide_eq_false hprincipal
  obtain rfl | rfl | ⟨x, rfl, hx⟩ := memberNameMatch_iff.1 hmatch
  · exact hnot hinside
  · exact absurd hinside (by decide)
  · obtain hsuffix | hinside := List.infix_concat_iff.1 hinside
    · have hlast := hsuffix.getLast (by decide)
      rw [List.getLast_concat] at hlast
      exact absurd hlast (by decide)
    · exact hnot (hinside.trans hx.isInfix)

theorem memberNameMatch_of_no_wildcard (h : ¬ ['*'] <:+ name) :
    memberNameMatch name principal = true ↔ name = principal := by
  constructor
  · intro hmatch
    obtain heq | rfl | ⟨x, rfl, _⟩ := memberNameMatch_iff.1 hmatch
    · exact heq
    · exact absurd (List.suffix_refl _) h
    · exact absurd (List.suffix_append x ['*']) h
  · intro heq
    exact memberNameMatch_iff.2 (.inl heq)

section Entries

variable {store : DataStore} (h : Regular domains domainData principal)
  (hlists : ListsLoaded (allGroups domains) store)
include h hlists

theorem groupEntry_iff (hgroup : isGroupName name = true) :
    StandsFor now (allGroups domains) principal name ↔
      ∃ groupMembers, store.getGroupMembers name = some groupMembers ∧
        GroupAdmits now groupMembers principal := by
  have hnot : memberNameMatch name principal = false := not_memberNameMatch_of_group h.noGroup hgroup
  constructor
  · intro hstands
    cases hstands with
    | self => exact absurd (memberNameMatch_iff.2 (.inl rfl)) (ne_true_of_eq_false hnot)
    | all => exact absurd (memberNameMatch_iff.2 (.inr (.inl rfl))) (ne_true_of_eq_false hnot)
    | start hx => exact absurd (memberNameMatch_iff.2 (.inr (.inr ⟨_, rfl, hx⟩))) (ne_true_of_eq_false hnot)
    | group hmem hhas hname =>
      refine ⟨_, (hlists _ _).2 ⟨_, hmem, rfl, rfl⟩, _, hhas.1, ?_, hhas.2⟩
      exact memberNameMatch_iff.2 (.inl hname)
  · rintro ⟨groupMembers, hfetch, entry, hentry, hmatch, hskip⟩
    obtain ⟨group, hmem, rfl, rfl⟩ := (hlists _ _).1 hfetch
    rw [memberNameMatch_of_no_wildcard (h.groupMembers group hmem entry hentry)] at hmatch
    exact .group hmem ⟨hentry, hskip⟩ hmatch

omit hlists in
theorem principalEntry_iff (hgroup : isGroupName name = false) :
    StandsFor now (allGroups domains) principal name ↔ memberNameMatch name principal = true := by
  rw [memberNameMatch_iff]
  constructor
  · intro hstands
    cases hstands with
    | self => exact .inl rfl
    | all => exact .inr (.inl rfl)
    | start hx => exact .inr (.inr ⟨_, rfl, hx⟩)
    | group hmem hhas hname => exact absurd (h.groupNames _ hmem) (ne_true_of_eq_false hgroup)
  · rintro (rfl | rfl | ⟨x, rfl, hx⟩)
    · exact .self
    · exact .all
    · exact .start hx

theorem entryAdmits_markGroup_iff (hrole : role ∈ domainData.roles.getD [])
    (hentry : entry ∈ role.roleMembers.getD []) :
    EntryAdmits now store.getGroupMembers principal (markGroup entry) ↔
      (isMemberDisabled entry.systemDisabled = false ∧ isMemberExpired entry.expiration now = false) ∧
        StandsFor now (allGroups domains) principal entry.memberName := by
  obtain ⟨hname, hexpiration, hdisabled⟩ := markGroup_fields entry
  unfold EntryAdmits
  rw [isGroupEntry_markGroup (h.groupTypes role hrole entry hentry), hname, hexpiration, hdisabled]
  cases hgroup : isGroupName entry.memberName with
  | true =>
    have henabled := h.groupsEnabled role hrole entry hentry hgroup
    rw [if_pos rfl, groupEntry_iff h hlists hgroup, henabled, eq_self, true_and]
  | false =>
    rw [if_neg Bool.false_ne_true, principalEntry_iff h hgroup]
    constructor
    · rintro ⟨hexpired, hdisabled, hmatch⟩
      exact ⟨⟨hdisabled, hexpired⟩, hmatch⟩
    · rintro ⟨⟨hdisabled, hexpired⟩, hmatch⟩
      exact ⟨hexpired, hdisabled, hmatch⟩

omit hlists in
theorem atMostOne_markGroup (hrole : role ∈ domainData.roles.getD []) :
    AtMostOne (fun entry => !isGroupEntry entry && memberNameMatch entry.memberName principal)
      ((setRoleMemberGroupType role).roleMembers.getD []) := by
  have hone := h.roleEntries role hrole
  unfold AtMostOne at hone ⊢
  rw [getD_setRoleMemberGroupType, List.filter_map, List.length_map]
  have hsame : ∀ entry ∈ role.roleMembers.getD [],
      ((fun entry => !isGroupEntry entry && memberNameMatch entry.memberName principal) ∘ markGroup) entry =
        (!isGroupName entry.memberName && memberNameMatch entry.memberName principal) := by
    intro entry hentry
    rw [Function.comp_apply, isGroupEntry_markGroup (h.groupTypes role hrole entry hentry),
      (markGroup_fields entry).1]
  rw [List.filter_congr hsame]
  exact hone

/-- The authorizer finds a principal in a role exactly when the index does. -/
theorem memberOf_iff_isMemberOfRole (hrole : role ∈ domainData.roles.getD []) :
    MemberOf now (allGroups domains) role principal ↔
      isMemberOfRole now store.getGroupMembers (setRoleMemberGroupType role) principal = true := by
  have hgroups : ∀ name groupMembers, store.getGroupMembers name = some groupMembers →
      AtMostOne (fun entry => memberNameMatch entry.memberName principal) groupMembers := by
    intro name groupMembers hfetch
    obtain ⟨group, hmem, _, rfl⟩ := (hlists _ _).1 hfetch
    exact h.groupEntries group hmem
  rw [isMemberOfRole_iff (atMostOne_markGroup h hrole) hgroups, getD_setRoleMemberGroupType]
  constructor
  · rintro ⟨entry, ⟨hentry, hvalid⟩, hstands⟩
    exact ⟨_, List.mem_map_of_mem hentry,
      (entryAdmits_markGroup_iff h hlists hrole hentry).2 ⟨hvalid, hstands⟩⟩
  · rintro ⟨_, hmem, hadmits⟩
    obtain ⟨entry, hentry, rfl⟩ := List.mem_map.1 hmem
    obtain ⟨hvalid, hstands⟩ := (entryAdmits_markGroup_iff h hlists hrole hentry).1 hadmits
    exact ⟨entry, ⟨hentry, hvalid⟩, hstands⟩

end Entries

end Membership

section Policies

variable [CaseRules]

/-- The policy file of a domain. -/
def policyFile (domainData : DomainData) : PolicyData where
  domain := domainData.name
  policies := activePolicies (domainData.policies.getD [])

/-- No role is delegated, and roles and resources of assertions are those of the domain itself. -/
structure SelfContained (domainData : DomainData) : Prop where
  nonempty : domainData.name ≠ []
  plain : Plain domainData.name
  noColon : ':' ∉ domainData.name
  trust : ∀ role ∈ domainData.roles.getD [], role.trust = none
  actions : ∀ assertion ∈ activeAssertions domainData, assertion.action ≠ "assume_role"
  roles : ∀ assertion ∈ activeAssertions domainData, ∃ glob,
    assertion.role = domainData.name ++ ":role.".toList ++ glob
  resources : ∀ assertion ∈ activeAssertions domainData, ∃ glob,
    assertion.resource = domainData.name ++ ':' :: glob
  lower : ∀ assertion ∈ activeAssertions domainData,
    toLowerCase assertion.resource = assertion.resource

omit [CaseRules] in
theorem stripDomainPrefix_append (h : ':' ∉ domain) :
    stripDomainPrefix (domain ++ ':' :: rest) domain defaultValue = some rest := by
  have hindex : indexOf [':'] (domain ++ ':' :: rest) = some domain.length := by
    apply indexOf_append_self List.not_mem_nil
    intro hinside
    exact h ((List.singleton_infix_iff _ _).1 hinside)
  unfold stripDomainPrefix
  rw [hindex]
  simp

omit [CaseRules] in
theorem assertRole_eq (h : ':' ∉ domain) (hrole : assertion.role = domain ++ ":role.".toList ++ glob) :
    assertRole domain assertion = glob := by
  unfold assertRole
  have hcolon : domain ++ ":role.".toList ++ glob = domain ++ ':' :: ("role.".toList ++ glob) := by
    rw [List.append_assoc]
    rfl
  rw [hrole, hcolon, stripDomainPrefix_append h, Option.getD_some]
  rfl

theorem assertResource_eq (h : ':' ∉ domain) (hresource : toLowerCase assertion.resource = domain ++ ':' :: glob) :
    assertResource domain assertion = glob := by
  unfold assertResource
  rw [hresource]
  dsimp only
  rw [stripDomainPrefix_append h, Option.getD_some]

end Policies

section Agreement

variable [CaseRules]

/-- The names of the roles that a domain gives to a principal. -/
def rolesOf (store : DataStore) (now : Int) (domainName principal : Str) : List Str :=
  store.getAccessibleRoles now ⟨domainName, none, false⟩
    ((store.cacheStore.lookup domainName).map (·.toDataCache)) principal []

section Assertions

variable {store : DataStore} (hwf : WellFormed domains)
  (hregular : Regular domains domainData principal) (hself : SelfContained domainData)
  (hstore : Loaded codec loaded domains store) (hlists : ListsLoaded (allGroups domains) store)
  (hle : loaded ≤ now)
  (hbuilt : ∀ domainData ∈ domains, ∃ cache, buildCache codec loaded domainData = .ok cache)
  (hdomain : domainData ∈ domains)

include hwf hself hstore hle hbuilt hdomain in
theorem mem_rolesOf_iff : name ∈ rolesOf store now domainData.name principal ↔
    ∃ role ∈ domainData.roles.getD [], role.name = domainData.name ++ ":role.".toList ++ name ∧
      MemberOf now (allGroups domains) role principal := by
  have hnone : ∀ assertion role, ¬ Assumes domainData assertion role := by
    rintro assertion role ⟨⟨policy, hpolicy, hactive, hassertion⟩, haction, _, _⟩
    refine hself.actions assertion (List.mem_flatMap.2 ⟨policy, ?_, hassertion⟩) haction
    exact List.mem_filter.2 ⟨hpolicy, decide_eq_true hactive⟩
  unfold rolesOf
  rw [mem_getAccessibleRoles_iff hwf hstore hle hbuilt hdomain]
  constructor
  · rintro ⟨roleName, haccessible, hname⟩
    have hname : name = roleName := hname
    subst hname
    generalize hfull : domainData.name ++ ":role.".toList ++ name = full at haccessible
    cases haccessible with
    | member hrole hmember => exact ⟨_, hrole, rfl, hmember⟩
    | trust hrole _ htrust _ _ _ =>
      rw [hself.trust _ hrole] at htrust
      exact nomatch htrust
    | assertion hassumes _ => exact absurd hassumes (hnone _ _)
  · rintro ⟨role, hrole, hname, hmember⟩
    exact ⟨name, hname ▸ .member hrole hmember, rfl⟩

include hwf hself hstore hle hbuilt hdomain in
theorem oneLine_of_mem_rolesOf (h : role ∈ rolesOf store now domainData.name principal) :
    OneLine role := by
  obtain ⟨found, hfound, hname, _⟩ := (mem_rolesOf_iff hwf hself hstore hle hbuilt hdomain).1 h
  have hplain := (hwf.plainRoles found (mem_allRoles hdomain hfound)).oneLine
  rw [hname] at hplain
  exact hplain.of_append_right

include hwf hregular hself hstore hlists hle hbuilt hdomain in
/-- The glob of an assertion finds a role of the principal exactly when the authorizer does. -/
theorem exists_role_iff {assertion : Assertion}
    (hglob : assertion.role = domainData.name ++ ":role.".toList ++ glob) :
    (∃ role ∈ rolesOf store now domainData.name principal, GlobMatch glob role) ↔
      ∃ role ∈ domainData.roles.getD [], GlobMatch assertion.role role.name ∧
        isMemberOfRole now store.getGroupMembers (setRoleMemberGroupType role) principal = true := by
  have hplain : containsMatchCharacter (domainData.name ++ ":role.".toList) = false := by
    apply Plain.containsMatchCharacter
    intro c hc
    obtain hc | hc := List.mem_append.1 hc
    · exact hself.plain c hc
    · exact (show Plain ":role.".toList by decide) c hc
  rw [hglob]
  constructor
  · rintro ⟨name, hname, hmatch⟩
    obtain ⟨role, hrole, hfull, hmember⟩ := (mem_rolesOf_iff hwf hself hstore hle hbuilt hdomain).1 hname
    refine ⟨role, hrole, (globMatch_append hplain).2 ⟨name, hfull, hmatch⟩, ?_⟩
    exact (memberOf_iff_isMemberOfRole hregular hlists hrole).1 hmember
  · rintro ⟨role, hrole, hmatch, hmember⟩
    obtain ⟨name, hfull, hmatch⟩ := (globMatch_append hplain).1 hmatch
    refine ⟨name, (mem_rolesOf_iff hwf hself hstore hle hbuilt hdomain).2 ⟨role, hrole, hfull, ?_⟩, hmatch⟩
    exact (memberOf_iff_isMemberOfRole hregular hlists hrole).2 hmember

theorem oneLine_resource (hself : SelfContained domainData) (h : OneLine resource) :
    OneLine (domainData.name ++ ':' :: resource) := by
  intro c hc
  obtain hc | hc := List.mem_append.1 hc
  · exact (hself.plain c hc).2.2
  · obtain rfl | hc := List.mem_cons.1 hc
    · rfl
    · exact h c hc

include hwf hregular hself hstore hlists hle hbuilt hdomain in
/-- An assertion of the policy file is matched exactly when the authorizer matches it. -/
theorem matched_iff_matchedBy (hassertion : assertion ∈ activeAssertions domainData)
    (haction : OneLine action) (hresource : OneLine resource) :
    Matched domainData.name assertion action resource
        (rolesOf store now domainData.name principal) ↔
      ZTSAuthorizer.matchedBy store now principal action (domainData.name ++ ':' :: resource)
        ((domainData.roles.getD []).map setRoleMemberGroupType) assertion = true := by
  obtain ⟨roleGlob, hroleGlob⟩ := hself.roles assertion hassertion
  obtain ⟨resourceGlob, hresourceGlob⟩ := hself.resources assertion hassertion
  have hlower := hself.lower assertion hassertion
  have hmatch : GlobMatch (domainData.name ++ ':' :: resourceGlob) (domainData.name ++ ':' :: resource) ↔
      GlobMatch resourceGlob resource := by
    rw [globMatch_append hself.plain.containsMatchCharacter]
    simp only [List.append_cancel_left_eq, exists_eq_left',
      globMatch_literal (show ':' ≠ '*' by decide) (show ':' ≠ '?' by decide), List.cons.injEq, true_and]
  unfold Matched ZTSAuthorizer.matchedBy
  rw [assertRole_eq hself.noColon hroleGlob, assertResource_eq hself.noColon (hlower.trans hresourceGlob),
    exists_role_iff hwf hregular hself hstore hlists hle hbuilt hdomain hroleGlob, Bool.and_eq_true,
    Bool.and_eq_true, matchesPattern_iff haction, matchesPattern_iff (oneLine_resource hself hresource),
    hlower, hresourceGlob, hmatch, List.any_eq_true]
  have hroles : (∃ role ∈ domainData.roles.getD [], GlobMatch assertion.role role.name ∧
      isMemberOfRole now store.getGroupMembers (setRoleMemberGroupType role) principal = true) ↔
        ∃ role ∈ ((domainData.roles.getD []).map setRoleMemberGroupType).filter fun role =>
          matchesPattern (patternFromGlob assertion.role) role.name,
            isMemberOfRole now store.getGroupMembers role principal = true := by
    constructor
    · rintro ⟨role, hrole, hglob, hmember⟩
      have hline := (hwf.plainRoles role (mem_allRoles hdomain hrole)).oneLine
      exact ⟨_, List.mem_filter.2 ⟨List.mem_map_of_mem hrole, (matchesPattern_iff hline).2 hglob⟩, hmember⟩
    · rintro ⟨_, hmem, hmember⟩
      obtain ⟨hmem, hglob⟩ := List.mem_filter.1 hmem
      obtain ⟨role, hrole, rfl⟩ := List.mem_map.1 hmem
      have hline := (hwf.plainRoles role (mem_allRoles hdomain hrole)).oneLine
      exact ⟨role, hrole, (matchesPattern_iff hline).1 hglob, hmember⟩
  rw [hroles]
  constructor
  · rintro ⟨hrole, haction, hresource⟩
    exact ⟨haction, hresource, hrole⟩
  · rintro ⟨haction, hresource, hrole⟩
    exact ⟨hrole, haction, hresource⟩

include hself in
/-- The decision of the authorizer over the assertions of the domain. -/
theorem evaluateAccess_iff (hbuild : buildCache codec loaded domainData = .ok cache) :
    ZTSAuthorizer.evaluateAccess store now { cache with domainData := normalized domainData } principal
        action resource trustDomain = .ok .ALLOWED ↔
      (∀ assertion ∈ activeAssertions domainData, assertion.effect = some .DENY →
        ZTSAuthorizer.matchedBy store now principal action resource
          ((domainData.roles.getD []).map setRoleMemberGroupType) assertion = false) ∧
      ∃ assertion ∈ activeAssertions domainData, assertion.effect ≠ some .DENY ∧
        ZTSAuthorizer.matchedBy store now principal action resource
          ((domainData.roles.getD []).map setRoleMemberGroupType) assertion = true := by
  unfold activeAssertions
  cases hpolicies : domainData.policies with
  | none =>
    have hfails : ZTSAuthorizer.evaluateAccess store now
        { cache with domainData := normalized domainData } principal action resource trustDomain =
          .error .nullPointer := by
      simp only [ZTSAuthorizer.evaluateAccess, normalized, hpolicies]
    rw [hfails]
    simp [activePolicies]
  | some policies =>
    cases hroles : domainData.roles with
    | none =>
      have hfails : buildCache codec loaded domainData = .error .nullPointer := by
        simp [buildCache, processDomainPolicies, hpolicies, hroles, bind, Except.bind]
      rw [hfails] at hbuild
      cases hbuild
    | some roles =>
      apply ZTSAuthorizer.evaluateAccess_allowed_iff
      · exact hpolicies
      · simp [normalized, hroles]
      · intro role hmem
        obtain ⟨original, horiginal, rfl⟩ := List.mem_map.1 hmem
        exact hself.trust original (hroles ▸ horiginal)

include hwf hregular hself hstore hlists hle hbuilt hdomain in
/-- The authorizer allows what the flat policy of the domain allows. -/
theorem evaluateAccess_iff_matched (hbuild : buildCache codec loaded domainData = .ok cache)
    (haction : OneLine action) (hresource : OneLine resource) :
    ZTSAuthorizer.evaluateAccess store now { cache with domainData := normalized domainData } principal
        action (domainData.name ++ ':' :: resource) trustDomain = .ok .ALLOWED ↔
      ¬ SomeMatched (policyFile domainData) true action resource
          (rolesOf store now domainData.name principal) ∧
        SomeMatched (policyFile domainData) false action resource
          (rolesOf store now domainData.name principal) := by
  have hmatched : ∀ assertion ∈ activeAssertions domainData, Matched domainData.name assertion action
      resource (rolesOf store now domainData.name principal) ↔ _ := fun assertion hassertion =>
    matched_iff_matchedBy hwf hregular hself hstore hlists hle hbuilt hdomain hassertion haction hresource
  rw [evaluateAccess_iff hself hbuild]
  unfold SomeMatched
  constructor
  · rintro ⟨hdenies, assertion, hassertion, heffect, hmatch⟩
    refine ⟨?_, assertion, hassertion, decide_eq_false heffect, (hmatched assertion hassertion).2 hmatch⟩
    rintro ⟨denial, hdenial, hdeny, hmatch⟩
    exact ne_true_of_eq_false (hdenies denial hdenial (of_decide_eq_true hdeny))
      ((hmatched denial hdenial).1 hmatch)
  · rintro ⟨hdenies, assertion, hassertion, heffect, hmatch⟩
    refine ⟨?_, assertion, hassertion, of_decide_eq_false heffect, (hmatched assertion hassertion).1 hmatch⟩
    intro denial hdenial hdeny
    apply eq_false_of_ne_true
    intro hmatch
    exact hdenies ⟨denial, hdenial, decide_eq_true hdeny, (hmatched denial hdenial).2 hmatch⟩

end Assertions

/-- The policy engine, with the roles that the server lists, allows exactly what the server does. -/
theorem zpe_allows_iff_zts_allows (codec : Codec) (loaded now : Int) (domains : List DomainData)
    (domainData : DomainData) (principal action resource : Str) (trustDomain : Option Str)
    (loader : ZpeUpdPolLoader) (hle : loaded ≤ now) (hwf : WellFormed domains)
    (hregular : Regular domains domainData principal) (hself : SelfContained domainData)
    (hbuilt : ∀ domainData ∈ domains, ∃ cache, buildCache codec loaded domainData = .ok cache)
    (hdomain : domainData ∈ domains) (hnonempty : action ≠ [])
    (hlowerAction : toLowerCase action = action)
    (hlowerResource : toLowerCase (domainData.name ++ ':' :: resource) = domainData.name ++ ':' :: resource)
    (haction : OneLine action) (hresource : OneLine resource) :
    allowActionZPE (loader.putMaps domainData.name (roleMaps (policyFile domainData))) (some action)
        (some domainData.name) (some (domainData.name ++ ':' :: resource))
        (some (rolesOf (loadDomains codec loaded domains {}) now domainData.name principal)) = .ALLOW ↔
      ∃ published, (loadDomains codec loaded domains {}).cacheStore.lookup domainData.name = some published ∧
        ZTSAuthorizer.evaluateAccess (loadDomains codec loaded domains {}) now published principal action
          (domainData.name ++ ':' :: resource) trustDomain = .ok .ALLOWED := by
  obtain ⟨hstore, hlists⟩ := Loaded.loadDomains (loaded_empty codec loaded) listsLoaded_empty
    hwf.domainNames hwf.groupNames hbuilt
  generalize loadDomains codec loaded domains {} = store at hstore hlists ⊢
  obtain ⟨cache, hbuild⟩ := hbuilt domainData hdomain
  have hlookup := (hstore.caches domainData.name _).2 ⟨domainData, hdomain, rfl, cache, hbuild, rfl⟩
  rw [hlookup]
  simp only [Option.some.injEq, exists_eq_left']
  rw [evaluateAccess_iff_matched hwf hregular hself hstore hlists hle hbuilt hdomain hbuild haction hresource]
  by_cases hroles : rolesOf store now domainData.name principal = []
  · rw [hroles]
    refine iff_of_false ?_ ?_
    · unfold allowActionZPE
      simp
    · rintro ⟨_, assertion, _, _, ⟨role, hrole, _⟩, _⟩
      exact absurd hrole List.not_mem_nil
  · have hname : ResourceOf (loader.putMaps domainData.name (roleMaps (policyFile domainData)))
        domainData.name (domainData.name ++ ':' :: resource) resource := by
      unfold ResourceOf
      rw [hlowerResource]
      exact stripDomainPrefix_append hself.noColon
    have hfull : domainData.name ++ ':' :: resource ≠ [] :=
      List.append_ne_nil_of_right_ne_nil _ (List.cons_ne_nil _ _)
    rw [allowActionZPE_eq hroles hself.nonempty hnonempty hfull hname, hlowerAction]
    have hhas := has_putMaps loader (policyFile domainData).domain (roleMaps (policyFile domainData))
    exact (denyOverrides_decideAction hhas haction hresource fun role hrole =>
      oneLine_of_mem_rolesOf hwf hself hstore hle hbuilt hdomain hrole).allow

end Agreement

section Sample

local instance agreementCaseRules : CaseRules := .ascii

/-- Staff members write everything but drafts. -/
def draftsDomain : DomainData where
  name := "sports"
  roles := some [writersRole]
  groups := some [staffGroup]
  policies := some [{ assertions := some [
    { role := "sports:role.writ*", resource := "sports:*", action := "write" },
    { role := "sports:role.writers", resource := "sports:draft.*", action := "*",
      effect := some .DENY }] }]

theorem staff_writes : ∃ published,
    (loadDomains plainCodec 100 [draftsDomain] {}).cacheStore.lookup draftsDomain.name = some published ∧
      ZTSAuthorizer.evaluateAccess (loadDomains plainCodec 100 [draftsDomain] {}) 200 published
        ↑"user.joe" ↑"write" (draftsDomain.name ++ ':' :: "news".toList) none = .ok .ALLOWED := by
  refine (zpe_allows_iff_zts_allows plainCodec 100 200 [draftsDomain] draftsDomain ↑"user.joe" ↑"write"
    ↑"news" none {} (by decide) ?_ ?_ ?_ ?_ List.mem_cons_self (by decide) (by decide) (by decide)
    (show Plain "write".toList by decide).oneLine (show Plain "news".toList by decide).oneLine).1 ?_
  · constructor <;> decide +kernel
  · constructor <;> decide +kernel
  · constructor
    · decide
    · decide
    · decide
    · decide
    · decide
    · intro assertion hassertion
      obtain rfl | rfl := List.mem_pair.1 hassertion
      · exact ⟨↑"writ*", rfl⟩
      · exact ⟨↑"writers", rfl⟩
    · intro assertion hassertion
      obtain rfl | rfl := List.mem_pair.1 hassertion
      · exact ⟨↑"*", rfl⟩
      · exact ⟨↑"draft.*", rfl⟩
    · decide
  · intro domainData hdomain
    rw [List.mem_singleton.1 hdomain]
    exact ⟨_, rfl⟩
  · decide +kernel

end Sample

end Athenz
