import Athenz.ZpePolicies

namespace Athenz.Zpe
open Lib Lib.Text Lib.Index Lib.Result Zts
set_option autoImplicit true

section Globs

theorem globMatch_star_self (s : Str) : GlobMatch ['*'] s := by
  rw [← List.append_nil s]
  exact .text s .nil

theorem notMem_of_indexOf {c : Char} {s : Str} (h : indexOf [c] s = none) : c ∉ s := by
  intro hc
  obtain ⟨before, after, rfl⟩ := List.append_of_mem hc
  exact indexOf_eq_none_iff.1 h ⟨before, after, by simp⟩

theorem globMatch_starts (h : containsMatchCharacter start = false) :
    GlobMatch (start ++ ['*']) s ↔ start <+: s := by
  rw [globMatch_append h]
  constructor
  · rintro ⟨rest, rfl, _⟩
    exact List.prefix_append start rest
  · rintro ⟨rest, rfl⟩
    exact ⟨rest, rfl, globMatch_star_self rest⟩

/-- The last character is the only star. -/
theorem dropLast_of_indexOf {glob : Str} (h : indexOf ['*'] glob = some (glob.length - 1)) :
    '*' ∉ glob.dropLast ∧ glob = glob.dropLast ++ ['*'] := by
  have hlength := indexOf_lt_length (List.cons_ne_nil _ _) h
  have hnone := not_infix_take_indexOf h (List.cons_ne_nil _ _)
  have hglob := indexOf_decompose h
  rw [List.length_singleton] at hlength
  rw [List.drop_eq_nil_of_le (by rw [List.length_singleton]; omega), List.append_nil,
    ← List.dropLast_eq_take] at hglob
  rw [← List.dropLast_eq_take] at hnone
  refine ⟨?_, hglob⟩
  intro hc
  obtain ⟨before, after, hsplit⟩ := List.append_of_mem hc
  exact hnone ⟨before, after, by rw [hsplit, List.append_assoc]; rfl⟩

theorem matches_getMatchObject (hs : OneLine s) :
    (getMatchObject glob).matches s = true ↔ GlobMatch glob s := by
  unfold getMatchObject
  split
  · rename_i hall
    rw [hall]
    exact iff_of_true rfl (globMatch_star_self s)
  split
  · rename_i hstar hmark
    rw [globMatch_of_plain, ZpeMatch.matches, decide_eq_true_iff, eq_comm]
    rw [containsMatchCharacter, decide_eq_false (notMem_of_indexOf hstar),
      decide_eq_false (notMem_of_indexOf hmark)]
    rfl
  · rename_i anyCharMatch hstar hmark
    split
    · rename_i hlast
      rw [hlast] at hstar
      obtain ⟨hnone, hglob⟩ := dropLast_of_indexOf hstar
      have hmarks : '?' ∉ glob.dropLast := fun hc => notMem_of_indexOf hmark (List.mem_of_mem_dropLast hc)
      have hplain : containsMatchCharacter glob.dropLast = false := by
        simp only [containsMatchCharacter, hnone, hmarks, decide_false, Bool.or_false]
      rw [ZpeMatch.matches, decide_eq_true_iff, ← globMatch_starts hplain, ← hglob]
    · exact matchesPattern_iff hs
  · exact matchesPattern_iff hs

end Globs

section Maps

variable [CaseRules]

/-- The map of the maps of a domain for an effect and for a kind of roles. -/
def RoleMaps.get (maps : RoleMaps) (deny equal : Bool) : RoleMap :=
  if deny then if equal then maps.standardDeny else maps.wildcardDeny
  else if equal then maps.standardAllow else maps.wildcardAllow

def isDeny (assertion : Assertion) : Bool := assertion.effect = some .DENY

def hasEqualRole (domainName : Str) (assertion : Assertion) : Bool :=
  (assertStruct domainName assertion).role.isEqual

/-- The assertions of a policy file. -/
def PolicyData.assertions (policyData : PolicyData) : List Assertion :=
  policyData.policies.flatMap fun policy => policy.assertions.getD []

theorem mem_get_addAssertion {maps : RoleMaps} :
    struct ∈ ((addAssertion domainName maps assertion).get deny equal).listAt roleName ↔
      struct ∈ (maps.get deny equal).listAt roleName ∨ isDeny assertion = deny ∧
        hasEqualRole domainName assertion = equal ∧ roleName = assertRole domainName assertion ∧
          struct = assertStruct domainName assertion := by
  unfold addAssertion isDeny hasEqualRole
  dsimp only
  by_cases heffect : assertion.effect = some .DENY
  · rw [if_pos heffect, decide_eq_true heffect]
    cases hrole : (assertStruct domainName assertion).role.isEqual <;> cases deny <;> cases equal <;>
      simp [RoleMaps.get, Map.mem_listAt_appendTo]
  · rw [if_neg heffect, decide_eq_false heffect]
    cases hrole : (assertStruct domainName assertion).role.isEqual <;> cases deny <;> cases equal <;>
      simp [RoleMaps.get, Map.mem_listAt_appendTo]

/-- A map of a policy file has the assertions of its effect and kind under their roles. -/
theorem mem_get_roleMaps {policyData : PolicyData} :
    struct ∈ ((roleMaps policyData).get deny equal).listAt roleName ↔
      ∃ assertion ∈ policyData.assertions, isDeny assertion = deny ∧
        hasEqualRole policyData.domain assertion = equal ∧
          roleName = assertRole policyData.domain assertion ∧
            struct = assertStruct policyData.domain assertion := by
  have hfold : roleMaps policyData =
      policyData.assertions.foldl (addAssertion policyData.domain) {} := by
    rw [PolicyData.assertions, List.foldl_flatMap]
    rfl
  rw [hfold, foldl_adds (Q := fun maps : RoleMaps => struct ∈ (maps.get deny equal).listAt roleName)
    (f := addAssertion policyData.domain) fun maps assertion => mem_get_addAssertion]
  refine or_iff_right ?_
  cases deny <;> cases equal <;> exact List.not_mem_nil

end Maps

section Decisions

/-- An assertion is hit by a role of a list, an action and a resource. -/
def ZpeAssertion.hit (struct : ZpeAssertion) (action resource : Str) (roles : List Str) : Prop :=
  (∃ role ∈ roles, struct.role.matches role) ∧ struct.action.matches action ∧
    struct.resource.matches resource

theorem matchAssertions_iff {asserts : List ZpeAssertion} : matchAssertions asserts action resource = true ↔
    ∃ struct ∈ asserts, struct.action.matches action ∧ struct.resource.matches resource := by
  simp only [matchAssertions, List.any_eq_true, Bool.and_eq_true]

theorem actionByRole_iff {roleMap : RoleMap} : actionByRole action resource roles roleMap = true ↔
    ∃ role ∈ roles, ∃ struct ∈ roleMap.listAt role,
      struct.action.matches action ∧ struct.resource.matches resource := by
  simp only [actionByRole, List.any_eq_true, matchAssertions_iff]

/-- With one role matcher under each name the first one stands for all. -/
theorem actionByWildCardRole_iff {roleMap : RoleMap} {matcher : Str → ZpeMatch}
    (h : ∀ roleName, ∀ struct ∈ roleMap.listAt roleName, struct.role = matcher roleName) :
    actionByWildCardRole action resource roles roleMap = true ↔
      ∃ roleName, ∃ struct ∈ roleMap.listAt roleName, struct.hit action resource roles := by
  simp only [actionByWildCardRole, List.any_eq_true]
  constructor
  · rintro ⟨role, hrole, roleName, _, hmatch⟩
    have hfirst := h roleName
    revert hmatch hfirst
    cases hlist : roleMap.listAt roleName with
    | nil =>
      intro hmatch
      cases hmatch
    | cons struct asserts =>
      intro hmatch hfirst
      obtain ⟨hmatcher, hasserts⟩ := Bool.and_eq_true_iff.1 hmatch
      obtain ⟨found, hfound, haction, hresource⟩ := matchAssertions_iff.1 hasserts
      refine ⟨roleName, found, by rw [hlist]; exact hfound, ⟨role, hrole, ?_⟩, haction, hresource⟩
      rw [hfirst found hfound, ← hfirst struct List.mem_cons_self]
      exact hmatcher
  · rintro ⟨roleName, struct, hstruct, ⟨role, hrole, hmatcher⟩, haction, hresource⟩
    refine ⟨role, hrole, roleName, ?_, ?_⟩
    · obtain ⟨asserts, hlookup, _⟩ := Map.mem_listAt_iff.1 hstruct
      exact AList.mem_keys.2 (AList.lookup_isSome.1 (Option.isSome_iff_exists.2 ⟨asserts, hlookup⟩))
    · have hfirst := h roleName
      revert hstruct hfirst
      cases roleMap.listAt roleName with
      | nil => exact fun hnone => absurd hnone List.not_mem_nil
      | cons first asserts =>
        intro hstruct hfirst
        refine Bool.and_eq_true_iff.2 ⟨?_, matchAssertions_iff.2 ⟨struct, hstruct, haction, hresource⟩⟩
        rw [hfirst first List.mem_cons_self, ← hfirst struct hstruct]
        exact hmatcher

theorem getMatchObject_of_isEqual (h : (getMatchObject value).isEqual = true) :
    getMatchObject value = .equal value := by
  unfold getMatchObject at h ⊢
  split at h
  · cases h
  · rename_i hall
    rw [if_neg hall]
    split at h
    · rfl
    · split at h
      · cases h
      · cases h
    · cases h

theorem listAt_of_keys_nil {roleMap : RoleMap} (h : roleMap.keys = []) (role : Str) :
    roleMap.listAt role = [] := by
  apply Map.listAt_of_lookup_none
  rw [AList.lookup_eq_none]
  intro hmem
  rw [AList.mem_keys, h] at hmem
  exact absurd hmem List.not_mem_nil

theorem consult_eq {roleMap : RoleMap} (hempty : roleMap.keys = [] → hit roleMap = false) :
    consult hit (some roleMap) result status =
      if hit roleMap then .error result
      else .ok (if roleMap.keys ≠ [] then .DENY_NO_MATCH
        else if status ≠ .DENY_NO_MATCH then .DENY_DOMAIN_EMPTY else status) := by
  unfold consult
  by_cases hkeys : roleMap.keys = []
  · simp only [hkeys, ne_eq, not_true_eq_false, if_false, hempty hkeys, Bool.false_eq_true]
    split
    · rfl
    · rfl
  · simp only [hkeys, ne_eq, not_false_eq_true, if_true]

theorem actionByRole_of_keys_nil (h : roleMap.keys = []) :
    actionByRole action resource roles roleMap = false := by
  rw [← Bool.not_eq_true, actionByRole_iff]
  rintro ⟨role, _, struct, hstruct, _⟩
  rw [listAt_of_keys_nil h] at hstruct
  exact absurd hstruct List.not_mem_nil

theorem actionByWildCardRole_of_keys_nil (h : roleMap.keys = []) :
    actionByWildCardRole action resource roles roleMap = false := by
  simp only [actionByWildCardRole, h, List.any_nil, List.any_eq_false, Bool.false_eq_true,
    not_false_eq_true, implies_true]

/-- The status that a decision ends with. -/
def finalStatus : Except AccessCheckStatus AccessCheckStatus → AccessCheckStatus
  | .error status => status
  | .ok status => status

/-- The maps of a domain are those of some role maps. -/
structure ZpeUpdPolLoader.Has (loader : ZpeUpdPolLoader) (domain : Str) (maps : RoleMaps) : Prop where
  standardAllow : loader.domStandardRoleAllowMap.lookup domain = some maps.standardAllow
  wildcardAllow : loader.domWildcardRoleAllowMap.lookup domain = some maps.wildcardAllow
  standardDeny : loader.domStandardRoleDenyMap.lookup domain = some maps.standardDeny
  wildcardDeny : loader.domWildcardRoleDenyMap.lookup domain = some maps.wildcardDeny

/-- One of the two pairs of maps is hit. -/
def RoleMaps.hits (maps : RoleMaps) (deny : Bool) (action resource : Str) (roles : List Str) : Bool :=
  actionByRole action resource roles (maps.get deny true) ||
    actionByWildCardRole action resource roles (maps.get deny false)

theorem decideAction_eq {loader : ZpeUpdPolLoader} (h : loader.Has domain maps) :
    finalStatus (decideAction loader domain action resource roles) =
      if maps.hits true action resource roles then .DENY
      else if maps.hits false action resource roles then .ALLOW
      else if maps.wildcardAllow.keys = [] ∧ maps.standardAllow.keys = [] ∧
          maps.wildcardDeny.keys = [] ∧ maps.standardDeny.keys = [] then .DENY_DOMAIN_EMPTY
      else .DENY_NO_MATCH := by
  unfold decideAction RoleMaps.hits RoleMaps.get
  rw [h.standardAllow, h.wildcardAllow, h.standardDeny, h.wildcardDeny,
    consult_eq actionByRole_of_keys_nil]
  simp only [if_true, Bool.false_eq_true, if_false]
  cases actionByRole action resource roles maps.standardDeny with
  | true => rfl
  | false =>
    simp only [Bool.false_eq_true, if_false, bind, Except.bind, Bool.false_or]
    rw [consult_eq actionByWildCardRole_of_keys_nil]
    cases actionByWildCardRole action resource roles maps.wildcardDeny with
    | true => rfl
    | false =>
      simp only [Bool.false_eq_true, if_false]
      rw [consult_eq actionByRole_of_keys_nil]
      cases actionByRole action resource roles maps.standardAllow with
      | true => rfl
      | false =>
        simp only [Bool.false_eq_true, if_false, Bool.false_or]
        rw [consult_eq actionByWildCardRole_of_keys_nil]
        cases actionByWildCardRole action resource roles maps.wildcardAllow with
        | true => rfl
        | false =>
          simp only [Bool.false_eq_true, if_false, finalStatus]
          by_cases h1 : maps.wildcardAllow.keys = [] <;> by_cases h2 : maps.standardAllow.keys = [] <;>
            by_cases h3 : maps.wildcardDeny.keys = [] <;> by_cases h4 : maps.standardDeny.keys = [] <;>
            simp [h1, h2, h3, h4]

variable [CaseRules]

/-- The maps of a policy file are hit when one of its assertions of the effect is. -/
theorem hits_roleMaps_iff {policyData : PolicyData} :
    (roleMaps policyData).hits deny action resource roles = true ↔
      ∃ assertion ∈ policyData.assertions, isDeny assertion = deny ∧
        (assertStruct policyData.domain assertion).hit action resource roles := by
  have hrole : ∀ roleName, ∀ struct ∈ ((roleMaps policyData).get deny false).listAt roleName,
      struct.role = getMatchObject roleName := by
    intro roleName struct hstruct
    obtain ⟨assertion, _, _, _, rfl, rfl⟩ := mem_get_roleMaps.1 hstruct
    rfl
  rw [RoleMaps.hits, Bool.or_eq_true, actionByRole_iff, actionByWildCardRole_iff hrole]
  constructor
  · rintro (⟨role, hmem, struct, hstruct, haction, hresource⟩ | ⟨roleName, struct, hstruct, hhit⟩)
    · obtain ⟨assertion, hassertion, hdeny, hequal, rfl, rfl⟩ := mem_get_roleMaps.1 hstruct
      refine ⟨assertion, hassertion, hdeny, ⟨_, hmem, ?_⟩, haction, hresource⟩
      have hmatcher := getMatchObject_of_isEqual hequal
      rw [assertStruct, hmatcher]
      exact decide_eq_true rfl
    · obtain ⟨assertion, hassertion, hdeny, _, _, rfl⟩ := mem_get_roleMaps.1 hstruct
      exact ⟨assertion, hassertion, hdeny, hhit⟩
  · rintro ⟨assertion, hassertion, hdeny, ⟨role, hmem, hmatches⟩, haction, hresource⟩
    cases hequal : hasEqualRole policyData.domain assertion with
    | true =>
      have hmatcher := getMatchObject_of_isEqual hequal
      rw [assertStruct, hmatcher] at hmatches
      have hname : assertRole policyData.domain assertion = role := of_decide_eq_true hmatches
      exact .inl ⟨role, hmem, _, mem_get_roleMaps.2 ⟨assertion, hassertion, hdeny, hequal, hname.symm, rfl⟩,
        haction, hresource⟩
    | false =>
      exact .inr ⟨_, _, mem_get_roleMaps.2 ⟨assertion, hassertion, hdeny, hequal, rfl, rfl⟩,
        ⟨role, hmem, hmatches⟩, haction, hresource⟩

/-- The globs of an assertion match a role of a list, an action and a resource. -/
def Matched (domain : Str) (assertion : Assertion) (action resource : Str) (roles : List Str) : Prop :=
  (∃ role ∈ roles, GlobMatch (assertRole domain assertion) role) ∧
    GlobMatch (toLowerCase assertion.action) action ∧
      GlobMatch (assertResource domain assertion) resource

/-- An assertion of a policy file with an effect is matched. -/
def SomeMatched (policyData : PolicyData) (deny : Bool) (action resource : Str) (roles : List Str) :
    Prop :=
  ∃ assertion ∈ policyData.assertions, isDeny assertion = deny ∧
    Matched policyData.domain assertion action resource roles

/-- A status is the one of a flat policy in which denials override. -/
structure DenyOverrides (policyData : PolicyData) (action resource : Str) (roles : List Str)
    (status : AccessCheckStatus) : Prop where
  deny : status = .DENY ↔ SomeMatched policyData true action resource roles
  allow : status = .ALLOW ↔ ¬ SomeMatched policyData true action resource roles ∧
    SomeMatched policyData false action resource roles

theorem hit_assertStruct_iff (haction : OneLine action) (hresource : OneLine resource)
    (hroles : ∀ role ∈ roles, OneLine role) :
    (assertStruct domain assertion).hit action resource roles ↔
      Matched domain assertion action resource roles := by
  unfold ZpeAssertion.hit Matched assertStruct
  dsimp only
  rw [matches_getMatchObject haction, matches_getMatchObject hresource]
  refine and_congr_left fun _ => exists_congr fun role => and_congr_right fun hrole => ?_
  exact matches_getMatchObject (hroles role hrole)

omit [CaseRules] in
theorem status_deny_iff {maps : RoleMaps} {loader : ZpeUpdPolLoader} (h : loader.Has domain maps) :
    finalStatus (decideAction loader domain action resource roles) = .DENY ↔
      maps.hits true action resource roles = true := by
  rw [decideAction_eq h]
  split
  · rename_i hhits
    exact iff_of_true rfl hhits
  · rename_i hhits
    refine iff_of_false ?_ hhits
    split
    · decide
    · split
      · decide
      · decide

omit [CaseRules] in
theorem status_allow_iff {maps : RoleMaps} {loader : ZpeUpdPolLoader} (h : loader.Has domain maps) :
    finalStatus (decideAction loader domain action resource roles) = .ALLOW ↔
      ¬ maps.hits true action resource roles = true ∧
        maps.hits false action resource roles = true := by
  rw [decideAction_eq h]
  split
  · rename_i hhits
    exact iff_of_false (by decide) fun hboth => hboth.1 hhits
  · rename_i hnot
    split
    · rename_i hhits
      exact iff_of_true rfl ⟨hnot, hhits⟩
    · rename_i hhits
      refine iff_of_false ?_ fun hboth => hhits hboth.2
      split
      · decide
      · decide

/-- On texts without line breaks the decision is the one of the flat policy. -/
theorem denyOverrides_decideAction {loader : ZpeUpdPolLoader} {policyData : PolicyData}
    (h : loader.Has policyData.domain (roleMaps policyData)) (haction : OneLine action)
    (hresource : OneLine resource) (hroles : ∀ role ∈ roles, OneLine role) :
    DenyOverrides policyData action resource roles
      (finalStatus (decideAction loader policyData.domain action resource roles)) := by
  have hhits : ∀ deny, (roleMaps policyData).hits deny action resource roles = true ↔
      SomeMatched policyData deny action resource roles := by
    intro deny
    rw [hits_roleMaps_iff]
    refine exists_congr fun assertion => and_congr_right fun _ => and_congr_right fun _ => ?_
    exact hit_assertStruct_iff haction hresource hroles
  constructor
  · rw [status_deny_iff h, hhits]
  · rw [status_allow_iff h, hhits, hhits]

omit [CaseRules] in
theorem has_putMaps (loader : ZpeUpdPolLoader) (domain : Str) (maps : RoleMaps) :
    (loader.putMaps domain maps).Has domain maps := by
  unfold ZpeUpdPolLoader.putMaps
  constructor
  · exact (Map.lookup_insert ..).trans (if_pos rfl)
  · exact (Map.lookup_insert ..).trans (if_pos rfl)
  · exact (Map.lookup_insert ..).trans (if_pos rfl)
  · exact (Map.lookup_insert ..).trans (if_pos rfl)

/-- A resource is one of a domain, with a name in it. -/
def ResourceOf (loader : ZpeUpdPolLoader) (domain resource name : Str) : Prop :=
  stripDomainPrefix (toLowerCase resource) domain
    (if loader.getDomainCount = 1 then some (toLowerCase resource) else none) = some name

theorem allowActionZPE_eq {loader : ZpeUpdPolLoader} (hroles : roles ≠ []) (hdomain : domain ≠ [])
    (haction : action ≠ []) (hresource : resource ≠ []) (hname : ResourceOf loader domain resource name) :
    allowActionZPE loader (some action) (some domain) (some resource) (some roles) =
      finalStatus (decideAction loader domain (toLowerCase action) name roles) := by
  unfold allowActionZPE isEmptyText
  unfold ResourceOf at hname
  simp only [Option.all_some, hroles, hdomain, haction, hresource, decide_false, Bool.false_eq_true,
    if_false, Option.getD_some, hname]
  cases decideAction loader domain (toLowerCase action) name roles with
  | error status => rfl
  | ok status => rfl

/-- The policy file of one assertion whose role is written with two stars. -/
def twoStars : PolicyData where
  domain := "d"
  policies := [{ assertions := some [
    { role := "**", resource := "*", action := "*", effect := none }] }]

omit [CaseRules] in
theorem assertion_mem_twoStars : assertion ∈ twoStars.assertions ↔
    assertion = { role := "**", resource := "*", action := "*", effect := none } := by
  simp [twoStars, PolicyData.assertions]

omit [CaseRules] in
/-- The pattern of two stars does not match a line break. -/
theorem not_matches_twoStars (h : isLineTerminator c = true) :
    matchesPattern [.anyText, .anyText] [c] = false := by
  simp [matchesPattern, List.range_succ, h]

section Breaks

variable (hlower : ∀ c, c = '*' ∨ isLineTerminator c = true → toLowerCase [c] = [c])
include hlower

theorem matched_twoStars : Matched twoStars.domain
    { role := "**", resource := "*", action := "*", effect := none } [c] [c] [[c]] := by
  have hrole : assertRole twoStars.domain
      { role := "**", resource := "*", action := "*", effect := none } = ↑"**" := by decide
  have hresource : assertResource twoStars.domain
      { role := "**", resource := "*", action := "*", effect := none } = ['*'] := by
    have hstar : toLowerCase ['*'] = ['*'] := hlower '*' (.inl rfl)
    exact (congrArg (fun s => (stripDomainPrefix s ↑"d" (some s)).getD s) hstar).trans (by decide)
  refine ⟨⟨[c], List.mem_singleton_self _, ?_⟩, ?_, ?_⟩
  · rw [hrole]
    exact .text [] (globMatch_star_self [c])
  · exact (hlower '*' (.inl rfl)).symm ▸ globMatch_star_self [c]
  · rw [hresource]
    exact globMatch_star_self [c]

omit hlower in
theorem twoStars_not_allowed (loader : ZpeUpdPolLoader) (hbreak : isLineTerminator c = true) :
    finalStatus (decideAction (loader.putMaps twoStars.domain (roleMaps twoStars)) twoStars.domain
      [c] [c] [[c]]) ≠ .ALLOW := by
  intro hallow
  obtain ⟨_, hhits⟩ := (status_allow_iff (has_putMaps loader _ _)).1 hallow
  obtain ⟨assertion, hmem, _, ⟨role, hrole, hmatches⟩, _, _⟩ := hits_roleMaps_iff.1 hhits
  rw [assertion_mem_twoStars.1 hmem, List.mem_singleton.1 hrole] at hmatches
  have hmatcher : getMatchObject (assertRole twoStars.domain
      { role := "**", resource := "*", action := "*", effect := none }) =
        .regex [.anyText, .anyText] := by decide
  rw [assertStruct, hmatcher, ZpeMatch.matches, not_matches_twoStars hbreak] at hmatches
  exact Bool.false_ne_true hmatches

/-- Every decision is the one of the flat policy exactly when texts have no line breaks. -/
theorem allowActionZPE_denyOverrides_iff (allowed : Char → Prop) :
    (∀ (loader : ZpeUpdPolLoader) (policyData : PolicyData) (action resource name : Str)
        (roles : List Str), policyData.domain ≠ [] → action ≠ [] → resource ≠ [] → roles ≠ [] →
        ResourceOf (loader.putMaps policyData.domain (roleMaps policyData)) policyData.domain
          resource name →
        (∀ c ∈ toLowerCase action ++ name ++ roles.flatten, allowed c) →
        DenyOverrides policyData (toLowerCase action) name roles
          (allowActionZPE (loader.putMaps policyData.domain (roleMaps policyData)) (some action)
            (some policyData.domain) (some resource) (some roles))) ↔
      ∀ c, allowed c → isLineTerminator c = false := by
  constructor
  · intro h c hc
    by_contra hnot
    have hbreak : isLineTerminator c = true := Bool.not_eq_false _ ▸ hnot
    have hself : toLowerCase [c] = [c] := hlower c (.inr hbreak)
    have hcolon : ':' ≠ c := by
      rintro rfl
      exact absurd hbreak (by decide)
    have hindex : indexOf [':'] [c] = none := by
      simp [indexOf_eq_none_iff, List.singleton_infix_iff, hcolon]
    have hname : ResourceOf (({} : ZpeUpdPolLoader).putMaps twoStars.domain (roleMaps twoStars))
        twoStars.domain [c] [c] := by
      unfold ResourceOf stripDomainPrefix
      rw [hself, hindex]
    have hdecision := h {} twoStars [c] [c] [c] [[c]] (by decide) (List.cons_ne_nil _ _)
      (List.cons_ne_nil _ _) (List.cons_ne_nil _ _) hname (by
        rw [hself]
        intro d hd
        have hd : d = c := by simpa using hd
        exact hd ▸ hc)
    rw [allowActionZPE_eq (List.cons_ne_nil _ _) (by decide) (List.cons_ne_nil _ _)
      (List.cons_ne_nil _ _) hname, hself] at hdecision
    apply twoStars_not_allowed {} hbreak
    refine hdecision.allow.2 ⟨?_, ?_⟩
    · rintro ⟨assertion, hmem, hdeny, _⟩
      rw [assertion_mem_twoStars.1 hmem] at hdeny
      exact absurd hdeny (by decide)
    · exact ⟨_, assertion_mem_twoStars.2 rfl, rfl, matched_twoStars hlower⟩
  · intro h loader policyData action resource name roles hdomain haction hresource hroles hname hchars
    rw [allowActionZPE_eq hroles hdomain haction hresource hname]
    apply denyOverrides_decideAction (has_putMaps loader _ _)
    · intro c hc
      exact h c (hchars c (by simp [hc]))
    · intro c hc
      exact h c (hchars c (by simp [hc]))
    · intro role hrole c hc
      refine h c (hchars c (List.mem_append_right _ (List.mem_flatten.2 ⟨role, hrole, hc⟩)))

end Breaks

end Decisions

section Reader

local instance zpeCaseRules : CaseRules := .ascii

/-- Readers may read everything but keys. -/
def readerPolicy : PolicyData where
  domain := "d"
  policies := [
    { assertions := some [
      { role := "d:role.reader", resource := "d:*.key", action := "read", effect := some .DENY }] },
    { assertions := some [
      { role := "d:role.reader", resource := "d:*", action := "read", effect := some .ALLOW }] }]

def readerLoader : ZpeUpdPolLoader :=
  ({} : ZpeUpdPolLoader).putMaps readerPolicy.domain (roleMaps readerPolicy)

theorem lower_break (c : Char) (h : c = '*' ∨ isLineTerminator c = true) : toLowerCase [c] = [c] := by
  simp only [isLineTerminator, decide_eq_true_eq, List.mem_cons, List.not_mem_nil, or_false] at h
  rcases h with rfl | rfl | rfl | rfl | rfl | rfl <;> rfl

theorem reader_key_denied : SomeMatched readerPolicy true ↑"read" ↑"ab.key" [↑"reader"] ∧
    allowActionZPE readerLoader (some ↑"read") (some ↑"d") (some ↑"d:ab.key") (some [↑"reader"]) =
      .DENY := by
  have hmatched : SomeMatched readerPolicy true ↑"read" ↑"ab.key" [↑"reader"] := by
    refine ⟨_, List.mem_cons_self, rfl, ⟨_, List.mem_cons_self, ?_⟩, ?_, ?_⟩
    · exact (globMatch_of_plain (by decide)).2 (by decide)
    · exact (globMatch_of_plain (by decide)).2 (by decide)
    · exact .text ↑"ab" ((globMatch_of_plain (by decide)).2 rfl)
  refine ⟨hmatched, ?_⟩
  have hlines : (toLowerCase ↑"read" ++ ↑"ab.key" ++ [(↑"reader" : Str)].flatten).all
      (isLineTerminator · = false) = true := by decide
  exact (((allowActionZPE_denyOverrides_iff lower_break (isLineTerminator · = false)).2
    (fun c hc => hc) {} readerPolicy ↑"read" ↑"d:ab.key" ↑"ab.key" [↑"reader"] (by decide) (by decide)
    (by decide) (by decide) rfl fun c hc => of_decide_eq_true (List.all_eq_true.1 hlines c hc)).deny.2
    hmatched)

/-- A line break in front of the ending gets a reader past the denial. -/
theorem key_behind_break_allowed :
    allowActionZPE readerLoader (some ↑"read") (some ↑"d") (some ↑"d:a\nb.key") (some [↑"reader"]) =
        .ALLOW ∧
      ¬ DenyOverrides readerPolicy (toLowerCase ↑"read") ↑"a\nb.key" [↑"reader"]
        (allowActionZPE readerLoader (some ↑"read") (some ↑"d") (some ↑"d:a\nb.key")
          (some [↑"reader"])) := by
  have hallow : allowActionZPE readerLoader (some ↑"read") (some ↑"d") (some ↑"d:a\nb.key")
      (some [↑"reader"]) = .ALLOW := by decide
  refine ⟨hallow, ?_⟩
  intro hdecision
  obtain ⟨hnot, _⟩ := hdecision.allow.1 hallow
  apply hnot
  refine ⟨_, List.mem_cons_self, rfl, ⟨_, List.mem_cons_self, ?_⟩, ?_, ?_⟩
  · exact (globMatch_of_plain (by decide)).2 (by decide)
  · exact (globMatch_of_plain (by decide)).2 (by decide)
  · exact .text ↑"a\nb" ((globMatch_of_plain (by decide)).2 rfl)

end Reader

end Athenz.Zpe
