import Athenz.NodeTokenCache

namespace Athenz.Node
open Lib Lib.Text Lib.Number Lib.Signature Lib.Result
set_option autoImplicit true

section Files

variable {Key : Type} (zpe : AuthZPEClient Key)

/-- The key under which the policies of a document are kept. -/
def documentKey (policyData : Option Json) : Option Str :=
  match Json.property "domain" policyData with
  | .ok domainName => some ((domainName.map Json.toText).getD "undefined")
  | .error _ => none

/-- The verified document of the file is for the domain. -/
def AuthZPEClient.isFor (domain : Str) (file : PolicyFile) : Bool :=
  match zpe.verifiedData file with
  | .ok (some policyData) => documentKey policyData = some domain
  | _ => false

/-- The policy files of a directory whose verified documents are for a domain. -/
def AuthZPEClient.filesFor (domain : Str) (files : List PolicyFile) : List PolicyFile :=
  (files.filter isPolicyFile).filter (zpe.isFor domain)

/-- The first exception of the loop over the files of a directory. -/
def AuthZPEClient.firstThrown (files : List PolicyFile) : Option Thrown :=
  (files.filter isPolicyFile).findSome? fun file =>
    match zpe.loadFile file with
    | .error thrown => some thrown
    | .ok _ => none

theorem filesFor_cons (h : zpe.isFor domain file = false) :
    zpe.filesFor domain (file :: files) = zpe.filesFor domain files := by
  unfold AuthZPEClient.filesFor
  rw [List.filter_cons]
  split
  · rw [List.filter_cons_of_neg]
    rw [h]
    exact Bool.false_ne_true
  · rfl

theorem loadPolicies_key (h : loadPolicies policyData = .ok (domainName, maps)) :
    documentKey policyData = some domainName := by
  unfold loadPolicies at h
  obtain ⟨domain, hdomain, h⟩ := bind_eq_ok.1 h
  obtain ⟨policies, _, h⟩ := bind_eq_ok.1 h
  obtain ⟨items, _, h⟩ := bind_eq_ok.1 h
  obtain ⟨loaded, _, h⟩ := bind_eq_ok.1 h
  cases h
  rw [documentKey, hdomain]

theorem isFor_of_loadFile {zpe : AuthZPEClient Key}
    (h : zpe.loadFile file = .ok (some (domainName, maps))) : zpe.isFor domainName file = true := by
  unfold AuthZPEClient.loadFile at h
  obtain ⟨verified, hverified, h⟩ := bind_eq_ok.1 h
  cases verified with
  | none => cases h
  | some policyData =>
    obtain ⟨found, hfound, heq⟩ := map_eq_ok.1 h
    cases heq
    rw [AuthZPEClient.isFor, hverified]
    exact decide_eq_true (loadPolicies_key hfound)

/-- The entry that the documents for a domain leave. -/
def AuthZPEClient.lastEntry (files : List PolicyFile) (entry : Option CacheEntry) :
    Option CacheEntry :=
  files.foldl (fun entry file =>
    match zpe.loadFile file with
    | .ok (some (_, maps)) => some (.policies maps)
    | _ => entry) entry

/-- The loop ends with its first exception, else with what the documents for the domain leave. -/
theorem loaded_eq (domain : Str) (files : List PolicyFile) (entry : Option CacheEntry) :
    zpe.loaded domain files entry =
      match files.findSome? (fun file =>
        match zpe.loadFile file with
        | .error thrown => some thrown
        | .ok _ => none) with
      | some thrown => .error thrown
      | none => .ok (zpe.lastEntry (files.filter (zpe.isFor domain)) entry) := by
  induction files generalizing entry with
  | nil => rfl
  | cons file files ih =>
    rw [AuthZPEClient.loaded, List.findSome?_cons, List.filter_cons]
    cases hfile : zpe.loadFile file with
    | error thrown => rfl
    | ok found =>
      cases found with
      | none =>
        dsimp only
        rw [ih]
        by_cases hfor : zpe.isFor domain file = true
        · rw [if_pos hfor, AuthZPEClient.lastEntry, AuthZPEClient.lastEntry, List.foldl_cons, hfile]
        · rw [if_neg hfor]
      | some found =>
        obtain ⟨domainName, maps⟩ := found
        dsimp only
        rw [ih]
        by_cases hdomain : domain = domainName
        · rw [if_pos hdomain, hdomain, if_pos (isFor_of_loadFile hfile), AuthZPEClient.lastEntry,
            AuthZPEClient.lastEntry, List.foldl_cons, hfile]
        · have hother : ¬ zpe.isFor domain file = true := by
            intro hfor
            have hname := isFor_of_loadFile hfile
            unfold AuthZPEClient.isFor at hfor hname
            split at hfor
            · rename_i hverified
              rw [hverified] at hname
              have hboth := (of_decide_eq_true hfor).symm.trans (of_decide_eq_true hname)
              exact hdomain (Option.some.inj hboth)
            · cases hfor
          rw [if_neg hdomain, if_neg hother]

theorem resolve_miss (files : List PolicyFile) (domain : Str) :
    zpe.resolve files domain none =
      match zpe.firstThrown files with
      | some thrown => .error thrown
      | none => .ok ((zpe.lastEntry (zpe.filesFor domain files) none).bind CacheEntry.maps) := by
  rw [AuthZPEClient.resolve, loaded_eq, ← AuthZPEClient.firstThrown, AuthZPEClient.filesFor]
  cases zpe.firstThrown files with
  | some thrown => rfl
  | none => rfl

end Files

section Decisions

variable {Key : Type} {zpe : AuthZPEClient Key}

theorem checkDenyAssertion_thrown (action resource : Str) (roles : List Str)
    (status : AccessCheckStatus)
    (h : zpe.resolve files domain (cache.get now domain) = .error thrown) :
    (zpe.checkDenyAssertion now files action domain resource roles status cache).1 =
      .error thrown := by
  have hfst := lookup_fst zpe now files domain cache
  rw [h] at hfst
  unfold AuthZPEClient.checkDenyAssertion AuthZPEClient.consultNext
  split
  · rename_i heq
    rw [heq] at hfst
    cases hfst
    rfl
  · rename_i heq
    rw [heq] at hfst
    cases hfst

theorem consultNext_throws {next : AccessCheckStatus → Cache → Except Thrown Answer × Cache}
    (hhit : ∀ roleMap, Throws .deciding (hit roleMap))
    (hnext : ∀ status cache, zpe.resolve files domain (cache.get now domain) = .ok maps →
      Throws .deciding (next status cache).1)
    (status : AccessCheckStatus) (cache : Cache)
    (h : zpe.resolve files domain (cache.get now domain) = .ok maps) :
    Throws .deciding
      (zpe.consultNext now files domain select hit result next status cache).1 := by
  have hfst := lookup_fst zpe now files domain cache
  unfold AuthZPEClient.consultNext
  cases hlookup : zpe.lookupPolicyInCache now files domain cache with
  | mk looked after =>
    rw [hlookup, h] at hfst
    cases hfst
    dsimp only
    split
    · rename_i thrown hconsult
      exact Only.error_iff.2 (throws_consult hhit _ _ thrown hconsult)
    · exact Only.ok _
    · exact hnext _ _ (resolve_lookup hlookup)

/-- Once the policies of its domain are found, a decision has only exceptions of its own. -/
theorem checkDenyAssertion_throws (action resource : Str) (roles : List Str)
    (status : AccessCheckStatus) (cache : Cache)
    (h : zpe.resolve files domain (cache.get now domain) = .ok maps) :
    Throws .deciding
      (zpe.checkDenyAssertion now files action domain resource roles status cache).1 := by
  apply consultNext_throws (fun roleMap => throws_actionByRole action resource roleMap roles) _ _ _ h
  apply consultNext_throws fun roleMap => throws_actionByWildcardRole action resource roleMap roles
  apply consultNext_throws fun roleMap => throws_actionByRole action resource roleMap roles
  apply consultNext_throws fun roleMap => throws_actionByWildcardRole action resource roleMap roles
  intro status cache _
  exact Only.ok _

/-- Two directories with the same documents for a domain decide alike, where both are loaded,
exactly when their first exceptions are the same. -/
theorem checkDenyAssertion_isolated (action resource : Str) (roles : List Str)
    (status : AccessCheckStatus) (hmiss : cache.get now domain = none)
    (hagree : zpe.filesFor domain files = zpe.filesFor domain files') :
    (zpe.checkDenyAssertion now files action domain resource roles status cache).1 =
        (zpe.checkDenyAssertion now files' action domain resource roles status cache).1 ↔
      zpe.firstThrown files = zpe.firstThrown files' := by
  have hresolve := resolve_miss zpe files domain
  have hresolve' := resolve_miss zpe files' domain
  rw [← hmiss] at hresolve hresolve'
  constructor
  · intro hsame
    cases hthrown : zpe.firstThrown files with
    | some thrown =>
      rw [hthrown] at hresolve
      rw [checkDenyAssertion_thrown _ _ _ _ hresolve] at hsame
      cases hthrown' : zpe.firstThrown files' with
      | some thrown' =>
        rw [hthrown'] at hresolve'
        rw [checkDenyAssertion_thrown _ _ _ _ hresolve'] at hsame
        cases hsame
        rfl
      | none =>
        rw [hthrown'] at hresolve'
        have hdeciding := checkDenyAssertion_throws action resource roles status _ hresolve' _ hsame.symm
        have hloading := throws_resolve zpe files domain _ _ hresolve
        exact absurd (hdeciding.symm.trans hloading) (by decide)
    | none =>
      rw [hthrown] at hresolve
      cases hthrown' : zpe.firstThrown files' with
      | none => rfl
      | some thrown' =>
        rw [hthrown'] at hresolve'
        rw [checkDenyAssertion_thrown _ _ _ _ hresolve'] at hsame
        have hdeciding := checkDenyAssertion_throws action resource roles status _ hresolve _ hsame
        have hloading := throws_resolve zpe files' domain _ _ hresolve'
        exact absurd (hdeciding.symm.trans hloading) (by decide)
  · intro hthrown
    apply checkDenyAssertion_alike
    unfold Alike
    rw [hresolve, hresolve', hthrown, hagree]

end Decisions

section Isolation

variable {Key : Type} [CaseRules] (zpe : AuthZPEClient Key)

/-- The token that a call decides about. -/
def AuthZPEClient.presented (now : Int) (params : Params) (cache : Cache) : Option RoleToken :=
  if !params.complete then none
  else
    match cache.get now (params.roleToken.getD []) with
    | some (.token rToken) => some rToken
    | some (.policies _) => none
    | none =>
      match zpe.authenticate now (params.roleToken.getD []) with
      | .ok (.ok rToken) => some rToken
      | _ => none

/-- The token has roles and a domain, and the resource is one of that domain. -/
def Reaches (rToken : RoleToken) (domain resource : Str) : Prop :=
  ¬ rToken.roles.all (· = []) = true ∧ domain ≠ [] ∧
    ∃ c rest, Zpe.stripDomainPrefix (toLowerCase resource) domain none = some (c :: rest)

/-- The call decides about a token of the domain whose policies the cache does not have. -/
def AuthZPEClient.Loads (now : Int) (params : Params) (cache : Cache) (domain : Str) : Prop :=
  cache.get now domain = none ∧ ∃ rToken, zpe.presented now params cache = some rToken ∧
    Reaches rToken domain (params.resource.getD [])

variable {zpe}

omit [CaseRules] in
theorem truthy_some (h : text ≠ []) : truthy (some text) = true := decide_eq_true h

/-- A call that reaches the policies of its domain is the decision about them. -/
theorem allowToken_reaches {rToken : RoleToken} (hdomain : rToken.domain = some domain)
    (haction : action ≠ []) (hresource : resource ≠ []) (h : Reaches rToken domain resource) :
    ∃ stripped, ∀ files, zpe.allowToken now files action resource rToken cache =
      zpe.checkDenyAssertion now files (toLowerCase action) domain stripped (rToken.roles.getD [])
        .DENY_DOMAIN_NOT_FOUND cache := by
  obtain ⟨hroles, hname, c, rest, hstrip⟩ := h
  refine ⟨c :: rest, fun files => ?_⟩
  unfold AuthZPEClient.allowToken AuthZPEClient.allowActionZPE
  rw [if_neg hroles, hdomain, truthy_some hname, Bool.not_true, if_neg Bool.false_ne_true,
    if_neg haction, if_neg hresource]
  dsimp only [Option.getD_some]
  rw [hstrip]

/-- Every other call reads no file. -/
theorem allowToken_stops {rToken : RoleToken} (hdomain : rToken.domain = some domain)
    (h : ¬ Reaches rToken domain resource) (files files' : List PolicyFile) :
    zpe.allowToken now files action resource rToken cache =
      zpe.allowToken now files' action resource rToken cache := by
  unfold AuthZPEClient.allowToken AuthZPEClient.allowActionZPE
  rw [hdomain]
  dsimp only
  split
  · rfl
  rename_i hroles
  split
  · rfl
  rename_i htruthy
  split
  · rfl
  split
  · rfl
  rw [Option.getD_some]
  cases hstrip : Zpe.stripDomainPrefix (toLowerCase resource) domain none with
  | none => rfl
  | some stripped =>
    cases stripped with
    | nil => rfl
    | cons c rest =>
      apply absurd _ h
      refine ⟨hroles, ?_, c, rest, hstrip⟩
      rintro rfl
      exact htruthy rfl

theorem allowToken_isolated {rToken : RoleToken} (hdomain : rToken.domain = some domain)
    (haction : action ≠ []) (hresource : resource ≠ [])
    (hagree : zpe.filesFor domain files = zpe.filesFor domain files') :
    (zpe.allowToken now files action resource rToken cache).1 =
        (zpe.allowToken now files' action resource rToken cache).1 ↔
      (cache.get now domain = none → Reaches rToken domain resource →
        zpe.firstThrown files = zpe.firstThrown files') := by
  cases hget : cache.get now domain with
  | some entry =>
    simp only [reduceCtorEq, false_implies, iff_true]
    apply allowActionZPE_alike
    intro name hname
    cases hdomain.symm.trans hname
    unfold Alike
    rw [hget]
    rfl
  | none =>
    rw [forall_prop_of_true rfl]
    by_cases hreaches : Reaches rToken domain resource
    · obtain ⟨stripped, heq⟩ :=
        allowToken_reaches hdomain haction hresource hreaches
      rw [heq, heq, forall_prop_of_true hreaches]
      exact checkDenyAssertion_isolated _ _ _ _ hget hagree
    · rw [allowToken_stops hdomain hreaches files files']
      exact iff_of_true rfl fun h => absurd h hreaches

theorem loads_iff {params : Params} (hpresented : zpe.presented now params cache = some rToken) :
    (zpe.Loads now params cache domain → P) ↔
      (cache.get now domain = none → Reaches rToken domain (params.resource.getD []) → P) := by
  unfold AuthZPEClient.Loads
  rw [hpresented]
  constructor
  · intro h hget hreaches
    exact h ⟨hget, rToken, rfl, hreaches⟩
  · rintro h ⟨hget, _, ⟨⟩, hreaches⟩
    exact h hget hreaches

theorem not_loads {params : Params} (hpresented : zpe.presented now params cache = none) :
    ¬ zpe.Loads now params cache domain := by
  rintro ⟨_, rToken, hsome, _⟩
  rw [hpresented] at hsome
  cases hsome

omit [CaseRules] in
theorem complete_ne_nil {params : Params} (h : params.complete = true) :
    params.resource.getD [] ≠ [] ∧ params.action.getD [] ≠ [] := by
  have htext : ∀ text : Option Str, truthy text = true → text.getD [] ≠ [] := by
    intro text htext
    cases text with
    | none => cases htext
    | some text => exact of_decide_eq_true htext
  unfold Params.complete at h
  rw [Bool.and_eq_true, Bool.and_eq_true] at h
  exact ⟨htext _ h.1.2, htext _ h.2⟩

/-- Two directories with the same documents for the token's domain give a call the same result
exactly when it loads neither, or when their first exceptions are the same. -/
theorem allowAccess_isolated_iff (zpe : AuthZPEClient Key) (now : Int) (params : Params)
    (cache : Cache) (domain : Str) (files files' : List PolicyFile)
    (hdomain : ∀ rToken ∈ zpe.presented now params cache, rToken.domain = some domain)
    (hagree : zpe.filesFor domain files = zpe.filesFor domain files') :
    (zpe.allowAccess now files params cache).1 = (zpe.allowAccess now files' params cache).1 ↔
      (zpe.Loads now params cache domain → zpe.firstThrown files = zpe.firstThrown files') := by
  unfold AuthZPEClient.allowAccess AuthZPEClient.allowAccessWith
  cases hcomplete : params.complete with
  | false =>
    apply iff_of_true rfl
    intro hloads
    apply absurd hloads
    apply not_loads
    rw [AuthZPEClient.presented, hcomplete]
    rfl
  | true =>
    obtain ⟨hresource, haction⟩ := complete_ne_nil hcomplete
    simp only [Bool.not_true, Bool.false_eq_true, ↓reduceIte]
    unfold AuthZPEClient.allowAccessCached
    have hpresented : ∀ found, zpe.presented now params cache = found →
        found = match cache.get now (params.roleToken.getD []) with
          | some (.token rToken) => some rToken
          | some (.policies _) => none
          | none =>
            match zpe.authenticate now (params.roleToken.getD []) with
            | .ok (.ok rToken) => some rToken
            | _ => none := by
      rintro _ rfl
      rw [AuthZPEClient.presented, hcomplete]
      rfl
    replace hpresented := hpresented _ rfl
    cases hget : cache.get now (params.roleToken.getD []) with
    | some entry =>
      rw [hget] at hpresented
      cases entry with
      | token rToken =>
        rw [loads_iff hpresented]
        exact allowToken_isolated (hdomain rToken hpresented) haction hresource hagree
      | policies maps => exact iff_of_true rfl fun hloads => absurd hloads (not_loads hpresented)
    | none =>
      rw [hget] at hpresented
      dsimp only at hpresented ⊢
      cases hauthenticate : zpe.authenticate now (params.roleToken.getD []) with
      | error thrown =>
        rw [hauthenticate] at hpresented
        exact iff_of_true rfl fun hloads => absurd hloads (not_loads hpresented)
      | ok authenticated =>
        rw [hauthenticate] at hpresented
        cases authenticated with
        | error answer => exact iff_of_true rfl fun hloads => absurd hloads (not_loads hpresented)
        | ok rToken =>
          obtain ⟨hparse, hvalid⟩ := authenticate_ok hauthenticate
          rw [Token.validate_eq, Bool.and_eq_true] at hvalid
          have hne := domain_ne_text hparse hvalid.2 (hdomain rToken hpresented)
          rw [loads_iff hpresented, ← Expiring.get_put_ne hne]
          exact allowToken_isolated (hdomain rToken hpresented) haction hresource hagree

end Isolation

section Samples

local instance filesCase : CaseRules := .ascii

/-- A file that is skipped, and one which is not JSON. -/
def emptyPolicyFile : PolicyFile := ⟨"weather.pol", some .null⟩

def brokenPolicyFile : PolicyFile := ⟨"media.pol", none⟩

theorem allowAccess_isolated_skipped :
    (sampleZpe.allowAccess 150000 [emptyPolicyFile, samplePolicyFile]
        (sampleParams sampleRoleToken) ∅).1 =
      (sampleZpe.allowAccess 150000 [samplePolicyFile] (sampleParams sampleRoleToken) ∅).1 := by
  apply (allowAccess_isolated_iff sampleZpe 150000 (sampleParams sampleRoleToken) ∅ "sports"
    [emptyPolicyFile, samplePolicyFile] [samplePolicyFile] ?_ ?_).2
  · intro _
    decide +kernel
  · have hdomain : (sampleZpe.presented 150000 (sampleParams sampleRoleToken) ∅).all
        (fun rToken => rToken.domain = some ↑"sports") = true := by decide +kernel
    intro rToken hpresented
    exact of_decide_eq_true ((Option.all_eq_true _ _).1 hdomain rToken hpresented)
  · exact filesFor_cons _ (by decide +kernel)

/-- A file of another domain, cut short, makes the calls about every other domain throw. -/
theorem broken_file_throws :
    sampleZpe.filesFor "sports" [brokenPolicyFile, samplePolicyFile] =
        sampleZpe.filesFor "sports" [samplePolicyFile] ∧
      (sampleZpe.allowAccess 150000 [samplePolicyFile] (sampleParams sampleRoleToken) ∅).1 =
        .ok ⟨none, .ALLOW⟩ ∧
      (sampleZpe.allowAccess 150000 [brokenPolicyFile, samplePolicyFile]
        (sampleParams sampleRoleToken) ∅).1 = .error .syntaxError := by
  refine ⟨?_, ?_, ?_⟩
  · exact filesFor_cons _ (by decide +kernel)
  · decide +kernel
  · decide +kernel

end Samples

end Athenz.Node
