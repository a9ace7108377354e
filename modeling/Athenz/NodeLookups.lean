import Athenz.NodeZpe

namespace Athenz.Node
open Lib Lib.Text Lib.Number Lib.Signature Lib.Result
set_option autoImplicit true

section Errors

/-- Where an exception can come from: a file, a decision, a cached value or the text of a token. -/
inductive Stage where
  | loading | deciding | cached | parsing
deriving DecidableEq

def Thrown.stage : Thrown → Stage
  | .notIterable expression => if expression = "asserts" then .deciding else .loading
  | .notFunction expression =>
    if expression = "value.substring" then .deciding
    else if expression = "rToken.getDomain" then .cached
    else .loading
  | .error _ => .parsing
  | _ => .loading

/-- Every exception of a computation comes from one stage. -/
abbrev Throws (stage : Stage) (x : Except Thrown α) : Prop := Only (·.stage = stage) x

theorem throws_property (name : Str) (value : Option Json) :
    Throws .loading (Json.property name value) := by
  unfold Json.property
  split <;> simp only [Only.ok, Only.error_iff, Thrown.stage]

theorem throws_getMatchObject (value : Option Json) : Throws .loading (getMatchObject value) := by
  unfold getMatchObject
  split
  all_goals simp only [Only.ok, Only.error_iff, Thrown.stage]
  decide

theorem throws_stripAssertString (domainName value : Option Json) :
    Throws .loading (stripAssertString domainName value) := by
  unfold stripAssertString
  repeat' split
  all_goals simp only [Only.ok, Only.error_iff, Thrown.stage]
  all_goals decide

theorem throws_stripRole (value : Option Json) : Throws .loading (stripRole value) := by
  unfold stripRole
  split
  · exact Only.ok _
  · exact Only.error_iff.2 (by decide)

theorem throws_makeAssert (domainName assertion : Option Json) :
    Throws .loading (makeAssert domainName assertion) := by
  unfold makeAssert
  apply (throws_property _ _).bind
  intro action
  apply (throws_getMatchObject _).bind
  intro actionMatchStruct
  apply (throws_property _ _).bind
  intro resource
  apply (throws_stripAssertString _ _).bind
  intro resource
  apply (throws_getMatchObject _).bind
  intro resourceMatchStruct
  apply (throws_property _ _).bind
  intro role
  apply (throws_stripAssertString _ _).bind
  intro role
  apply (throws_stripRole _).bind
  intro role
  exact Only.ok _

theorem throws_pushAssert (assert : Assert) (roleMap : RoleMap) :
    Throws .loading (pushAssert assert roleMap) := by
  unfold pushAssert
  split
  · exact Only.ok _
  · split
    · exact Only.error_iff.2 (by decide)
    · exact Only.ok _

theorem throws_addAssertion (domainName : Option Json) (maps : RoleMaps) (assertion : Json) :
    Throws .loading (addAssertion domainName maps assertion) := by
  unfold addAssertion
  apply (throws_makeAssert _ _).bind
  intro assert
  apply (throws_property _ _).bind
  intro effect
  unfold pushAssertion
  repeat' split
  all_goals exact (throws_pushAssert _ _).map

theorem throws_iterate (h : expression ≠ ↑"asserts") (value : Option Json) :
    Throws .loading (Json.iterate expression value) := by
  unfold Json.iterate
  split
  · exact Only.ok _
  · exact Only.ok _
  · exact Only.error_iff.2 (if_neg h)

theorem throws_addPolicy (domainName : Option Json) (maps : RoleMaps) (policy : Json) :
    Throws .loading (addPolicy domainName maps policy) := by
  unfold addPolicy
  apply (throws_property _ _).bind
  intro assertions
  split
  · exact Only.ok _
  · apply (throws_iterate (by decide) _).bind
    intro assertions
    exact Only.foldlM (throws_addAssertion _) _ _

theorem throws_loadPolicies (policyData : Option Json) : Throws .loading (loadPolicies policyData) := by
  unfold loadPolicies
  apply (throws_property _ _).bind
  intro domainName
  apply (throws_property _ _).bind
  intro policies
  apply (throws_iterate (by decide) _).bind
  intro policies
  apply (Only.foldlM (throws_addPolicy _) _ _).bind
  intro maps
  exact Only.ok _

mutual

theorem throws_canonical (json : Json) : Throws .loading (asCanonicalString json) := by
  cases json with
  | null => exact Only.error_iff.2 rfl
  | boolean value => exact Only.ok _
  | number text => exact Only.ok _
  | string text => exact Only.ok _
  | array items =>
    rw [asCanonicalString]
    exact (throws_canonicalItems items).map
  | object fields =>
    rw [asCanonicalString]
    exact (throws_canonicalFields fields).map

theorem throws_canonicalFields (fields : List (Str × Json)) :
    Throws .loading (canonicalFields fields) := by
  match fields with
  | [] =>
    rw [canonicalFields]
    exact Only.ok _
  | (key, value) :: fields =>
    rw [canonicalFields]
    exact (throws_canonical value).bind fun _ => (throws_canonicalFields fields).bind fun _ =>
      Only.ok _

theorem throws_canonicalItems (items : List Json) : Throws .loading (canonicalItems items) := by
  match items with
  | [] =>
    rw [canonicalItems]
    exact Only.ok _
  | item :: items =>
    rw [canonicalItems]
    exact (throws_canonical item).bind fun _ => (throws_canonicalItems items).bind fun _ => Only.ok _

end

variable {Key : Type} (zpe : AuthZPEClient Key)

theorem throws_verifyData (missing : Bool) (key : Option Key) (signature value : Option Json) :
    Throws .loading (zpe.verifyData missing key signature value) := by
  unfold AuthZPEClient.verifyData
  split
  · exact Only.ok _
  · split
    · apply (throws_canonical _).bind
      intro message
      unfold AuthZPEClient.verify
      repeat' split
      · exact Only.error_iff.2 rfl
      · exact Only.ok _
      · exact Only.error_iff.2 rfl
    · exact Only.ok _

theorem throws_verifiedData (file : PolicyFile) : Throws .loading (zpe.verifiedData file) := by
  unfold AuthZPEClient.verifiedData
  apply Only.bind
  · unfold PolicyFile.parse
    split
    · exact Only.error_iff.2 rfl
    · exact Only.ok _
  · intro spols
    split
    · exact Only.ok _
    · apply (throws_property _ _).bind
      intro signedPolicyData
      apply (throws_property _ _).bind
      intro signature
      apply (throws_property _ _).bind
      intro keyId
      apply (throws_verifyData zpe _ _ _ _).bind
      intro verified
      split
      · exact Only.ok _
      · apply (throws_property _ _).bind
        intro policyData
        apply (throws_property _ _).bind
        intro signature
        apply (throws_property _ _).bind
        intro keyId
        apply (throws_verifyData zpe _ _ _ _).bind
        intro verified
        split
        · exact Only.ok _
        · exact Only.ok _

theorem throws_loadFile (file : PolicyFile) : Throws .loading (zpe.loadFile file) := by
  unfold AuthZPEClient.loadFile
  apply (throws_verifiedData zpe file).bind
  intro verified
  split
  · exact Only.ok _
  · exact (throws_loadPolicies _).map

theorem throws_matches (pattern : ZPEMatch) (value : Str) :
    Throws .deciding (pattern.matches value) := by
  cases pattern with
  | broken => exact Only.error_iff.2 (by decide)
  | _ => exact Only.ok _

theorem throws_matchAssertion (action resource : Str) (asserts : List Assert) :
    Throws .deciding (matchAssertion action resource asserts) := by
  induction asserts with
  | nil => exact Only.ok _
  | cons assert asserts ih =>
    rw [matchAssertion]
    apply (throws_matches _ _).bind
    intro matched
    split
    · exact ih
    · apply (throws_matches _ _).bind
      intro matched
      split
      · exact ih
      · exact Only.ok _

theorem throws_actionByRole (action resource : Str) (roleMap : RoleMap) (roles : List Str) :
    Throws .deciding (actionByRole action resource roleMap roles) := by
  induction roles with
  | nil => exact Only.ok _
  | cons role roles ih =>
    rw [actionByRole]
    apply Only.bind
    · unfold assertsOf
      split
      · exact Only.ok _
      · split
        · exact Only.error_iff.2 (by decide)
        · exact Only.ok _
    · intro asserts
      apply (throws_matchAssertion _ _ _).bind
      intro found
      split
      · exact Only.ok _
      · exact ih

theorem throws_actionByEntries (action resource role : Str) (entries : RoleMap) :
    Throws .deciding (actionByEntries action resource role entries) := by
  induction entries with
  | nil => exact Only.ok _
  | cons entry entries ih =>
    obtain ⟨name, asserts⟩ := entry
    cases asserts with
    | nil => exact ih
    | cons assert asserts =>
      rw [actionByEntries]
      apply (throws_matches _ _).bind
      intro matched
      split
      · exact ih
      · apply (throws_matchAssertion _ _ _).bind
        intro found
        split
        · exact Only.ok _
        · exact ih

theorem throws_actionByWildcardRole (action resource : Str) (roleMap : RoleMap) (roles : List Str) :
    Throws .deciding (actionByWildcardRole action resource roleMap roles) := by
  induction roles with
  | nil => exact Only.ok _
  | cons role roles ih =>
    rw [actionByWildcardRole]
    apply (throws_actionByEntries _ _ _ _).bind
    intro found
    split
    · exact Only.ok _
    · exact ih

theorem throws_consult {hit : RoleMap → Except Thrown Bool} (h : ∀ roleMap, Throws .deciding (hit roleMap))
    (roleMap : Option RoleMap) (status : AccessCheckStatus) :
    Throws .deciding (consult hit roleMap status) := by
  unfold consult
  split
  · exact Only.ok _
  · split
    · exact (h _).map
    · exact Only.ok _

end Errors

section Resolve

variable {Key : Type} (zpe : AuthZPEClient Key)

/-- What the cache has for a domain after a loop over files. -/
def AuthZPEClient.loaded (domain : Str) :
    List PolicyFile → Option CacheEntry → Except Thrown (Option CacheEntry)
  | [], entry => .ok entry
  | file :: files, entry =>
    match zpe.loadFile file with
    | .error thrown => .error thrown
    | .ok none => loaded domain files entry
    | .ok (some (domainName, maps)) =>
      loaded domain files (if domain = domainName then some (.policies maps) else entry)

theorem loadEach_loaded (now : Int) (domain : Str) (files : List PolicyFile) (cache : Cache) :
    (zpe.loadEach now files cache).1.map (fun _ => (zpe.loadEach now files cache).2.get now domain) =
      zpe.loaded domain files (cache.get now domain) := by
  induction files generalizing cache with
  | nil => rfl
  | cons file files ih =>
    rw [AuthZPEClient.loadEach, AuthZPEClient.loaded]
    cases zpe.loadFile file with
    | error thrown => rfl
    | ok found =>
      cases found with
      | none => exact ih cache
      | some found =>
        dsimp only
        rw [ih, AuthZPEClient.putPolicies]
        by_cases hdomain : domain = found.1
        · rw [hdomain, Expiring.get_put, if_pos rfl]
        · rw [Expiring.get_put_ne hdomain, if_neg hdomain]

/-- The answer to a look-up of a domain, by what the cache has for it. -/
def AuthZPEClient.resolve (files : List PolicyFile) (domain : Str) :
    Option CacheEntry → Except Thrown (Option RoleMaps)
  | some entry => .ok entry.maps
  | none =>
    (zpe.loaded domain (files.filter isPolicyFile) none).map (·.bind CacheEntry.maps)

theorem lookup_fst (now : Int) (files : List PolicyFile) (domain : Str) (cache : Cache) :
    (zpe.lookupPolicyInCache now files domain cache).1 =
      zpe.resolve files domain (cache.get now domain) := by
  unfold AuthZPEClient.lookupPolicyInCache
  cases hget : cache.get now domain with
  | some entry => rfl
  | none =>
    have hload := loadEach_loaded zpe now domain (files.filter isPolicyFile) cache
    rw [hget] at hload
    rw [AuthZPEClient.resolve, ← hload, AuthZPEClient.loadFiles]
    obtain ⟨loads, after⟩ := zpe.loadEach now (files.filter isPolicyFile) cache
    cases loads with
    | error thrown => rfl
    | ok done => rfl

/-- A look-up that answered answers the same again. -/
theorem resolve_lookup {zpe : AuthZPEClient Key}
    (h : zpe.lookupPolicyInCache now files domain cache = (.ok maps, after)) :
    zpe.resolve files domain (after.get now domain) = .ok maps := by
  unfold AuthZPEClient.lookupPolicyInCache at h
  cases hget : cache.get now domain with
  | some entry =>
    rw [hget] at h
    cases h
    rw [hget]
    rfl
  | none =>
    have hload := loadEach_loaded zpe now domain (files.filter isPolicyFile) cache
    rw [hget] at h hload
    dsimp only at h
    rw [AuthZPEClient.loadFiles] at h
    cases heach : zpe.loadEach now (files.filter isPolicyFile) cache with
    | mk loads found =>
      rw [heach] at h hload
      cases loads with
      | error thrown => cases h
      | ok done =>
        cases h
        cases hfound : after.get now domain with
        | some entry => rfl
        | none =>
          rw [AuthZPEClient.resolve, ← hload, Except.map, hfound]
          rfl

end Resolve

section Congruence

variable {Key : Type} {zpe : AuthZPEClient Key} {now : Int} {files files' : List PolicyFile}

/-- Two caches and two directories that answer a look-up of a domain alike. -/
def Alike (zpe : AuthZPEClient Key) (now : Int) (domain : Str) (files files' : List PolicyFile)
    (cache cache' : Cache) : Prop :=
  zpe.resolve files domain (cache.get now domain) = zpe.resolve files' domain (cache'.get now domain)

theorem consultNext_alike {next next' : AccessCheckStatus → Cache → Except Thrown Answer × Cache}
    (hnext : ∀ status cache cache', Alike zpe now domain files files' cache cache' →
      (next status cache).1 = (next' status cache').1)
    (status : AccessCheckStatus) (h : Alike zpe now domain files files' cache cache') :
    (zpe.consultNext now files domain select hit result next status cache).1 =
      (zpe.consultNext now files' domain select hit result next' status cache').1 := by
  have hfst := lookup_fst zpe now files domain cache
  have hfst' := lookup_fst zpe now files' domain cache'
  unfold AuthZPEClient.consultNext
  cases hlookup : zpe.lookupPolicyInCache now files domain cache with
  | mk looked after =>
    cases hlookup' : zpe.lookupPolicyInCache now files' domain cache' with
    | mk looked' after' =>
      have hlooked : looked = looked' := by
        rw [hlookup] at hfst
        rw [hlookup'] at hfst'
        exact hfst.trans (h.trans hfst'.symm)
      subst hlooked
      cases looked with
      | error thrown => rfl
      | ok maps =>
        dsimp only
        cases consult hit (maps.map select) status with
        | error thrown => rfl
        | ok answer =>
          cases answer with
          | none => rfl
          | some status =>
            exact hnext status after after' ((resolve_lookup hlookup).trans (resolve_lookup hlookup').symm)

theorem checkDenyAssertion_alike (action resource : Str) (roles : List Str)
    (status : AccessCheckStatus) (h : Alike zpe now domain files files' cache cache') :
    (zpe.checkDenyAssertion now files action domain resource roles status cache).1 =
      (zpe.checkDenyAssertion now files' action domain resource roles status cache').1 := by
  apply consultNext_alike _ status h
  intro status cache cache' h
  apply consultNext_alike _ status h
  intro status cache cache' h
  apply consultNext_alike _ status h
  intro status cache cache' h
  apply consultNext_alike _ status h
  intro status cache cache' _
  rfl

variable [CaseRules]

theorem allowActionZPE_alike (action resource : Str) (domain : Option Str) (roles : Option (List Str))
    (h : ∀ name, domain = some name → Alike zpe now name files files' cache cache') :
    (zpe.allowActionZPE now files action domain resource roles cache).1 =
      (zpe.allowActionZPE now files' action domain resource roles cache').1 := by
  unfold AuthZPEClient.allowActionZPE
  dsimp only
  split
  · rfl
  split
  · rfl
  split
  · rfl
  split
  · rfl
  cases domain with
  | none => contradiction
  | some name =>
    dsimp only [Option.getD_some]
    split
    · rfl
    · rfl
    · exact checkDenyAssertion_alike _ _ _ _ (h name rfl)

end Congruence

section Answers

variable {Key : Type} (zpe : AuthZPEClient Key)

/-- A result that a decision can have: its exceptions come from files and assertions, and its
answers carry no text, or one about the action. -/
def Decided (result : Except Thrown Answer) : Prop :=
  (∀ thrown, result = .error thrown → thrown.stage = .loading ∨ thrown.stage = .deciding) ∧
    ∀ answer, result = .ok answer → ∀ text ∈ answer.error, text.head? = some 'a'

theorem Decided.answer (status : AccessCheckStatus) : Decided (.ok ⟨none, status⟩) := by
  refine ⟨nofun, ?_⟩
  rintro answer ⟨⟩ text htext
  cases htext

theorem Decided.message (text : Str) (status : AccessCheckStatus) :
    Decided (.ok ⟨some ('a' :: text), status⟩) := by
  refine ⟨nofun, ?_⟩
  rintro answer ⟨⟩ text ⟨⟩
  rfl

theorem throws_loaded (domain : Str) (files : List PolicyFile) (entry : Option CacheEntry) :
    Throws .loading (zpe.loaded domain files entry) := by
  induction files generalizing entry with
  | nil => exact Only.ok _
  | cons file files ih =>
    rw [AuthZPEClient.loaded]
    split
    · rename_i thrown hfile
      exact Only.error_iff.2 (throws_loadFile zpe file thrown hfile)
    · exact ih entry
    · exact ih _

theorem throws_resolve (files : List PolicyFile) (domain : Str) (entry : Option CacheEntry) :
    Throws .loading (zpe.resolve files domain entry) := by
  cases entry with
  | some entry => exact Only.ok _
  | none => exact (throws_loaded zpe _ _ _).map

theorem consultNext_decided {next : AccessCheckStatus → Cache → Except Thrown Answer × Cache}
    (hhit : ∀ roleMap, Throws .deciding (hit roleMap))
    (hnext : ∀ status cache, Decided (next status cache).1) (status : AccessCheckStatus)
    (cache : Cache) :
    Decided (zpe.consultNext now files domain select hit result next status cache).1 := by
  have hfst := lookup_fst zpe now files domain cache
  unfold AuthZPEClient.consultNext
  split
  · rename_i thrown after hlookup
    rw [hlookup] at hfst
    refine ⟨?_, nofun⟩
    rintro _ ⟨⟩
    exact .inl (throws_resolve zpe _ _ _ thrown hfst.symm)
  · split
    · rename_i thrown hconsult
      refine ⟨?_, nofun⟩
      rintro _ ⟨⟩
      exact .inr (throws_consult hhit _ _ thrown hconsult)
    · exact Decided.answer _
    · exact hnext _ _

theorem checkDenyAssertion_decided (now : Int) (files : List PolicyFile)
    (action domain resource : Str) (roles : List Str) (status : AccessCheckStatus) (cache : Cache) :
    Decided (zpe.checkDenyAssertion now files action domain resource roles status cache).1 := by
  apply consultNext_decided zpe fun roleMap => throws_actionByRole action resource roleMap roles
  apply consultNext_decided zpe fun roleMap => throws_actionByWildcardRole action resource roleMap roles
  apply consultNext_decided zpe fun roleMap => throws_actionByRole action resource roleMap roles
  apply consultNext_decided zpe fun roleMap => throws_actionByWildcardRole action resource roleMap roles
  intro status cache
  exact Decided.answer status

variable [CaseRules]

theorem allowActionZPE_decided (now : Int) (files : List PolicyFile) (action : Str)
    (domain : Option Str) (resource : Str) (roles : Option (List Str)) (cache : Cache) :
    Decided (zpe.allowActionZPE now files action domain resource roles cache).1 := by
  unfold AuthZPEClient.allowActionZPE
  dsimp only
  split
  · exact Decided.message _ _
  split
  · exact Decided.message _ _
  split
  · exact Decided.message _ _
  split
  · exact Decided.message _ _
  split
  · exact Decided.message _ _
  · exact Decided.message _ _
  · exact checkDenyAssertion_decided zpe _ _ _ _ _ _ _ _

end Answers

end Athenz.Node
