import Athenz.NodeLookups

namespace Athenz.Node
open Lib Lib.Text Lib.Number Lib.Signature Lib.Assign Lib.Result
set_option autoImplicit true

section Validate

/-- The checks of `Token.validate` that read the clock. -/
def Token.timely (config : Config) (now allowedOffset : JsNumber) (allowNoExpiry : Bool)
    (token : Token) : Bool :=
  !(token.timestamp ≠ 0 && lt now (sub token.timestamp allowedOffset)) &&
    !((token.expiryTime ≠ 0 || !config.tokenNoExpiry || !allowNoExpiry) &&
      (lt token.expiryTime now ||
        lt (add (add now config.ATHENZ_TOKEN_MAX_EXPIRY) allowedOffset) token.expiryTime))

/-- The other checks. -/
def Token.authentic (crypto : Scheme Key) (publicKey : Option Key) (token : Token) : Bool :=
  match token.unsignedToken, token.signature, publicKey with
  | some unsignedToken, some signature, some key =>
    truthy token.unsignedToken && truthy token.signature &&
      crypto.verify unsignedToken key signature
  | _, _, _ => false

theorem Token.validate_eq (crypto : Scheme Key) (config : Config) (now : JsNumber)
    (publicKey : Option Key) (allowedOffset : JsNumber) (allowNoExpiry : Bool) (token : Token) :
    token.validate crypto config now publicKey allowedOffset allowNoExpiry =
      (token.timely config now allowedOffset allowNoExpiry && token.authentic crypto publicKey) := by
  unfold validate
  split
  · rename_i unsignedToken signature key hunsigned hsignature
    unfold authentic
    rw [hunsigned, hsignature, ← Bool.not_and]
    cases truthy (some unsignedToken) && truthy (some signature) with
    | false => simp only [Bool.not_false, ↓reduceIte, Bool.false_and, Bool.and_false]
    | true =>
      simp only [timely, Bool.not_true, Bool.false_eq_true, ↓reduceIte, Bool.true_and]
      split
      · rename_i htime
        simp only [htime, Bool.not_true, Bool.false_and]
      · rename_i htime
        rw [Bool.not_eq_true] at htime
        split
        · rename_i hexpiry
          simp only [hexpiry, Bool.not_true, Bool.and_false, Bool.false_and]
        · rename_i hexpiry
          rw [Bool.not_eq_true] at hexpiry
          simp only [htime, hexpiry, Bool.not_false, Bool.true_and]
  · rename_i hnone
    symm
    rw [Bool.and_eq_false_iff]
    right
    unfold authentic
    split
    · rename_i hunsigned hsignature
      exact absurd hsignature (hnone _ _ _ hunsigned · rfl)
    · rfl

theorem signedMessage_of_authentic (hp : RoleToken.parseSignedToken text = .ok rToken)
    (h : rToken.authentic crypto publicKey = true) : ∃ m, signedMessage text = some m := by
  rw [← (RoleToken.parse_ok hp).2]
  unfold Token.authentic at h
  split at h
  · rename_i m _ _ hm _
    exact ⟨m, hm⟩
  · cases h

/-- A token names no domain with a semicolon. -/
theorem semicolon_notMem_domain (hp : RoleToken.parseSignedToken text = .ok rToken)
    (hdomain : rToken.domain = some domain) : ';' ∉ domain := by
  have hattributes := congrArg RoleAttributes.domain (RoleToken.parse_ok hp).1
  rw [scanRole_attributes] at hattributes
  have hmem := mem_of_lastValue (hattributes.symm.trans hdomain)
  obtain ⟨item, hitem, hkey⟩ := List.mem_filterMap.1 hmem
  obtain ⟨piece, hpiece, hsplit⟩ := List.mem_filterMap.1 hitem
  split at hsplit
  · rename_i key value heq
    cases hsplit
    obtain ⟨role, _, hrole⟩ := Option.map_eq_some_iff.1 hkey
    cases hrole
    have hjoin : key ++ '=' :: value = piece := by
      have hpieces : ['='].intercalate (piece.splitOn '=') = piece := List.intercalate_splitOn '='
      rw [← hpieces, heq]
      simp only [List.intercalate_cons_cons, List.intercalate_singleton, List.append_assoc,
        List.cons_append, List.nil_append]
    intro hc
    apply notMem_of_mem_splitOn hpiece
    rw [← hjoin]
    exact List.mem_append_right key (List.mem_cons_of_mem _ hc)
  · cases hsplit

/-- The text of a signed token is not the name of its domain. -/
theorem domain_ne_text (hp : RoleToken.parseSignedToken text = .ok rToken)
    (h : rToken.authentic crypto publicKey = true) (hdomain : rToken.domain = some domain) :
    domain ≠ text := by
  rintro rfl
  obtain ⟨m, hm⟩ := signedMessage_of_authentic hp h
  obtain ⟨i, hi, _⟩ := Option.map_eq_some_iff.1 hm
  exact semicolon_notMem_domain hp hdomain ((infix_of_indexOf hi).subset List.mem_cons_self)

end Validate

section Runs

variable {Key : Type} (zpe : AuthZPEClient Key)

/-- What happens to the cache: calls, loads of a file that changed, and entries that expire. -/
inductive ZpeEvent where
  | allowAccess (files : List PolicyFile) (params : Params)
  | loadFile (file : PolicyFile)
  | expire (key : Str)
  | close

/-- `_loadFile`; an exception leaves the cache as it is. -/
def AuthZPEClient.watchFile (now : Int) (file : PolicyFile) (cache : Cache) : Cache :=
  (zpe.loadEach now [file] cache).2

section Steps

variable [CaseRules]

def AuthZPEClient.step (now : Int) (event : ZpeEvent) (cache : Cache) : Cache :=
  match event with
  | .allowAccess files params => (zpe.allowAccess now files params cache).2
  | .loadFile file => zpe.watchFile now file cache
  | .expire key => cache.del key
  | .close => ∅

/-- A run of events, each at its time. -/
def AuthZPEClient.run (events : List (Int × ZpeEvent)) (cache : Cache) : Cache :=
  events.foldl (fun cache event => zpe.step event.1 event.2 cache) cache

end Steps

def AuthZPEClient.keyOf (rToken : RoleToken) : Option Key :=
  zpe.getZtsPublicKey (some (.string rToken.keyId))

/-- A cached token is the parsed form of its key, and its signature was verified. -/
def AuthZPEClient.Vetted (text : Str) : CacheEntry → Prop
  | .token rToken => RoleToken.parseSignedToken text = .ok rToken ∧
      rToken.authentic zpe.crypto (zpe.keyOf rToken) = true
  | .policies _ => True

variable {zpe}

theorem vetted_policies (text : Str) (maps : RoleMaps) : zpe.Vetted text (.policies maps) := trivial

theorem loadEach_vetted (h : cache.All zpe.Vetted) (now : Int) (files : List PolicyFile) :
    (zpe.loadEach now files cache).2.All zpe.Vetted := by
  induction files generalizing cache with
  | nil => exact h
  | cons file files ih =>
    rw [AuthZPEClient.loadEach]
    split
    · exact h
    · exact ih h
    · apply ih
      exact h.put (vetted_policies _ _) now _

theorem lookup_vetted (h : cache.All zpe.Vetted) (now : Int) (files : List PolicyFile) (domain : Str) :
    (zpe.lookupPolicyInCache now files domain cache).2.All zpe.Vetted := by
  have hload := loadEach_vetted h now (files.filter isPolicyFile)
  unfold AuthZPEClient.lookupPolicyInCache AuthZPEClient.loadFiles
  split
  · exact h
  · split
    · rename_i heach
      rwa [heach] at hload
    · rename_i heach
      rwa [heach] at hload

theorem consultNext_vetted {next : AccessCheckStatus → Cache → Except Thrown Answer × Cache}
    (hnext : ∀ status cache, cache.All zpe.Vetted → (next status cache).2.All zpe.Vetted)
    (status : AccessCheckStatus) (cache : Cache) (h : cache.All zpe.Vetted) :
    (zpe.consultNext now files domain select hit result next status cache).2.All zpe.Vetted := by
  have hlookup := lookup_vetted h now files domain
  unfold AuthZPEClient.consultNext
  split
  · rename_i heq
    rwa [heq] at hlookup
  · rename_i heq
    rw [heq] at hlookup
    split
    · exact hlookup
    · exact hlookup
    · exact hnext _ _ hlookup

theorem checkDenyAssertion_vetted (status : AccessCheckStatus) (cache : Cache)
    (h : cache.All zpe.Vetted) :
    (zpe.checkDenyAssertion now files action domain resource roles status cache).2.All zpe.Vetted := by
  apply consultNext_vetted _ status cache h
  apply consultNext_vetted
  apply consultNext_vetted
  apply consultNext_vetted
  intro status cache h
  exact h

theorem authenticate_ok (h : zpe.authenticate now roleToken = .ok (.ok rToken)) :
    RoleToken.parseSignedToken roleToken = .ok rToken ∧
      rToken.validate zpe.crypto zpe.auth (wholeSeconds now) (zpe.keyOf rToken) zpe.config.offset
        true = true := by
  unfold AuthZPEClient.authenticate at h
  split at h
  · cases h
  · rename_i parsed hparse
    split at h
    · rename_i hvalid
      cases h
      exact ⟨hparse, hvalid⟩
    · split at h <;> cases h

variable [CaseRules]

theorem allowToken_vetted (action resource : Str) (rToken : RoleToken) (h : cache.All zpe.Vetted) :
    (zpe.allowToken now files action resource rToken cache).2.All zpe.Vetted := by
  unfold AuthZPEClient.allowToken AuthZPEClient.allowActionZPE
  dsimp only
  repeat' split
  all_goals first | exact h | exact checkDenyAssertion_vetted _ _ h

theorem allowAccess_vetted (now : Int) (files : List PolicyFile) (params : Params)
    (h : cache.All zpe.Vetted) : (zpe.allowAccess now files params cache).2.All zpe.Vetted := by
  unfold AuthZPEClient.allowAccess AuthZPEClient.allowAccessWith
  split
  · exact h
  · unfold AuthZPEClient.allowAccessCached
    split
    · exact allowToken_vetted _ _ _ h
    · exact h
    · split
      · exact h
      · unfold dropRefused
        split
        · exact h.del _
        · exact h
      · rename_i rToken hauthenticate
        obtain ⟨hparse, hvalid⟩ := authenticate_ok hauthenticate
        rw [Token.validate_eq, Bool.and_eq_true] at hvalid
        have hvetted : zpe.Vetted (params.roleToken.getD []) (.token rToken) := ⟨hparse, hvalid.2⟩
        exact allowToken_vetted _ _ _ (h.put hvetted _ _)

theorem step_vetted (now : Int) (event : ZpeEvent) (h : cache.All zpe.Vetted) :
    (zpe.step now event cache).All zpe.Vetted := by
  cases event with
  | allowAccess files params => exact allowAccess_vetted now files params h
  | loadFile file => exact loadEach_vetted h now [file]
  | expire key => exact h.del key
  | close => exact Expiring.All.empty

theorem run_vetted (events : List (Int × ZpeEvent)) (h : cache.All zpe.Vetted) :
    (zpe.run events cache).All zpe.Vetted := by
  induction events generalizing cache with
  | nil => exact h
  | cons event events ih => exact ih (step_vetted event.1 event.2 h)

end Runs

section Transparency

variable {Key : Type} (zpe : AuthZPEClient Key)

/-- The policies of a cache, without its tokens. -/
def withoutTokens (cache : Cache) : Cache := cache.filter fun _ entry => entry.isPolicies

/-- A cached entry that may stand for a presented text: a token within its times. -/
def AuthZPEClient.Current (now : Int) : CacheEntry → Prop
  | .token rToken =>
    rToken.timely zpe.auth (wholeSeconds now) zpe.config.offset true = true
  | .policies _ => False

/-- The text is a token that passes every check at the time. -/
def AuthZPEClient.Verified (now : Int) (text : Str) : Prop :=
  ∃ rToken, RoleToken.parseSignedToken text = .ok rToken ∧
    rToken.validate zpe.crypto zpe.auth (wholeSeconds now) (zpe.keyOf rToken) zpe.config.offset
      true = true

variable {zpe}

theorem withoutTokens_get (h : cache.All zpe.Vetted) (hname : ';' ∉ name) (now : Int) :
    (withoutTokens cache).get now name = cache.get now name := by
  apply Expiring.get_filter
  intro entry hentry
  have hvetted := h name entry hentry
  cases hvalue : entry.value with
  | policies maps => rfl
  | token rToken =>
    rw [hvalue] at hvetted
    obtain ⟨m, hm⟩ := signedMessage_of_authentic hvetted.1 hvetted.2
    obtain ⟨i, hi, _⟩ := Option.map_eq_some_iff.1 hm
    exact absurd ((infix_of_indexOf hi).subset List.mem_cons_self) hname

theorem authenticate_of_timely (hparse : RoleToken.parseSignedToken text = .ok rToken)
    (hauthentic : rToken.authentic zpe.crypto (zpe.keyOf rToken) = true)
    (htimely : rToken.timely zpe.auth (wholeSeconds now) zpe.config.offset true = true) :
    zpe.authenticate now text = .ok (.ok rToken) := by
  unfold AuthZPEClient.authenticate
  rw [hparse]
  apply if_pos
  rw [Token.validate_eq, Bool.and_eq_true]
  exact ⟨htimely, hauthentic⟩

theorem authenticate_of_not_timely (hparse : RoleToken.parseSignedToken text = .ok rToken)
    (htimely : ¬ rToken.timely zpe.auth (wholeSeconds now) zpe.config.offset true = true) :
    ∃ answer, zpe.authenticate now text = .ok (.error answer) ∧
      ∃ message ∈ answer.error, message.head? = some 'E' := by
  unfold AuthZPEClient.authenticate
  rw [hparse]
  dsimp only
  rw [Token.validate_eq, Bool.eq_false_iff.2 htimely, Bool.false_and, if_neg Bool.false_ne_true]
  split
  · exact ⟨_, rfl, _, rfl, rfl⟩
  · exact ⟨_, rfl, _, rfl, rfl⟩

variable [CaseRules]

/-- The decision about a signed token does not depend on the cached tokens. -/
theorem allowToken_fresh (h : cache.All zpe.Vetted)
    (hparse : RoleToken.parseSignedToken text = .ok rToken)
    (hauthentic : rToken.authentic zpe.crypto (zpe.keyOf rToken) = true)
    (hget : ∀ name, name ≠ text → cache'.get now name = cache.get now name)
    (action resource : Str) (files : List PolicyFile) :
    (zpe.allowToken now files action resource rToken cache').1 =
      (zpe.allowToken now files action resource rToken
        ((withoutTokens cache).put now text (.token rToken) (zpe.config.tokenRefresh * 1000))).1 := by
  apply allowActionZPE_alike
  intro name hname
  have hne := domain_ne_text hparse hauthentic hname
  unfold Alike
  rw [hget name hne, Expiring.get_put_ne hne,
    withoutTokens_get h (semicolon_notMem_domain hparse hname)]

theorem allowToken_decided (zpe : AuthZPEClient Key) (now : Int) (files : List PolicyFile) (action resource : Str)
    (rToken : RoleToken) (cache : Cache) :
    Decided (zpe.allowToken now files action resource rToken cache).1 :=
  allowActionZPE_decided zpe _ _ _ _ _ _ _

/-- A miss decides as the same call does without cached tokens. -/
theorem miss_fresh (h : cache.All zpe.Vetted) (now : Int) (files : List PolicyFile)
    (text resource action : Str) :
    (zpe.allowAccessCached now files text resource action none cache).1 =
      (zpe.allowAccessCached now files text resource action none (withoutTokens cache)).1 := by
  unfold AuthZPEClient.allowAccessCached
  dsimp only
  cases hauthenticate : zpe.authenticate now text with
  | error thrown => rfl
  | ok authenticated =>
    cases authenticated with
    | error answer => rfl
    | ok rToken =>
      obtain ⟨hparse, hvalid⟩ := authenticate_ok hauthenticate
      rw [Token.validate_eq, Bool.and_eq_true] at hvalid
      exact allowToken_fresh h hparse hvalid.2 (fun name hname => Expiring.get_put_ne hname ..) _ _ _

/-- A hit on a token decides so exactly when the token is within its times. -/
theorem hit_token_iff (h : cache.All zpe.Vetted) (hvetted : zpe.Vetted text (.token rToken))
    (now : Int) (files : List PolicyFile) (resource action : Str) :
    (zpe.allowAccessCached now files text resource action (some (.token rToken)) cache).1 =
        (zpe.allowAccessCached now files text resource action none (withoutTokens cache)).1 ↔
      rToken.timely zpe.auth (wholeSeconds now) zpe.config.offset true = true := by
  constructor
  · intro hsame
    by_contra htimely
    obtain ⟨answer, hauthenticate, message, hmessage, hhead⟩ :=
      authenticate_of_not_timely hvetted.1 htimely
    have hdecided := (allowToken_decided zpe now files action resource rToken cache).2
    simp only [AuthZPEClient.allowAccessCached, hauthenticate] at hsame
    have hother := hdecided answer hsame message hmessage
    rw [hhead] at hother
    exact absurd hother (by decide)
  · intro htimely
    simp only [AuthZPEClient.allowAccessCached, authenticate_of_timely hvetted.1 hvetted.2 htimely]
    exact allowToken_fresh h hvetted.1 hvetted.2 (fun _ _ => rfl) _ _ _

/-- A hit on policies never does. -/
theorem hit_policies_ne (now : Int) (files : List PolicyFile) (text resource action : Str)
    (maps : RoleMaps) (cache cache' : Cache) :
    (zpe.allowAccessCached now files text resource action (some (.policies maps)) cache).1 ≠
      (zpe.allowAccessCached now files text resource action none cache').1 := by
  unfold AuthZPEClient.allowAccessCached
  dsimp only
  intro hsame
  split at hsame
  · rename_i thrown hauthenticate
    unfold AuthZPEClient.authenticate at hauthenticate
    cases hsame
    split at hauthenticate
    · cases hauthenticate
    · split at hauthenticate
      · cases hauthenticate
      · split at hauthenticate <;> cases hauthenticate
  · cases hsame
  · rename_i rToken _
    have hdecided := (allowToken_decided zpe now files action resource rToken _).1 _ hsame.symm
    exact absurd hdecided (by decide)

/-- The same call where no token is cached. -/
def AuthZPEClient.allowAccessFresh (zpe : AuthZPEClient Key) (now : Int) (files : List PolicyFile) (params : Params)
    (cache : Cache) : Except Thrown Answer × Cache :=
  zpe.allowAccessWith now files params none (withoutTokens cache)

/-- A call gives what it gives without cached tokens, and a decision only about a verified text. -/
def AuthZPEClient.Transparent (zpe : AuthZPEClient Key) (now : Int) (files : List PolicyFile) (params : Params)
    (cache : Cache) : Prop :=
  (zpe.allowAccess now files params cache).1 = (zpe.allowAccessFresh now files params cache).1 ∧
    ∀ status, (zpe.allowAccess now files params cache).1 = .ok ⟨none, status⟩ →
      zpe.Verified now (params.roleToken.getD [])

/-- Without cached tokens only a verified text is decided about. -/
theorem fresh_verified (hcomplete : params.complete = true)
    (h : (zpe.allowAccessFresh now files params cache).1 = .ok ⟨none, status⟩) :
    zpe.Verified now (params.roleToken.getD []) := by
  unfold AuthZPEClient.allowAccessFresh AuthZPEClient.allowAccessWith
    AuthZPEClient.allowAccessCached at h
  rw [hcomplete] at h
  simp only [Bool.not_true, Bool.false_eq_true, ↓reduceIte] at h
  split at h
  · cases h
  · rename_i answer hauthenticate
    cases h
    unfold AuthZPEClient.authenticate at hauthenticate
    split at hauthenticate
    · cases hauthenticate
    · split at hauthenticate
      · cases hauthenticate
      · split at hauthenticate <;> cases hauthenticate
  · rename_i rToken hauthenticate
    exact ⟨rToken, authenticate_ok hauthenticate⟩

theorem allowAccess_fresh_iff (h : cache.All zpe.Vetted) (now : Int) (files : List PolicyFile)
    (hcomplete : params.complete = true) :
    (zpe.allowAccess now files params cache).1 = (zpe.allowAccessFresh now files params cache).1 ↔
      ∀ entry ∈ cache.get now (params.roleToken.getD []), zpe.Current now entry := by
  unfold AuthZPEClient.allowAccess AuthZPEClient.allowAccessFresh AuthZPEClient.allowAccessWith
  rw [hcomplete]
  simp only [Bool.not_true, Bool.false_eq_true, ↓reduceIte]
  cases hget : cache.get now (params.roleToken.getD []) with
  | none =>
    simp only [Option.mem_def, reduceCtorEq, false_implies, implies_true, iff_true]
    exact miss_fresh h now files _ _ _
  | some entry =>
    simp only [Option.mem_def, Option.some.injEq, forall_eq']
    cases entry with
    | token rToken => exact hit_token_iff h (h.get hget) now files _ _
    | policies maps => exact iff_of_false (hit_policies_ne _ _ _ _ _ _ _ _) id

/-- After every run a call is transparent exactly when what the cache has for the presented text,
if anything, is a token within its times. -/
theorem allowAccess_transparent_iff (zpe : AuthZPEClient Key) (events : List (Int × ZpeEvent))
    (now : Int) (files : List PolicyFile) (params : Params) :
    zpe.Transparent now files params (zpe.run events ∅) ↔
      (params.complete = true → ∀ entry ∈ (zpe.run events ∅).get now (params.roleToken.getD []),
        zpe.Current now entry) := by
  have h : (zpe.run events ∅).All zpe.Vetted := run_vetted events Expiring.All.empty
  unfold AuthZPEClient.Transparent
  cases hcomplete : params.complete with
  | false =>
    simp only [AuthZPEClient.allowAccess, AuthZPEClient.allowAccessFresh,
      AuthZPEClient.allowAccessWith, hcomplete, Bool.not_false, ↓reduceIte, true_and,
      Bool.false_eq_true, false_implies, iff_true]
    intro status hanswer
    cases hanswer
  | true =>
    rw [forall_prop_of_true rfl, ← allowAccess_fresh_iff h now files hcomplete,
      and_iff_left_iff_imp]
    intro hsame status hanswer
    exact fresh_verified hcomplete (hsame.symm.trans hanswer)

end Transparency

section Samples

def sampleRoleToken : Str := "v=Z1;d=sports;r=readers;t=100;e=200;k=0;s=sig"

def samplePolicyData : Json :=
  .object [("domain", .string "sports"), ("policies", .array [.object [("assertions", .array
    [.object [("role", .string "sports:role.readers"), ("action", .string "read"),
      ("resource", .string "sports:news"), ("effect", .string "ALLOW")]])]])]

def sampleSignedPolicyData : Json :=
  .object [("policyData", samplePolicyData), ("zmsSignature", .string "zms"),
    ("zmsKeyId", .string "0")]

def samplePolicyFile : PolicyFile where
  fileName := "sports.pol"
  content := some (.object [("signedPolicyData", sampleSignedPolicyData),
    ("signature", .string "zts"), ("keyId", .string "0")])

/-- The text that is signed over a document, empty where there is none. -/
def signedText (json : Json) : Str := (asCanonicalString json).toOption.getD []

def sampleZpe : AuthZPEClient Nat where
  crypto := .ofSignatures [(0, "v=Z1;d=sports;r=readers;t=100;e=200;k=0", "sig"),
    (0, signedText sampleSignedPolicyData, "zts"), (0, signedText samplePolicyData, "zms")]
  refuses _ _ _ := false
  auth := ⟨2592000, false⟩
  config := ⟨1800, 1800, 300⟩
  ztsPublicKeyMap := (∅ : Map Str Nat).insert "0" 0
  zmsPublicKeyMap := (∅ : Map Str Nat).insert "0" 0

def sampleParams (roleToken : Str) : Params := ⟨some roleToken, some "sports:news", some "read"⟩

local instance sampleCase : CaseRules := .ascii

/-- A token is presented before and after it expires, and then the name of its domain. -/
theorem expired_token_allowed :
    let cache := sampleZpe.run [(150000, .allowAccess [samplePolicyFile] (sampleParams sampleRoleToken))] ∅
    (sampleZpe.allowAccess 201000 [samplePolicyFile] (sampleParams sampleRoleToken) cache).1 =
        .ok ⟨none, .ALLOW⟩ ∧
      (sampleZpe.allowAccessFresh 201000 [samplePolicyFile] (sampleParams sampleRoleToken) cache).1 =
        .ok ⟨some "ERROR: Role Token is Expired", .DENY_ROLETOKEN_EXPIRED⟩ ∧
      (sampleZpe.allowAccess 151000 [samplePolicyFile] (sampleParams "sports") cache).1 =
        .error (.notFunction "rToken.getDomain") ∧
      ¬ sampleZpe.Transparent 201000 [samplePolicyFile] (sampleParams sampleRoleToken) cache ∧
      ¬ sampleZpe.Transparent 151000 [samplePolicyFile] (sampleParams "sports") cache := by
  intro cache
  have hallowed : (sampleZpe.allowAccess 201000 [samplePolicyFile] (sampleParams sampleRoleToken)
      cache).1 = .ok ⟨none, .ALLOW⟩ := by decide +kernel
  have hfresh : (sampleZpe.allowAccessFresh 201000 [samplePolicyFile]
      (sampleParams sampleRoleToken) cache).1 =
        .ok ⟨some "ERROR: Role Token is Expired", .DENY_ROLETOKEN_EXPIRED⟩ := by decide +kernel
  have hname : (sampleZpe.allowAccess 151000 [samplePolicyFile] (sampleParams "sports") cache).1 =
      .error (.notFunction "rToken.getDomain") := by decide +kernel
  refine ⟨hallowed, hfresh, hname, ?_, ?_⟩
  · intro htransparent
    have hsame := htransparent.1
    rw [hallowed, hfresh] at hsame
    cases hsame
  · intro htransparent
    have hsame := htransparent.1
    rw [hname] at hsame
    revert hsame
    decide +kernel

end Samples

end Athenz.Node
