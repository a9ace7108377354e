import Athenz.CloudStore
import Athenz.Lib.Result

namespace Athenz.Zts.CloudStore
open Lib Lib.Text Lib.Decimal Lib.Result
set_option autoImplicit true

section Requests

/-- Two calls with the same parameters; an empty external id is none. -/
structure AssumeRole.Same (a b : AssumeRole) : Prop where
  account : a.account = b.account
  roleName : a.roleName = b.roleName
  principal : a.principal = b.principal
  durationSeconds : a.durationSeconds = b.durationSeconds
  externalId : a.externalId.getD [] = b.externalId.getD []

end Requests

section Lookups

variable {settings : Settings} {s : State}

theorem lookup_eq_some {map : Map Str ν} (h : lookup map key = .ok (some value)) :
    ∃ text, key = some text ∧ map.lookup text = some value := by
  cases key with
  | none => cases h
  | some text => exact ⟨text, rfl, Except.ok.inj h⟩

/-- The lifetime that the cache assumes is the one that is granted. -/
theorem lifetimeSeconds_eq (durationSeconds : Option Int) :
    lifetimeSeconds durationSeconds = grantedSeconds durationSeconds := by
  cases durationSeconds with
  | none => rfl
  | some seconds =>
    simp only [lifetimeSeconds, grantedSeconds, Option.filter_some, decide_eq_true_eq]
    split
    · rw [if_neg (by omega)]
      rfl
    · rw [if_pos (by omega)]
      rfl

theorem getCachedCreds_some
    (h : getCachedCreds settings now cacheKey durationSeconds s = .ok (some creds)) :
    ∃ key, cacheKey = some key ∧ s.awsCredsCache.lookup key = some creds ∧
      grantedSeconds durationSeconds - (creds.expiration - now).tdiv 1000 ≤
        settings.cacheTimeout := by
  unfold getCachedCreds at h
  split at h
  · cases h
  · obtain ⟨found, hfound, h⟩ := bind_eq_ok.1 h
    cases found with
    | none => cases h
    | some tempCreds =>
      obtain ⟨key, hkey, hlookup⟩ := lookup_eq_some hfound
      dsimp only at h
      rw [lifetimeSeconds_eq] at h
      split at h
      · cases h
      · rename_i hyoung
        cases h
        exact ⟨key, hkey, hlookup, by omega⟩

theorem isFailedTempCredsRequest_true
    (h : isFailedTempCredsRequest settings now cacheKey s = .ok true) :
    ∃ key timeStamp, cacheKey = some key ∧
      s.awsInvalidCredsCache.lookup key = some timeStamp ∧
      (now - timeStamp).tdiv 1000 < settings.invalidCacheTimeout := by
  unfold isFailedTempCredsRequest at h
  split at h
  · cases h
  · obtain ⟨found, hfound, h⟩ := bind_eq_ok.1 h
    cases found with
    | none => cases h
    | some timeStamp =>
      obtain ⟨key, hkey, hlookup⟩ := lookup_eq_some hfound
      exact ⟨key, timeStamp, hkey, hlookup, of_decide_eq_true (Except.ok.inj h)⟩

/-- A time of less than some whole seconds, counted in milliseconds. -/
theorem lt_of_tdiv_lt {x n : Int} (h : x.tdiv 1000 < n) : x < n * 1000 := by
  rcases Int.le_total 0 x with hx | hx
  · rw [Int.tdiv_eq_ediv_of_nonneg hx] at h
    omega
  · obtain ⟨y, rfl⟩ : ∃ y, x = -y := ⟨-x, by omega⟩
    rw [Int.neg_tdiv, Int.tdiv_eq_ediv_of_nonneg (by omega)] at h
    omega

/-- Seconds that are left of a grant bound its age, unless it ran out long ago. -/
theorem age_le_of_tdiv {granted left timeout : Int} (h : granted - left.tdiv 1000 ≤ timeout)
    (hlively : 0 < left ∨ (timeout - granted + 1) * 1000 ≤ -left) :
    0 < left ∧ granted * 1000 - left ≤ timeout * 1000 := by
  rcases Int.lt_or_le 0 left with hleft | hleft
  · rw [Int.tdiv_eq_ediv_of_nonneg (by omega)] at h
    omega
  · obtain ⟨gone, rfl⟩ : ∃ gone, left = -gone := ⟨-left, by omega⟩
    rw [Int.neg_tdiv, Int.tdiv_eq_ediv_of_nonneg (by omega)] at h
    omega

end Lookups

section Steps

variable {settings : Settings} {s s' : State}

theorem putCacheCreds_ok (h : putCacheCreds settings cacheKey creds s = .ok s') :
    s' = s ∨ ∃ key, cacheKey = some key ∧
      s' = { s with awsCredsCache := s.awsCredsCache.insert key creds } := by
  unfold putCacheCreds at h
  split at h
  · exact .inl (Except.ok.inj h).symm
  · cases cacheKey with
    | none => cases h
    | some key => exact .inr ⟨key, rfl, (Except.ok.inj h).symm⟩

theorem putInvalidCacheCreds_ok (h : putInvalidCacheCreds settings now cacheKey s = .ok s') :
    s' = s ∨ ∃ key, cacheKey = some key ∧
      s' = { s with awsInvalidCredsCache := s.awsInvalidCredsCache.insert key now } := by
  unfold putInvalidCacheCreds at h
  split at h
  · exact .inl (Except.ok.inj h).symm
  · cases cacheKey with
    | none => cases h
    | some key => exact .inr ⟨key, rfl, (Except.ok.inj h).symm⟩

/-- What the token service answers a call. -/
def Call.outcome (call : Call) : StsOutcome := call.sts (getAssumeRoleRequest call.request)

theorem askTokenService_ok (h : askTokenService settings call cacheKey s = .ok (answer, s')) :
    (∃ creds, call.outcome = .credentials creds ∧ answer = .assumed creds ∧
      (s' = s ∨ ∃ key, cacheKey = some key ∧
        s' = { s with awsCredsCache := s.awsCredsCache.insert key creds })) ∨
    ∃ message, answer = .refused message ∧
      (s' = s ∨ ∃ key, cacheKey = some key ∧ call.outcome = .serviceException 403 message ∧
        s' = { s with
          awsInvalidCredsCache := s.awsInvalidCredsCache.insert key call.answered }) := by
  unfold askTokenService at h
  split at h
  · rename_i creds hcreds
    obtain ⟨t, hput, h⟩ := bind_eq_ok.1 h
    cases h
    exact .inl ⟨creds, hcreds, rfl, putCacheCreds_ok hput⟩
  · rename_i statusCode message hexception
    split at h
    · rename_i hforbidden
      obtain ⟨t, hput, h⟩ := bind_eq_ok.1 h
      cases h
      refine .inr ⟨message, rfl, (putInvalidCacheCreds_ok hput).imp id ?_⟩
      rintro ⟨key, hkey, hs⟩
      exact ⟨key, hkey, hforbidden ▸ hexception, hs⟩
    · cases h
      exact .inr ⟨message, rfl, .inl rfl⟩
  · rename_i message _
    cases h
    exact .inr ⟨message, rfl, .inl rfl⟩

/-- An answer comes from one of the caches, which stay as they are, or from the token
service. -/
theorem assumeAWSRole_ok (h : assumeAWSRole settings call s = .ok (answer, s')) :
    (∃ creds, answer = .cached creds ∧ s' = s ∧
      getCachedCreds settings call.looked (getCacheKey settings call.request)
        call.request.durationSeconds s = .ok (some creds)) ∨
    (∃ message, answer = .cachedRefusal message ∧ s' = s ∧
      isFailedTempCredsRequest settings call.checked (getCacheKey settings call.request) s =
        .ok true) ∨
    askTokenService settings call (getCacheKey settings call.request) s = .ok (answer, s') := by
  unfold assumeAWSRole at h
  split at h
  · cases h
  · obtain ⟨found, hfound, h⟩ := bind_eq_ok.1 h
    cases found with
    | some creds =>
      cases h
      exact .inl ⟨creds, rfl, rfl, hfound⟩
    | none =>
      obtain ⟨failed, hfailed, h⟩ := bind_eq_ok.1 h
      cases failed with
      | true =>
        cases h
        exact .inr (.inl ⟨_, rfl, rfl, hfailed⟩)
      | false => exact .inr (.inr h)

theorem getCachedCreds_total (now durationSeconds) (s : State)
    (hkey : settings.cacheTimeout ≠ 0 → ∃ key, cacheKey = some key) :
    ∃ found, getCachedCreds settings now cacheKey durationSeconds s = .ok found := by
  unfold getCachedCreds
  split
  · exact ⟨none, rfl⟩
  · rename_i hon
    obtain ⟨key, rfl⟩ := hkey hon
    cases hlookup : s.awsCredsCache.lookup key with
    | none =>
      simp only [lookup, hlookup, bind, Except.bind]
      exact ⟨none, rfl⟩
    | some creds =>
      simp only [lookup, hlookup, bind, Except.bind]
      split
      · exact ⟨none, rfl⟩
      · exact ⟨some creds, rfl⟩

theorem isFailedTempCredsRequest_total (now) (s : State)
    (hkey : settings.invalidCacheTimeout ≠ 0 → ∃ key, cacheKey = some key) :
    ∃ failed, isFailedTempCredsRequest settings now cacheKey s = .ok failed := by
  unfold isFailedTempCredsRequest
  split
  · exact ⟨false, rfl⟩
  · rename_i hon
    obtain ⟨key, rfl⟩ := hkey hon
    cases hlookup : s.awsInvalidCredsCache.lookup key with
    | none =>
      simp only [lookup, hlookup, bind, Except.bind]
      exact ⟨false, rfl⟩
    | some timeStamp =>
      simp only [lookup, hlookup, bind, Except.bind]
      exact ⟨_, rfl⟩

theorem askTokenService_total (hkey : settings.cacheTimeout ≠ 0 → ∃ key, cacheKey = some key)
    (hkey' : settings.invalidCacheTimeout ≠ 0 → ∃ key, cacheKey = some key) :
    ∃ result, askTokenService settings call cacheKey s = .ok result := by
  unfold askTokenService
  split
  · rename_i creds _
    unfold putCacheCreds
    split
    · exact ⟨_, rfl⟩
    · rename_i hon
      obtain ⟨key, rfl⟩ := hkey hon
      exact ⟨_, rfl⟩
  · split
    · unfold putInvalidCacheCreds
      split
      · exact ⟨_, rfl⟩
      · rename_i hon
        obtain ⟨key, rfl⟩ := hkey' hon
        exact ⟨_, rfl⟩
    · exact ⟨_, rfl⟩
  · exact ⟨_, rfl⟩

/-- The caches do not fail when the failure cache is on only together with the other one. -/
theorem assumeAWSRole_total (henabled : settings.awsEnabled = true)
    (hcaches : settings.cacheTimeout = 0 → settings.invalidCacheTimeout = 0) (call : Call)
    (s : State) : ∃ result, assumeAWSRole settings call s = .ok result := by
  have hkey (hon : settings.cacheTimeout ≠ 0) : ∃ key, getCacheKey settings call.request = some key :=
    ⟨_, if_neg hon⟩
  have hkey' (hon : settings.invalidCacheTimeout ≠ 0) :
      ∃ key, getCacheKey settings call.request = some key := hkey fun hoff => hon (hcaches hoff)
  obtain ⟨found, hfound⟩ :=
    getCachedCreds_total call.looked call.request.durationSeconds s hkey
  obtain ⟨failed, hfailed⟩ := isFailedTempCredsRequest_total call.checked s hkey'
  rw [assumeAWSRole, henabled, if_neg Bool.noConfusion]
  dsimp only
  rw [hfound]
  cases found with
  | some creds => exact ⟨_, rfl⟩
  | none =>
    simp only [bind, Except.bind, hfailed]
    cases failed with
    | true => exact ⟨_, rfl⟩
    | false => exact askTokenService_total hkey hkey'

theorem assumeAWSRole_ne_nullPointer
    (hcaches : settings.cacheTimeout = 0 → settings.invalidCacheTimeout = 0) (call : Call)
    (s : State) : assumeAWSRole settings call s ≠ .error .nullPointer := by
  intro h
  cases henabled : settings.awsEnabled with
  | true =>
    obtain ⟨result, hresult⟩ := assumeAWSRole_total henabled hcaches call s
    rw [hresult] at h
    cases h
  | false =>
    rw [assumeAWSRole, henabled] at h
    cases h

end Steps

section Runs

/-- Credentials expire when the asked time has passed since they were issued. -/
def Call.GrantsExactly (call : Call) : Prop :=
  ∀ creds, call.outcome = .credentials creds →
    creds.expiration = call.issued + grantedSeconds call.request.durationSeconds * 1000

/-- What the caches hold comes from answered calls. -/
structure Backed (settings : Settings) (h : History) : Prop where
  creds : ∀ key creds, h.state.awsCredsCache.lookup key = some creds →
    ∃ call, (call, .assumed creds) ∈ h.answers ∧ getCacheKey settings call.request = some key ∧
      creds.expiration = call.issued + grantedSeconds call.request.durationSeconds * 1000
  refusals : ∀ key timeStamp, h.state.awsInvalidCredsCache.lookup key = some timeStamp →
    ∃ call message, (call, .refused message) ∈ h.answers ∧
      getCacheKey settings call.request = some key ∧
      call.outcome = .serviceException 403 message ∧ call.answered = timeStamp

variable {settings : Settings}

/-- Further answers keep the backing of caches that did not grow. -/
theorem Backed.mono {h h' : History} (hbacked : Backed settings h)
    (hcreds : ∀ key creds, h'.state.awsCredsCache.lookup key = some creds →
      h.state.awsCredsCache.lookup key = some creds)
    (hrefusals : ∀ key timeStamp, h'.state.awsInvalidCredsCache.lookup key = some timeStamp →
      h.state.awsInvalidCredsCache.lookup key = some timeStamp)
    (hanswers : ∀ answer ∈ h.answers, answer ∈ h'.answers) : Backed settings h' where
  creds key creds hlookup := by
    obtain ⟨call, hcall, hrest⟩ := hbacked.creds key creds (hcreds key creds hlookup)
    exact ⟨call, hanswers _ hcall, hrest⟩
  refusals key timeStamp hlookup := by
    obtain ⟨call, message, hcall, hrest⟩ :=
      hbacked.refusals key timeStamp (hrefusals key timeStamp hlookup)
    exact ⟨call, message, hanswers _ hcall, hrest⟩

theorem backed_start : Backed settings History.start where
  creds key creds hlookup := by
    rw [History.start, AList.lookup_empty] at hlookup
    cases hlookup
  refusals key timeStamp hlookup := by
    rw [History.start, AList.lookup_empty] at hlookup
    cases hlookup

theorem Backed.call {h : History} (hbacked : Backed settings h) {call : Call}
    (hgrants : call.GrantsExactly) (hcall : assumeAWSRole settings call h.state = .ok (answer, s)) :
    Backed settings
      { state := s
        answers := (call, answer) :: h.answers } := by
  have hcons : ∀ earlier ∈ h.answers, earlier ∈ (call, answer) :: h.answers :=
    fun _ => List.mem_cons_of_mem _
  have hsame (hs : s = h.state) : Backed settings
      { state := s
        answers := (call, answer) :: h.answers } := by
    apply hbacked.mono _ _ hcons
    · intro key creds hlookup
      rw [← hs]
      exact hlookup
    · intro key timeStamp hlookup
      rw [← hs]
      exact hlookup
  rcases assumeAWSRole_ok hcall with ⟨_, _, hs, _⟩ | ⟨_, _, hs, _⟩ | hask
  · exact hsame hs
  · exact hsame hs
  rcases askTokenService_ok hask with ⟨creds, houtcome, rfl, hs⟩ | ⟨message, rfl, hs⟩
  · rcases hs with hs | ⟨key, hkey, rfl⟩
    · exact hsame hs
    · refine ⟨?_, ?_⟩
      · intro other found hlookup
        rw [Map.lookup_insert] at hlookup
        split at hlookup
        · rename_i hother
          cases hlookup
          exact ⟨call, List.mem_cons_self, hother ▸ hkey, hgrants creds houtcome⟩
        · obtain ⟨earlier, hearlier, hrest⟩ := hbacked.creds other found hlookup
          exact ⟨earlier, hcons _ hearlier, hrest⟩
      · intro other timeStamp hlookup
        obtain ⟨earlier, message, hearlier, hrest⟩ := hbacked.refusals other timeStamp hlookup
        exact ⟨earlier, message, hcons _ hearlier, hrest⟩
  · rcases hs with hs | ⟨key, hkey, houtcome, rfl⟩
    · exact hsame hs
    · refine ⟨?_, ?_⟩
      · intro other found hlookup
        obtain ⟨earlier, hearlier, hrest⟩ := hbacked.creds other found hlookup
        exact ⟨earlier, hcons _ hearlier, hrest⟩
      · intro other timeStamp hlookup
        rw [Map.lookup_insert] at hlookup
        split at hlookup
        · rename_i hother
          cases hlookup
          exact ⟨call, message, List.mem_cons_self, hother ▸ hkey, houtcome, rfl⟩
        · obtain ⟨earlier, message', hearlier, hrest⟩ := hbacked.refusals other timeStamp hlookup
          exact ⟨earlier, message', hcons _ hearlier, hrest⟩

theorem lookup_of_removeIf {m : Map Str ν} {p : ν → Bool}
    (h : (m.removeIf p).lookup key = some value) : m.lookup key = some value := by
  exact (Map.lookup_removeIf.1 h).1

theorem Backed.step {h : History} (hbacked : Backed settings h) {event : Event}
    (hgrants : ∀ call, event = .call call → call.GrantsExactly) :
    Backed settings (h.step settings event) := by
  cases event with
  | call call =>
    unfold History.step
    dsimp only
    split
    · exact hbacked
    · rename_i answer s hcall
      exact hbacked.call (hgrants call rfl) hcall
  | removeExpiredCredentials now =>
    exact hbacked.mono (fun _ _ => lookup_of_removeIf) (fun _ _ => id) fun _ => id
  | removeExpiredInvalidCredentials now =>
    exact hbacked.mono (fun _ _ => id) (fun _ _ => lookup_of_removeIf) fun _ => id

/-- The caches of every run are backed. -/
theorem backed_run (events : List Event) (hgrants : ∀ call, .call call ∈ events → call.GrantsExactly) :
    Backed settings (run settings events) := by
  induction events using List.reverseRecOn with
  | nil => exact backed_start
  | append_singleton events event ih =>
    rw [run, List.foldl_append]
    apply (ih fun call hcall => hgrants call (List.mem_append_left _ hcall)).step
    rintro call rfl
    exact hgrants call (List.mem_append_right _ List.mem_cons_self)

end Runs

section Answers

/-- What the answer to a call owes to the calls before. -/
structure Justified (settings : Settings) (h : History) (call : Call) : Prop where
  works : assumeAWSRole settings call h.state ≠ .error .nullPointer
  cached : ∀ creds s, assumeAWSRole settings call h.state = .ok (.cached creds, s) →
    ∃ earlier, (earlier, .assumed creds) ∈ h.answers ∧ earlier.request.Same call.request ∧
      call.looked < creds.expiration ∧
      call.looked - earlier.issued ≤ settings.cacheTimeout * 1000
  refused : ∀ text s, assumeAWSRole settings call h.state = .ok (.cachedRefusal text, s) →
    ∃ earlier message, (earlier, .refused message) ∈ h.answers ∧
      earlier.request.Same call.request ∧
      earlier.outcome = .serviceException 403 message ∧
      call.checked - earlier.answered < settings.invalidCacheTimeout * 1000

/-- Keys stand for one request, and credentials of requests for no more than the cache timeout
have not just expired. -/
structure Covered (settings : Settings) (h : History) (call : Call) : Prop where
  caches : settings.cacheTimeout = 0 → settings.invalidCacheTimeout = 0
  keys : ∀ earlier answer, (earlier, answer) ∈ h.answers →
    ∀ key, getCacheKey settings earlier.request = some key →
      getCacheKey settings call.request = some key → earlier.request.Same call.request
  lively : ∀ key creds, getCacheKey settings call.request = some key →
    h.state.awsCredsCache.lookup key = some creds →
      call.looked < creds.expiration ∨
        (settings.cacheTimeout - grantedSeconds call.request.durationSeconds + 1) * 1000 ≤
          call.looked - creds.expiration

variable {settings : Settings}

/-- A call that is covered gets a justified answer. -/
theorem justified_of_backed {h : History} (hbacked : Backed settings h) {call : Call}
    (hcovered : Covered settings h call) : Justified settings h call where
  works := assumeAWSRole_ne_nullPointer hcovered.caches call h.state
  cached creds s hcall := by
    obtain ⟨creds, heq, rfl, hcached⟩ : ∃ found, Answer.cached creds = .cached found ∧ s = h.state ∧
        getCachedCreds settings call.looked (getCacheKey settings call.request)
          call.request.durationSeconds h.state = .ok (some found) := by
      rcases assumeAWSRole_ok hcall with hcached | ⟨_, heq, _⟩ | hask
      · exact hcached
      · cases heq
      · rcases askTokenService_ok hask with ⟨_, _, heq, _⟩ | ⟨_, heq, _⟩
        · cases heq
        · cases heq
    cases heq
    obtain ⟨key, hkey, hlookup, hyoung⟩ := getCachedCreds_some hcached
    obtain ⟨earlier, hearlier, hkey', hexpiration⟩ := hbacked.creds key creds hlookup
    have hsame := hcovered.keys earlier _ hearlier key hkey' hkey
    have hlively := hcovered.lively key creds hkey hlookup
    rw [hsame.durationSeconds] at hexpiration
    have hage := age_le_of_tdiv hyoung (by omega)
    exact ⟨earlier, hearlier, hsame, by omega, by omega⟩
  refused text s hcall := by
    have hfailed : isFailedTempCredsRequest settings call.checked
        (getCacheKey settings call.request) h.state = .ok true := by
      rcases assumeAWSRole_ok hcall with ⟨_, heq, _⟩ | ⟨_, _, _, hfailed⟩ | hask
      · cases heq
      · exact hfailed
      · rcases askTokenService_ok hask with ⟨_, _, heq, _⟩ | ⟨_, heq, _⟩
        · cases heq
        · cases heq
    obtain ⟨key, timeStamp, hkey, hlookup, hrecent⟩ := isFailedTempCredsRequest_true hfailed
    obtain ⟨earlier, message, hearlier, hkey', houtcome, rfl⟩ :=
      hbacked.refusals key timeStamp hlookup
    exact ⟨earlier, message, hearlier, hcovered.keys earlier _ hearlier key hkey' hkey, houtcome,
      lt_of_tdiv_lt hrecent⟩

/-- In a run whose calls are covered every answer is justified by the calls before. -/
theorem answers_justified (settings : Settings) (events : List Event)
    (hgrants : ∀ call, .call call ∈ events → call.GrantsExactly)
    (hcovered : ∀ before call after, events = before ++ .call call :: after →
      Covered settings (run settings before) call) :
    ∀ before call after, events = before ++ .call call :: after →
      Justified settings (run settings before) call := by
  rintro before call after rfl
  apply justified_of_backed _ (hcovered before call after rfl)
  apply backed_run
  intro earlier hearlier
  exact hgrants earlier (List.mem_append_left _ hearlier)

end Answers

section Sample

/-- Credentials of a request for a quarter of an hour. -/
def quarterCreds : AWSTemporaryCredentials where
  accessKeyId := "key".toList
  secretAccessKey := "secret".toList
  sessionToken := "session".toList
  expiration := 900000

/-- A call for a quarter of an hour, granted at the start of the clock. -/
def quarterCall (now : Int) : Call where
  request :=
    { account := "1234".toList
      roleName := "reader".toList
      principal := "user.joe".toList
      durationSeconds := some 900
      externalId := none }
  looked := now
  checked := now
  issued := 0
  answered := now
  sts _ := .credentials quarterCreds

def timeouts (cacheTimeout invalidCacheTimeout : Int) : Settings where
  awsEnabled := true
  cacheTimeout := cacheTimeout
  invalidCacheTimeout := invalidCacheTimeout

def servedCreds : Except Failure (Answer × State) → Option AWSTemporaryCredentials
  | .ok (.cached creds, _) => some creds
  | _ => none

theorem servedCreds_eq_some (h : servedCreds result = some creds) :
    ∃ s, result = .ok (.cached creds, s) := by
  unfold servedCreds at h
  split at h
  · cases h
    exact ⟨_, rfl⟩
  · cases h

/-- With the cache off a call fails on the failure cache, and with a long timeout credentials
are served after they have expired. -/
theorem caches_fail :
    ¬ Justified (timeouts 0 120) History.start (quarterCall 0) ∧
      ¬ Justified (timeouts 3600 120) (run (timeouts 3600 120) [.call (quarterCall 0)])
        (quarterCall 1000000) := by
  constructor
  · intro h
    exact h.works rfl
  · intro h
    have hserved : servedCreds (assumeAWSRole (timeouts 3600 120) (quarterCall 1000000)
        (run (timeouts 3600 120) [.call (quarterCall 0)]).state) = some quarterCreds := by
      decide +kernel
    obtain ⟨s, hs⟩ := servedCreds_eq_some hserved
    obtain ⟨_, _, _, hlive, _⟩ := h.cached quarterCreds s hs
    exact absurd hlive (by decide)

theorem step_answers {h : History} (hmem : (call, answer) ∈ (h.step settings event).answers) :
    event = .call call ∨ (call, answer) ∈ h.answers := by
  cases event with
  | call other =>
    unfold History.step at hmem
    dsimp only at hmem
    split at hmem
    · exact .inr hmem
    · rcases List.mem_cons.1 hmem with heq | hmem
      · cases heq
        exact .inl rfl
      · exact .inr hmem
  | removeExpiredCredentials now => exact .inr hmem
  | removeExpiredInvalidCredentials now => exact .inr hmem

/-- Only the calls of a run are answered in it. -/
theorem mem_run_answers {events : List Event}
    (h : (call, answer) ∈ (run settings events).answers) : .call call ∈ events := by
  induction events using List.reverseRecOn with
  | nil => exact absurd h List.not_mem_nil
  | append_singleton events event ih =>
    rw [run, List.foldl_append] at h
    rcases step_answers h with rfl | h
    · exact List.mem_append_right _ List.mem_cons_self
    · exact List.mem_append_left _ (ih h)

theorem quarterCall_grants (now : Int) : (quarterCall now).GrantsExactly := by
  intro creds h
  cases h
  rfl

theorem quarterCall_same (now now' : Int) :
    (quarterCall now).request.Same (quarterCall now').request where
  account := rfl
  roleName := rfl
  principal := rfl
  durationSeconds := rfl
  externalId := rfl

/-- Calls for the quarter of an hour within it are covered after such calls. -/
theorem quarterCall_covered {events : List Event} {now : Int} (hnow : now < 900000)
    (hevents : ∀ call, .call call ∈ events → ∃ time, call = quarterCall time) :
    Covered (timeouts 600 120) (run (timeouts 600 120) events) (quarterCall now) where
  caches := nofun
  keys earlier answer hearlier _ _ _ := by
    obtain ⟨time, rfl⟩ := hevents earlier (mem_run_answers hearlier)
    exact quarterCall_same time now
  lively key creds _ hlookup := by
    have hbacked : Backed (timeouts 600 120) (run (timeouts 600 120) events) := by
      apply backed_run
      intro call hcall
      obtain ⟨time, rfl⟩ := hevents call hcall
      exact quarterCall_grants time
    obtain ⟨earlier, hearlier, _, hexpiration⟩ := hbacked.creds key creds hlookup
    obtain ⟨time, rfl⟩ := hevents earlier (mem_run_answers hearlier)
    have hend : creds.expiration = 900000 := hexpiration
    exact .inl (by rw [hend]; exact hnow)

theorem quarter_answers_justified :
    Justified (timeouts 600 120) (run (timeouts 600 120) [.call (quarterCall 0)])
      (quarterCall 60000) := by
  have hcalls (call : Call)
      (h : .call call ∈ [Event.call (quarterCall 0), .call (quarterCall 60000)]) :
      call = quarterCall 0 ∨ call = quarterCall 60000 := by
    simpa only [List.mem_cons, List.not_mem_nil, or_false, Event.call.injEq] using h
  refine answers_justified (timeouts 600 120)
    [.call (quarterCall 0), .call (quarterCall 60000)] ?_ ?_ [.call (quarterCall 0)]
    (quarterCall 60000) [] rfl
  · intro call hcall
    rcases hcalls call hcall with rfl | rfl
    · exact quarterCall_grants 0
    · exact quarterCall_grants 60000
  · intro before call after heq
    have hbefore (earlier : Call) (hearlier : .call earlier ∈ before) :
        ∃ time, earlier = quarterCall time := by
      rcases hcalls earlier (heq ▸ List.mem_append_left _ hearlier) with rfl | rfl
      · exact ⟨0, rfl⟩
      · exact ⟨60000, rfl⟩
    rcases hcalls call (heq ▸ List.mem_append_right _ List.mem_cons_self) with rfl | rfl
    · exact quarterCall_covered (by decide) hbefore
    · exact quarterCall_covered (by decide) hbefore

end Sample

end Athenz.Zts.CloudStore
