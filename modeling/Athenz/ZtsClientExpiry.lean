import Athenz.ZtsClientRules
import Mathlib

namespace Athenz.ZtsClient
open Lib Lib.Text Lib.Exceptional Lib.Exceptional.Prog
set_option autoImplicit true

section Lifetimes

variable (exp : Str → Int) (now : Int)

/-- `exp` is when an access token expires, in seconds. -/
def Credential.Unexpired : Credential → Prop
  | .role token => seconds now < token.expiryTime
  | .access response => seconds now < exp response.access_token
  | .aws credentials => now < credentials.expiration

/-- The seconds that a credential still has. -/
def Credential.remaining : Credential → Int
  | .role token => token.expiryTime - seconds now
  | .access response => exp response.access_token - seconds now
  | .aws credentials => seconds (credentials.expiration - now)

/-- ZTS issues credentials that are unexpired, and states how long they last. -/
def Credential.Stated : Credential → Prop
  | .access response =>
    exp response.access_token = seconds now + response.expires_in ∧ 0 < response.expires_in
  | credential => credential.Unexpired exp now

def Request.minimum : Request → Option Int
  | .role request => request.minExpiryTime
  | .access request => if 0 < request.expiryTime then some request.expiryTime else none
  | .aws request => request.minExpiryTime

def Bounds (minExpiryTime maxExpiryTime : Option Int) : Prop :=
  (∀ m ∈ minExpiryTime, 0 < m) ∧ ∀ m ∈ maxExpiryTime, 0 < m

/-- The bounds of a request are absent or positive. -/
def Request.Bounded : Request → Prop
  | .role request => Bounds request.minExpiryTime request.maxExpiryTime
  | .access request => 0 ≤ request.expiryTime
  | .aws request => Bounds request.minExpiryTime request.maxExpiryTime

/-- What a moment may be: positive bounds, answers that state their lifetimes, and token files
written earlier that state theirs. -/
structure Moment.Honest (moment : Moment) : Prop where
  bounded : ∀ client request ignoreCache, moment.event = .get client request ignoreCache →
    request.Bounded
  answers : ∀ credential, .granted credential ∈ moment.answers →
    credential.Stated exp moment.world.now
  files : ∀ domain file response, moment.world.files domain file = some response →
    ∃ written ≤ moment.world.now, (Credential.access response).Stated exp written

end Lifetimes

section Conditions

variable (settings : Settings) (exp : Str → Int) (world : World)

/-- A cached credential that is looked up without a minimum has not expired, or is refused for
another reason: it lasts too long, or is over and the configured minimum tells. -/
def NotLapsed (minExpiryTime maxExpiryTime : Option Int) (remaining : Int)
    (unexpired : Prop) : Prop :=
  minExpiryTime = none →
    match maxExpiryTime with
    | some m => m + settings.tokenMaxExpiryOffset < remaining ∨ unexpired
    | none => settings.tokenMinExpiryTime = 0 → remaining < 0 ∨ unexpired

def RoleKept (minExpiryTime maxExpiryTime : Option Int) (cacheKey : Str) (s : State) : Prop :=
  ∀ token, s.roleTokenCache.lookup cacheKey = some token →
    NotLapsed settings minExpiryTime maxExpiryTime (token.expiryTime - seconds world.now)
      (seconds world.now < token.expiryTime)

def AwsKept (minExpiryTime maxExpiryTime : Option Int) (cacheKey : Str) (s : State) : Prop :=
  ∀ credentials, s.awsCredsCache.lookup cacheKey = some credentials →
    NotLapsed settings minExpiryTime maxExpiryTime (seconds (credentials.expiration - world.now))
      (world.now < credentials.expiration)

/-- The next answers are AWS credentials. -/
def Grants : Nat → List Answer → Prop
  | 0, _ => True
  | n + 1, .granted (.aws _) :: answers => Grants n answers
  | _ + 1, _ => False

/-- An entry that is served is not in its last second, and lasts as long as requested. -/
def ServesWell (expiryTime : Int) (entry : AccessTokenResponseCacheEntry) : Prop :=
  entry.isExpired world.now expiryTime = true ∨
    entry.isExpired world.now (-1) = false ∧
      (0 < expiryTime → seconds world.now + expiryTime ≤ entry.expiryTime)

def AccessKept (expiryTime : Int) (cacheKey : Str) (s : State) : Prop :=
  ∀ entry, s.accessTokenCache.lookup cacheKey = some entry → ServesWell world expiryTime entry

/-- The lifetime that a token file states counts from now on. -/
def Current (response : AccessTokenResponse) : Prop :=
  seconds world.now + response.expires_in ≤ exp response.access_token

def Client.prefetches (client : Client) : Bool :=
  client.enablePrefetch && settings.prefetchAutoEnable

/-- An access token that is not served from the cache: its token file, if there is one, is
unexpired and, where it is kept, was written just now; a prefetched token lasts long enough. -/
def FetchesWell (request : AccessTokenRequest) (cacheKey : Option Str) (ignoreCache : Bool)
    (s : State) : Prop :=
  (∀ response, tokenFile world s.roleNameMap request.domainName request.roleNames =
    some response →
    (Credential.access response).Unexpired exp world.now ∧
      (cacheKey.isSome → Current exp world response)) ∧
  (cacheKey.isSome → ignoreCache = false → s.self.prefetches settings = true →
    ∀ response, tokenFile world s.roleNameMap request.domainName request.roleNames =
        some response ∨ .granted (.access response) ∈ s.answers →
      ServesWell world request.expiryTime (.ofResponse world.now response))

/-- The cache answers a request for an access token. -/
def ServedFromCache (request : AccessTokenRequest) (cacheKey : Option Str) (ignoreCache : Bool)
    (s : State) : Prop :=
  ignoreCache = false ∧ ∃ key entry, cacheKey = some key ∧
    s.accessTokenCache.lookup key = some entry ∧
    entry.isExpired world.now request.expiryTime = false

/-- The condition of a request in the state that it meets. -/
def Request.Safe (ignoreCache : Bool) (s : State) : Request → Prop
  | .role request =>
    ignoreCache = false → ∀ key, roleRequestKey settings s.self request = some key →
      RoleKept settings world request.minExpiryTime request.maxExpiryTime key s
  | .access request =>
    let cacheKey := accessRequestKey settings s.self request
    (ignoreCache = false → ∀ key, cacheKey = some key →
      AccessKept world request.expiryTime key s) ∧
    (¬ ServedFromCache world request cacheKey ignoreCache s →
      FetchesWell settings exp world request cacheKey ignoreCache s)
  | .aws request =>
    ignoreCache = false → ∀ key, awsRequestKey s.self request.encoded = some key →
      AwsKept settings world request.minExpiryTime request.maxExpiryTime key s ∧
      (Grants (if s.self.prefetches settings then 2 else 1) s.answers ∨
        AwsKept settings world none none key s)

/-- The token files of the access tokens that a prefetch run refreshes were written just now. -/
def PrefetchSafe (s : State) : Prop :=
  ∀ item ∈ refreshed world s.prefetchScheduledItems, item.tokenType = .access →
    ∀ response, tokenFile world s.roleNameMap item.domainName item.roleNames = some response →
      Current exp world response

end Conditions

section Statements

variable (settings : Settings) (exp : Str → Int)

/-- The condition of a step, on the process that it meets. -/
def Process.Safe (process : Process) (moment : Moment) : Prop :=
  match moment.event with
  | .get client request ignoreCache =>
    request.Safe settings exp moment.world ignoreCache (process.entering client moment.answers)
  | .prefetch => PrefetchSafe exp moment.world process.shared
  | _ => True

/-- A returned credential is unexpired, and from a cache it lasts as long as requested. -/
def Process.ServesUnexpired (process : Process) (moment : Moment) : Prop :=
  match moment.event with
  | .get _ request _ =>
    ∀ served ∈ (process.run settings moment).1,
      served.credential.Unexpired exp moment.world.now ∧
        (served.source = .cache → ∀ m ∈ request.minimum,
          m ≤ served.credential.remaining exp moment.world.now)
  | _ => True

end Statements

section Lookups

variable {settings : Settings} {exp : Str → Int} {world : World}

theorem NotLapsed.of_unexpired {unexpired : Prop} (h : unexpired) :
    NotLapsed settings minExpiryTime maxExpiryTime remaining unexpired := by
  intro _
  cases maxExpiryTime with
  | none => exact fun _ => .inr h
  | some m => exact .inr h

theorem NotLapsed.unexpired {unexpired : Prop}
    (h : NotLapsed settings minExpiryTime maxExpiryTime remaining unexpired)
    (hbounds : Bounds minExpiryTime maxExpiryTime) (hpos : 0 < remaining → unexpired)
    (hserved : isExpiredToken settings remaining minExpiryTime maxExpiryTime
      settings.tokenMinExpiryTime = false) :
    unexpired ∧ ∀ m ∈ minExpiryTime, m ≤ remaining := by
  cases minExpiryTime with
  | some m =>
    have hm := hbounds.1 m rfl
    have hle : m ≤ remaining := by
      by_contra hlt
      simp [isExpiredToken, show remaining < m by omega] at hserved
    refine ⟨hpos (by omega), ?_⟩
    intro m' hm'
    cases hm'
    exact hle
  | none =>
    refine ⟨?_, by simp⟩
    have h := h rfl
    cases maxExpiryTime with
    | some m =>
      rcases h with h | h
      · simp [isExpiredToken, h] at hserved
      · exact h
    | none =>
      have hle : (settings.tokenMinExpiryTime : Int) ≤ remaining := by
        by_contra hlt
        simp [isExpiredToken, show remaining < (settings.tokenMinExpiryTime : Int) by omega]
          at hserved
      by_cases hzero : settings.tokenMinExpiryTime = 0
      · rcases h hzero with h | h
        · omega
        · exact h
      · exact hpos (by omega)

theorem lt_of_seconds_sub_pos {a b : Int} (h : 0 < seconds (a - b)) : b < a := by
  unfold seconds at h
  by_contra hle
  have hneg : (a - b).tdiv 1000 = -((b - a).tdiv 1000) := by
    rw [← Int.neg_tdiv, Int.neg_sub]
  have hnonneg : 0 ≤ (b - a).tdiv 1000 := Int.tdiv_nonneg (by omega) (by decide)
  omega

end Lookups

section Invariants

variable (settings : Settings) (exp : Str → Int) (world : World) (names : Map Str Str)

/-- No access token is kept for longer than it lasts. -/
def Truthful (s : State) : Prop :=
  ∀ key entry, s.accessTokenCache.lookup key = some entry →
    entry.expiryTime ≤ exp entry.accessTokenResponse.access_token

/-- The invariant of a step, which does not change the map of the token files. -/
def Sound (s : State) : Prop :=
  Truthful exp s ∧ s.roleNameMap = names ∧
    ∀ credential, .granted credential ∈ s.answers → credential.Stated exp world.now

/-- The invariant of a step, with what holds of the role token under one key. -/
def RoleSound (minExpiryTime maxExpiryTime : Option Int) (kept : Option Str) (s : State) : Prop :=
  Sound exp world names s ∧ ∀ key ∈ kept, RoleKept settings world minExpiryTime maxExpiryTime key s

end Invariants

section RoleTokens

variable {settings : Settings} {exp : Str → Int} {world : World} {names : Map Str Str}

theorem Sound.tail (h : Sound exp world names s) (issued : List Issue) :
    Sound exp world names { s with answers := s.answers.tail, issued := issued } :=
  ⟨h.1, h.2.1, fun _ hc => h.2.2 _ (List.mem_of_mem_tail hc)⟩

theorem RoleKept.erase (h : RoleKept settings world lo hi key s) (key' : Str) :
    RoleKept settings world lo hi key
      { s with roleTokenCache := s.roleTokenCache.erase key' } := by
  intro token htoken
  rw [Map.lookup_erase] at htoken
  split at htoken
  · cases htoken
  · exact h token htoken

theorem roleSound_erase (key' : Str) (s : State) (h : RoleSound settings exp world names lo hi kept s) :
    RoleSound settings exp world names lo hi kept
      { s with roleTokenCache := s.roleTokenCache.erase key' } :=
  ⟨h.1, fun key hkey => (h.2 key hkey).erase key'⟩

theorem RoleKept.insert (h : RoleKept settings world lo hi key s)
    (hnew : seconds world.now < token.expiryTime) (key' : Str) :
    RoleKept settings world lo hi key
      { s with roleTokenCache := s.roleTokenCache.insert key' token } := by
  intro token' htoken
  rw [Map.lookup_insert] at htoken
  split at htoken
  · cases htoken
    exact .of_unexpired hnew
  · exact h token' htoken

theorem requestRoleToken_leads (lo hi : Option Int) (kept : Option Str) :
    Leads (RoleSound settings exp world names lo hi kept)
      (requestRoleToken settings world request cacheKey ignoreCache)
      (fun served s => RoleSound settings exp world names lo hi kept s ∧
        seconds world.now < served.credential.expiryTime ∧ served.source ≠ .cache)
      (fun _ => Sound exp world names) := by
  rw [requestRoleToken_eq]
  refine asking_leads (J := RoleSound settings exp world names lo hi kept)
    (K := fun token s => RoleSound settings exp world names lo hi kept s ∧
      seconds world.now < token.expiryTime)
    (L := RoleSound settings exp world names lo hi kept) ((updateServicePrincipal_leads fun _ _ h => h).mono (fun _ h => h)
      (fun _ _ h => h) fun _ _ h => h.1) ?_ ?_ ?_
  · intro s h
    rcases ask_cases (.role request) Credential.role? s with
      ⟨credential, token, answers, hanswers, hpick, hask⟩ | ⟨failure, _, hask⟩
    · rw [hask]
      have hanswers' : answers = s.answers.tail := by rw [hanswers, List.tail_cons]
      subst hanswers'
      have hstated := h.1.2.2 credential (by rw [hanswers]; exact List.mem_cons_self)
      cases credential with
      | role => cases hpick; exact ⟨⟨h.1.tail _, h.2⟩, hstated⟩
      | access => cases hpick
      | aws => cases hpick
    · rw [hask]
      exact ⟨h.1.tail _, h.2⟩
  · intro token
    cases cacheKey with
    | none => exact .pure _ fun s h => ⟨h.1, h.2, by simp⟩
    | some cacheKey =>
      exact .write _ fun s h =>
        ⟨⟨h.1.1, fun key hkey => (h.1.2 key hkey).insert h.2 cacheKey⟩, h.2, by simp⟩
  · refine (falling_finds (fun key _ _ => ?_) fun _ h => h).mono (fun _ _ h => h)
      fun s (h : RoleSound settings exp world names lo hi kept s) _ => h.1
    refine (lookupRoleTokenInCache_finds fun s h => ⟨h, roleSound_erase key s h⟩).mono
      (fun token s h => ⟨h.1, ?_, by simp⟩) fun _ h => h
    have hserved := h.2.2
    simp only [isExpiredToken] at hserved
    show seconds world.now < token.expiryTime
    simp at hserved
    omega

theorem prefetchRoleToken_leads :
    Leads (RoleSound settings exp world names lo hi kept) (prefetchRoleToken settings world request)
      (fun _ => RoleSound settings exp world names lo hi kept) (fun _ => Sound exp world names) := by
  refine .bind (requireDomain_leads fun _ _ h => h.1) fun _ =>
    .bind (M := fun _ => RoleSound settings exp world names lo hi kept) ?_ fun token =>
      prefetchToken_leads fun _ _ _ h => h
  refine .bind (M := fun _ => RoleSound settings exp world names lo hi kept) (.read _ fun _ h => h)
    fun client => ?_
  exact (requestRoleToken_leads lo hi kept).mono (fun _ h => h) (fun _ _ h => h.1) fun _ _ h => h

/-- What a call gives back: an unexpired credential, long-lived enough when it was cached. -/
def Well (exp : Str → Int) (world : World) (names : Map Str Str) (minimum : Option Int)
    (served : Served Credential) (s : State) : Prop :=
  Sound exp world names s ∧ served.credential.Unexpired exp world.now ∧
    (served.source = .cache → ∀ m ∈ minimum, m ≤ served.credential.remaining exp world.now)

theorem getRoleToken_leads (hbounds : Bounds request.minExpiryTime request.maxExpiryTime) :
    Leads (fun s => Sound exp world names s ∧ (Request.role request).Safe settings exp world ignoreCache s)
      (getRoleToken settings world request ignoreCache)
      (fun served => Well exp world names request.minExpiryTime (served.map .role))
      (fun _ => Sound exp world names) := by
  rw [getRoleToken_eq]
  refine .bind (.read _ fun s h => ⟨h, rfl⟩ : Leads _ _ (fun client s =>
    (Sound exp world names s ∧ (Request.role request).Safe settings exp world ignoreCache s) ∧
      client = s.self) _) fun client => ?_
  have hplain key ignoring : Leads (fun s =>
      (Sound exp world names s ∧ (Request.role request).Safe settings exp world ignoreCache s) ∧
        client = s.self) (requestRoleToken settings world request key ignoring)
      (fun served => Well exp world names request.minExpiryTime (served.map .role))
      (fun _ => Sound exp world names) :=
    (requestRoleToken_leads none none none).mono
      (fun s h => ⟨h.1.1, by simp⟩) (fun served s h => ⟨h.1.1, h.2.1, fun hc => absurd hc h.2.2⟩)
      fun _ _ h => h
  cases hkey : roleRequestKey settings client request with
  | none => cases ignoreCache <;> exact hplain _ _
  | some key =>
    cases ignoreCache with
    | true => exact hplain _ _
    | false =>
      have hfind : Finds (RoleSound settings exp world names request.minExpiryTime request.maxExpiryTime
          (some key)) (lookupRoleTokenInCache settings world key request.minExpiryTime
            request.maxExpiryTime settings.tokenMinExpiryTime)
          (fun token => Well exp world names request.minExpiryTime ⟨.role token, .cache⟩)
          (RoleSound settings exp world names request.minExpiryTime request.maxExpiryTime (some key))
          fun _ => Sound exp world names := by
        refine (lookupRoleTokenInCache_finds fun s h => ⟨h, roleSound_erase key s h⟩).mono (fun token s h => ?_)
          fun _ h => h
        obtain ⟨h, htoken, hserved⟩ := h
        have hgood := (h.2 key rfl token htoken).unexpired hbounds (by omega) hserved
        exact ⟨h.1, hgood.1, fun _ => hgood.2⟩
      refine answering_leads (I := fun s => (Sound exp world names s ∧
          (Request.role request).Safe settings exp world false s) ∧ client = s.self)
        (hfind.mono_left ?_) (fun _ => prefetchRoleToken_leads) (fun _ => hfind) (fun _ _ h => h)
        ((requestRoleToken_leads request.minExpiryTime request.maxExpiryTime (some key)).mono
          (fun _ h => h)
          (fun served s h => ⟨h.1.1, h.2.1, fun hc => absurd hc h.2.2⟩) fun _ _ h => h)
      rintro s ⟨⟨hsound, hsafe⟩, rfl⟩
      refine ⟨hsound, ?_⟩
      rintro key' ⟨⟩
      exact hsafe rfl key hkey

end RoleTokens

section AwsCredentials

variable {settings : Settings} {exp : Str → Int} {world : World} {names : Map Str Str}

/-- The invariant of a step that makes up to `n` calls to ZTS, with what holds of the credentials
under one key. -/
def AwsSound (settings : Settings) (exp : Str → Int) (world : World) (names : Map Str Str)
    (minExpiryTime maxExpiryTime : Option Int) (kept : Option Str) (n : Nat) (s : State) : Prop :=
  Sound exp world names s ∧ ∀ key ∈ kept, AwsKept settings world minExpiryTime maxExpiryTime key s ∧
    (Grants n s.answers ∨ AwsKept settings world none none key s)

/-- The same when the call to ZTS has failed. -/
def AwsFailed (settings : Settings) (exp : Str → Int) (world : World) (names : Map Str Str)
    (minExpiryTime maxExpiryTime : Option Int) (kept : Option Str) (s : State) : Prop :=
  Sound exp world names s ∧ ∀ key ∈ kept, AwsKept settings world minExpiryTime maxExpiryTime key s ∧
    AwsKept settings world none none key s

theorem AwsFailed.sound (h : AwsFailed settings exp world names lo hi kept s) (n : Nat) :
    AwsSound settings exp world names lo hi kept n s :=
  ⟨h.1, fun key hkey => ⟨(h.2 key hkey).1, .inr (h.2 key hkey).2⟩⟩

theorem AwsKept.erase (h : AwsKept settings world lo hi key s) (key' : Str) :
    AwsKept settings world lo hi key { s with awsCredsCache := s.awsCredsCache.erase key' } := by
  intro awsCred hcred
  rw [Map.lookup_erase] at hcred
  split at hcred
  · cases hcred
  · exact h awsCred hcred

theorem AwsKept.insert (h : AwsKept settings world lo hi key s)
    (hnew : world.now < awsCred.expiration) (key' : Str) :
    AwsKept settings world lo hi key
      { s with awsCredsCache := s.awsCredsCache.insert key' awsCred } := by
  intro awsCred' hcred
  rw [Map.lookup_insert] at hcred
  split at hcred
  · cases hcred
    exact .of_unexpired hnew
  · exact h awsCred' hcred

theorem awsSound_erase (key' : Str) (s : State) (h : AwsSound settings exp world names lo hi kept n s) :
    AwsSound settings exp world names lo hi kept n
      { s with awsCredsCache := s.awsCredsCache.erase key' } :=
  ⟨h.1, fun key hkey => ⟨(h.2 key hkey).1.erase key', (h.2 key hkey).2.imp_right (·.erase key')⟩⟩

theorem awsFailed_erase (key' : Str) (s : State) (h : AwsFailed settings exp world names lo hi kept s) :
    AwsFailed settings exp world names lo hi kept
      { s with awsCredsCache := s.awsCredsCache.erase key' } :=
  ⟨h.1, fun key hkey => ⟨(h.2 key hkey).1.erase key', (h.2 key hkey).2.erase key'⟩⟩

theorem requestAwsCredentials_leads (lo hi : Option Int) (kept : Option Str) (n : Nat)
    (hkept : ignoreCache = false → cacheKey = kept) :
    Leads (AwsSound settings exp world names lo hi kept (n + 1))
      (requestAwsCredentials settings world request cacheKey ignoreCache)
      (fun served s => AwsSound settings exp world names lo hi kept n s ∧
        world.now < served.credential.expiration ∧ served.source ≠ .cache)
      (fun _ => Sound exp world names) := by
  rw [requestAwsCredentials_eq]
  refine asking_leads (J := AwsSound settings exp world names lo hi kept (n + 1))
    (K := fun awsCred s => AwsSound settings exp world names lo hi kept n s ∧
      world.now < awsCred.expiration)
    (L := AwsFailed settings exp world names lo hi kept) ((updateServicePrincipal_leads
      fun _ _ h => h).mono (fun _ h => h) (fun _ _ h => h) fun _ _ h => h.1) ?_ ?_ ?_
  · intro s h
    rcases ask_cases (.aws request.domainName request.roleName request.maxExpiryTime
      request.externalId) Credential.aws? s with
      ⟨credential, awsCred, answers, hanswers, hpick, hask⟩ | ⟨failure, hfail, hask⟩
    · rw [hask]
      have hstated := h.1.2.2 credential (by rw [hanswers]; exact List.mem_cons_self)
      have hsound := h.1.tail (⟨s.self.credentials, .aws request.domainName request.roleName
        request.maxExpiryTime request.externalId, credential⟩ :: s.issued)
      rw [hanswers, List.tail_cons] at hsound
      cases credential with
      | role => cases hpick
      | access => cases hpick
      | aws =>
        cases hpick
        refine ⟨⟨hsound, fun key hkey => ⟨(h.2 key hkey).1, ?_⟩⟩, hstated⟩
        have hgrants := (h.2 key hkey).2
        rw [hanswers] at hgrants
        exact hgrants
    · rw [hask]
      refine ⟨h.1.tail _, fun key hkey => ⟨(h.2 key hkey).1, ?_⟩⟩
      refine (h.2 key hkey).2.resolve_left fun hgrants => ?_
      cases hanswers : s.answers with
      | nil => rw [hanswers] at hgrants; exact hgrants
      | cons answer answers =>
        rw [hanswers] at hgrants
        cases answer with
        | refused => exact hgrants
        | broken => exact hgrants
        | granted credential =>
          cases credential with
          | role => exact hgrants
          | access => exact hgrants
          | aws => cases hfail _ _ hanswers
  · intro awsCred
    cases cacheKey with
    | none => exact .pure _ fun s h => ⟨h.1, h.2, by simp⟩
    | some cacheKey =>
      exact .write _ fun s h => ⟨⟨h.1.1, fun key hkey =>
        ⟨(h.1.2 key hkey).1.insert h.2 cacheKey,
          (h.1.2 key hkey).2.imp_right (·.insert h.2 cacheKey)⟩⟩, h.2, by simp⟩
  · refine (falling_finds (fun key hkey hignore => ?_) fun _ h => h).mono (fun _ _ h => h)
      fun s (h : AwsFailed settings exp world names lo hi kept s) _ => h.1
    refine (lookupAwsCredInCache_finds fun s h => ⟨h, awsFailed_erase key s h⟩).mono
      (fun awsCred s h => ⟨h.1.sound n, ?_, by simp⟩) fun _ h => h
    have hlapsed := (h.1.2 key (hkept hignore ▸ hkey)).2 awsCred h.2.1
    exact (hlapsed.unexpired ⟨by simp, by simp⟩ lt_of_seconds_sub_pos h.2.2).1

theorem prefetchAwsCreds_leads :
    Leads (AwsSound settings exp world names lo hi kept (n + 1)) (prefetchAwsCreds settings world request)
      (fun _ => AwsSound settings exp world names lo hi kept n) (fun _ => Sound exp world names) := by
  refine .bind (requireDomain_leads fun _ _ h => h.1) fun _ =>
    .bind (M := fun _ => AwsSound settings exp world names lo hi kept n) ?_ fun token =>
      prefetchToken_leads fun _ _ _ h => h
  refine .bind (M := fun _ => AwsSound settings exp world names lo hi kept (n + 1)) (.read _ fun _ h => h)
    fun client => ?_
  exact (requestAwsCredentials_leads lo hi kept n (by simp)).mono (fun _ h => h) (fun _ _ h => h.1)
    fun _ _ h => h

theorem getAWSTemporaryCredentials_leads
    (hbounds : Bounds request.minExpiryTime request.maxExpiryTime) :
    Leads (fun s => Sound exp world names s ∧ (Request.aws request).Safe settings exp world ignoreCache s)
      (getAWSTemporaryCredentials settings world request ignoreCache)
      (fun served => Well exp world names request.minExpiryTime (served.map .aws))
      (fun _ => Sound exp world names) := by
  rw [getAWSTemporaryCredentials_eq]
  refine .bind (.read _ fun s h => ⟨h, rfl⟩ : Leads _ _ (fun client s =>
    (Sound exp world names s ∧ (Request.aws request).Safe settings exp world ignoreCache s) ∧
      client = s.self) _) fun client => ?_
  have hplain key ignoring (hkept : ignoring = false → key = none) : Leads (fun s =>
      (Sound exp world names s ∧ (Request.aws request).Safe settings exp world ignoreCache s) ∧
        client = s.self) (requestAwsCredentials settings world request.encoded key ignoring)
      (fun served => Well exp world names request.minExpiryTime (served.map .aws))
      (fun _ => Sound exp world names) :=
    (requestAwsCredentials_leads none none none 0 hkept).mono
      (fun s h => ⟨h.1.1, by simp⟩) (fun served s h => ⟨h.1.1, h.2.1, fun hc => absurd hc h.2.2⟩)
      fun _ _ h => h
  cases hkey : awsRequestKey client request.encoded with
  | none => cases ignoreCache <;> exact hplain _ _ fun _ => rfl
  | some key =>
    cases ignoreCache with
    | true => exact hplain _ _ (by simp)
    | false =>
      have hfind n : Finds (AwsSound settings exp world names request.minExpiryTime
          request.maxExpiryTime (some key) n) (lookupAwsCredInCache settings world key
            request.minExpiryTime request.maxExpiryTime)
          (fun awsCred => Well exp world names request.minExpiryTime ⟨.aws awsCred, .cache⟩)
          (AwsSound settings exp world names request.minExpiryTime request.maxExpiryTime (some key) n)
          fun _ => Sound exp world names := by
        refine (lookupAwsCredInCache_finds fun s h => ⟨h, awsSound_erase key s h⟩).mono (fun awsCred s h => ?_)
          fun _ h => h
        obtain ⟨h, hcred, hserved⟩ := h
        have hgood := ((h.2 key rfl).1 awsCred hcred).unexpired hbounds lt_of_seconds_sub_pos hserved
        exact ⟨h.1, hgood.1, fun _ => hgood.2⟩
      refine answering_leads (I := fun s => (Sound exp world names s ∧
          (Request.aws request).Safe settings exp world false s) ∧ client = s.self)
        ((hfind (if client.prefetches settings then 2 else 1)).mono_left ?_)
        (fun hprefetch => ?_) (fun _ => hfind 1) (fun hprefetch s h => ?_)
        ((requestAwsCredentials_leads _ _ _ 0 fun _ => rfl).mono (fun _ h => h)
          (fun served s h => ⟨h.1.1, h.2.1, fun hc => absurd hc h.2.2⟩) fun _ _ h => h)
      · rintro s ⟨⟨hsound, hsafe⟩, rfl⟩
        refine ⟨hsound, ?_⟩
        rintro key' ⟨⟩
        exact hsafe rfl key hkey
      · rw [if_pos (show client.prefetches settings = true from hprefetch)]
        exact prefetchAwsCreds_leads
      · rwa [if_neg (by rw [Client.prefetches, hprefetch]; decide)] at h

end AwsCredentials

section AccessTokens

variable {settings : Settings} {exp : Str → Int} {world : World} {names : Map Str Str}

/-- The invariant of a step, with what holds of the token file and of the entry under one key. -/
def AccessSound (exp : Str → Int) (world : World) (names : Map Str Str)
    (request : AccessTokenRequest) (keyed : Bool) (kept : Option Str) (s : State) : Prop :=
  Sound exp world names s ∧
  (∀ response, tokenFile world s.roleNameMap request.domainName request.roleNames =
    some response →
    (Credential.access response).Unexpired exp world.now ∧
      (keyed = true → Current exp world response)) ∧
  ∀ key ∈ kept, AccessKept world request.expiryTime key s ∧
    ∀ response, tokenFile world s.roleNameMap request.domainName request.roleNames =
        some response ∨ .granted (.access response) ∈ s.answers →
      ServesWell world request.expiryTime (.ofResponse world.now response)

theorem Truthful.erase (h : Truthful exp s) (key : Str) :
    Truthful exp { s with accessTokenCache := s.accessTokenCache.erase key } := by
  intro key' entry hentry
  rw [Map.lookup_erase] at hentry
  split at hentry
  · cases hentry
  · exact h key' entry hentry

theorem Truthful.insert (h : Truthful exp s)
    (hnew : entry.expiryTime ≤ exp entry.accessTokenResponse.access_token) (key : Str) :
    Truthful exp { s with accessTokenCache := s.accessTokenCache.insert key entry } := by
  intro key' entry' hentry
  rw [Map.lookup_insert] at hentry
  split at hentry
  · cases hentry
    exact hnew
  · exact h key' entry' hentry

theorem AccessKept.erase (h : AccessKept world expiryTime key s) (key' : Str) :
    AccessKept world expiryTime key
      { s with accessTokenCache := s.accessTokenCache.erase key' } := by
  intro entry hentry
  rw [Map.lookup_erase] at hentry
  split at hentry
  · cases hentry
  · exact h entry hentry

theorem AccessKept.insert (h : AccessKept world expiryTime key s)
    (hnew : ServesWell world expiryTime entry) (key' : Str) :
    AccessKept world expiryTime key
      { s with accessTokenCache := s.accessTokenCache.insert key' entry } := by
  intro entry' hentry
  rw [Map.lookup_insert] at hentry
  split at hentry
  · cases hentry
    exact hnew
  · exact h entry' hentry

theorem accessSound_erase (key' : Str) (s : State) (h : AccessSound exp world names request keyed kept s) :
    AccessSound exp world names request keyed kept
      { s with accessTokenCache := s.accessTokenCache.erase key' } :=
  ⟨⟨h.1.1.erase key', h.1.2⟩, h.2.1, fun key hkey => ⟨(h.2.2 key hkey).1.erase key', (h.2.2 key hkey).2⟩⟩

theorem accessSound_tail (h : AccessSound exp world names request keyed kept s) (issued : List Issue) :
    AccessSound exp world names request keyed kept
      { s with answers := s.answers.tail, issued := issued } :=
  ⟨h.1.tail issued, h.2.1, fun key hkey => ⟨(h.2.2 key hkey).1, fun response hresponse =>
    (h.2.2 key hkey).2 response (hresponse.imp_right List.mem_of_mem_tail)⟩⟩

/-- A response that may be kept: its lifetime counts from now on, and it is served well. -/
def Keeps (exp : Str → Int) (world : World) (request : AccessTokenRequest) (keyed : Bool)
    (kept : Option Str) (response : AccessTokenResponse) : Prop :=
  (Credential.access response).Unexpired exp world.now ∧
  (keyed = true → Current exp world response) ∧
  ∀ key ∈ kept, ServesWell world request.expiryTime (.ofResponse world.now response)

theorem keepAccessToken_leads (hkeyed : cacheKey.isSome → keyed = true) :
    Leads (fun s => AccessSound exp world names request keyed kept s ∧
        Keeps exp world request keyed kept response)
      (keepAccessToken world cacheKey response)
      (fun _ s => AccessSound exp world names request keyed kept s ∧
        (Credential.access response).Unexpired exp world.now) E := by
  cases cacheKey with
  | none => exact .pure _ fun s h => ⟨h.1, h.2.1⟩
  | some cacheKey =>
    refine .write _ fun s h => ?_
    obtain ⟨h, hunexpired, hcurrent, hserves⟩ := h
    have htruthful := Truthful.insert h.1.1
      (show (AccessTokenResponseCacheEntry.ofResponse world.now response).expiryTime ≤ _ from
        hcurrent (hkeyed rfl)) cacheKey
    exact ⟨⟨⟨htruthful, h.1.2⟩, h.2.1, fun key hkey =>
      ⟨(h.2.2 key hkey).1.insert (hserves key hkey) cacheKey, (h.2.2 key hkey).2⟩⟩, hunexpired⟩

theorem not_isExpired_neg_one {entry : AccessTokenResponseCacheEntry} :
    entry.isExpired now (-1) = false ↔ seconds now < entry.expiryTime := by
  simp [AccessTokenResponseCacheEntry.isExpired]

theorem requestAccessToken_leads (keyed : Bool) (kept : Option Str)
    (hkeyed : cacheKey.isSome → keyed = true) :
    Leads (AccessSound exp world names request keyed kept)
      (requestAccessToken world request cacheKey ignoreCache)
      (fun served s => AccessSound exp world names request keyed kept s ∧
        (Credential.access served.credential).Unexpired exp world.now ∧ served.source ≠ .cache)
      (fun _ => Sound exp world names) := by
  rw [requestAccessToken_eq]
  refine reading_leads (J := AccessSound exp world names request keyed kept)
    (K := fun response s => AccessSound exp world names request keyed kept s ∧
      Keeps exp world request keyed kept response) ?_
    (fun response => (keepAccessToken_leads hkeyed).mono (fun _ h => h)
      (fun _ s h => ⟨h.1, h.2, by simp⟩) fun _ _ h => h) ?_
  · refine .read _ fun s h => ?_
    show Option.elim (tokenFile world s.roleNameMap request.domainName request.roleNames) _ _
    cases hfile : tokenFile world s.roleNameMap request.domainName request.roleNames with
    | none => exact h
    | some response =>
      exact ⟨h, (h.2.1 response hfile).1, (h.2.1 response hfile).2,
        fun key hkey => (h.2.2 key hkey).2 response (.inl hfile)⟩
  refine asking_leads (J := AccessSound exp world names request keyed kept)
    (K := fun response s => AccessSound exp world names request keyed kept s ∧
      Keeps exp world request keyed kept response)
    (L := AccessSound exp world names request keyed kept) ((updateServicePrincipal_leads
      fun _ _ h => h).mono (fun _ h => h) (fun _ _ h => h) fun _ _ h => h.1) ?_
    (fun response => (keepAccessToken_leads hkeyed).mono (fun _ h => h)
      (fun _ s h => ⟨h.1, h.2, by simp⟩) fun _ _ h => h) ?_
  · intro s h
    rcases ask_cases (.access request) Credential.access? s with
      ⟨credential, response, answers, hanswers, hpick, hask⟩ | ⟨failure, _, hask⟩
    · rw [hask]
      have hmem : .granted credential ∈ s.answers := by
        rw [hanswers]
        exact List.mem_cons_self
      have htail : answers = s.answers.tail := by rw [hanswers, List.tail_cons]
      subst htail
      cases credential with
      | role => cases hpick
      | aws => cases hpick
      | access =>
        cases hpick
        obtain ⟨hexp, hpos⟩ := h.1.2.2 _ hmem
        refine ⟨accessSound_tail h _, ?_, fun _ => hexp.ge, fun key hkey =>
          (h.2.2 key hkey).2 response (.inr hmem)⟩
        show seconds world.now < exp response.access_token
        omega
    · rw [hask]
      exact accessSound_tail h _
  · refine (falling_finds (fun key _ _ => ?_) fun _ h => h).mono (fun _ _ h => h)
      fun s (h : AccessSound exp world names request keyed kept s) _ => h.1
    refine (lookupAccessTokenResponseInCache_finds fun s h _ =>
      ⟨h, accessSound_erase key s h⟩).mono ?_ fun _ h => h
    rintro response s ⟨h, entry, hentry, hserved, rfl⟩
    exact ⟨h, (not_isExpired_neg_one.1 hserved).trans_le (h.1.1 key entry hentry), by simp⟩

theorem prefetchAccessToken_leads :
    Leads (AccessSound exp world names request true kept) (prefetchAccessToken settings world request)
      (fun _ => AccessSound exp world names request true kept) (fun _ => Sound exp world names) := by
  refine .bind (requireDomain_leads fun _ _ h => h.1) fun _ =>
    .bind (M := fun _ => AccessSound exp world names request true kept) ?_ fun token =>
      prefetchToken_leads fun _ _ _ h => h
  refine .bind (M := fun _ => AccessSound exp world names request true kept) (.read _ fun _ h => h)
    fun client => ?_
  exact (requestAccessToken_leads true kept fun _ => rfl).mono (fun _ h => h) (fun _ _ h => h.1)
    fun _ _ h => h

theorem getAccessToken_leads :
    Leads (fun s => Sound exp world names s ∧
        (Request.access request).Safe settings exp world ignoreCache s)
      (getAccessToken settings world request ignoreCache)
      (fun served => Well exp world names (Request.access request).minimum (served.map .access))
      (fun _ => Sound exp world names) := by
  rw [getAccessToken_eq]
  refine .bind (.read _ fun s h => ⟨h, rfl⟩ : Leads _ _ (fun client s => (Sound exp world names s ∧
    (Request.access request).Safe settings exp world ignoreCache s) ∧ client = s.self) _)
    fun client => ?_
  have hplain key ignoring (hkey : accessRequestKey settings client request = key)
      (hmiss : ∀ s, ¬ ServedFromCache world request key ignoreCache s) : Leads (fun s =>
      (Sound exp world names s ∧ (Request.access request).Safe settings exp world ignoreCache s) ∧
        client = s.self) (requestAccessToken world request key ignoring)
      (fun served => Well exp world names (Request.access request).minimum (served.map .access))
      (fun _ => Sound exp world names) := by
    refine (requestAccessToken_leads key.isSome none fun h => h).mono ?_
      (fun served s h => ⟨h.1.1, h.2.1, fun hc => absurd hc h.2.2⟩) fun _ _ h => h
    rintro s ⟨⟨hsound, hsafe⟩, rfl⟩
    subst hkey
    exact ⟨hsound, (hsafe.2 (hmiss s)).1, by simp⟩
  cases hkey : accessRequestKey settings client request with
  | none =>
    have hmiss s : ¬ ServedFromCache world request none ignoreCache s := by
      rintro ⟨_, key, entry, hnone, _⟩
      cases hnone
    cases ignoreCache <;> exact hplain _ _ hkey hmiss
  | some key =>
    cases ignoreCache with
    | true => exact hplain _ _ hkey fun s h => by cases h.1
    | false =>
      have hserves {s entry} (hsound : Sound exp world names s)
          (hkept : AccessKept world request.expiryTime key s)
          (hentry : s.accessTokenCache.lookup key = some entry)
          (hserved : entry.isExpired world.now request.expiryTime = false) :
          Well exp world names (Request.access request).minimum
            ⟨.access (entry.response world.now), .cache⟩ s := by
        have hle := hsound.1 key entry hentry
        rcases hkept entry hentry with hexpired | ⟨hunexpired, hlong⟩
        · rw [hserved] at hexpired
          cases hexpired
        refine ⟨hsound, (not_isExpired_neg_one.1 hunexpired).trans_le hle, ?_⟩
        intro _ m hm
        simp only [Request.minimum] at hm
        split at hm
        · rename_i hpos
          cases hm
          have := hlong hpos
          show request.expiryTime ≤ exp entry.accessTokenResponse.access_token - seconds world.now
          omega
        · cases hm
      refine answering_leads
        (I := fun s => (Sound exp world names s ∧ (Request.access request).Safe settings exp world false s) ∧
          client = s.self)
        (J := AccessSound exp world names request true
          (if client.prefetches settings then some key else none))
        (K := AccessSound exp world names request true
          (if client.prefetches settings then some key else none)) ?_
        (fun _ => prefetchAccessToken_leads) (fun hprefetch => ?_) (fun _ _ h => h)
        ((requestAccessToken_leads true _ fun _ => rfl).mono (fun _ h => h)
          (fun served s h => ⟨h.1.1, h.2.1, fun hc => absurd hc h.2.2⟩) fun _ _ h => h)
      · refine (lookupAccessTokenResponseInCache_finds fun s h hmiss => ?_).mono
          (fun response s h => ?_) fun _ h => h
        · obtain ⟨⟨hsound, hkept, hfetch⟩, rfl⟩ := h
          rw [hkey] at hkept hfetch
          obtain ⟨hfile, hlong⟩ := hfetch (by
            rintro ⟨_, key', entry, heq, hentry, hserved⟩
            cases heq
            rw [hmiss entry hentry] at hserved
            cases hserved)
          have hJ : AccessSound exp world names request true
              (if s.self.prefetches settings then some key else none) s := by
            refine ⟨hsound, fun response h => ⟨(hfile response h).1, fun _ =>
              (hfile response h).2 rfl⟩, fun key' hkey' => ?_⟩
            split at hkey'
            · rename_i hprefetch
              cases hkey'
              exact ⟨hkept rfl key rfl, hlong rfl rfl hprefetch⟩
            · cases hkey'
          exact ⟨hJ, accessSound_erase key s hJ⟩
        · obtain ⟨⟨⟨hsound, hkept, _⟩, rfl⟩, entry, hentry, hserved, rfl⟩ := h
          exact hserves hsound (hkept rfl key hkey) hentry hserved
      · rw [if_pos (show client.prefetches settings = true from hprefetch)]
        refine (lookupAccessTokenResponseInCache_finds fun s h _ =>
          ⟨h, accessSound_erase key s h⟩).mono ?_ fun _ h => h
        rintro response s ⟨h, entry, hentry, hserved, rfl⟩
        exact hserves h.1 (h.2.2 key rfl).1 hentry hserved

end AccessTokens

section Run

variable {settings : Settings} {exp : Str → Int} {world : World} {names : Map Str Str}

theorem refreshItem_leads (hfile : item.tokenType = .access → ∀ response,
      tokenFile world names item.domainName item.roleNames = some response →
      (Credential.access response).Unexpired exp world.now ∧ Current exp world response) :
    Leads (Sound exp world names) (refreshItem settings world item) (fun _ => Sound exp world names)
      fun _ => Sound exp world names := by
  unfold refreshItem
  cases htype : item.tokenType with
  | role =>
    rw [getRoleToken_ignoring]
    refine .bind (M := fun _ => Sound exp world names) ?_ fun token => .pure _ fun _ h => h
    refine .bind (M := fun _ => Sound exp world names) (.read _ fun _ h => h) fun client => ?_
    exact (requestRoleToken_leads none none none).mono (fun s h => ⟨h, by simp⟩)
      (fun _ _ h => h.1.1) fun _ _ h => h
  | access =>
    simp only
    rw [getAccessToken_ignoring]
    refine .bind (M := fun _ => Sound exp world names) ?_ fun response => .pure _ fun _ h => h
    refine .bind (M := fun _ => Sound exp world names) (.read _ fun _ h => h) fun client => ?_
    refine (requestAccessToken_leads true none fun _ => rfl).mono (fun s h => ?_)
      (fun _ _ h => h.1.1) fun _ _ h => h
    refine ⟨h, fun response hresponse => ?_, by simp⟩
    have hgood := hfile htype response (h.2.1 ▸ hresponse)
    exact ⟨hgood.1, fun _ => hgood.2⟩
  | aws =>
    simp only
    rw [getAWSTemporaryCredentials_ignoring]
    refine .bind (M := fun _ => Sound exp world names) ?_ fun awsCred => .pure _ fun _ h => h
    refine .bind (M := fun _ => Sound exp world names) (.read _ fun _ h => h) fun client => ?_
    exact (requestAwsCredentials_leads none none none 0 (by simp)).mono (fun s h => ⟨h, by simp⟩)
      (fun _ _ h => h.1.1) fun _ _ h => h

theorem runPrefetch_leads (settings : Settings) (names : Map Str Str)
    (hfiles : ∀ domain file response, world.files domain file = some response →
      ∃ written ≤ world.now, (Credential.access response).Stated exp written) :
    Leads (fun s => Sound exp world names s ∧ PrefetchSafe exp world s)
      (runPrefetch settings world) (fun _ => Sound exp world names)
      fun _ => Sound exp world names := by
  refine .bind (.read _ fun s h => ⟨h, rfl⟩ : Leads _ _ (fun items s =>
    (Sound exp world names s ∧ PrefetchSafe exp world s) ∧ items = s.prefetchScheduledItems) _)
    fun items => .start fun s h => ?_
  obtain ⟨⟨hsound, hsafe⟩, rfl⟩ := h
  refine (processItems_leads (fun _ _ _ h => h) _ fun item hitem client _ => ⟨fun _ h => h,
    (refreshItem_leads fun htype response hresponse => ?_).mono (fun _ h => h.1) (fun _ _ h => h)
      fun _ _ h => h⟩).mono (fun _ h => h ▸ hsound) (fun _ _ h => h) fun _ _ h => h
  have hcurrent := hsafe item hitem htype response (hsound.2.1 ▸ hresponse)
  obtain ⟨file, _, hfile⟩ := Option.bind_eq_some_iff.1 hresponse
  obtain ⟨written, _, _, hpos⟩ := hfiles _ _ _ hfile
  refine ⟨?_, hcurrent⟩
  unfold Current at hcurrent
  show seconds world.now < exp response.access_token
  omega

theorem getCredential_leads (names : Map Str Str) (hbounded : request.Bounded) :
    Leads (fun s => Sound exp world names s ∧ request.Safe settings exp world ignoreCache s)
      (getCredential settings world request ignoreCache)
      (Well exp world names request.minimum) (fun _ => Sound exp world names) := by
  cases request with
  | role => exact .bind (getRoleToken_leads hbounded) fun served => .pure _ fun _ h => h
  | access => exact .bind getAccessToken_leads fun served => .pure _ fun _ h => h
  | aws => exact .bind (getAWSTemporaryCredentials_leads hbounded) fun served => .pure _ fun _ h => h

/-- One step returns an unexpired credential, and keeps no access token for too long. -/
theorem Process.run_serves {process : Process} (htruthful : Truthful exp process.shared)
    (hhonest : moment.Honest exp) (hsafe : process.Safe settings exp moment) :
    process.ServesUnexpired settings exp moment ∧
      Truthful exp (process.run settings moment).2.shared := by
  obtain ⟨event, world, answers⟩ := moment
  cases event with
  | get client request ignoreCache =>
    have hget := getCredential_leads process.shared.roleNameMap
      (hhonest.bounded client request ignoreCache rfl) (process.entering client answers)
      ⟨⟨htruthful, rfl, hhonest.answers⟩, hsafe⟩
    simp only [ServesUnexpired, run]
    split at hget
    · rename_i served s heq
      rw [heq]
      refine ⟨?_, hget.1.1⟩
      rintro _ ⟨⟩
      exact hget.2
    · rename_i failure s heq
      rw [heq]
      refine ⟨?_, hget.1⟩
      rintro _ ⟨⟩
  | prefetch =>
    have hrun := runPrefetch_leads settings process.shared.roleNameMap hhonest.files { process.shared with answers := answers }
      ⟨⟨htruthful, rfl, hhonest.answers⟩, hsafe⟩
    refine ⟨trivial, ?_⟩
    simp only [run]
    split at hrun <;> rename_i heq <;> rw [heq] <;> exact hrun.1
  | addCredentials => exact ⟨trivial, htruthful⟩
  | addCredentialHeader => exact ⟨trivial, htruthful⟩
  | clearCredentials => exact ⟨trivial, htruthful⟩
  | preload => exact ⟨trivial, htruthful⟩

/-- A token of an hour that is read from disk after more than an hour. -/
def oldToken : AccessTokenResponse where
  access_token := "old".toList
  expires_in := 3600

def oldFile : World where
  now := 0
  files domain file :=
    if domain = "sports".toList ∧ file = "readers.json".toList then some oldToken else none

def readers : AccessTokenRequest where
  domainName := "sports".toList
  roleNames := some ["readers".toList]

def oldMoments : List Moment := [
  { event := .preload (fun _ => some ["readers".toList])
      [("sports".toList, "readers.json".toList, oldToken)]
    world := { oldFile with now := 10000 } },
  { event := .get 0 (.access readers) false
    world := { oldFile with now := 4000000 } }]

def apiProcess : Process where
  clients _ := { domain := some "sports".toList, service := some "api".toList }
  shared := { self := {} }

def plainSettings : Settings where
  digest := id

/-- A role token for two hours, answered once and then served from the cache. -/
def readersRole : RoleTokenRequest where
  domainName := "sports".toList
  roleNames := some "readers".toList

def roleMoments : List Moment := [
  { event := .get 0 (.role readersRole) false
    world := { now := 10000 }
    answers := [.granted (.role ⟨"token".toList, 7210⟩)] },
  { event := .get 0 (.role readersRole) false
    world := { now := 4000000 } }]

end Run

end Athenz.ZtsClient
