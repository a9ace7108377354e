import Athenz.ZtsClientRuns

namespace Athenz.ZtsClient
open Lib Lib.Text Lib.Exceptional Lib.Exceptional.Prog
set_option autoImplicit true

section Shapes

/-- Answer from the cache, prefetch and look up once more, or make the request. -/
def answering (lookup : Op (Option α)) (prefetching : Bool) (prefetch : Op Bool)
    (request : Op (Served α)) : Op (Served α) := do
  match ← lookup with
  | some found => pure ⟨found, .cache⟩
  | none =>
    if prefetching then
      if ← prefetch then
        match ← lookup with
        | some found => pure ⟨found, .cache⟩
        | none => request
      else request
    else request

/-- Ask ZTS and keep its answer; a failure falls back on the cache. -/
def asking (world : World) (call : ZtsCall) (pick : Credential → Option α) (keep : α → Op Unit)
    (fallback : Op (Option α)) : Op (Served α) := do
  updateServicePrincipal world
  match ← (ask call pick).caught with
  | .ok found => do
    keep found
    pure ⟨found, .zts⟩
  | .error failure =>
    match ← fallback with
    | some found => pure ⟨found, .fallback⟩
    | none => raise (asClientException failure)

def keepRoleToken (cacheKey : Option Str) (roleToken : RoleToken) : Op Unit :=
  match cacheKey with
  | some cacheKey =>
    write fun s => { s with roleTokenCache := s.roleTokenCache.insert cacheKey roleToken }
  | none => pure ()

def keepAwsCredentials (cacheKey : Option Str) (awsCred : AWSTemporaryCredentials) : Op Unit :=
  match cacheKey with
  | some cacheKey =>
    write fun s => { s with awsCredsCache := s.awsCredsCache.insert cacheKey awsCred }
  | none => pure ()

/-- The lookup after a failure, unless the cache is ignored. -/
def falling (lookup : Str → Op (Option α)) (cacheKey : Option Str) (ignoreCache : Bool) :
    Op (Option α) :=
  match cacheKey, ignoreCache with
  | some cacheKey, false => lookup cacheKey
  | _, _ => pure none

/-- A token file comes before the request. -/
def reading (file : Op (Option α)) (keep : α → Op Unit) (request : Op (Served α)) :
    Op (Served α) := do
  match ← file with
  | some found => do
    keep found
    pure ⟨found, .disk⟩
  | none => request

variable {settings : Settings} {world : World}

theorem requestRoleToken_eq : requestRoleToken settings world request cacheKey ignoreCache =
    asking world (.role request) Credential.role? (keepRoleToken cacheKey)
      (falling (lookupRoleTokenInCache settings world · none none 1) cacheKey ignoreCache) := by
  refine bind_congr fun _ => bind_congr fun answer => ?_
  cases answer with
  | ok found => cases cacheKey <;> rfl
  | error failure =>
    cases cacheKey with
    | none => rfl
    | some cacheKey =>
      cases ignoreCache with
      | true => rfl
      | false => exact bind_congr fun found => by cases found <;> rfl

theorem requestAwsCredentials_eq :
    requestAwsCredentials settings world request cacheKey ignoreCache =
      asking world
        (.aws request.domainName request.roleName request.maxExpiryTime request.externalId)
        Credential.aws? (keepAwsCredentials cacheKey)
        (falling (lookupAwsCredInCache settings world · none none) cacheKey ignoreCache) := by
  refine bind_congr fun _ => bind_congr fun answer => ?_
  cases answer with
  | ok found => cases cacheKey <;> rfl
  | error failure =>
    cases cacheKey with
    | none => rfl
    | some cacheKey =>
      cases ignoreCache with
      | true => rfl
      | false => exact bind_congr fun found => by cases found <;> rfl

theorem requestAccessToken_eq : requestAccessToken world request cacheKey ignoreCache =
    reading (lookupAccessTokenFromDisk world request.domainName request.roleNames)
      (keepAccessToken world cacheKey)
      (asking world (.access request) Credential.access? (keepAccessToken world cacheKey)
        (falling (lookupAccessTokenResponseInCache world · (-1)) cacheKey ignoreCache)) := by
  refine bind_congr fun response => ?_
  cases response with
  | some response => rfl
  | none =>
    refine bind_congr fun _ => bind_congr fun answer => ?_
    cases answer with
    | ok found => rfl
    | error failure =>
      cases cacheKey with
      | none => rfl
      | some cacheKey =>
        cases ignoreCache with
        | true => rfl
        | false => exact bind_congr fun found => by cases found <;> rfl

theorem getRoleToken_eq : getRoleToken settings world request ignoreCache = (do
    let client ← read State.self
    match roleRequestKey settings client request, ignoreCache with
    | some cacheKey, false =>
      answering (lookupRoleTokenInCache settings world cacheKey request.minExpiryTime
        request.maxExpiryTime settings.tokenMinExpiryTime)
        (client.enablePrefetch && settings.prefetchAutoEnable)
        (prefetchRoleToken settings world request)
        (requestRoleToken settings world request (some cacheKey) false)
    | cacheKey, _ => requestRoleToken settings world request cacheKey ignoreCache) := by
  refine bind_congr fun client => ?_
  cases roleRequestKey settings client request with
  | none => rfl
  | some cacheKey =>
    cases ignoreCache with
    | true => rfl
    | false =>
      refine bind_congr fun found => ?_
      cases found with
      | some found => rfl
      | none =>
        refine if_congr Iff.rfl (bind_congr fun scheduled => ?_) rfl
        refine if_congr Iff.rfl (bind_congr fun found => ?_) rfl
        cases found <;> rfl

theorem getAccessToken_eq : getAccessToken settings world request ignoreCache = (do
    let client ← read State.self
    match accessRequestKey settings client request, ignoreCache with
    | some cacheKey, false =>
      answering (lookupAccessTokenResponseInCache world cacheKey request.expiryTime)
        (client.enablePrefetch && settings.prefetchAutoEnable)
        (prefetchAccessToken settings world request)
        (requestAccessToken world request (some cacheKey) false)
    | cacheKey, _ => requestAccessToken world request cacheKey ignoreCache) := by
  refine bind_congr fun client => ?_
  cases accessRequestKey settings client request with
  | none => rfl
  | some cacheKey =>
    cases ignoreCache with
    | true => rfl
    | false =>
      refine bind_congr fun found => ?_
      cases found with
      | some found => rfl
      | none =>
        refine if_congr Iff.rfl (bind_congr fun scheduled => ?_) rfl
        refine if_congr Iff.rfl (bind_congr fun found => ?_) rfl
        cases found <;> rfl

theorem getAWSTemporaryCredentials_eq :
    getAWSTemporaryCredentials settings world request ignoreCache = (do
    let client ← read State.self
    match awsRequestKey client request.encoded, ignoreCache with
    | some cacheKey, false =>
      answering (lookupAwsCredInCache settings world cacheKey request.minExpiryTime
        request.maxExpiryTime)
        (client.enablePrefetch && settings.prefetchAutoEnable)
        (prefetchAwsCreds settings world request.encoded)
        (requestAwsCredentials settings world request.encoded (some cacheKey) false)
    | cacheKey, _ =>
      requestAwsCredentials settings world request.encoded cacheKey ignoreCache) := by
  refine bind_congr fun client => ?_
  cases awsRequestKey client request.encoded with
  | none => rfl
  | some cacheKey =>
    cases ignoreCache with
    | true => rfl
    | false =>
      refine bind_congr fun found => ?_
      cases found with
      | some found => rfl
      | none =>
        refine if_congr Iff.rfl (bind_congr fun scheduled => ?_) rfl
        refine if_congr Iff.rfl (bind_congr fun found => ?_) rfl
        cases found <;> rfl

theorem getRoleToken_ignoring :
    getRoleToken settings world request true = fetchRoleToken settings world request :=
  bind_congr fun client => by cases roleRequestKey settings client request <;> rfl

theorem getAccessToken_ignoring :
    getAccessToken settings world request true = fetchAccessToken settings world request :=
  bind_congr fun client => by cases accessRequestKey settings client request <;> rfl

theorem getAWSTemporaryCredentials_ignoring :
    getAWSTemporaryCredentials settings world request true =
      fetchAwsCredentials settings world request :=
  bind_congr fun client => by cases awsRequestKey client request.encoded <;> rfl

end Shapes

section Refreshes

variable (world : World)

/-- The token file of a domain and roles. -/
def tokenFile (names : Map Str Str) (domain : Str) (roleNames : Option (List Str)) :
    Option AccessTokenResponse :=
  (names.lookup (getRolesStr domain roleNames)).bind (world.files domain)

/-- The items that a prefetch run gets to. -/
def refreshed (items : List PrefetchTokenScheduledItem) : List PrefetchTokenScheduledItem :=
  (items.filter (shouldRefresh world)).takeWhile (·.client.isSome)

/-- The request that a refresh makes. -/
def PrefetchTokenScheduledItem.request (item : PrefetchTokenScheduledItem) : Request :=
  match item.tokenType with
  | .role => .role {
      domainName := item.domainName
      roleNames := item.roleName
      minExpiryTime := item.minDuration
      maxExpiryTime := item.maxDuration
      proxyForPrincipal := item.proxyForPrincipal }
  | .access => .access {
      domainName := item.domainName
      roleNames := item.roleNames
      idTokenServiceName := item.idTokenServiceName
      proxyForPrincipal := item.proxyForPrincipal
      authorizationDetails := item.authorizationDetails
      expiryTime := item.maxDuration.getD 0 }
  | .aws => .aws {
      domainName := item.domainName
      roleName := item.roleName.getD []
      externalId := item.externalId
      minExpiryTime := item.minDuration
      maxExpiryTime := item.maxDuration }

variable {world} {settings : Settings}

theorem refreshItem_role (h : item.tokenType = .role) :
    ∃ request, item.request = .role request ∧ refreshItem settings world item = (do
      let token ← fetchRoleToken settings world request
      pure token.credential.expiryTime) := by
  unfold PrefetchTokenScheduledItem.request refreshItem
  rw [h]
  exact ⟨_, rfl, by simp only [getRoleToken_ignoring]⟩

theorem refreshItem_access (h : item.tokenType = .access) :
    ∃ request, item.request = .access request ∧ refreshItem settings world item = (do
      let response ← fetchAccessToken settings world request
      pure (seconds world.now + response.credential.expires_in)) := by
  unfold PrefetchTokenScheduledItem.request refreshItem
  rw [h]
  exact ⟨_, rfl, by simp only [getAccessToken_ignoring]⟩

theorem refreshItem_aws (h : item.tokenType = .aws) :
    ∃ request, item.request = .aws request ∧ refreshItem settings world item = (do
      let awsCred ← fetchAwsCredentials settings world request
      pure (seconds awsCred.credential.expiration)) := by
  unfold PrefetchTokenScheduledItem.request refreshItem
  rw [h]
  exact ⟨_, rfl, by simp only [getAWSTemporaryCredentials_ignoring]⟩

/-- Items that ask for the same, whatever their times. -/
def PrefetchTokenScheduledItem.Asks (item other : PrefetchTokenScheduledItem) : Prop :=
  item.request = other.request ∧ item.client = other.client

end Refreshes

section Rules

variable {I J L : State → Prop} {E : Failure → State → Prop} {Q : Served α → State → Prop}

/-- A lookup finds what may be served, or leaves what the next step needs. -/
def Finds (I : State → Prop) (lookup : Op (Option α)) (Q : α → State → Prop) (L : State → Prop)
    (E : Failure → State → Prop) : Prop :=
  Leads I lookup (fun found s => found.elim (L s) (Q · s)) E

theorem Finds.mono {lookup : Op (Option α)} {Q Q' : α → State → Prop} (h : Finds I lookup Q J E)
    (hQ : ∀ a s, Q a s → Q' a s) (hJ : ∀ s, J s → L s) : Finds I lookup Q' L E :=
  Leads.mono h (fun _ h => h)
    (fun found s h => match found with
      | some found => hQ found s h
      | none => hJ s h)
    fun _ _ h => h

theorem Finds.mono_left {lookup : Op (Option α)} {Q : α → State → Prop} (h : Finds I lookup Q J E)
    (hI : ∀ s, L s → I s) : Finds L lookup Q J E :=
  Leads.mono h hI (fun _ _ h => h) fun _ _ h => h

theorem answering_leads {lookup : Op (Option α)} {prefetching : Bool} {prefetch : Op Bool}
    {request : Op (Served α)} (hlookup : Finds I lookup (fun a => Q ⟨a, .cache⟩) J E)
    (hprefetch : prefetching = true → Leads J prefetch (fun _ => K) E)
    (hagain : prefetching = true → Finds K lookup (fun a => Q ⟨a, .cache⟩) K E)
    (hdirect : prefetching = false → ∀ s, J s → K s)
    (hrequest : Leads K request Q E) : Leads I (answering lookup prefetching prefetch request) Q E := by
  refine .bind hlookup fun found => ?_
  cases found with
  | some found => exact .pure _ fun _ h => h
  | none =>
    cases prefetching with
    | false => exact hrequest.mono (hdirect rfl) (fun _ _ h => h) fun _ _ h => h
    | true =>
      refine .bind (hprefetch rfl) fun scheduled => ?_
      cases scheduled with
      | false => exact hrequest
      | true =>
        refine .bind (hagain rfl) fun found => ?_
        cases found with
        | some found => exact .pure _ fun _ h => h
        | none => exact hrequest

theorem asking_leads {call : ZtsCall} {pick : Credential → Option α} {keep : α → Op Unit}
    {fallback : Op (Option α)} {K : α → State → Prop}
    (hupdate : Leads I (updateServicePrincipal world) (fun _ => J) E)
    (hask : Leads J (ask call pick) K fun _ => L)
    (hkeep : ∀ found, Leads (K found) (keep found) (fun _ => Q ⟨found, .zts⟩) E)
    (hfallback : Finds L fallback (fun found => Q ⟨found, .fallback⟩)
      (fun s => ∀ failure, E failure s) E) :
    Leads I (asking world call pick keep fallback) Q E := by
  refine .bind hupdate fun _ => .bind (.caught hask
    (R := fun answer s => match answer with
      | .ok found => K found s
      | .error _ => L s) (fun _ _ h => h) fun _ _ h => h) fun answer => ?_
  cases answer with
  | ok found => exact .bind (hkeep found) fun _ => .pure _ fun _ h => h
  | error failure =>
    refine .bind hfallback fun found => ?_
    cases found with
    | some found => exact .pure _ fun _ h => h
    | none => exact .raise _ fun _ h => h _

theorem reading_leads {file : Op (Option α)} {keep : α → Op Unit} {request : Op (Served α)}
    {K : α → State → Prop} (hfile : Finds I file K J E)
    (hkeep : ∀ found, Leads (K found) (keep found) (fun _ => Q ⟨found, .disk⟩) E)
    (hrequest : Leads J request Q E) : Leads I (reading file keep request) Q E := by
  refine .bind hfile fun found => ?_
  cases found with
  | some found => exact .bind (hkeep found) fun _ => .pure _ fun _ h => h
  | none => exact hrequest

theorem falling_finds {lookup : Str → Op (Option α)} {Q : α → State → Prop}
    (hlookup : ∀ key, cacheKey = some key → ignoreCache = false → Finds I (lookup key) Q J E)
    (h : ∀ s, I s → J s) : Finds I (falling lookup cacheKey ignoreCache) Q J E := by
  cases cacheKey with
  | none => exact .pure none h
  | some cacheKey =>
    cases ignoreCache with
    | true => exact .pure none h
    | false => exact hlookup cacheKey rfl rfl

theorem updateServicePrincipal_leads (hself : ∀ s client, I s → I { s with self := client }) :
    Leads I (updateServicePrincipal world) (fun _ => I) fun _ => I := by
  refine .bind (.read _ fun s h => ⟨h, rfl⟩ : Leads I _ (fun client s => I s ∧ client = s.self) _)
    fun client => ?_
  cases client.siaProvider with
  | none => exact .pure _ fun _ h => h.1
  | some provider =>
    cases hidentity : world.identity provider client.domain client.service with
    | none =>
      simp only [hidentity]
      exact .raise _ fun _ h => h.1
    | some svcPrincipal =>
      simp only [hidentity]
      split
      · exact .pure _ fun _ h => h.1
      · exact .write _ fun s h => hself s _ h.1

/-- A call to ZTS is answered with an issued credential, or fails on the first answer. -/
theorem ask_cases (call : ZtsCall) (pick : Credential → Option α) (s : State) :
    (∃ credential found answers, s.answers = .granted credential :: answers ∧
      pick credential = some found ∧ ask call pick s = (.ok found, { s with
        answers := answers, issued := ⟨s.self.credentials, call, credential⟩ :: s.issued })) ∨
    ∃ failure, (∀ credential answers, s.answers = .granted credential :: answers →
      pick credential = none) ∧
      ask call pick s = (.error failure, { s with answers := s.answers.tail }) := by
  unfold ask
  cases hanswers : s.answers with
  | nil =>
    have hs : s = { s with answers := [] } := by rw [← hanswers]
    exact .inr ⟨.other, by simp, congrArg (Prod.mk _) hs⟩
  | cons answer answers =>
    cases answer with
    | refused code => exact .inr ⟨_, by simp, rfl⟩
    | broken => exact .inr ⟨_, by simp, rfl⟩
    | granted credential =>
      cases hpick : pick credential with
      | none =>
        refine .inr ⟨.other, ?_, by simp only [hpick, List.tail_cons]⟩
        rintro _ _ h
        cases h
        exact hpick
      | some found => exact .inl ⟨credential, found, answers, rfl, hpick, by simp only [hpick]⟩

theorem requireDomain_leads (hE : ∀ failure s, I s → E failure s) :
    Leads I (requireDomain domainName) (fun _ => I) E := by
  unfold requireDomain
  split
  · exact .raise _ fun s h => hE _ s h
  · exact .pure _ fun _ h => h

theorem prefetchToken_leads
    (hqueue : ∀ s items objects, I s →
      I { s with prefetchScheduledItems := items, objects := objects }) :
    Leads I (prefetchToken item) (fun _ => I) E := by
  refine .bind (.read _ fun s h => h : Leads I _ (fun _ => I) _) fun client => ?_
  split
  · exact .pure _ fun _ h => h
  · exact .bind (.write _ fun s h => hqueue s _ _ h) fun _ => .pure _ fun _ h => h

theorem lookupRoleTokenInCache_finds {I J : State → Prop}
    (hmiss : ∀ s, I s → J s ∧ J { s with roleTokenCache := s.roleTokenCache.erase cacheKey }) :
    Finds I
      (lookupRoleTokenInCache settings world cacheKey minExpiryTime maxExpiryTime serverMinExpiryTime)
      (fun token s => I s ∧ s.roleTokenCache.lookup cacheKey = some token ∧
        isExpiredToken settings (token.expiryTime - seconds world.now) minExpiryTime maxExpiryTime
          serverMinExpiryTime = false) J E := by
  refine .bind (.read _ fun s h => ⟨h, rfl⟩ :
    Leads I _ (fun cache s => I s ∧ cache = s.roleTokenCache) _) fun cache => ?_
  cases hlookup : cache.lookup cacheKey with
  | none => exact .pure _ fun s h => (hmiss s h.1).1
  | some token =>
    dsimp only
    split
    · split
      · exact .bind (.write _ fun s h => (hmiss s h.1).2) fun _ => .pure _ fun _ h => h
      · exact .pure _ fun s h => (hmiss s h.1).1
    · rename_i hserved
      exact .pure _ fun s h => ⟨h.1, h.2 ▸ hlookup, Bool.eq_false_of_not_eq_true hserved⟩

theorem lookupAwsCredInCache_finds {I J : State → Prop}
    (hmiss : ∀ s, I s → J s ∧ J { s with awsCredsCache := s.awsCredsCache.erase cacheKey }) :
    Finds I (lookupAwsCredInCache settings world cacheKey minExpiryTime maxExpiryTime)
      (fun awsCred s => I s ∧ s.awsCredsCache.lookup cacheKey = some awsCred ∧
        isExpiredToken settings (seconds (awsCred.expiration - world.now)) minExpiryTime
          maxExpiryTime settings.tokenMinExpiryTime = false) J E := by
  refine .bind (.read _ fun s h => ⟨h, rfl⟩ :
    Leads I _ (fun cache s => I s ∧ cache = s.awsCredsCache) _) fun cache => ?_
  cases hlookup : cache.lookup cacheKey with
  | none => exact .pure _ fun s h => (hmiss s h.1).1
  | some awsCred =>
    dsimp only
    split
    · split
      · exact .bind (.write _ fun s h => (hmiss s h.1).2) fun _ => .pure _ fun _ h => h
      · exact .pure _ fun s h => (hmiss s h.1).1
    · rename_i hserved
      exact .pure _ fun s h => ⟨h.1, h.2 ▸ hlookup, Bool.eq_false_of_not_eq_true hserved⟩

/-- A miss may use that the cache holds nothing to serve. -/
theorem lookupAccessTokenResponseInCache_finds {I J : State → Prop}
    (hmiss : ∀ s, I s → (∀ entry, s.accessTokenCache.lookup cacheKey = some entry →
      entry.isExpired world.now expiryTime = true) →
      J s ∧ J { s with accessTokenCache := s.accessTokenCache.erase cacheKey }) :
    Finds I (lookupAccessTokenResponseInCache world cacheKey expiryTime)
      (fun response s => I s ∧ ∃ entry, s.accessTokenCache.lookup cacheKey = some entry ∧
        entry.isExpired world.now expiryTime = false ∧ response = entry.response world.now) J E := by
  refine .bind (.read _ fun s h => ⟨h, rfl⟩ :
    Leads I _ (fun cache s => I s ∧ cache = s.accessTokenCache) _) fun cache => ?_
  cases hlookup : cache.lookup cacheKey with
  | none =>
    refine .pure _ fun s h => (hmiss s h.1 ?_).1
    intro entry hentry
    rw [← h.2, hlookup] at hentry
    cases hentry
  | some entry =>
    dsimp only
    split
    · rename_i hexpired
      have hmiss s (h : I s ∧ cache = s.accessTokenCache) := hmiss s h.1 fun entry' hentry => by
        rw [← h.2, hlookup] at hentry
        cases hentry
        exact hexpired
      split
      · exact .bind (.write _ fun s h => (hmiss s h).2) fun _ => .pure _ fun _ h => h
      · exact .pure _ fun s h => (hmiss s h).1
    · rename_i hserved
      exact .pure _ fun s h =>
        ⟨h.1, entry, h.2 ▸ hlookup, Bool.eq_false_of_not_eq_true hserved, rfl⟩

/-- A change of the queue after which every item asks for what some item asked for before. -/
def QueueKept (I : State → Prop) : Prop :=
  ∀ s items, (∀ item ∈ items, ∃ old ∈ s.prefetchScheduledItems, item.Asks old) → I s →
    I { s with prefetchScheduledItems := items }

theorem updateItem_leads {f : PrefetchTokenScheduledItem → PrefetchTokenScheduledItem}
    (hqueue : QueueKept I) (hf : ∀ item, (f item).Asks item) :
    Leads I (updateItem object f) (fun _ => I) E := by
  refine .write _ fun s h => hqueue s _ (fun item hitem => ?_) h
  obtain ⟨old, hold, rfl⟩ := List.mem_map.1 hitem
  refine ⟨old, hold, ?_⟩
  split
  · exact hf old
  · exact ⟨rfl, rfl⟩

theorem removeItem_leads (hqueue : QueueKept I) :
    Leads I (removeItem world item) (fun _ => I) E :=
  .bind (updateItem_leads hqueue fun _ => ⟨rfl, rfl⟩) fun _ =>
    .write _ fun s h => hqueue s _ (fun old hold => ⟨old, List.mem_of_mem_eraseP hold, rfl, rfl⟩) h

theorem processPrefetchTask_leads (hqueue : QueueKept I)
    (hrefresh : Leads J (refreshItem settings world item) (fun _ => I) fun _ => I) :
    Leads J (processPrefetchTask settings world item) (fun _ => I) E := by
  refine .bind (.caught hrefresh (R := fun _ => I) (fun _ _ h => h) fun _ _ h => h) fun answer => ?_
  cases answer with
  | ok expiresAtUTC => exact updateItem_leads hqueue fun _ => ⟨rfl, rfl⟩
  | error failure =>
    cases failure with
    | resource => exact removeItem_leads hqueue
    | other => exact removeItem_leads hqueue
    | ztsClient code =>
      simp only
      split
      · exact removeItem_leads hqueue
      · exact updateItem_leads hqueue fun _ => ⟨rfl, rfl⟩

/-- A run keeps what each refresh that it gets to keeps, with the client of its item. -/
theorem processItems_leads (hqueue : QueueKept I) :
    (items : List PrefetchTokenScheduledItem) →
    (∀ item ∈ items.takeWhile (·.client.isSome), ∀ client ∈ item.client,
      (∀ s, I s → I { s with self := client }) ∧
      Leads (fun s => I s ∧ s.self = client) (refreshItem settings world item) (fun _ => I)
        fun _ => I) →
    Leads I (processItems settings world items) (fun _ => I) fun _ => I
  | [], _ => .pure _ fun _ h => h
  | item :: items, hrefresh => by
    unfold processItems
    cases hclient : item.client with
    | none =>
      simp only
      exact .raise _ fun _ h => h
    | some client =>
      simp only
      rw [List.takeWhile_cons_of_pos (by rw [hclient]; rfl)] at hrefresh
      obtain ⟨hself, hitem⟩ := hrefresh item List.mem_cons_self client hclient
      refine .bind (M := fun _ s => I s ∧ s.self = client) (.write _ fun s h => ⟨hself s h, rfl⟩)
        fun _ => .bind (processPrefetchTask_leads hqueue hitem) fun _ => ?_
      exact processItems_leads hqueue items
        fun item hitem => hrefresh item (List.mem_cons_of_mem _ hitem)

end Rules

end Athenz.ZtsClient
