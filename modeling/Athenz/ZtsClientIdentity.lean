import Athenz.ZtsClientKeys
import Athenz.ZtsClientRules

namespace Athenz.ZtsClient
open Lib Lib.Text Lib.Fields Lib.Exceptional Lib.Exceptional.Prog
set_option autoImplicit true

section Matching

/-- A call to ZTS has the attributes of a request. -/
def Request.Matches : Request → ZtsCall → Prop
  | .role request, .role asked => request.Alike asked
  | .access request, .access asked => request.Alike asked
  | .aws request, .aws domainName encodedRole _ externalId =>
    request.domainName = domainName ∧ urlEncode request.roleName = encodedRole ∧
      request.externalId = externalId
  | _, _ => False

/-- A credential as it was issued, except that the lifetime of an access token is what is left. -/
def Credential.Is : Credential → Credential → Prop
  | .access response, .access issued =>
    { issued with expires_in := response.expires_in } = response
  | credential, issued => credential = issued

/-- ZTS issued a credential for such a request, made with these credentials. -/
def Issue.For (issue : Issue) (credentials : Credentials) (request : Request)
    (credential : Credential) : Prop :=
  issue.credentials = credentials ∧ request.Matches issue.call ∧ credential.Is issue.credential

end Matching

section Owners

/-- The credentials, and for AWS the external id, that each cache key belongs to. -/
structure Owners where
  role : Str → Credentials
  access : Str → Credentials
  aws : Str → Credentials
  externalId : Str → Option Str

/-- The client after `updateServicePrincipal`. -/
def Client.inEffect (world : World) (client : Client) : Client :=
  match client.siaProvider.bind fun provider =>
    world.identity provider client.domain client.service with
  | some svcPrincipal =>
    if client.sameCredentialsAsBefore svcPrincipal then client
    else client.addPrincipalCredentials (some svcPrincipal) false
  | none => client

variable (settings : Settings) (owners : Owners) (world : World)

/-- What a request stores belongs to the credentials in effect, and no token file is read. -/
def Request.Stores (client : Client) (names : Map Str Str) : Request → Prop
  | .role request => ∀ key ∈ roleRequestKey settings client request,
    (client.inEffect world).credentials = owners.role key
  | .access request => tokenFile world names request.domainName request.roleNames = none ∧
    ∀ key ∈ accessRequestKey settings client request,
      (client.inEffect world).credentials = owners.access key
  | .aws request => ∀ key ∈ awsRequestKey client request.encoded,
    (client.inEffect world).credentials = owners.aws key ∧
      request.externalId = owners.externalId key

/-- What a request may find in a cache belongs to the credentials of the client. -/
def Request.Finds (s : State) : Request → Prop
  | .role request => ∀ key ∈ roleRequestKey settings s.self request,
    (s.roleTokenCache.lookup key).isSome → s.self.credentials = owners.role key
  | .access request => ∀ key ∈ accessRequestKey settings s.self request,
    (s.accessTokenCache.lookup key).isSome → s.self.credentials = owners.access key
  | .aws request => ∀ key ∈ awsRequestKey s.self request.encoded,
    (s.awsCredsCache.lookup key).isSome → s.self.credentials = owners.aws key

/-- The request that a prefetch makes first: the role of AWS credentials is encoded already. -/
def Request.prefetched : Request → Request
  | .aws request => .aws request.encoded
  | request => request

/-- The condition of a request in the state that it meets. -/
def Request.Owned (ignoreCache : Bool) (s : State) (request : Request) : Prop :=
  request.Stores settings owners world s.self s.roleNameMap ∧
    (ignoreCache = false → request.Finds settings owners s ∧
      (s.self.enablePrefetch && settings.prefetchAutoEnable →
        request.prefetched.Stores settings owners world s.self s.roleNameMap))

/-- The refreshes of a run store what belongs to the identity of each item. -/
def PrefetchOwned (s : State) : Prop :=
  ∀ item ∈ refreshed world s.prefetchScheduledItems, ∀ client ∈ item.client,
    item.request.Stores settings owners world client s.roleNameMap

def Process.Owned (process : Process) (moment : Moment) : Prop :=
  match moment.event with
  | .get client request ignoreCache =>
    request.Owned settings owners moment.world ignoreCache (process.entering client moment.answers)
  | .prefetch => PrefetchOwned settings owners moment.world process.shared
  | _ => True

/-- A returned credential was issued for the request, to the credentials that the client has. -/
def Process.ServesOwn (process : Process) (moment : Moment) : Prop :=
  match moment.event with
  | .get client request _ =>
    ∀ served ∈ (process.run settings moment).1,
      ∃ issue ∈ (process.run settings moment).2.shared.issued,
        issue.For (((process.run settings moment).2.clients client).credentials) request
          served.credential
  | _ => True

/-- The names of a request have no semicolons and commas. -/
def Request.Named (used : Str → Prop) : Request → Prop
  | .role request => request.Named
  | .access request => request.Named used
  | .aws request => ';' ∉ request.domainName

def Moment.Named (used : Str → Prop) (moment : Moment) : Prop :=
  ∀ client request ignoreCache, moment.event = .get client request ignoreCache →
    request.Named used

end Owners

section Backing

/-- The key that a client stores the answer of a request under. -/
def Request.key (settings : Settings) (client : Client) : Request → Option Str
  | .role request => roleRequestKey settings client request
  | .access request => accessRequestKey settings client request
  | .aws request => awsRequestKey client request.encoded

/-- A credential under a key was issued, to these credentials, for a request with that key. -/
def Backed (settings : Settings) (used : Str → Prop) (make : ρ → Request) (issued : List Issue)
    (credentials : Credentials) (key : Str) (credential : Credential) : Prop :=
  ∃ issue ∈ issued, issue.credentials = credentials ∧ issue.credential = credential ∧
    ∃ (client : Client) (request : ρ), client.Named ∧ (make request).Named used ∧
      (make request).key settings client = some key ∧ (make request).Matches issue.call

variable {settings : Settings} {used : Str → Prop}

theorem Backed.cons {make : ρ → Request}
    (h : Backed settings used make issued credentials key credential) (issue : Issue) :
    Backed settings used make (issue :: issued) credentials key credential := by
  obtain ⟨old, hold, h⟩ := h
  exact ⟨old, List.mem_cons_of_mem issue hold, h⟩

/-- What a cache holds is what some request, alike in all attributes, was answered with. -/
structure Traced (settings : Settings) (owners : Owners) (used : Str → Prop)
    (names : Map Str Str) (s : State) : Prop where
  role : ∀ key token, s.roleTokenCache.lookup key = some token →
    Backed settings used .role s.issued (owners.role key) key (.role token)
  access : ∀ key entry, s.accessTokenCache.lookup key = some entry →
    Backed settings used .access s.issued (owners.access key) key
      (.access entry.accessTokenResponse)
  aws : ∀ key awsCred, s.awsCredsCache.lookup key = some awsCred →
    Backed settings used (fun request : { request : AwsRequest //
      request.externalId = owners.externalId key } => .aws request.val) s.issued (owners.aws key)
      key (.aws awsCred)
  queue : ∀ item ∈ s.prefetchScheduledItems, item.request.Named used ∧
    ∀ client ∈ item.client, client.Named
  self : s.self.Named
  names : s.roleNameMap = names

end Backing

section Clients

variable {world : World}

/-- Identity changes keep what keys are made of. -/
def Client.SameNames (client other : Client) : Prop :=
  client.domain = other.domain ∧ client.service = other.service ∧
    client.sslContext = other.sslContext ∧ client.siaProvider = other.siaProvider ∧
    client.enablePrefetch = other.enablePrefetch

theorem Client.inEffect_sameNames (client : Client) (world : World) : (client.inEffect world).SameNames client := by
  unfold inEffect
  split
  · split
    · exact ⟨rfl, rfl, rfl, rfl, rfl⟩
    · unfold addPrincipalCredentials
      dsimp only
      split <;> exact ⟨rfl, rfl, rfl, rfl, rfl⟩
  · exact ⟨rfl, rfl, rfl, rfl, rfl⟩

theorem Client.SameNames.named {client other : Client} (h : client.SameNames other)
    (hother : other.Named) : client.Named := by
  obtain ⟨hdomain, hservice, hssl, _⟩ := h
  exact ⟨hdomain ▸ hother.domain, hservice ▸ hother.service, hssl ▸ hother.sslContext⟩

theorem Client.SameNames.key {client other : Client} (h : client.SameNames other)
    (settings : Settings) (request : Request) :
    request.key settings client = request.key settings other := by
  obtain ⟨hdomain, hservice, hssl, _⟩ := h
  cases request <;>
    simp only [Request.key, roleRequestKey, accessRequestKey, awsRequestKey, roleTokenCacheKey,
      accessTokenCacheKey, tenantDomain, hdomain, hservice, hssl]

theorem Client.addPrincipalCredentials_twice (client : Client) (principal : Principal) :
    (client.addPrincipalCredentials (some principal) false).addPrincipalCredentials
      (some principal) false = client.addPrincipalCredentials (some principal) false := by
  obtain ⟨authority, credentials⟩ := principal
  cases authority <;> rfl

/-- The principal that the provider of a client gives. -/
def Client.renewed (world : World) (client : Client) : Option Principal :=
  client.siaProvider.bind fun provider => world.identity provider client.domain client.service

theorem Client.inEffect_of_none {client : Client} (h : client.renewed world = none) :
    client.inEffect world = client := by
  rw [renewed] at h
  rw [inEffect, h]

theorem Client.inEffect_of_some {client : Client} (h : client.renewed world = some svcPrincipal) :
    client.inEffect world = if client.sameCredentialsAsBefore svcPrincipal then client
      else client.addPrincipalCredentials (some svcPrincipal) false := by
  rw [renewed] at h
  rw [inEffect, h]

theorem Client.inEffect_inEffect (client : Client) :
    (client.inEffect world).inEffect world = client.inEffect world := by
  have hrenewed : (client.inEffect world).renewed world = client.renewed world := by
    obtain ⟨hdomain, hservice, _, hprovider, _⟩ := client.inEffect_sameNames world
    rw [renewed, renewed, hdomain, hservice, hprovider]
  cases hsome : client.renewed world with
  | none => rw [inEffect_of_none (hrenewed.trans hsome)]
  | some principal =>
    rw [inEffect_of_some (hrenewed.trans hsome)]
    split
    · rfl
    · rename_i hchanged
      rw [inEffect_of_some hsome] at hchanged ⊢
      split at hchanged
      · contradiction
      · rename_i hsame
        rw [if_neg hsame, addPrincipalCredentials_twice]

/-- The client of a call, before or after its identity was renewed. -/
def Acts (world : World) (client : Client) (s : State) : Prop :=
  s.self = client ∨ s.self = client.inEffect world

theorem Acts.key (h : Acts world client s) (settings : Settings) (request : Request) :
    request.key settings s.self = request.key settings client := by
  rcases h with hself | hself
  · rw [hself]
  · rw [hself]
    exact (client.inEffect_sameNames world).key settings request

end Clients

section Calls

variable {settings : Settings} {owners : Owners} {used : Str → Prop} {names : Map Str Str}
  {world : World} {client : Client}

theorem Traced.with_self (h : Traced settings owners used names s) (hclient : client.Named) :
    Traced settings owners used names { s with self := client } :=
  ⟨h.role, h.access, h.aws, h.queue, hclient, h.names⟩

theorem Traced.tail (h : Traced settings owners used names s) :
    Traced settings owners used names { s with answers := s.answers.tail } :=
  ⟨h.role, h.access, h.aws, h.queue, h.self, h.names⟩

theorem Traced.asked (h : Traced settings owners used names s) (answers : List Answer)
    (issue : Issue) : Traced settings owners used names
      { s with answers := answers, issued := issue :: s.issued } where
  role key token htoken := (h.role key token htoken).cons issue
  access key entry hentry := (h.access key entry hentry).cons issue
  aws key awsCred hcred := (h.aws key awsCred hcred).cons issue
  queue := h.queue
  self := h.self
  names := h.names

theorem updateServicePrincipal_cases (world : World) (s : State) :
    (∃ failure, updateServicePrincipal world s = (.error failure, s)) ∨
      updateServicePrincipal world s = (.ok (), { s with self := s.self.inEffect world }) := by
  cases hprovider : s.self.siaProvider with
  | none =>
    have hnone : s.self.renewed world = none := by rw [Client.renewed, hprovider]; rfl
    refine .inr ?_
    rw [Client.inEffect_of_none hnone]
    simp only [updateServicePrincipal, Prog.read_bind, hprovider]
    rfl
  | some provider =>
    have hrenewed : s.self.renewed world =
        world.identity provider s.self.domain s.self.service := by
      rw [Client.renewed, hprovider]
      rfl
    cases hidentity : world.identity provider s.self.domain s.self.service with
    | none =>
      refine .inl ⟨.other, ?_⟩
      simp only [updateServicePrincipal, Prog.read_bind, hprovider, hidentity]
      rfl
    | some svcPrincipal =>
      refine .inr ?_
      rw [Client.inEffect_of_some (hrenewed.trans hidentity)]
      simp only [updateServicePrincipal, Prog.read_bind, hprovider, hidentity]
      split <;> rfl

theorem update_traced :
    Leads (fun s => Traced settings owners used names s ∧ Acts world client s)
      (updateServicePrincipal world)
      (fun _ s => Traced settings owners used names s ∧ s.self = client.inEffect world)
      (fun _ => Traced settings owners used names) := by
  intro s h
  have heffect : s.self.inEffect world = client.inEffect world := by
    rcases h.2 with hself | hself
    · rw [hself]
    · rw [hself, Client.inEffect_inEffect]
  rcases updateServicePrincipal_cases world s with ⟨failure, hupdate⟩ | hupdate
  · rw [hupdate]
    exact h.1
  · rw [hupdate]
    exact ⟨h.1.with_self ((s.self.inEffect_sameNames world).named h.1.self), heffect⟩

/-- ZTS answered a call of the client with this credential. -/
def Granted (world : World) (client : Client) (call : ZtsCall) (credential : Credential)
    (s : State) : Prop :=
  ∃ issue ∈ s.issued, issue.credentials = (client.inEffect world).credentials ∧
    issue.call = call ∧ issue.credential = credential

theorem ask_traced {pick : Credential → Option α} {wrap : α → Credential}
    (hpick : ∀ credential found, pick credential = some found → credential = wrap found) :
    Leads (fun s => Traced settings owners used names s ∧ s.self = client.inEffect world)
      (ask call pick)
      (fun found s => (Traced settings owners used names s ∧ s.self = client.inEffect world) ∧
        Granted world client call (wrap found) s)
      (fun _ s => Traced settings owners used names s ∧ s.self = client.inEffect world) := by
  intro s h
  rcases ask_cases call pick s with ⟨credential, found, answers, _, hfound, hask⟩ |
    ⟨failure, _, hask⟩
  · rw [hask]
    exact ⟨⟨h.1.asked _ _, h.2⟩, _, List.mem_cons_self, by rw [h.2], rfl, hpick _ _ hfound⟩
  · rw [hask]
    exact ⟨h.1.tail, h.2⟩

theorem Credential.Is.refl (credential : Credential) : credential.Is credential := by
  cases credential <;> rfl

/-- What a call gives back: a credential that was issued for the request. -/
def Serves (settings : Settings) (owners : Owners) (used : Str → Prop) (names : Map Str Str)
    (request : Request) (credential : Credential) (s : State) : Prop :=
  Traced settings owners used names s ∧
    ∃ issue ∈ s.issued, issue.For s.self.credentials request credential

theorem asking_traced {pick : Credential → Option α} {wrap : α → Credential}
    {keep : α → Op Unit} {fallback : Op (Option α)}
    (hpick : ∀ credential found, pick credential = some found → credential = wrap found)
    (hcall : request.Matches call)
    (hkeep : ∀ found, Leads (fun s => (Traced settings owners used names s ∧
        s.self = client.inEffect world) ∧ Granted world client call (wrap found) s) (keep found)
      (fun _ s => (Traced settings owners used names s ∧ s.self = client.inEffect world) ∧
        Granted world client call (wrap found) s) fun _ => Traced settings owners used names)
    (hfallback : Finds (fun s => Traced settings owners used names s ∧
        s.self = client.inEffect world) fallback
      (fun found s => Serves settings owners used names request (wrap found) s ∧
        s.self = client.inEffect world) (Traced settings owners used names)
      fun _ => Traced settings owners used names) :
    Leads (fun s => Traced settings owners used names s ∧ Acts world client s)
      (asking world call pick keep fallback)
      (fun served s => Serves settings owners used names request (wrap served.credential) s ∧
        s.self = client.inEffect world)
      (fun _ => Traced settings owners used names) := by
  refine asking_leads update_traced (ask_traced hpick) (fun found => (hkeep found).mono
    (fun _ h => h) (fun _ s h => ?_) fun _ _ h => h)
    (hfallback.mono (fun _ _ h => h) fun _ h _ => h)
  obtain ⟨⟨htraced, hself⟩, issue, hissue, hcredentials, rfl, hcredential⟩ := h
  refine ⟨⟨htraced, issue, hissue, ?_, hcall, ?_⟩, hself⟩
  · rw [hself, hcredentials]
  · rw [hcredential]
    exact .refl _

theorem Granted.backed (make : ρ → Request) (asked : ρ)
    (h : Granted world client call credential s) (hclient : client.Named)
    (hnamed : (make asked).Named used) (hkey : (make asked).key settings client = some key)
    (hcall : (make asked).Matches call) :
    Backed settings used make s.issued (client.inEffect world).credentials key credential := by
  obtain ⟨issue, hissue, hcredentials, rfl, hcredential⟩ := h
  exact ⟨issue, hissue, hcredentials, hcredential, client, asked, hclient, hnamed, hkey, hcall⟩

theorem RoleTokenRequest.Alike.trans {request other asked : RoleTokenRequest}
    (h : request.Alike other) (h' : other.Alike asked) : request.Alike asked :=
  ⟨h.1.trans h'.1, fun role => (h.2.1 role).trans (h'.2.1 role), h.2.2.trans h'.2.2⟩

theorem AccessTokenRequest.Alike.trans {request other asked : AccessTokenRequest}
    (h : request.Alike other) (h' : other.Alike asked) : request.Alike asked := by
  obtain ⟨hdomain, hroles, hidToken, hproxy, hdetails, huris⟩ := h
  obtain ⟨hdomain', hroles', hidToken', hproxy', hdetails', huris'⟩ := h'
  exact ⟨hdomain.trans hdomain', fun role => (hroles role).trans (hroles' role),
    hidToken.trans hidToken', hproxy.trans hproxy', hdetails.trans hdetails', huris.trans huris'⟩

theorem prefetchToken_traced (hitem : item.request.Named used) :
    Leads (fun s => Traced settings owners used names s ∧ s.self = client) (prefetchToken item)
      (fun _ s => Traced settings owners used names s ∧ s.self = client) E := by
  refine .bind (.read _ fun s h => ⟨h, rfl⟩ : Leads _ _ (fun self s =>
    (Traced settings owners used names s ∧ s.self = client) ∧ self = s.self) _) fun self => ?_
  split
  · exact .pure _ fun _ h => h.1
  refine .bind (.write _ fun s h => ?_) fun _ => .pure _ fun _ h => h
  obtain ⟨⟨h, hself⟩, rfl⟩ := h
  refine ⟨⟨h.role, h.access, h.aws, fun old hold => ?_, h.self, h.names⟩, hself⟩
  rcases List.mem_append.1 hold with hold | hnew
  · exact h.queue old (List.mem_of_mem_eraseP hold)
  · rw [List.mem_singleton.1 hnew]
    refine ⟨hitem, fun itemClient hclient => ?_⟩
    unfold PrefetchTokenScheduledItem.client at hclient
    dsimp only at hclient
    split at hclient
    · rename_i hssl
      cases hclient
      exact ⟨by simp, by simp, fun text htext => h.self.sslContext text (hssl ▸ htext)⟩
    · split at hclient
      · cases hclient
      · cases hclient
        exact ⟨h.self.domain, h.self.service, by simp⟩

/-- A lookup whose hits belong to `owner`; a miss may drop what the cache held. -/
def FindsOwn (settings : Settings) (owners : Owners) (used : Str → Prop) (names : Map Str Str)
    (request : Request) (wrap : α → Credential) (owner : Credentials) (Held : State → Prop)
    (drop : State → State) (lookup : Op (Option α)) : Prop :=
  ∀ I J : State → Prop, (∀ s, I s → Traced settings owners used names s) →
    (∀ s, I s → Held s → s.self.credentials = owner) → (∀ s, I s → J s ∧ J (drop s)) →
    Finds I lookup (fun found => Serves settings owners used names request (wrap found)) J
      fun _ => Traced settings owners used names

theorem answering_traced {lookup : Op (Option α)} {prefetch : Op Bool} {asking : Op (Served α)}
    {wrap : α → Credential} {s : State} (owner : Credentials) (Held : State → Prop)
    (drop : State → State)
    (hlookup : FindsOwn settings owners used names request wrap owner Held drop lookup)
    (hdrop : ∀ s, Traced settings owners used names s →
      Traced settings owners used names (drop s) ∧ (drop s).self = s.self)
    (hprefetch : prefetching = true →
      Leads (fun s => Traced settings owners used names s ∧ Acts world client s) prefetch
        (fun _ s => Traced settings owners used names s ∧ s.self = client.inEffect world)
        fun _ => Traced settings owners used names)
    (hasking : Leads (fun s => Traced settings owners used names s ∧ Acts world client s) asking
      (fun served => Serves settings owners used names request (wrap served.credential))
      fun _ => Traced settings owners used names)
    (howner : (client.inEffect world).credentials = owner)
    (hstart : Traced settings owners used names s ∧ s.self = client)
    (hheld : Held s → s.self.credentials = owner) :
    Leads (· = s) (answering lookup prefetching prefetch asking)
      (fun served => Serves settings owners used names request (wrap served.credential))
      fun _ => Traced settings owners used names := by
  refine answering_leads
    (J := fun s => Traced settings owners used names s ∧ Acts world client s)
    (K := fun s => (Traced settings owners used names s ∧ Acts world client s) ∧
      (prefetching = true → s.self = client.inEffect world))
    (hlookup _ _ ?_ ?_ ?_) (fun h => (hprefetch h).mono (fun _ h => h)
      (fun _ _ h => ⟨⟨h.1, .inr h.2⟩, fun _ => h.2⟩) fun _ _ h => h)
    (fun hprefetching => hlookup _ _ (fun _ h => h.1.1) (fun s h _ => ?_) fun s h => ⟨h, ?_⟩)
    (fun hdirect s h => ⟨h, fun hprefetching => ?_⟩)
    (hasking.mono (fun _ h => h.1) (fun _ _ h => h) fun _ _ h => h)
  · rintro _ rfl
    exact hstart.1
  · rintro _ rfl
    exact hheld
  · rintro s rfl
    obtain ⟨htraced, hself⟩ := hdrop s hstart.1
    exact ⟨⟨hstart.1, .inl hstart.2⟩, htraced, .inl (hself.trans hstart.2)⟩
  · rw [h.2 hprefetching, howner]
  · obtain ⟨htraced, hself⟩ := hdrop s h.1.1
    unfold Acts
    rw [hself]
    exact ⟨⟨htraced, h.1.2⟩, h.2⟩
  · rw [hdirect] at hprefetching
    cases hprefetching

end Calls

section RoleTokens

variable {settings : Settings} {owners : Owners} {used : Str → Prop} {names : Map Str Str}
  {world : World} {client : Client} {request : RoleTokenRequest}

theorem roleRequestKey_some (h : roleRequestKey settings client request = some key) :
    client.roleTokenCacheKey request.domainName request.roleNames request.proxyForPrincipal =
      some key := by
  unfold roleRequestKey at h
  split at h
  · cases h
  · exact h

theorem Traced.serves_role (h : Traced settings owners used names s) (hclient : client.Named)
    (hnamed : request.Named) (hkey : roleRequestKey settings client request = some key)
    (howner : s.self.credentials = owners.role key)
    (htoken : s.roleTokenCache.lookup key = some token) :
    Serves settings owners used names (.role request) (.role token) s := by
  obtain ⟨issue, hissue, hcredentials, hcredential, other, asked, hother, hasked, hkey', hmatch⟩ :=
    h.role key token htoken
  have halike := roleRequest_alike hclient hnamed hother hasked (roleRequestKey_some hkey)
    (roleRequestKey_some hkey')
  refine ⟨h, issue, hissue, hcredentials.trans howner.symm, ?_, hcredential ▸ .refl _⟩
  cases hcall : issue.call <;> rw [hcall] at hmatch
  · exact halike.trans hmatch
  · exact hmatch
  · exact hmatch

theorem Traced.erase_role (h : Traced settings owners used names s) (key : Str) :
    Traced settings owners used names
      { s with roleTokenCache := s.roleTokenCache.erase key } := by
  refine ⟨fun key' token htoken => ?_, h.access, h.aws, h.queue, h.self, h.names⟩
  rw [Map.lookup_erase] at htoken
  split at htoken
  · cases htoken
  · exact h.role key' token htoken

theorem keepRoleToken_traced (hclient : client.Named) (hnamed : request.Named)
    (hstores : ∀ key ∈ cacheKey, roleRequestKey settings client request = some key ∧
      (client.inEffect world).credentials = owners.role key) (token : RoleToken) :
    Leads (fun s => (Traced settings owners used names s ∧ s.self = client.inEffect world) ∧
        Granted world client (.role request) (.role token) s) (keepRoleToken cacheKey token)
      (fun _ s => (Traced settings owners used names s ∧ s.self = client.inEffect world) ∧
        Granted world client (.role request) (.role token) s) E := by
  cases cacheKey with
  | none => exact .pure _ fun _ h => h
  | some key =>
    refine .write _ fun s h => ⟨⟨⟨fun key' token' htoken => ?_, h.1.1.access, h.1.1.aws,
      h.1.1.queue, h.1.1.self, h.1.1.names⟩, h.1.2⟩, h.2⟩
    rw [Map.lookup_insert] at htoken
    split at htoken
    · rename_i heq
      cases htoken
      obtain ⟨hkey, howner⟩ := hstores key rfl
      rw [heq, ← howner]
      exact h.2.backed .role request hclient hnamed hkey (.refl request)
    · exact h.1.1.role key' token' htoken

theorem requestRoleToken_traced (hclient : client.Named) (hnamed : request.Named)
    (hstores : ∀ key ∈ cacheKey, roleRequestKey settings client request = some key ∧
      (client.inEffect world).credentials = owners.role key) :
    Leads (fun s => Traced settings owners used names s ∧ Acts world client s)
      (requestRoleToken settings world request cacheKey ignoreCache)
      (fun served s => Serves settings owners used names (.role request)
        (.role served.credential) s ∧ s.self = client.inEffect world)
      (fun _ => Traced settings owners used names) := by
  rw [requestRoleToken_eq]
  refine asking_traced (fun credential found hpick => ?_) (.refl request)
    (keepRoleToken_traced hclient hnamed hstores) (falling_finds (fun key hkey _ => ?_) fun _ h => h.1)
  · cases credential <;> cases hpick
    rfl
  · refine (lookupRoleTokenInCache_finds fun s h => ⟨h.1, h.1.erase_role key⟩).mono
      (fun token s h => ?_) fun _ h => h
    obtain ⟨⟨htraced, hself⟩, htoken, _⟩ := h
    obtain ⟨hkey, howner⟩ := hstores key hkey
    exact ⟨htraced.serves_role hclient hnamed hkey (by rw [hself, howner]) htoken, hself⟩

theorem fetchRoleToken_traced (hclient : client.Named) (hnamed : request.Named)
    (hstores : (Request.role request).Stores settings owners world client names) :
    Leads (fun s => Traced settings owners used names s ∧ Acts world client s)
      (fetchRoleToken settings world request)
      (fun _ s => Traced settings owners used names s ∧ s.self = client.inEffect world)
      (fun _ => Traced settings owners used names) := by
  refine .bind (.read _ fun s h => ⟨h, rfl⟩ : Leads _ _ (fun self s =>
    (Traced settings owners used names s ∧ Acts world client s) ∧ self = s.self) _) fun self =>
    .start fun s h => ?_
  have hkey : roleRequestKey settings s.self request = roleRequestKey settings client request :=
    h.1.2.key settings (.role request)
  rw [h.2, hkey]
  exact (requestRoleToken_traced hclient hnamed fun key hkey => ⟨hkey, hstores key hkey⟩).mono
    (fun _ hs => hs ▸ h.1) (fun _ _ h => ⟨h.1.1, h.2⟩) fun _ _ h => h

theorem getRoleToken_traced (hclient : client.Named) (hnamed : request.Named)
    (hstores : (Request.role request).Stores settings owners world client names) :
    Leads (fun s => (Traced settings owners used names s ∧ s.self = client) ∧
        (ignoreCache = false → (Request.role request).Finds settings owners s))
      (getRoleToken settings world request ignoreCache)
      (fun served => Serves settings owners used names (.role request) (.role served.credential))
      (fun _ => Traced settings owners used names) := by
  rw [getRoleToken_eq]
  refine .bind (.read _ fun s h => ⟨h, rfl⟩ : Leads _ _ (fun self s =>
    ((Traced settings owners used names s ∧ s.self = client) ∧ (ignoreCache = false →
      (Request.role request).Finds settings owners s)) ∧ self = s.self) _) fun self =>
    .start fun s h => ?_
  obtain ⟨⟨⟨htraced, rfl⟩, hfinds⟩, rfl⟩ := h
  have hplain key ignoring (hkey : roleRequestKey settings s.self request = key) :
      Leads (· = s) (requestRoleToken settings world request key ignoring)
        (fun served => Serves settings owners used names (.role request) (.role served.credential))
        (fun _ => Traced settings owners used names) :=
    (requestRoleToken_traced hclient hnamed fun key' hkey' => ⟨hkey.trans hkey',
      hstores key' (hkey.trans hkey')⟩).mono (by rintro _ rfl; exact ⟨htraced, .inl rfl⟩)
      (fun _ _ h => h.1) fun _ _ h => h
  cases hkey : roleRequestKey settings s.self request with
  | none => cases ignoreCache <;> exact hplain _ _ hkey
  | some key =>
    cases ignoreCache with
    | true => exact hplain _ _ hkey
    | false =>
      refine answering_traced (owners.role key)
        (fun s => ∃ token, s.roleTokenCache.lookup key = some token)
        (fun s => { s with roleTokenCache := s.roleTokenCache.erase key })
        (fun I J hI howner hJ => (lookupRoleTokenInCache_finds hJ).mono (fun token s h =>
          (hI s h.1).serves_role hclient hnamed hkey (howner s h.1 ⟨token, h.2.1⟩) h.2.1)
          fun _ h => h)
        (fun s h => ⟨h.erase_role key, rfl⟩) (fun _ => ?_) ?_ (hstores key hkey) ⟨htraced, rfl⟩ ?_
      · exact .bind (requireDomain_leads fun _ _ h => h.1) fun _ => .bind
          (fetchRoleToken_traced hclient hnamed hstores) fun token => prefetchToken_traced hnamed
      · exact (requestRoleToken_traced hclient hnamed fun key' hkey' => by
          cases hkey'
          exact ⟨hkey, hstores key hkey⟩).mono (fun _ h => h) (fun _ _ h => h.1) fun _ _ h => h
      · rintro ⟨token, htoken⟩
        exact hfinds rfl key hkey (by rw [htoken]; rfl)

end RoleTokens

section AccessTokens

variable {settings : Settings} {owners : Owners} {used : Str → Prop} {names : Map Str Str}
  {world : World} {client : Client} {request : AccessTokenRequest}

/-- Digests are written without a semicolon, and those of the details in use do not collide. -/
structure Settings.Distinct (settings : Settings) (used : Str → Prop) : Prop where
  plain : ∀ text, ';' ∉ settings.digest text
  injective : ∀ a b, used a → used b → settings.digest a = settings.digest b → a = b

theorem accessRequestKey_some (h : accessRequestKey settings client request = some key) :
    client.accessTokenCacheKey settings request = some key := by
  unfold accessRequestKey at h
  split at h
  · cases h
  · exact h

theorem Traced.serves_access (hdistinct : settings.Distinct used)
    (h : Traced settings owners used names s) (hclient : client.Named)
    (hnamed : request.Named used) (hkey : accessRequestKey settings client request = some key)
    (howner : s.self.credentials = owners.access key)
    (hentry : s.accessTokenCache.lookup key = some entry) :
    Serves settings owners used names (.access request) (.access (entry.response world.now)) s := by
  obtain ⟨issue, hissue, hcredentials, hcredential, other, asked, hother, hasked, hkey', hmatch⟩ :=
    h.access key entry hentry
  have halike := accessRequest_alike hdistinct.plain hdistinct.injective hclient hnamed hother
    hasked (accessRequestKey_some hkey) (accessRequestKey_some hkey')
  refine ⟨h, issue, hissue, hcredentials.trans howner.symm, ?_, hcredential ▸ rfl⟩
  cases hcall : issue.call <;> rw [hcall] at hmatch
  · exact hmatch
  · exact halike.trans hmatch
  · exact hmatch

theorem Traced.erase_access (h : Traced settings owners used names s) (key : Str) :
    Traced settings owners used names
      { s with accessTokenCache := s.accessTokenCache.erase key } := by
  refine ⟨h.role, fun key' entry hentry => ?_, h.aws, h.queue, h.self, h.names⟩
  rw [Map.lookup_erase] at hentry
  split at hentry
  · cases hentry
  · exact h.access key' entry hentry

theorem keepAccessToken_traced (hclient : client.Named) (hnamed : request.Named used)
    (hstores : ∀ key ∈ cacheKey, accessRequestKey settings client request = some key ∧
      (client.inEffect world).credentials = owners.access key) (response : AccessTokenResponse) :
    Leads (fun s => (Traced settings owners used names s ∧ s.self = client.inEffect world) ∧
        Granted world client (.access request) (.access response) s)
      (keepAccessToken world cacheKey response)
      (fun _ s => (Traced settings owners used names s ∧ s.self = client.inEffect world) ∧
        Granted world client (.access request) (.access response) s) E := by
  cases cacheKey with
  | none => exact .pure _ fun _ h => h
  | some key =>
    refine .write _ fun s h => ⟨⟨⟨h.1.1.role, fun key' entry hentry => ?_, h.1.1.aws,
      h.1.1.queue, h.1.1.self, h.1.1.names⟩, h.1.2⟩, h.2⟩
    rw [Map.lookup_insert] at hentry
    split at hentry
    · rename_i heq
      cases hentry
      obtain ⟨hkey, howner⟩ := hstores key rfl
      rw [heq, ← howner]
      exact h.2.backed .access request hclient hnamed hkey (.refl request)
    · exact h.1.1.access key' entry hentry

theorem requestAccessToken_traced (hdistinct : settings.Distinct used) (hclient : client.Named)
    (hnamed : request.Named used)
    (hfile : tokenFile world names request.domainName request.roleNames = none)
    (hstores : ∀ key ∈ cacheKey, accessRequestKey settings client request = some key ∧
      (client.inEffect world).credentials = owners.access key) :
    Leads (fun s => Traced settings owners used names s ∧ Acts world client s)
      (requestAccessToken world request cacheKey ignoreCache)
      (fun served s => Serves settings owners used names (.access request)
        (.access served.credential) s ∧ s.self = client.inEffect world)
      (fun _ => Traced settings owners used names) := by
  rw [requestAccessToken_eq]
  refine reading_leads (J := fun s => Traced settings owners used names s ∧ Acts world client s)
    (K := fun _ _ => False) (.read _ fun s h => ?_) (fun _ _ h => h.elim)
    (asking_traced (fun credential found hpick => ?_) (.refl request)
      (keepAccessToken_traced hclient hnamed hstores)
      (falling_finds (fun key hkey _ => ?_) fun _ h => h.1))
  · show Option.elim (tokenFile world s.roleNameMap request.domainName request.roleNames) _ _
    rw [h.1.names, hfile]
    exact h
  · cases credential <;> cases hpick
    rfl
  · refine (lookupAccessTokenResponseInCache_finds fun s h _ =>
      ⟨h.1, h.1.erase_access key⟩).mono (fun response s h => ?_) fun _ h => h
    obtain ⟨⟨htraced, hself⟩, entry, hentry, _, rfl⟩ := h
    obtain ⟨hkey, howner⟩ := hstores key hkey
    exact ⟨htraced.serves_access hdistinct hclient hnamed hkey (by rw [hself, howner]) hentry, hself⟩

theorem fetchAccessToken_traced (hdistinct : settings.Distinct used) (hclient : client.Named)
    (hnamed : request.Named used)
    (hstores : (Request.access request).Stores settings owners world client names) :
    Leads (fun s => Traced settings owners used names s ∧ Acts world client s)
      (fetchAccessToken settings world request)
      (fun _ s => Traced settings owners used names s ∧ s.self = client.inEffect world)
      (fun _ => Traced settings owners used names) := by
  refine .bind (.read _ fun s h => ⟨h, rfl⟩ : Leads _ _ (fun self s =>
    (Traced settings owners used names s ∧ Acts world client s) ∧ self = s.self) _) fun self =>
    .start fun s h => ?_
  have hkey : accessRequestKey settings s.self request = accessRequestKey settings client request :=
    h.1.2.key settings (.access request)
  rw [h.2, hkey]
  exact (requestAccessToken_traced hdistinct hclient hnamed hstores.1 fun key hkey =>
    ⟨hkey, hstores.2 key hkey⟩).mono (fun _ hs => hs ▸ h.1) (fun _ _ h => ⟨h.1.1, h.2⟩)
    fun _ _ h => h

theorem getAccessToken_traced (hdistinct : settings.Distinct used) (hclient : client.Named)
    (hnamed : request.Named used)
    (hstores : (Request.access request).Stores settings owners world client names) :
    Leads (fun s => (Traced settings owners used names s ∧ s.self = client) ∧
        (ignoreCache = false → (Request.access request).Finds settings owners s))
      (getAccessToken settings world request ignoreCache)
      (fun served =>
        Serves settings owners used names (.access request) (.access served.credential))
      (fun _ => Traced settings owners used names) := by
  rw [getAccessToken_eq]
  refine .bind (.read _ fun s h => ⟨h, rfl⟩ : Leads _ _ (fun self s =>
    ((Traced settings owners used names s ∧ s.self = client) ∧ (ignoreCache = false →
      (Request.access request).Finds settings owners s)) ∧ self = s.self) _) fun self =>
    .start fun s h => ?_
  obtain ⟨⟨⟨htraced, rfl⟩, hfinds⟩, rfl⟩ := h
  have hplain key ignoring (hkey : accessRequestKey settings s.self request = key) :
      Leads (· = s) (requestAccessToken world request key ignoring)
        (fun served =>
          Serves settings owners used names (.access request) (.access served.credential))
        (fun _ => Traced settings owners used names) :=
    (requestAccessToken_traced hdistinct hclient hnamed hstores.1 fun key' hkey' =>
      ⟨hkey.trans hkey', hstores.2 key' (hkey.trans hkey')⟩).mono
      (by rintro _ rfl; exact ⟨htraced, .inl rfl⟩) (fun _ _ h => h.1) fun _ _ h => h
  cases hkey : accessRequestKey settings s.self request with
  | none => cases ignoreCache <;> exact hplain _ _ hkey
  | some key =>
    cases ignoreCache with
    | true => exact hplain _ _ hkey
    | false =>
      refine answering_traced (owners.access key)
        (fun s => ∃ entry, s.accessTokenCache.lookup key = some entry)
        (fun s => { s with accessTokenCache := s.accessTokenCache.erase key })
        (fun I J hI howner hJ => (lookupAccessTokenResponseInCache_finds fun s h _ => hJ s h).mono
          (fun response s h => ?_) fun _ h => h)
        (fun s h => ⟨h.erase_access key, rfl⟩) (fun _ => ?_) ?_ (hstores.2 key hkey)
        ⟨htraced, rfl⟩ ?_
      · obtain ⟨hs, entry, hentry, _, rfl⟩ := h
        exact (hI s hs).serves_access hdistinct hclient hnamed hkey (howner s hs ⟨entry, hentry⟩)
          hentry
      · refine .bind (requireDomain_leads fun _ _ h => h.1) fun _ => .bind
          (fetchAccessToken_traced hdistinct hclient hnamed hstores) fun response =>
            prefetchToken_traced ?_
        exact ⟨hnamed.domainName, hnamed.roleNames, hnamed.idTokenServiceName,
          hnamed.proxyForPrincipal, hnamed.authorizationDetails, by simp⟩
      · exact (requestAccessToken_traced hdistinct hclient hnamed hstores.1 fun key' hkey' => by
          cases hkey'
          exact ⟨hkey, hstores.2 key hkey⟩).mono (fun _ h => h) (fun _ _ h => h.1) fun _ _ h => h
      · rintro ⟨entry, hentry⟩
        exact hfinds rfl key hkey (by rw [hentry]; rfl)

end AccessTokens

section AwsCredentials

variable {settings : Settings} {owners : Owners} {used : Str → Prop} {names : Map Str Str}
  {world : World} {client : Client} {request : AwsRequest}

theorem Traced.serves_aws (h : Traced settings owners used names s) (hclient : client.Named)
    (hnamed : ';' ∉ request.domainName) (hkey : awsRequestKey client request.encoded = some key)
    (hexternal : request.externalId = owners.externalId key)
    (howner : s.self.credentials = owners.aws key)
    (hcred : s.awsCredsCache.lookup key = some awsCred) :
    Serves settings owners used names (.aws request) (.aws awsCred) s := by
  obtain ⟨issue, hissue, hcredentials, hcredential, other, ⟨asked, hasked⟩, hother, hdomain, hkey',
    hmatch⟩ := h.aws key awsCred hcred
  have halike := awsRequest_alike hclient hnamed hother hdomain hkey hkey'
  refine ⟨h, issue, hissue, hcredentials.trans howner.symm, ?_, hcredential ▸ .refl _⟩
  cases hcall : issue.call <;> rw [hcall] at hmatch
  · exact hmatch
  · exact hmatch
  · exact ⟨halike.1.trans hmatch.1, halike.2.trans hmatch.2.1,
      (hexternal.trans hasked.symm).trans hmatch.2.2⟩

theorem Traced.erase_aws (h : Traced settings owners used names s) (key : Str) :
    Traced settings owners used names
      { s with awsCredsCache := s.awsCredsCache.erase key } := by
  refine ⟨h.role, h.access, fun key' awsCred hcred => ?_, h.queue, h.self, h.names⟩
  rw [Map.lookup_erase] at hcred
  split at hcred
  · cases hcred
  · exact h.aws key' awsCred hcred

/-- What reaches ZTS for a request of AWS credentials. -/
def AwsRequest.call (request : AwsRequest) : ZtsCall :=
  .aws request.domainName (urlEncode request.roleName) request.maxExpiryTime request.externalId

theorem keepAwsCredentials_traced (hclient : client.Named) (hnamed : ';' ∉ request.domainName)
    (hstores : ∀ key ∈ cacheKey, awsRequestKey client request.encoded = some key ∧
      (client.inEffect world).credentials = owners.aws key ∧
        request.externalId = owners.externalId key) (awsCred : AWSTemporaryCredentials) :
    Leads (fun s => (Traced settings owners used names s ∧ s.self = client.inEffect world) ∧
        Granted world client request.call (.aws awsCred) s)
      (keepAwsCredentials cacheKey awsCred)
      (fun _ s => (Traced settings owners used names s ∧ s.self = client.inEffect world) ∧
        Granted world client request.call (.aws awsCred) s) E := by
  cases cacheKey with
  | none => exact .pure _ fun _ h => h
  | some key =>
    refine .write _ fun s h => ⟨⟨⟨h.1.1.role, h.1.1.access, fun key' awsCred' hcred => ?_,
      h.1.1.queue, h.1.1.self, h.1.1.names⟩, h.1.2⟩, h.2⟩
    rw [Map.lookup_insert] at hcred
    split at hcred
    · rename_i heq
      subst heq
      cases hcred
      obtain ⟨hkey, howner, hexternal⟩ := hstores key' rfl
      rw [← howner]
      exact h.2.backed (fun request : { request : AwsRequest //
        request.externalId = owners.externalId key' } => .aws request.val)
        ⟨request, hexternal⟩ hclient hnamed hkey ⟨rfl, rfl, rfl⟩
    · exact h.1.1.aws key' awsCred' hcred

theorem requestAwsCredentials_traced (hclient : client.Named) (hnamed : ';' ∉ request.domainName)
    (hstores : ∀ key ∈ cacheKey, awsRequestKey client request.encoded = some key ∧
      (client.inEffect world).credentials = owners.aws key ∧
        request.externalId = owners.externalId key) :
    Leads (fun s => Traced settings owners used names s ∧ Acts world client s)
      (requestAwsCredentials settings world request.encoded cacheKey ignoreCache)
      (fun served s => Serves settings owners used names (.aws request)
        (.aws served.credential) s ∧ s.self = client.inEffect world)
      (fun _ => Traced settings owners used names) := by
  rw [requestAwsCredentials_eq]
  refine asking_traced (fun credential found hpick => ?_)
    (show (Request.aws request).Matches request.call from ⟨rfl, rfl, rfl⟩)
    (keepAwsCredentials_traced hclient hnamed hstores)
    (falling_finds (fun key hkey _ => ?_) fun _ h => h.1)
  · cases credential <;> cases hpick
    rfl
  · refine (lookupAwsCredInCache_finds fun s h => ⟨h.1, h.1.erase_aws key⟩).mono
      (fun awsCred s h => ?_) fun _ h => h
    obtain ⟨⟨htraced, hself⟩, hcred, _⟩ := h
    obtain ⟨hkey, howner, hexternal⟩ := hstores key hkey
    exact ⟨htraced.serves_aws hclient hnamed hkey hexternal (by rw [hself, howner]) hcred, hself⟩

theorem fetchAwsCredentials_traced (hclient : client.Named) (hnamed : ';' ∉ request.domainName)
    (hstores : (Request.aws request).Stores settings owners world client names) :
    Leads (fun s => Traced settings owners used names s ∧ Acts world client s)
      (fetchAwsCredentials settings world request)
      (fun _ s => Traced settings owners used names s ∧ s.self = client.inEffect world)
      (fun _ => Traced settings owners used names) := by
  refine .bind (.read _ fun s h => ⟨h, rfl⟩ : Leads _ _ (fun self s =>
    (Traced settings owners used names s ∧ Acts world client s) ∧ self = s.self) _) fun self =>
    .start fun s h => ?_
  have hkey : awsRequestKey s.self request.encoded = awsRequestKey client request.encoded :=
    h.1.2.key settings (.aws request)
  rw [h.2, hkey]
  exact (requestAwsCredentials_traced hclient hnamed fun key hkey => ⟨hkey, hstores key hkey⟩).mono
    (fun _ hs => hs ▸ h.1) (fun _ _ h => ⟨h.1.1, h.2⟩) fun _ _ h => h

theorem getAWSTemporaryCredentials_traced (hclient : client.Named)
    (hnamed : ';' ∉ request.domainName)
    (hstores : (Request.aws request).Stores settings owners world client names)
    (hprefetch : ignoreCache = false → client.enablePrefetch && settings.prefetchAutoEnable →
      (Request.aws request.encoded).Stores settings owners world client names) :
    Leads (fun s => (Traced settings owners used names s ∧ s.self = client) ∧
        (ignoreCache = false → (Request.aws request).Finds settings owners s))
      (getAWSTemporaryCredentials settings world request ignoreCache)
      (fun served => Serves settings owners used names (.aws request) (.aws served.credential))
      (fun _ => Traced settings owners used names) := by
  rw [getAWSTemporaryCredentials_eq]
  refine .bind (.read _ fun s h => ⟨h, rfl⟩ : Leads _ _ (fun self s =>
    ((Traced settings owners used names s ∧ s.self = client) ∧ (ignoreCache = false →
      (Request.aws request).Finds settings owners s)) ∧ self = s.self) _) fun self =>
    .start fun s h => ?_
  obtain ⟨⟨⟨htraced, rfl⟩, hfinds⟩, rfl⟩ := h
  have hplain key ignoring (hkey : awsRequestKey s.self request.encoded = key) :
      Leads (· = s) (requestAwsCredentials settings world request.encoded key ignoring)
        (fun served => Serves settings owners used names (.aws request) (.aws served.credential))
        (fun _ => Traced settings owners used names) :=
    (requestAwsCredentials_traced hclient hnamed fun key' hkey' => ⟨hkey.trans hkey',
      hstores key' (hkey.trans hkey')⟩).mono (by rintro _ rfl; exact ⟨htraced, .inl rfl⟩)
      (fun _ _ h => h.1) fun _ _ h => h
  cases hkey : awsRequestKey s.self request.encoded with
  | none => cases ignoreCache <;> exact hplain _ _ hkey
  | some key =>
    cases ignoreCache with
    | true => exact hplain _ _ hkey
    | false =>
      obtain ⟨howner, hexternal⟩ := hstores key hkey
      refine answering_traced (owners.aws key)
        (fun s => ∃ awsCred, s.awsCredsCache.lookup key = some awsCred)
        (fun s => { s with awsCredsCache := s.awsCredsCache.erase key })
        (fun I J hI howner hJ => (lookupAwsCredInCache_finds hJ).mono (fun awsCred s h =>
          (hI s h.1).serves_aws hclient hnamed hkey hexternal (howner s h.1 ⟨awsCred, h.2.1⟩) h.2.1)
          fun _ h => h)
        (fun s h => ⟨h.erase_aws key, rfl⟩) (fun hprefetching => ?_) ?_ howner ⟨htraced, rfl⟩ ?_
      · exact .bind (requireDomain_leads fun _ _ h => h.1) fun _ => .bind
          (fetchAwsCredentials_traced hclient hnamed (hprefetch rfl hprefetching)) fun token =>
            prefetchToken_traced hnamed
      · exact (requestAwsCredentials_traced hclient hnamed fun key' hkey' => by
          cases hkey'
          exact ⟨hkey, howner, hexternal⟩).mono (fun _ h => h) (fun _ _ h => h.1) fun _ _ h => h
      · rintro ⟨awsCred, hcred⟩
        exact hfinds rfl key hkey (by rw [hcred]; rfl)

end AwsCredentials

section Run

variable {settings : Settings} {owners : Owners} {used : Str → Prop} {names : Map Str Str}
  {world : World} {client : Client}

theorem refreshItem_traced (hdistinct : settings.Distinct used) (hclient : client.Named)
    (hnamed : item.request.Named used)
    (hstores : item.request.Stores settings owners world client names) :
    Leads (fun s => Traced settings owners used names s ∧ s.self = client)
      (refreshItem settings world item) (fun _ => Traced settings owners used names)
      (fun _ => Traced settings owners used names) := by
  cases htype : item.tokenType with
  | role =>
    obtain ⟨request, hrequest, hrefresh⟩ := refreshItem_role htype
    rw [hrequest] at hnamed hstores
    rw [hrefresh]
    exact .bind ((fetchRoleToken_traced hclient hnamed hstores).mono (fun _ h => ⟨h.1, .inl h.2⟩)
      (fun _ _ h => h.1) fun _ _ h => h) fun token => .pure _ fun _ h => h
  | access =>
    obtain ⟨request, hrequest, hrefresh⟩ := refreshItem_access htype
    rw [hrequest] at hnamed hstores
    rw [hrefresh]
    exact .bind ((fetchAccessToken_traced hdistinct hclient hnamed hstores).mono
      (fun _ h => ⟨h.1, .inl h.2⟩) (fun _ _ h => h.1) fun _ _ h => h) fun response =>
        .pure _ fun _ h => h
  | aws =>
    obtain ⟨request, hrequest, hrefresh⟩ := refreshItem_aws htype
    rw [hrequest] at hnamed hstores
    rw [hrefresh]
    exact .bind ((fetchAwsCredentials_traced hclient hnamed hstores).mono
      (fun _ h => ⟨h.1, .inl h.2⟩) (fun _ _ h => h.1) fun _ _ h => h) fun awsCred =>
        .pure _ fun _ h => h

theorem traced_queueKept : QueueKept (Traced settings owners used names) := by
  intro s items hitems h
  refine ⟨h.role, h.access, h.aws, fun item hitem => ?_, h.self, h.names⟩
  obtain ⟨old, hold, hrequest, hclient⟩ := hitems item hitem
  rw [hrequest, hclient]
  exact h.queue old hold

theorem runPrefetch_traced (hdistinct : settings.Distinct used) :
    Leads (fun s => Traced settings owners used names s ∧ PrefetchOwned settings owners world s)
      (runPrefetch settings world) (fun _ => Traced settings owners used names)
      (fun _ => Traced settings owners used names) := by
  refine .bind (.read _ fun s h => ⟨h, rfl⟩ : Leads _ _ (fun items s =>
    (Traced settings owners used names s ∧ PrefetchOwned settings owners world s) ∧
      items = s.prefetchScheduledItems) _) fun items => .start fun s h => ?_
  obtain ⟨⟨htraced, howned⟩, rfl⟩ := h
  refine (processItems_leads traced_queueKept _ fun item hitem client hclient => ?_).mono
    (fun _ h => h ▸ htraced) (fun _ _ h => h) fun _ _ h => h
  have hmem : item ∈ s.prefetchScheduledItems :=
    (List.mem_filter.1 ((List.takeWhile_prefix _).subset hitem)).1
  obtain ⟨hnamed, hclients⟩ := htraced.queue item hmem
  have hstores := howned item hitem client hclient
  rw [htraced.names] at hstores
  exact ⟨fun s h => h.with_self (hclients client hclient),
    refreshItem_traced hdistinct (hclients client hclient) hnamed hstores⟩

theorem getCredential_traced (hdistinct : settings.Distinct used) (hclient : client.Named)
    (hnamed : request.Named used) :
    Leads (fun s => (Traced settings owners used names s ∧ s.self = client) ∧
        request.Owned settings owners world ignoreCache s)
      (getCredential settings world request ignoreCache)
      (fun served => Serves settings owners used names request served.credential)
      (fun _ => Traced settings owners used names) := by
  refine .start fun s h => ?_
  obtain ⟨⟨htraced, rfl⟩, hstores, hcached⟩ := h
  rw [htraced.names] at hstores hcached
  have hpre s' (hs : s' = s) : (Traced settings owners used names s' ∧ s'.self = s.self) ∧
      (ignoreCache = false → request.Finds settings owners s') := by
    subst hs
    exact ⟨⟨htraced, rfl⟩, fun hignore => (hcached hignore).1⟩
  cases request with
  | role =>
    exact .bind ((getRoleToken_traced hclient hnamed hstores).mono hpre (fun _ _ h => h)
      fun _ _ h => h) fun served => .pure _ fun _ h => h
  | access =>
    exact .bind ((getAccessToken_traced hdistinct hclient hnamed hstores).mono hpre
      (fun _ _ h => h) fun _ _ h => h) fun served => .pure _ fun _ h => h
  | aws =>
    exact .bind ((getAWSTemporaryCredentials_traced hclient hnamed hstores fun hignore =>
      (hcached hignore).2).mono hpre (fun _ _ h => h) fun _ _ h => h) fun served =>
        .pure _ fun _ h => h

/-- The names of all clients have no semicolon. -/
structure Process.Named (process : Process) : Prop where
  clients : ∀ client, (process.clients client).Named
  self : process.shared.self.Named

/-- The invariant of all runs. -/
def Process.Traced (settings : Settings) (owners : Owners) (used : Str → Prop)
    (process : Process) : Prop :=
  (∀ client, (process.clients client).Named) ∧
    ZtsClient.Traced settings owners used process.shared.roleNameMap process.shared

theorem named_update {clients : Nat → Client} (h : ∀ client, (clients client).Named)
    (hnew : other.Named) (i : Nat) : ∀ client, (Function.update clients i other client).Named := by
  intro client
  by_cases heq : client = i
  · rw [heq, Function.update_self]
    exact hnew
  · rw [Function.update_of_ne heq]
    exact h client

theorem Traced.with_names (h : Traced settings owners used names s) (names' : Map Str Str) :
    Traced settings owners used names' { s with roleNameMap := names' } :=
  ⟨h.role, h.access, h.aws, h.queue, h.self, rfl⟩

theorem Traced.own_names (h : Traced settings owners used names s) :
    Traced settings owners used s.roleNameMap s :=
  ⟨h.role, h.access, h.aws, h.queue, h.self, rfl⟩

theorem Client.clearCredentials_sameNames (client : Client) :
    client.clearCredentials.SameNames client := by
  unfold clearCredentials
  split <;> exact ⟨rfl, rfl, rfl, rfl, rfl⟩

/-- One step returns what was issued for the request, and keeps only what can be traced. -/
theorem Process.run_servesOwn (hdistinct : settings.Distinct used) {process : Process}
    (htraced : process.Traced settings owners used) (hnamed : moment.Named used)
    (howned : process.Owned settings owners moment) :
    process.ServesOwn settings moment ∧
      (process.run settings moment).2.Traced settings owners used := by
  obtain ⟨event, world, answers⟩ := moment
  obtain ⟨hclients, hshared⟩ := htraced
  cases event with
  | get client request ignoreCache =>
    have hget := getCredential_traced hdistinct (hclients client)
      (hnamed client request ignoreCache rfl) (process.entering client answers)
      ⟨⟨⟨hshared.role, hshared.access, hshared.aws, hshared.queue, hclients client, rfl⟩, rfl⟩,
        howned⟩
    simp only [ServesOwn, run]
    split at hget
    · rename_i served s heq
      rw [heq]
      refine ⟨?_, named_update hclients hget.1.self client, hget.1.own_names⟩
      rintro _ ⟨⟩
      simp only [leaving, Function.update_self]
      exact hget.2
    · rename_i failure s heq
      rw [heq]
      refine ⟨?_, named_update hclients hget.self client, hget.own_names⟩
      rintro _ ⟨⟩
  | prefetch =>
    have hrun := runPrefetch_traced hdistinct { process.shared with answers := answers }
      ⟨⟨hshared.role, hshared.access, hshared.aws, hshared.queue, hshared.self, rfl⟩, howned⟩
    refine ⟨trivial, ?_⟩
    simp only [run]
    split at hrun <;> rename_i heq <;> rw [heq] <;> exact ⟨hclients, hrun.own_names⟩
  | addCredentials client identity =>
    refine ⟨trivial, named_update hclients ?_ client, hshared⟩
    have hold := hclients client
    unfold Client.addPrincipalCredentials
    dsimp only
    split <;> exact ⟨hold.domain, hold.service, hold.sslContext⟩
  | addCredentialHeader client credHeader credToken =>
    have hold := hclients client
    have hnew : Client.Named { process.clients client with
        credsHeader := credHeader, credsToken := credToken } :=
      ⟨hold.domain, hold.service, hold.sslContext⟩
    exact ⟨trivial, named_update hclients hnew client, hshared⟩
  | clearCredentials client =>
    exact ⟨trivial, named_update hclients
      ((process.clients client).clearCredentials_sameNames.named (hclients client)) client, hshared⟩
  | preload => exact ⟨trivial, hclients, hshared.with_names _⟩

/-- Requests for AWS credentials that differ in the external id only. -/
def reader (externalId : Str) : AwsRequest where
  domainName := "sports".toList
  roleName := "reader".toList
  externalId := some externalId

def readerCredentials : AWSTemporaryCredentials where
  accessKeyId := "key".toList
  sessionToken := "session".toList
  secretAccessKey := "secret".toList
  expiration := 7200000

def readerMoments : List Moment := [
  { event := .get 0 (.aws (reader "one".toList)) false
    world := { now := 0 }
    answers := [.granted (.aws readerCredentials)] },
  { event := .get 0 (.aws (reader "two".toList)) false
    world := { now := 60000 } }]

def namedSettings : Settings where
  digest := urlEncode

def namedProcess : Process where
  clients _ := {
    domain := some "sports".toList
    service := some "api".toList
    credsHeader := some "Athenz-Principal-Auth".toList
    credsToken := some "token".toList }
  shared := { self := {} }

theorem namedProcess_named : namedProcess.Named where
  clients _ := ⟨by simp [namedProcess], by simp [namedProcess], by simp [namedProcess]⟩
  self := ⟨by simp [namedProcess], by simp [namedProcess], by simp [namedProcess]⟩

/-- An access token with authorization details, answered once and then served from the cache. -/
def detailed : AccessTokenRequest where
  domainName := "sports".toList
  roleNames := some ["readers".toList]
  authorizationDetails := some "details".toList

def detailedMoments : List Moment := [
  { event := .get 0 (.access detailed) false
    world := { now := 0 }
    answers := [.granted (.access { access_token := "access".toList, expires_in := 7200 })] },
  { event := .get 0 (.access detailed) false
    world := { now := 60000 } }]

def onlyOwner : Owners where
  role _ := (namedProcess.clients 0).credentials
  access _ := (namedProcess.clients 0).credentials
  aws _ := (namedProcess.clients 0).credentials
  externalId _ := none

end Run

end Athenz.ZtsClient
