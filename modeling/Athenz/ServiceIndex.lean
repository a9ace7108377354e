import Athenz.Updates

namespace Athenz.Zts
open Lib Lib.Text Lib.Index Lib.Result
set_option autoImplicit true

section Services

/-- A list of services has a host under a service. -/
def ListsHost (services : List ServiceIdentity) (service host : Str) : Prop :=
  ∃ identity ∈ services, identity.name = service ∧ host ∈ identity.hosts.getD []

/-- A list of services has a key of a service that decodes to a value. -/
def GivesKey (codec : Codec) (services : List ServiceIdentity) (service keyId value : Str) : Prop :=
  ∃ identity ∈ services, identity.name = service ∧ ∃ entry ∈ identity.publicKeys.getD [],
    entry.id = keyId ∧ entry.key.bind codec.ybase64DecodeString = some value

/-- The full name of a service of a domain. -/
def FullName (domain full : Str) : Prop := ∃ service, full = domain ++ '.' :: service ∧ '.' ∉ service

theorem FullName.domain_eq (h : FullName domain full) (h' : FullName other full) :
    domain = other := by
  obtain ⟨service, rfl, hservice⟩ := h
  obtain ⟨service', hsame, hservice'⟩ := h'
  exact (append_cons_inj_last hservice hservice' hsame).1

namespace DataCache

/-- The entries that a service makes for the map of the keys. -/
def serviceKeyEntries (codec : Codec) (identity : ServiceIdentity) : List (Str × Option Str) :=
  (identity.publicKeys.getD []).map fun entry =>
    (generateServiceKeyName identity.name entry.id, entry.key.bind codec.ybase64DecodeString)

def keyEntries (codec : Codec) (services : List ServiceIdentity) : List (Str × Option Str) :=
  services.flatMap (serviceKeyEntries codec)

theorem publicKeyCache_processServices (services : List ServiceIdentity) (cache : DataCache) :
    (services.foldl (processServiceIdentity codec) cache).publicKeyCache =
      (keyEntries codec services).foldl Map.putPresent cache.publicKeyCache := by
  induction services generalizing cache with
  | nil => rfl
  | cons identity services ih =>
    have hentries : keyEntries codec (identity :: services) =
        serviceKeyEntries codec identity ++ keyEntries codec services := List.flatMap_cons
    have hstep : processServiceIdentityPublicKey codec identity.name = fun keys entry =>
        Map.putPresent keys (generateServiceKeyName identity.name entry.id,
          entry.key.bind codec.ybase64DecodeString) := by
      funext keys entry
      rw [processServiceIdentityPublicKey, Map.putPresent]
      cases entry.key.bind codec.ybase64DecodeString with
      | none => rfl
      | some value => rfl
    rw [List.foldl_cons, ih, hentries, List.foldl_append, serviceKeyEntries, List.foldl_map, ← hstep]
    rfl

theorem mem_keyEntries : (key, some value) ∈ keyEntries codec services ↔
    ∃ service keyId, GivesKey codec services service keyId value ∧
      generateServiceKeyName service keyId = key := by
  simp only [keyEntries, serviceKeyEntries, List.mem_flatMap, List.mem_map, Prod.mk.injEq]
  constructor
  · rintro ⟨identity, hidentity, entry, hentry, hkey, hvalue⟩
    exact ⟨identity.name, entry.id, ⟨identity, hidentity, rfl, entry, hentry, rfl, hvalue⟩, hkey⟩
  · rintro ⟨_, _, ⟨identity, hidentity, rfl, entry, hentry, rfl, hvalue⟩, hkey⟩
    exact ⟨identity, hidentity, entry, hentry, hkey, hvalue⟩

theorem mem_hostCache_processServices (services : List ServiceIdentity) (cache : DataCache) :
    service ∈ (services.foldl (processServiceIdentity codec) cache).hostCache.listAt host ↔
      service ∈ cache.hostCache.listAt host ∨ ListsHost services service host := by
  refine foldl_adds (Q := fun c : DataCache => service ∈ Map.listAt c.hostCache host) ?_
  intro c identity
  have hhosts : service ∈ ((identity.hosts.getD []).foldl
      (fun hosts host => Map.addTo hosts host identity.name) c.hostCache).listAt host ↔
      service ∈ c.hostCache.listAt host ∨
        ∃ listed ∈ identity.hosts.getD [], host = listed ∧ service = identity.name := by
    refine foldl_adds (Q := fun m => service ∈ Map.listAt m host) ?_
    intro m listed
    rw [Map.mem_listAt_addTo, or_comm]
  refine hhosts.trans (or_congr_right ⟨?_, ?_⟩)
  · rintro ⟨_, hlisted, rfl, rfl⟩
    exact ⟨rfl, hlisted⟩
  · rintro ⟨rfl, hlisted⟩
    exact ⟨host, hlisted, rfl, rfl⟩

theorem nodup_hostCache_processServices (services : List ServiceIdentity) (cache : DataCache)
    (h : ∀ host, (cache.hostCache.listAt host).Nodup) (host : Str) :
    ((services.foldl (processServiceIdentity codec) cache).hostCache.listAt host).Nodup := by
  refine foldl_invariant (P := fun c : DataCache => ∀ host, (Map.listAt c.hostCache host).Nodup) ?_ services h host
  intro c identity hc
  refine foldl_invariant (P := fun m => ∀ host, (Map.listAt m host).Nodup) ?_ _ hc
  exact fun m listed hm => Map.nodup_listAt_addTo hm listed identity.name

end DataCache

end Services

namespace DataStore

open DataCache

section Runs

/-- The services of a published domain. -/
def servicesOf (cache : PublishedCache) : List ServiceIdentity := cache.domainData.services.getD []

/-- Indexes that are built from the services of a domain, which have full names of the domain. -/
structure ServesAs (codec : Codec) (name : Str) (cache : PublishedCache) : Prop where
  hosts : cache.hostCache = (processDomainServiceIdentities codec cache.domainData {}).hostCache
  keys : cache.publicKeyCache =
    (processDomainServiceIdentities codec cache.domainData {}).publicKeyCache
  names : ∀ identity ∈ servicesOf cache, FullName name identity.name

/-- Additions and deletions of domains from a store without domains on, where every addition meets
a condition. -/
inductive IndexRun (fits : DataStore → Str → PublishedCache → Prop) : DataStore → Prop where
  | empty (cloud : Option CloudStore) : IndexRun fits { cloudStore := cloud }
  | add (run : IndexRun fits store) (hfits : fits store name cache) :
    IndexRun fits (store.addDomainToCache name cache)
  | delete (run : IndexRun fits store) (name : Str) : IndexRun fits (store.deleteDomainFromCache name)

variable {store : DataStore} {cache : PublishedCache} {codec : Codec}

theorem ServesAs.mem_hosts (h : ServesAs codec name cache) :
    service ∈ cache.hostCache.listAt host ↔ ListsHost (servicesOf cache) service host := by
  rw [h.hosts]
  exact (mem_hostCache_processServices _ _).trans (or_iff_right List.not_mem_nil)

theorem ServesAs.nodup_hosts (h : ServesAs codec name cache) (host : Str) :
    (cache.hostCache.listAt host).Nodup := by
  rw [h.hosts]
  exact nodup_hostCache_processServices _ {} (fun _ => List.nodup_nil) host

/-- No two domains list a host under one service. -/
theorem ServesAs.domain_eq (h : ServesAs codec name cache) (h' : ServesAs codec other cache')
    (hlists : ListsHost (servicesOf cache) service host)
    (hlists' : ListsHost (servicesOf cache') service host) : name = other := by
  obtain ⟨identity, hidentity, rfl, _⟩ := hlists
  obtain ⟨identity', hidentity', hsame, _⟩ := hlists'
  exact (h.names identity hidentity).domain_eq (hsame ▸ h'.names identity' hidentity')

theorem lookup_addDomainToCache (store : DataStore) (name : Str) (cache : PublishedCache)
    (other : Str) : (store.addDomainToCache name cache).cacheStore.lookup other =
      if other = name then some cache else store.cacheStore.lookup other := by
  rw [(addDomainToCache_frame store name cache).1, Map.lookup_insert]

end Runs

section Hosts

variable {store : DataStore} {cache : PublishedCache} {codec : Codec}

/-- The lists of the hosts are those of the services of the published domains, without repetition. -/
structure HostsExact (codec : Codec) (store : DataStore) : Prop where
  served : ∀ name cache, store.cacheStore.lookup name = some cache → ServesAs codec name cache
  mem : ∀ host service, service ∈ store.hostCache.listAt host ↔ ∃ name cache,
    store.cacheStore.lookup name = some cache ∧ ListsHost (servicesOf cache) service host
  nodup : ∀ host, (store.hostCache.listAt host).Nodup

theorem HostsExact.mem_removeEntries (h : HostsExact codec store) (name host service : Str) :
    service ∈ (store.removeEntries name).hostCache.listAt host ↔ ∃ other cache, other ≠ name ∧
      store.cacheStore.lookup other = some cache ∧ ListsHost (servicesOf cache) service host := by
  refine (has_removeEntries : (store.removeEntries name).Has (.host host service) ↔ _).trans ?_
  rw [Has, h.mem]
  constructor
  · rintro ⟨⟨other, cache, hlookup, hlists⟩, hnot⟩
    refine ⟨other, cache, ?_, hlookup, hlists⟩
    rintro rfl
    exact hnot cache hlookup ((h.served _ _ hlookup).mem_hosts.2 hlists)
  · rintro ⟨other, cache, hne, hlookup, hlists⟩
    refine ⟨⟨other, cache, hlookup, hlists⟩, ?_⟩
    intro old hold hgives
    have hserved := h.served name old hold
    exact hne ((h.served other cache hlookup).domain_eq hserved hlists (hserved.mem_hosts.1 hgives))

theorem HostsExact.nodup_removeEntries (h : HostsExact codec store) (name host : Str) :
    ((store.removeEntries name).hostCache.listAt host).Nodup := by
  unfold removeEntries
  split
  · exact h.nodup host
  · rw [listAt_removeHostEntries]
    exact (h.nodup host).filter _

theorem HostsExact.addDomainToCache (h : HostsExact codec store) (hserves : ServesAs codec name cache) :
    HostsExact codec (store.addDomainToCache name cache) where
  served := by
    intro other published hlookup
    rw [lookup_addDomainToCache] at hlookup
    split at hlookup
    · rename_i hname
      cases hlookup
      rw [hname]
      exact hserves
    · exact h.served other published hlookup
  mem := by
    intro host service
    refine (has_addDomainToCache :
      (store.addDomainToCache name cache).Has (.host host service) ↔ _).trans ?_
    simp only [lookup_addDomainToCache]
    constructor
    · rintro (hkept | hgives)
      · obtain ⟨other, published, hne, hlookup, hlists⟩ := (h.mem_removeEntries ..).1 hkept
        exact ⟨other, published, by rw [if_neg hne, hlookup], hlists⟩
      · exact ⟨name, cache, if_pos rfl, hserves.mem_hosts.1 hgives⟩
    · rintro ⟨other, published, hlookup, hlists⟩
      split at hlookup
      · cases hlookup
        exact .inr (hserves.mem_hosts.2 hlists)
      · rename_i hne
        exact .inl ((h.mem_removeEntries ..).2 ⟨other, published, hne, hlookup, hlists⟩)
  nodup := by
    intro host
    refine (listAt_addHostEntries ..) ▸
      (h.nodup_removeEntries name host).append (hserves.nodup_hosts host) ?_
    intro service hkept hgives
    obtain ⟨other, published, hne, hlookup, hlists⟩ := (h.mem_removeEntries ..).1 hkept
    exact hne ((h.served other published hlookup).domain_eq hserves hlists
      (hserves.mem_hosts.1 hgives))

theorem HostsExact.deleteDomainFromCache (h : HostsExact codec store) (name : Str) :
    HostsExact codec (store.deleteDomainFromCache name) where
  served := by
    intro other published hlookup
    rw [lookup_deleteDomainFromCache] at hlookup
    split at hlookup
    · cases hlookup
    · exact h.served other published hlookup
  mem := by
    intro host service
    refine (h.mem_removeEntries name host service).trans ?_
    simp only [lookup_deleteDomainFromCache]
    constructor
    · rintro ⟨other, published, hne, hlookup, hlists⟩
      exact ⟨other, published, by rw [if_neg hne, hlookup], hlists⟩
    · rintro ⟨other, published, hlookup, hlists⟩
      split at hlookup
      · cases hlookup
      · rename_i hne
        exact ⟨other, published, hne, hlookup, hlists⟩
  nodup := h.nodup_removeEntries name

/-- In every run over domains with services of their own, a host has exactly the services of the
cached domains that list it, each once. -/
theorem getHostServices_exact (run : IndexRun (fun _ => ServesAs codec) store) (host : Str) :
    ((store.getHostServices host).getD []).Nodup ∧
    ∀ service, service ∈ (store.getHostServices host).getD [] ↔ ∃ name cache,
      store.cacheStore.lookup name = some cache ∧ ListsHost (servicesOf cache) service host := by
  have hexact : HostsExact codec store := by
    induction run with
    | empty cloud =>
      have hempty (host : Str) : ({ cloudStore := cloud } : DataStore).hostCache.listAt host = [] :=
        Map.listAt_empty host
      refine ⟨fun _ _ hnone => (nomatch hnone), fun host service => ?_, fun host => ?_⟩
      · rw [hempty]
        refine iff_of_false List.not_mem_nil ?_
        rintro ⟨_, _, hnone, _⟩
        cases hnone
      · rw [hempty]
        exact List.nodup_nil
    | add _ hfits ih => exact ih.addDomainToCache hfits
    | delete _ name ih => exact ih.deleteDomainFromCache name
  exact ⟨hexact.nodup host, hexact.mem host⟩

end Hosts

section Keys

variable {store : DataStore} {cache : PublishedCache} {codec : Codec}

/-- The names of the keys of one domain have one value each. -/
def KeysDistinct (codec : Codec) (cache : PublishedCache) : Prop :=
  ∀ service keyId value service' keyId' value', GivesKey codec (servicesOf cache) service keyId value →
    GivesKey codec (servicesOf cache) service' keyId' value' →
    generateServiceKeyName service keyId = generateServiceKeyName service' keyId' → value = value'

/-- A domain has no name of a key in common with the other cached domains. -/
def KeysApart (codec : Codec) (store : DataStore) (name : Str) (cache : PublishedCache) : Prop :=
  ∀ other published, other ≠ name → store.cacheStore.lookup other = some published →
    ∀ service keyId value service' keyId' value', GivesKey codec (servicesOf cache) service keyId value →
      GivesKey codec (servicesOf published) service' keyId' value' →
      generateServiceKeyName service keyId ≠ generateServiceKeyName service' keyId'

/-- What the addition of a domain must meet. -/
structure KeysFit (codec : Codec) (store : DataStore) (name : Str) (cache : PublishedCache) : Prop
    extends ServesAs codec name cache where
  distinct : KeysDistinct codec cache
  apart : KeysApart codec store name cache

theorem ServesAs.lookup_keys (h : ServesAs codec name cache) (hdistinct : KeysDistinct codec cache) :
    cache.publicKeyCache.lookup key = some value ↔ ∃ service keyId,
      GivesKey codec (servicesOf cache) service keyId value ∧
        generateServiceKeyName service keyId = key := by
  rw [h.keys]
  have hentries : (processDomainServiceIdentities codec cache.domainData {}).publicKeyCache =
      Map.ofEntries (keyEntries codec (servicesOf cache)) := publicKeyCache_processServices _ _
  rw [hentries, Map.lookup_ofEntries_iff, mem_keyEntries]
  intro k v v' hv hv'
  obtain ⟨service, keyId, hgives, hk⟩ := mem_keyEntries.1 hv
  obtain ⟨service', keyId', hgives', hk'⟩ := mem_keyEntries.1 hv'
  exact hdistinct _ _ _ _ _ _ hgives hgives' (hk.trans hk'.symm)

/-- The keys are those of the services of the published domains, which share no name. -/
structure KeysExact (codec : Codec) (store : DataStore) : Prop where
  served : ∀ name cache, store.cacheStore.lookup name = some cache →
    ServesAs codec name cache ∧ KeysDistinct codec cache
  found : ∀ key value, store.publicKeyCache.lookup key = some value ↔ ∃ name cache,
    store.cacheStore.lookup name = some cache ∧ cache.publicKeyCache.lookup key = some value
  own : ∀ name cache other cache' key value value', store.cacheStore.lookup name = some cache →
    store.cacheStore.lookup other = some cache' → cache.publicKeyCache.lookup key = some value →
    cache'.publicKeyCache.lookup key = some value' → name = other

theorem KeysExact.lookup_removeEntries (h : KeysExact codec store) (name key value : Str) :
    (store.removeEntries name).publicKeyCache.lookup key = some value ↔ ∃ other cache, other ≠ name ∧
      store.cacheStore.lookup other = some cache ∧ cache.publicKeyCache.lookup key = some value := by
  unfold removeEntries
  cases hold : store.cacheStore.lookup name with
  | none =>
    refine (h.found key value).trans ⟨?_, ?_⟩
    · rintro ⟨other, cache, hlookup, hkey⟩
      refine ⟨other, cache, ?_, hlookup, hkey⟩
      rintro rfl
      rw [hold] at hlookup
      cases hlookup
    · rintro ⟨other, cache, _, hlookup, hkey⟩
      exact ⟨other, cache, hlookup, hkey⟩
  | some old =>
    dsimp only
    rw [lookup_removePublicKeys]
    constructor
    · intro hkept
      split at hkept
      · cases hkept
      · rename_i hnone
        obtain ⟨other, cache, hlookup, hkey⟩ := (h.found key value).1 hkept
        refine ⟨other, cache, ?_, hlookup, hkey⟩
        rintro rfl
        rw [hold] at hlookup
        cases hlookup
        exact hnone (Option.isSome_iff_exists.2 ⟨value, hkey⟩)
    · rintro ⟨other, cache, hne, hlookup, hkey⟩
      rw [if_neg]
      · exact (h.found key value).2 ⟨other, cache, hlookup, hkey⟩
      · intro hsome
        obtain ⟨value', hkey'⟩ := Option.isSome_iff_exists.1 hsome
        exact hne (h.own other cache name old key value value' hlookup hold hkey hkey')

theorem KeysExact.addDomainToCache (h : KeysExact codec store) (hfits : KeysFit codec store name cache) :
    KeysExact codec (store.addDomainToCache name cache) := by
  have hkeys : ∀ key value, cache.publicKeyCache.lookup key = some value ↔ ∃ service keyId,
      GivesKey codec (servicesOf cache) service keyId value ∧
        generateServiceKeyName service keyId = key :=
    fun key value => hfits.toServesAs.lookup_keys hfits.distinct
  have hapart : ∀ other published key value value', other ≠ name →
      store.cacheStore.lookup other = some published → cache.publicKeyCache.lookup key = some value →
      published.publicKeyCache.lookup key ≠ some value' := by
    intro other published key value value' hne hlookup hkey hkey'
    obtain ⟨hserves, hdistinct⟩ := h.served other published hlookup
    obtain ⟨service, keyId, hgives, rfl⟩ := (hkeys key value).1 hkey
    obtain ⟨service', keyId', hgives', hsame⟩ := (hserves.lookup_keys hdistinct).1 hkey'
    exact hfits.apart other published hne hlookup _ _ _ _ _ _ hgives hgives' hsame.symm
  constructor
  · intro other published hlookup
    rw [lookup_addDomainToCache] at hlookup
    split at hlookup
    · rename_i hname
      cases hlookup
      rw [hname]
      exact ⟨hfits.toServesAs, hfits.distinct⟩
    · exact h.served other published hlookup
  · intro key value
    simp only [lookup_addDomainToCache]
    refine Eq.to_iff (congrArg (· = some value) (lookup_addPublicKeys ..)) |>.trans ?_
    rw [Option.or_eq_some_iff]
    constructor
    · rintro (hkey | ⟨_, hkept⟩)
      · exact ⟨name, cache, if_pos rfl, hkey⟩
      · obtain ⟨other, published, hne, hlookup, hkey⟩ := (h.lookup_removeEntries ..).1 hkept
        exact ⟨other, published, by rw [if_neg hne, hlookup], hkey⟩
    · rintro ⟨other, published, hlookup, hkey⟩
      split at hlookup
      · cases hlookup
        exact .inl hkey
      · rename_i hne
        refine .inr ⟨?_, (h.lookup_removeEntries ..).2 ⟨other, published, hne, hlookup, hkey⟩⟩
        rw [Option.eq_none_iff_forall_ne_some]
        intro value' hkey'
        exact hapart other published key value' value hne hlookup hkey' hkey
  · intro first firstCache second secondCache key value value' hfirst hsecond hkey hkey'
    rw [lookup_addDomainToCache] at hfirst hsecond
    split at hfirst
    · rename_i hname
      cases hfirst
      split at hsecond
      · rename_i hname'
        rw [hname, hname']
      · rename_i hne
        exact absurd hkey' (hapart second secondCache key value value' hne hsecond hkey)
    · rename_i hne
      split at hsecond
      · cases hsecond
        exact absurd hkey (hapart first firstCache key value' value hne hfirst hkey')
      · exact h.own first firstCache second secondCache key value value' hfirst hsecond hkey hkey'

theorem lookup_deleteDomainFromCache_some
    (h : (store.deleteDomainFromCache name).cacheStore.lookup other = some cache) :
    other ≠ name ∧ store.cacheStore.lookup other = some cache := by
  rw [lookup_deleteDomainFromCache] at h
  split at h
  · cases h
  · rename_i hne
    exact ⟨hne, h⟩

theorem KeysExact.deleteDomainFromCache (h : KeysExact codec store) (name : Str) :
    KeysExact codec (store.deleteDomainFromCache name) where
  served := by
    intro other published hlookup
    exact h.served other published (lookup_deleteDomainFromCache_some hlookup).2
  found := by
    intro key value
    refine (h.lookup_removeEntries name key value).trans ⟨?_, ?_⟩
    · rintro ⟨other, published, hne, hlookup, hkey⟩
      exact ⟨other, published, by rw [lookup_deleteDomainFromCache, if_neg hne, hlookup], hkey⟩
    · rintro ⟨other, published, hlookup, hkey⟩
      obtain ⟨hne, hlookup⟩ := lookup_deleteDomainFromCache_some hlookup
      exact ⟨other, published, hne, hlookup, hkey⟩
  own := by
    intro first firstCache second secondCache key value value' hfirst hsecond hkey hkey'
    exact h.own first firstCache second secondCache key value value'
      (lookup_deleteDomainFromCache_some hfirst).2 (lookup_deleteDomainFromCache_some hsecond).2
      hkey hkey'

theorem IndexRun.keysExact (run : IndexRun (KeysFit codec) store) : KeysExact codec store := by
  induction run with
  | empty cloud =>
    refine ⟨fun _ _ hnone => (nomatch hnone), fun key value => ?_,
      fun _ _ _ _ _ _ _ hnone => (nomatch hnone)⟩
    refine iff_of_false (fun hnone => nomatch hnone) ?_
    rintro ⟨_, _, hnone, _⟩
    cases hnone
  | add _ hfits ih => exact ih.addDomainToCache hfits
  | delete _ name ih => exact ih.deleteDomainFromCache name

/-- No key of the cached domains other than the one asked for has its name. -/
def Unambiguous (codec : Codec) (store : DataStore) (domain service keyId : Str) : Prop :=
  '.' ∉ service ∧ ∀ name cache, store.cacheStore.lookup name = some cache →
    ∀ service' keyId' value, GivesKey codec (servicesOf cache) service' keyId' value →
      generateServiceKeyName service' keyId' =
        generateServiceKeyName (domain ++ '.' :: service) keyId →
      service' = domain ++ '.' :: service ∧ keyId' = keyId

theorem KeysExact.getPublicKey_iff (h : KeysExact codec store)
    (hasked : Unambiguous codec store domain service keyId) (value : Str) :
    store.getPublicKey domain service keyId = some value ↔ ∃ cache,
      store.cacheStore.lookup domain = some cache ∧
        GivesKey codec (servicesOf cache) (domain ++ '.' :: service) keyId value := by
  rw [getPublicKey, h.found]
  constructor
  · rintro ⟨name, cache, hlookup, hkey⟩
    obtain ⟨hserves, hdistinct⟩ := h.served name cache hlookup
    obtain ⟨service', keyId', hgives, hsame⟩ := (hserves.lookup_keys hdistinct).1 hkey
    obtain ⟨rfl, rfl⟩ := hasked.2 name cache hlookup service' keyId' value hgives hsame
    have hdomain : name = domain := by
      obtain ⟨identity, hidentity, hname, _⟩ := hgives
      exact (hserves.names identity hidentity).domain_eq (hname ▸ ⟨service, rfl, hasked.1⟩)
    rw [hdomain] at hlookup
    exact ⟨cache, hlookup, hgives⟩
  · rintro ⟨cache, hlookup, hgives⟩
    obtain ⟨hserves, hdistinct⟩ := h.served domain cache hlookup
    exact ⟨domain, cache, hlookup, (hserves.lookup_keys hdistinct).2 ⟨_, _, hgives, rfl⟩⟩

theorem KeysExact.getPublicKey_congr {store' : DataStore} (h : KeysExact codec store)
    (h' : KeysExact codec store') (hasked : Unambiguous codec store domain service keyId)
    (hasked' : Unambiguous codec store' domain service keyId)
    (hsame : store'.cacheStore.lookup domain = store.cacheStore.lookup domain) :
    store'.getPublicKey domain service keyId = store.getPublicKey domain service keyId := by
  apply Option.ext
  intro value
  rw [h'.getPublicKey_iff hasked', h.getPublicKey_iff hasked, hsame]

theorem Unambiguous.delete (h : Unambiguous codec store domain service keyId) (name : Str) :
    Unambiguous codec (store.deleteDomainFromCache name) domain service keyId := by
  refine ⟨h.1, ?_⟩
  intro other cache hlookup
  exact h.2 other cache (lookup_deleteDomainFromCache_some hlookup).2

/-- In every run over domains whose keys have names of their own, a key is found exactly when the
cached data of its domain gives it, and no other domain adds, changes or removes it. -/
theorem getPublicKey_exact (run : IndexRun (KeysFit codec) store)
    (hasked : Unambiguous codec store domain service keyId) :
    (∀ value, store.getPublicKey domain service keyId = some value ↔ ∃ cache,
      store.cacheStore.lookup domain = some cache ∧
        GivesKey codec (servicesOf cache) (domain ++ '.' :: service) keyId value) ∧
    ∀ other, other ≠ domain →
      (store.deleteDomainFromCache other).getPublicKey domain service keyId =
        store.getPublicKey domain service keyId ∧
      ∀ cache, KeysFit codec store other cache →
        Unambiguous codec (store.addDomainToCache other cache) domain service keyId →
        (store.addDomainToCache other cache).getPublicKey domain service keyId =
          store.getPublicKey domain service keyId := by
  refine ⟨run.keysExact.getPublicKey_iff hasked, ?_⟩
  intro other hother
  refine ⟨?_, ?_⟩
  · apply run.keysExact.getPublicKey_congr (run.delete other).keysExact hasked (hasked.delete other)
    rw [lookup_deleteDomainFromCache, if_neg hother.symm]
  · intro cache hfits hasked'
    apply run.keysExact.getPublicKey_congr (run.add hfits).keysExact hasked hasked'
    rw [lookup_addDomainToCache, if_neg hother.symm]

end Keys

section Sample

/-- The decoder on the texts of the sample keys. -/
def sampleKeyCodec : Codec where
  ybase64DecodeString text :=
    if text = "T25l" then some "One" else if text = "VHdv" then some "Two" else none
  readAuthzDetails _ := none

/-- A domain with one service, built as its processing builds it. -/
def serviceCache (name service keyId key : Str) : PublishedCache :=
  let data : DomainData :=
    { name := name
      services := some [{ name := name ++ '.' :: service
                          hosts := some ["host1"]
                          publicKeys := some [{ id := keyId, key := some key }] }] }
  { processDomainServiceIdentities sampleKeyCodec data {} with domainData := data }

theorem servesAs_serviceCache (name service keyId key : Str) (h : '.' ∉ service) :
    ServesAs sampleKeyCodec name (serviceCache name service keyId key) := by
  refine ⟨rfl, rfl, ?_⟩
  intro identity hidentity
  rw [List.mem_singleton.1 hidentity]
  exact ⟨service, rfl, h⟩

theorem givesKey_serviceCache : GivesKey sampleKeyCodec
    (servicesOf (serviceCache name service keyId key)) service' keyId' value ↔
      name ++ '.' :: service = service' ∧ keyId = keyId' ∧
        sampleKeyCodec.ybase64DecodeString key = some value := by
  constructor
  · rintro ⟨identity, hidentity, rfl, entry, hentry, rfl, hvalue⟩
    rw [List.mem_singleton.1 hidentity] at hentry ⊢
    rw [List.mem_singleton.1 hentry] at hvalue ⊢
    exact ⟨rfl, rfl, hvalue⟩
  · rintro ⟨rfl, rfl, hvalue⟩
    exact ⟨_, List.mem_cons_self, rfl, _, List.mem_cons_self, rfl, hvalue⟩

/-- Two domains with a service on one host. -/
def twoServices : DataStore :=
  (({} : DataStore).addDomainToCache "sports" (serviceCache "sports" "api" "0" "T25l")).addDomainToCache
    "news" (serviceCache "news" "api" "0" "VHdv")

theorem host_of_two_domains :
    (twoServices.getHostServices "host1").getD [] = [↑"sports.api", ↑"news.api"] ∧
    ↑"news.api" ∈ (twoServices.getHostServices "host1").getD [] := by
  have hrun : IndexRun (fun _ => ServesAs sampleKeyCodec) twoServices :=
    ((IndexRun.empty none).add (servesAs_serviceCache "sports" "api" "0" "T25l" (by decide +kernel))).add
      (servesAs_serviceCache "news" "api" "0" "VHdv" (by decide +kernel))
  refine ⟨by decide +kernel, ((getHostServices_exact hrun "host1").2 "news.api").2 ?_⟩
  exact ⟨"news", _, (lookup_addDomainToCache ..).trans (if_pos rfl), _, List.mem_cons_self, rfl,
    List.mem_cons_self⟩

theorem key_of_service :
    (({} : DataStore).addDomainToCache "sports" (serviceCache "sports" "api" "0" "T25l")).getPublicKey
      "sports" "api" "0" = some "One" := by
  have hrun : IndexRun (KeysFit sampleKeyCodec)
      (({} : DataStore).addDomainToCache "sports" (serviceCache "sports" "api" "0" "T25l")) := by
    refine (IndexRun.empty none).add ⟨servesAs_serviceCache _ "api" _ _ (by decide +kernel), ?_, ?_⟩
    · intro _ _ _ _ _ _ hgives hgives' _
      have hvalue := (givesKey_serviceCache.1 hgives).2.2
      rw [(givesKey_serviceCache.1 hgives').2.2] at hvalue
      exact (Option.some.inj hvalue).symm
    · intro _ _ _ hnone
      cases hnone
  have hasked : Unambiguous sampleKeyCodec
      (({} : DataStore).addDomainToCache "sports" (serviceCache "sports" "api" "0" "T25l"))
        "sports" "api" "0" := by
    refine ⟨by decide +kernel, ?_⟩
    intro name cache hlookup service keyId value hgives _
    rw [lookup_addDomainToCache] at hlookup
    split at hlookup
    · cases hlookup
      obtain ⟨rfl, rfl, _⟩ := givesKey_serviceCache.1 hgives
      exact ⟨rfl, rfl⟩
    · cases hlookup
  refine ((getPublicKey_exact hrun hasked).1 "One").2 ?_
  exact ⟨_, (lookup_addDomainToCache ..).trans (if_pos rfl),
    givesKey_serviceCache.2 ⟨rfl, rfl, by decide +kernel⟩⟩

/-- A key of one domain replaces a key of another when the names of the two are the same text, and
takes it away when its domain is deleted. -/
theorem key_of_another_domain :
    (({} : DataStore).addDomainToCache "sports.api_prod"
      (serviceCache "sports.api_prod" "db" "0" "T25l")).getPublicKey "sports.api_prod" "db" "0" =
        some "One" ∧
    ((({} : DataStore).addDomainToCache "sports.api_prod"
      (serviceCache "sports.api_prod" "db" "0" "T25l")).addDomainToCache "sports"
        (serviceCache "sports" "api" "prod.db_0" "VHdv")).getPublicKey "sports.api_prod" "db" "0" =
          some "Two" ∧
    (((({} : DataStore).addDomainToCache "sports.api_prod"
      (serviceCache "sports.api_prod" "db" "0" "T25l")).addDomainToCache "sports"
        (serviceCache "sports" "api" "prod.db_0" "VHdv")).deleteDomainFromCache "sports").getPublicKey
          "sports.api_prod" "db" "0" = none := by
  decide +kernel

end Sample

end DataStore

end Athenz.Zts
