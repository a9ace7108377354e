import Athenz.GroupRun
import Athenz.RoleCertIndex

namespace Athenz.Zts
open Lib Lib.Text Lib.Index
set_option autoImplicit true

namespace DataStore

section Entries

theorem lookup_addHostEntries (hostMap hosts : Map Str (List Str)) (host : Str) :
    (addHostEntries hostMap hosts).lookup host =
      ((hostMap.lookup host).map fun services => some (hosts.listAt host ++ services)).getD
        (hosts.lookup host) := by
  unfold addHostEntries
  apply Map.lookup_foldl_entries (c := fun services before => some (before.getD [] ++ services))
  intro m entry k
  rw [Map.lookup_insert]
  by_cases hk : k = entry.1
  · rw [if_pos hk, if_pos hk, hk]
    rfl
  · rw [if_neg hk, if_neg hk]

theorem listAt_addHostEntries (hostMap hosts : Map Str (List Str)) (host : Str) :
    (addHostEntries hostMap hosts).listAt host = hosts.listAt host ++ hostMap.listAt host := by
  rw [Map.listAt, lookup_addHostEntries]
  cases hservices : hostMap.lookup host with
  | none =>
    rw [Map.listAt_of_lookup_none hservices, List.append_nil]
    rfl
  | some services =>
    rw [Map.listAt_of_lookup hservices]
    rfl

theorem lookup_removeHostEntries (hostMap hosts : Map Str (List Str)) (host : Str) :
    (removeHostEntries hostMap hosts).lookup host =
      ((hostMap.lookup host).map fun services =>
        (hosts.lookup host).map fun kept => kept.filter (· ∉ services)).getD (hosts.lookup host) := by
  unfold removeHostEntries
  apply Map.lookup_foldl_entries
    (c := fun (services : List Str) before => before.map fun kept : List Str =>
      kept.filter (· ∉ services))
  intro m entry k
  by_cases hk : k = entry.1
  · subst hk
    rw [if_pos rfl]
    cases hkept : m.lookup entry.1 with
    | none => exact hkept
    | some kept => exact (Map.lookup_insert ..).trans (if_pos rfl)
  · rw [if_neg hk]
    cases hkept : m.lookup entry.1 with
    | none => rfl
    | some kept => exact (Map.lookup_insert ..).trans (if_neg hk)

theorem listAt_removeHostEntries (hostMap hosts : Map Str (List Str)) (host : Str) :
    (removeHostEntries hostMap hosts).listAt host =
      (hosts.listAt host).filter (· ∉ hostMap.listAt host) := by
  rw [Map.listAt, lookup_removeHostEntries]
  cases hservices : hostMap.lookup host with
  | none =>
    simp only [Map.listAt_of_lookup_none hservices, List.not_mem_nil, not_false_eq_true, decide_true,
      List.filter_true]
    rfl
  | some services =>
    rw [Map.listAt_of_lookup hservices, Map.listAt]
    cases hosts.lookup host with
    | none => rfl
    | some kept => rfl

theorem lookup_addPublicKeys (publicKeyMap keys : Map Str Str) (key : Str) :
    (addPublicKeys publicKeyMap keys).lookup key =
      (publicKeyMap.lookup key).or (keys.lookup key) := by
  rw [addPublicKeys, Map.lookup_foldl_entries (c := fun value _ => some value)
    fun m entry k => Map.lookup_insert ..]
  cases publicKeyMap.lookup key with
  | none => rfl
  | some value => rfl

theorem lookup_removePublicKeys (publicKeyMap keys : Map Str Str) (key : Str) :
    (removePublicKeys publicKeyMap keys).lookup key =
      if (publicKeyMap.lookup key).isSome then none else keys.lookup key := by
  rw [removePublicKeys, Map.lookup_foldl_entries (c := fun _ _ => none)
    fun m entry k => Map.lookup_erase ..]
  cases publicKeyMap.lookup key with
  | none => rfl
  | some value => rfl

theorem mem_addHostEntries {hostMap hosts : Map Str (List Str)} :
    service ∈ (addHostEntries hostMap hosts).listAt host ↔
      service ∈ hosts.listAt host ∨ service ∈ hostMap.listAt host := by
  rw [listAt_addHostEntries, List.mem_append]

theorem mem_removeHostEntries {hostMap hosts : Map Str (List Str)} :
    service ∈ (removeHostEntries hostMap hosts).listAt host ↔
      service ∈ hosts.listAt host ∧ service ∉ hostMap.listAt host := by
  rw [listAt_removeHostEntries, List.mem_filter, decide_eq_true_iff]

theorem isSome_addPublicKeys {publicKeyMap keys : Map Str Str} :
    ((addPublicKeys publicKeyMap keys).lookup key).isSome ↔
      (keys.lookup key).isSome ∨ (publicKeyMap.lookup key).isSome := by
  rw [lookup_addPublicKeys, Option.isSome_or, Bool.or_eq_true, or_comm]

theorem isSome_removePublicKeys {publicKeyMap keys : Map Str Str} :
    ((removePublicKeys publicKeyMap keys).lookup key).isSome ↔
      (keys.lookup key).isSome ∧ ¬ (publicKeyMap.lookup key).isSome := by
  rw [lookup_removePublicKeys]
  cases publicKeyMap.lookup key with
  | none => simp only [Option.isSome_none, Bool.false_eq_true, if_false, not_false_eq_true, and_true]
  | some value => simp only [Option.isSome_some, if_true, Option.isSome_none, Bool.false_eq_true,
      not_true_eq_false, and_false]

end Entries

section Frames

variable [CaseRules]

/-- Two stores with the same hosts, keys, accounts and indexes of the domains. -/
structure Frame (store store' : DataStore) : Prop where
  hostCache : store'.hostCache = store.hostCache
  publicKeyCache : store'.publicKeyCache = store.publicKeyCache
  cloudStore : store'.cloudStore = store.cloudStore
  indexes : ∀ name, (store'.cacheStore.lookup name).map (·.toDataCache) =
    (store.cacheStore.lookup name).map (·.toDataCache)

omit [CaseRules] in
theorem Frame.refl (store : DataStore) : Frame store store := ⟨rfl, rfl, rfl, fun _ => rfl⟩

omit [CaseRules] in
theorem Frame.trans (h : Frame a b) (h' : Frame b c) : Frame a c where
  hostCache := h'.hostCache.trans h.hostCache
  publicKeyCache := h'.publicKeyCache.trans h.publicKeyCache
  cloudStore := h'.cloudStore.trans h.cloudStore
  indexes name := (h'.indexes name).trans (h.indexes name)

omit [CaseRules] in
theorem Frame.foldl {step : DataStore → α → DataStore} (h : ∀ store a, Frame store (step store a))
    (items : List α) (store : DataStore) : Frame store (items.foldl step store) :=
  foldl_invariant (P := Frame store) (fun s a hs => hs.trans (h s a)) items (Frame.refl store)

omit [CaseRules] in
theorem frame_editPublished (store : DataStore) (name : Str) (edit : DomainData → DomainData) :
    Frame store (store.editPublished name edit) := by
  unfold editPublished
  split
  · exact Frame.refl store
  · rename_i published hlookup
    refine ⟨rfl, rfl, rfl, ?_⟩
    intro other
    dsimp only
    rw [Map.lookup_insert]
    split
    · rename_i hsame
      rw [hsame, hlookup]
      rfl
    · rfl

omit [CaseRules] in
theorem requireRoleCertCache_editPublished (store : DataStore) (name : Str)
    (edit : DomainData → DomainData) :
    (store.editPublished name edit).requireRoleCertCache = store.requireRoleCertCache := by
  unfold editPublished
  split
  · rfl
  · rfl

theorem frame_processGroupDelete (store : DataStore) (group : Group) :
    Frame store (store.processGroupDelete group) := ⟨rfl, rfl, rfl, fun _ => rfl⟩

theorem frame_processDomainRoles (now : Int) (domainData : DomainData) (store : DataStore) :
    Frame store (processDomainRoles now domainData store) := by
  obtain ⟨hhosts, hkeys, hcloud, hindexes⟩ := frame_editPublished store domainData.name fun data =>
    { data with roles := deletedRoles data.roles ((domainData.roles.getD []).map (·.name)) }
  exact ⟨hhosts, hkeys, hcloud, hindexes⟩

theorem frame_processListedGroup (clock : Group → Int) (name : Str) (store : DataStore)
    (group : Group) : Frame store (processListedGroup clock name store group) := by
  obtain ⟨hhosts, hkeys, hcloud, hindexes⟩ := frame_editPublished store name fun data =>
    { data with
      groups := data.groups.map fun groups =>
        groups.filter fun item => !equalsIgnoreCase item.name group.name }
  exact ⟨hhosts, hkeys, hcloud, hindexes⟩

theorem frame_processDomainGroups (clock : Group → Int) (domainData : DomainData)
    (store : DataStore) : Frame store (processDomainGroups clock domainData store) := by
  rw [processDomainGroups_eq]
  exact (Frame.foldl (frame_processListedGroup clock domainData.name) _ store).trans
    (Frame.foldl frame_processGroupDelete _ _)

end Frames

section Accounts

/-- The entries that a published domain adds to the caches of hosts and keys. -/
inductive Entry where
  | host (host service : Str)
  | key (key : Str)

def Has (store : DataStore) : Entry → Prop
  | .host host service => service ∈ store.hostCache.listAt host
  | .key key => (store.publicKeyCache.lookup key).isSome

def Gives (cache : DataCache) : Entry → Prop
  | .host host service => service ∈ cache.hostCache.listAt host
  | .key key => (cache.publicKeyCache.lookup key).isSome

/-- Every host entry and every key belongs to a domain that is published, and that is one of some. -/
def Accounted (among : Set Str) (store : DataStore) : Prop :=
  ∀ entry, store.Has entry → ∃ name ∈ among, ∃ published,
    store.cacheStore.lookup name = some published ∧ Gives published.toDataCache entry

variable {store : DataStore} {entry : Entry} {among : Set Str}

theorem has_removeEntries : (store.removeEntries name).Has entry ↔
    store.Has entry ∧ ∀ old, store.cacheStore.lookup name = some old → ¬ Gives old.toDataCache entry := by
  unfold removeEntries
  cases store.cacheStore.lookup name with
  | none => simp only [reduceCtorEq, false_implies, implies_true, and_true]
  | some old =>
    simp only [Option.some.injEq, forall_eq']
    cases entry with
    | host host service => exact mem_removeHostEntries
    | key key => exact isSome_removePublicKeys

theorem has_addDomainToCache {cache : PublishedCache} :
    (store.addDomainToCache name cache).Has entry ↔
      (store.removeEntries name).Has entry ∨ Gives cache.toDataCache entry := by
  cases entry with
  | host host service => exact mem_addHostEntries
  | key key => exact isSome_addPublicKeys

theorem has_deleteDomainFromCache :
    (store.deleteDomainFromCache name).Has entry ↔ (store.removeEntries name).Has entry := by
  cases entry with
  | host host service => rfl
  | key key => rfl

theorem lookup_deleteDomainFromCache : (store.deleteDomainFromCache name).cacheStore.lookup other =
    if other = name then none else store.cacheStore.lookup other := by
  unfold deleteDomainFromCache
  dsimp only
  rw [Map.lookup_erase, (removeEntries_frame store name).1]

theorem Accounted.frame (h : Accounted among store) (hframe : Frame store store') :
    Accounted among store' := by
  intro entry hentry
  have hhas : store.Has entry := by
    cases entry with
    | host host service =>
      rw [Has, hframe.hostCache] at hentry
      exact hentry
    | key key =>
      rw [Has, hframe.publicKeyCache] at hentry
      exact hentry
  obtain ⟨name, hname, published, hlookup, hgives⟩ := h entry hhas
  have hindex := hframe.indexes name
  rw [hlookup] at hindex
  obtain ⟨published', hlookup', hsame⟩ := Option.map_eq_some_iff.1 hindex
  exact ⟨name, hname, published', hlookup', hsame ▸ hgives⟩

/-- What is left without the entries of one domain belongs to other domains. -/
theorem Accounted.removed (h : Accounted among store)
    (hentry : (store.removeEntries name).Has entry) :
    ∃ other ∈ among, other ≠ name ∧ ∃ published, store.cacheStore.lookup other = some published ∧
      Gives published.toDataCache entry := by
  obtain ⟨hhas, hnot⟩ := has_removeEntries.1 hentry
  obtain ⟨other, hamong, published, hlookup, hgives⟩ := h entry hhas
  refine ⟨other, hamong, ?_, published, hlookup, hgives⟩
  rintro rfl
  exact hnot published hlookup hgives

theorem Accounted.addDomainToCache (h : Accounted .univ store) (name : Str)
    (cache : PublishedCache) : Accounted .univ (store.addDomainToCache name cache) := by
  have hcaches : (store.addDomainToCache name cache).cacheStore =
      store.cacheStore.insert name cache := (addDomainToCache_frame store name cache).1
  intro entry hentry
  obtain hkept | hgives := has_addDomainToCache.1 hentry
  · obtain ⟨other, _, hne, published, hlookup, hgives⟩ := h.removed hkept
    refine ⟨other, trivial, published, ?_, hgives⟩
    rw [hcaches, Map.lookup_insert, if_neg hne, hlookup]
  · refine ⟨name, trivial, cache, ?_, hgives⟩
    rw [hcaches, Map.lookup_insert, if_pos rfl]

theorem Accounted.deleteDomainFromCache (h : Accounted .univ store) (name : Str) :
    Accounted { other | other ≠ name } (store.deleteDomainFromCache name) := by
  intro entry hentry
  obtain ⟨other, _, hne, published, hlookup, hgives⟩ := h.removed (has_deleteDomainFromCache.1 hentry)
  refine ⟨other, hne, published, ?_, hgives⟩
  rw [lookup_deleteDomainFromCache, if_neg hne, hlookup]

theorem Accounted.weaken (h : Accounted among store) : Accounted .univ store := by
  intro entry hentry
  obtain ⟨name, _, published, hlookup, hgives⟩ := h entry hentry
  exact ⟨name, trivial, published, hlookup, hgives⟩

end Accounts

section Incoming

/-- A domain as it arrives from ZMS. -/
inductive Incoming where
  | signed (signedDomain : SignedDomain)
  | jws (jwsDomain : JWSDomain)

/-- The data of a domain that can be read and has a valid signature. -/
def Incoming.accepted (zms : Zms Key) : Incoming → Option DomainData
  | .signed signedDomain =>
    if validateSignedDomain zms signedDomain then some signedDomain.domain else none
  | .jws jwsDomain => (zms.readDomainData jwsDomain.payload).filter fun _ =>
    validateJWSDomain zms jwsDomain

variable [CaseRules]

/-- What an update runs with: the libraries, the time and the change-log store. -/
structure Setting (Key : Type) where
  zms : Zms Key
  codec : Codec
  clock : Group → Int
  now : Int
  saveLocalDomain : Incoming → Bool
  saveInStore : Bool

def process (setting : Setting Key) (store : DataStore) : Incoming → DataStore × Bool
  | .signed signedDomain =>
    processSignedDomain setting.zms setting.codec setting.clock setting.now
      (fun domain => setting.saveLocalDomain (.signed domain)) signedDomain setting.saveInStore store
  | .jws jwsDomain =>
    processJWSDomain setting.zms setting.codec setting.clock setting.now
      (fun domain => setting.saveLocalDomain (.jws domain)) jwsDomain setting.saveInStore store

/-- The change-log store kept the domain, or was not asked to. -/
def Setting.saves (setting : Setting Key) (incoming : Incoming) : Bool :=
  !setting.saveInStore || setting.saveLocalDomain incoming

variable {setting : Setting Key} {incoming : Incoming} {store : DataStore}

theorem process_of_rejected (h : incoming.accepted setting.zms = none) :
    store.process setting incoming = (store, false) := by
  cases incoming with
  | signed signedDomain =>
    rw [Incoming.accepted, ite_eq_right_iff] at h
    rw [process, processSignedDomain, if_pos]
    rw [Bool.not_eq_true']
    exact eq_false_of_ne_true fun hvalid => nomatch h hvalid
  | jws jwsDomain =>
    rw [process, processJWSDomain]
    rw [Incoming.accepted] at h
    cases hread : setting.zms.readDomainData jwsDomain.payload with
    | none => rfl
    | some domainData =>
      rw [hread, Option.filter_some] at h
      cases hvalid : validateJWSDomain setting.zms jwsDomain with
      | false => simp only [Bool.not_false, if_true]
      | true =>
        rw [hvalid] at h
        cases h

theorem process_of_accepted (h : incoming.accepted setting.zms = some domainData) :
    store.process setting incoming = processValidDomain setting.codec setting.clock setting.now
      domainData (setting.saves incoming) store := by
  cases incoming with
  | signed signedDomain =>
    rw [Incoming.accepted] at h
    split at h
    · rename_i hvalid
      cases h
      rw [process, processSignedDomain, hvalid, if_neg (by decide)]
      rfl
    · cases h
  | jws jwsDomain =>
    obtain ⟨hread, hvalid⟩ := Option.filter_eq_some_iff.1 h
    rw [process, processJWSDomain, hread]
    dsimp only
    rw [hvalid, if_neg (by decide)]
    rfl

end Incoming

section Reach

variable [CaseRules]

/-- The stores that updates and deletions reach from an empty one. -/
inductive Reachable (Key : Type) : DataStore → Prop where
  | empty : Reachable Key {}
  | emptyCloud : Reachable Key { cloudStore := some {} }
  | process (reached : Reachable Key store) (setting : Setting Key) (incoming : Incoming) :
    Reachable Key (store.process setting incoming).1
  | deleteDomain (reached : Reachable Key store) (name : Str) :
    Reachable Key (store.deleteDomain name).1

theorem Accounted.processDomainData {store : DataStore} (h : Accounted .univ store) (codec : Codec)
    (clock : Group → Int) (now : Int) (domainData : DomainData) :
    Accounted .univ (store.processDomainData codec clock now domainData).1 := by
  have hframe := (frame_processDomainRoles now domainData store).trans
    (frame_processDomainGroups clock domainData (processDomainRoles now domainData store))
  unfold DataStore.processDomainData
  dsimp only
  split
  · exact h.frame hframe
  · exact (h.frame hframe).addDomainToCache _ _

theorem Accounted.process {store : DataStore} (h : Accounted .univ store) (setting : Setting Key)
    (incoming : Incoming) : Accounted .univ (store.process setting incoming).1 := by
  cases haccepted : incoming.accepted setting.zms with
  | none =>
    rw [process_of_rejected haccepted]
    exact h
  | some domainData =>
    have hdata := h.processDomainData setting.codec setting.clock setting.now domainData
    rw [process_of_accepted haccepted, processValidDomain]
    split
    · exact (h.deleteDomainFromCache domainData.name).weaken
    · split
      · rename_i hresult
        rw [hresult] at hdata
        exact hdata
      · rename_i hresult
        rw [hresult] at hdata
        exact hdata

theorem frame_processDeleteDomainGroups (name : Str) (store : DataStore) :
    Frame store (store.processDeleteDomainGroups name) :=
  Frame.foldl frame_processGroupDelete _ store

theorem Accounted.deleteDomain {store : DataStore} (h : Accounted .univ store) (name : Str) :
    Accounted .univ (store.deleteDomain name).1 := by
  have hgroups := h.frame (frame_processDeleteDomainGroups name store)
  unfold DataStore.deleteDomain
  dsimp only
  split
  · exact hgroups
  · rename_i certStore hcerts
    have hframe : Frame (store.processDeleteDomainGroups name) certStore := by
      unfold cleanRequireRoleCertCache at hcerts
      split at hcerts
      · cases hcerts
        exact Frame.refl _
      · split at hcerts
        · cases hcerts
        · cases hcerts
          exact ⟨rfl, rfl, rfl, fun _ => rfl⟩
    exact ((hgroups.frame hframe).deleteDomainFromCache name).weaken

theorem Reachable.accounted (h : Reachable Key store) : Accounted .univ store := by
  induction h with
  | empty | emptyCloud =>
    intro entry hentry
    cases entry with
    | host host service => exact absurd hentry List.not_mem_nil
    | key key => cases hentry
  | process reached setting incoming ih => exact ih.process setting incoming
  | deleteDomain reached name ih => exact ih.deleteDomain name

end Reach

end DataStore

end Athenz.Zts
