import Athenz.Lib.History
import Athenz.ChangeLog

namespace Athenz.Zts
open Lib Lib.Text Lib.Result Lib.Exceptional
set_option autoImplicit true

namespace DataStore

section Building

/-- A result is one whatever it is. -/
abbrev Ends (x : Except ε α) : Prop := ∃ a, x = .ok a

theorem ends_bind {x : Except ε α} {f : α → Except ε β} {y : Except ε γ} {g : γ → Except ε δ}
    (hx : Ends x → Ends y) (hf : ∀ a c, Ends (f a) → Ends (g c)) : Ends (x >>= f) → Ends (y >>= g) := by
  rintro ⟨b, hb⟩
  obtain ⟨a, ha, hfa⟩ := bind_eq_ok.1 hb
  obtain ⟨c, hc⟩ := hx ⟨a, ha⟩
  obtain ⟨d, hd⟩ := hf a c ⟨b, hfa⟩
  exact ⟨d, bind_eq_ok.2 ⟨c, hc, hd⟩⟩

theorem ends_ok_bind {f : α → Except ε β} (h : Ends (f a)) : Ends (Except.ok a >>= f) := h

theorem ends_foldlM {step step' : σ → α → Except ε σ}
    (h : ∀ s s' a, Ends (step s a) → Ends (step' s' a)) (items : List α) (s s' : σ) :
    Ends (items.foldlM step s) → Ends (items.foldlM step' s') := by
  induction items generalizing s s' with
  | nil => exact fun _ => ⟨s', rfl⟩
  | cons a items ih =>
    rw [List.foldlM_cons, List.foldlM_cons]
    exact ends_bind (h s s' a) ih

theorem ends_processAssertion (now now' : Int) (domainName : Str) (roles : Map Str Role)
    (cache cache' : DataCache) (assertion : Assertion)
    (h : Ends (DataCache.processAssertion now domainName roles cache assertion)) :
    Ends (DataCache.processAssertion now' domainName roles cache' assertion) := by
  unfold DataCache.processAssertion at h ⊢
  split
  · exact ⟨_, rfl⟩
  · rename_i haws
    rw [if_neg haws] at h
    split
    · exact ⟨_, rfl⟩
    · rename_i hassume
      rw [if_neg hassume] at h
      split
      · exact ⟨_, rfl⟩
      · rename_i hlaunch
        rw [if_neg hlaunch] at h
        split
        · rename_i htransport
          rw [if_pos htransport] at h
          obtain ⟨result, hresult⟩ := h
          have hlength := (unit_bind_eq_ok.1 hresult).1
          exact ⟨_, unit_bind_eq_ok.2 ⟨hlength, rfl⟩⟩
        · exact ⟨_, rfl⟩

theorem ends_processDomainPolicies (now now' : Int) (domainData : DomainData)
    (cache cache' : DataCache) (h : Ends (processDomainPolicies now domainData cache)) :
    Ends (processDomainPolicies now' domainData cache') := by
  unfold processDomainPolicies at h ⊢
  split
  · exact ⟨_, rfl⟩
  · split
    · rename_i hpolicies _ hroles
      rw [hpolicies, hroles] at h
      exact h
    · rename_i hpolicies _ roles hroles
      rw [hpolicies, hroles] at h
      refine ends_foldlM (fun s s' policy => ?_) _ _ _ h
      exact ends_foldlM (ends_processAssertion now now' _ _) _ _ _

theorem ends_processEntity (codec : Codec) (domainName : Str) (cache cache' : DataCache)
    (entity : Entity) (h : Ends (DataCache.processEntity codec domainName cache entity)) :
    Ends (DataCache.processEntity codec domainName cache' entity) := by
  unfold DataCache.processEntity at h ⊢
  split
  · exact ⟨_, rfl⟩
  · rename_i hname
    rw [if_neg hname] at h
    obtain ⟨result, hresult⟩ := h
    obtain ⟨data, hdata, hrest⟩ := bind_eq_ok.1 hresult
    rw [hdata]
    refine ends_ok_bind ?_
    cases hread : codec.readAuthzDetails data with
    | none => exact ⟨_, rfl⟩
    | some details =>
      dsimp only
      cases hroles : details.roles with
      | none =>
        simp only [hread, hroles] at hrest
        cases hrest
      | some roles => exact ⟨_, rfl⟩

theorem ends_processSystemBehaviorRoles (domainData : DomainData) (cache cache' : DataCache)
    (h : Ends (DataCache.processSystemBehaviorRoles domainData cache)) :
    Ends (DataCache.processSystemBehaviorRoles domainData cache') := by
  unfold DataCache.processSystemBehaviorRoles at h ⊢
  split
  · exact ⟨_, rfl⟩
  · rename_i hname
    rw [if_neg hname] at h
    split
    · rename_i hroles
      rw [hroles] at h
      obtain ⟨_, hresult⟩ := h
      cases hresult
    · rename_i roles hroles
      rw [hroles] at h
      exact ends_bind (fun h => h) (fun _ _ _ => ⟨_, rfl⟩) h

/-- Whether the indexes of a domain can be built does not depend on the time. -/
theorem ends_buildCache (now' : Int) (h : Ends (buildCache codec now domainData)) :
    Ends (buildCache codec now' domainData) := by
  refine ends_bind (ends_processDomainPolicies now now' domainData _ _) (fun cache cache' => ?_) h
  refine ends_bind (fun hentities => ?_)
    (fun _ _ => ends_processSystemBehaviorRoles domainData _ _)
  exact ends_foldlM (fun s s' entity => ends_processEntity codec domainData.name s s' entity) _ _ _
    hentities

end Building

section Publishing

variable [CaseRules] {store : DataStore}

omit [CaseRules] in
/-- The data of a domain is published with the indexes that were built from it at some time. -/
def PublishedFrom (codec : Codec) (domainData : DomainData) (published : PublishedCache) : Prop :=
  ∃ now cache, buildCache codec now domainData = .ok cache ∧
    published = { cache with domainData := normalized domainData }

/-- What an update strikes from the published data leaves a domain published, with or without roles
as before. -/
theorem published_of_struck
    (h : (processDomainGroups clock domainData
      (processDomainRoles now domainData store)).cacheStore.lookup domainData.name =
        some published') :
    ∃ published, store.cacheStore.lookup domainData.name = some published ∧
      published'.domainData.roles.isSome = published.domainData.roles.isSome := by
  have hindexes := ((frame_processDomainRoles now domainData store).trans
    (frame_processDomainGroups clock domainData
      (processDomainRoles now domainData store))).indexes domainData.name
  rw [h] at hindexes
  obtain ⟨published, hpublished, _⟩ := Option.map_eq_some_iff.1 hindexes.symm
  refine ⟨published, hpublished, ?_⟩
  have hroles : publishedRoles domainData.name (processDomainGroups clock domainData
      (processDomainRoles now domainData store)) = deletedRoles
        (publishedRoles domainData.name store) ((domainData.roles.getD []).map (·.name)) :=
    (publishedRoles_processDomainGroups clock domainData _).trans
      (publishedRoles_processDomainRoles now)
  unfold publishedRoles getDomainData at hroles
  rw [h, hpublished] at hroles
  change published'.domainData.roles = deletedRoles published.domainData.roles _ at hroles
  rw [hroles]
  unfold deletedRoles
  split
  · rfl
  · exact Option.isSome_map

theorem processDomainData_of_error (clock : Group → Int)
    (h : buildCache codec now domainData = .error e) :
    store.processDomainData codec clock now domainData =
      (processDomainGroups clock domainData (processDomainRoles now domainData store),
        .error e) := by
  simp only [processDomainData, h]

theorem processDomainData_of_ok (clock : Group → Int)
    (h : buildCache codec now domainData = .ok cache) :
    store.processDomainData codec clock now domainData =
      ((processDomainGroups clock domainData (processDomainRoles now domainData store)).addDomainToCache
        domainData.name { cache with domainData := normalized domainData }, .ok ()) := by
  simp only [processDomainData, h]

/-- Behind an update with indexes the domain is published, and the others are as they were. -/
theorem lookup_processDomainData (clock : Group → Int)
    (h : buildCache codec now domainData = .ok cache) (name : Str) :
    (store.processDomainData codec clock now domainData).1.cacheStore.lookup name =
      if name = domainData.name then some { cache with domainData := normalized domainData }
      else store.cacheStore.lookup name := by
  rw [processDomainData_of_ok clock h, (addDomainToCache_frame _ _ _).1, Map.lookup_insert]
  split
  · rfl
  · exact RequireRoleCertCache.lookup_processDomain_of_ne clock now domainData store ‹_›

/-- A deletion takes the domain from the published ones, when nothing stops it. -/
theorem lookup_deleteDomain (h : (store.deleteDomain name).2 = .ok ()) (other : Str) :
    (store.deleteDomain name).1.cacheStore.lookup other =
      if other = name then none else store.cacheStore.lookup other := by
  cases hlookup : store.cacheStore.lookup name with
  | none => rw [deleteDomain_of_none hlookup, lookup_deleteDomainFromCache]
  | some published =>
    cases hroles : published.domainData.roles with
    | none =>
      obtain ⟨members, principals, hgroups⟩ := foldl_processGroupDelete_keeps
        (published.domainData.groups.getD []) store
      simp only [deleteDomain, processDeleteDomainGroups, cleanRequireRoleCertCache, hlookup,
        hroles, Option.bind_some, hgroups, reduceCtorEq] at h
    | some roles =>
      rw [deleteDomain_of_roles hlookup hroles]
      exact lookup_deleteDomainFromCache

/-- A deletion that is stopped leaves the published domains. -/
theorem lookup_deleteDomain_of_error (h : (store.deleteDomain name).2 = .error e) :
    (store.deleteDomain name).1.cacheStore = store.cacheStore := by
  obtain ⟨members, principals, hgroups⟩ := foldl_processGroupDelete_keeps
    (((store.cacheStore.lookup name).bind (·.domainData.groups)).getD []) store
  simp only [deleteDomain, processDeleteDomainGroups, hgroups] at h ⊢
  split at h
  · simp only
  · cases h

theorem deleteDomain_ends
    (h : ∀ published, store.cacheStore.lookup name = some published →
      published.domainData.roles.isSome) :
    (store.deleteDomain name).2 = .ok () := by
  obtain ⟨members, principals, hgroups⟩ := foldl_processGroupDelete_keeps
    (((store.cacheStore.lookup name).bind (·.domainData.groups)).getD []) store
  simp only [deleteDomain, processDeleteDomainGroups, hgroups, cleanRequireRoleCertCache]
  cases hlookup : store.cacheStore.lookup name with
  | none => rfl
  | some published =>
    obtain ⟨roles, hroles⟩ := Option.isSome_iff_exists.1 (h published hlookup)
    simp only [hroles]

end Publishing

end DataStore

namespace Server

section Documents

variable {Key : Type} [CaseRules] (zms : DataStore.Zms Key) (codec : Codec) (handling : Handling)
  (document : Document) (saveInStore : Bool)

/-- Whether the save of a document, if it is asked for, ends as it should. -/
def saves : Bool := !saveInStore || decide (handling.finish = .done)

/-- The change log behind the processing of a document. -/
def savedLog (name : Str) (log : ChangeLogStore) : ChangeLogStore :=
  if saveInStore then log.put name document handling.finish else log

omit [CaseRules] in
theorem save_eq (name : Str) (server : Server) :
    processDomain.save handling document saveInStore name server =
      (.ok (saves handling saveInStore),
        server.onChangeLog (savedLog handling document saveInStore name)) := by
  obtain ⟨clock, now, finish⟩ := handling
  cases saveInStore with
  | false => rfl
  | true =>
    cases finish with
    | done | refused | damaged => rfl

/-- The state behind the processing of a document that is accepted. -/
def publishes (domainData : DomainData) (server : Server) : Server :=
  { store := (server.store.processDomainData codec handling.clock handling.now domainData).1
    modified := server.modified.insert domainData.name document.modified
    changeLog := savedLog handling document saveInStore domainData.name server.changeLog }

def withdraws (domainData : DomainData) (server : Server) : Server :=
  { store := server.store.deleteDomainFromCache domainData.name
    modified := server.modified.erase domainData.name
    changeLog := savedLog handling document saveInStore domainData.name server.changeLog }

/-- What the processing of a document can do. -/
inductive Processed (server : Server) : Except Thrown Bool × Server → Prop where
  | rejected (h : document.incoming.accepted zms = none) : Processed server (.ok false, server)
  | withdrawn (h : document.incoming.accepted zms = some domainData)
    (hdisabled : domainData.enabled = some false) :
    Processed server (.ok (saves handling saveInStore),
      withdraws handling document saveInStore domainData server)
  | failed (h : document.incoming.accepted zms = some domainData)
    (henabled : domainData.enabled ≠ some false)
    (hbuild : DataStore.buildCache codec handling.now domainData = .error e) :
    Processed server (.ok false, { server with
      store := (server.store.processDomainData codec handling.clock handling.now domainData).1 })
  | published (h : document.incoming.accepted zms = some domainData)
    (henabled : domainData.enabled ≠ some false)
    (hbuild : DataStore.buildCache codec handling.now domainData = .ok cache) :
    Processed server (.ok (saves handling saveInStore),
      publishes codec handling document saveInStore domainData server)

theorem processDomain_cases (server : Server) : Processed zms codec handling document saveInStore
    server (processDomain zms codec handling document saveInStore server) := by
  cases haccepted : document.incoming.accepted zms with
  | none =>
    have hrun : processDomain zms codec handling document saveInStore server =
        (.ok false, server) := by
      simp only [processDomain, haccepted]
      rfl
    rw [hrun]
    exact .rejected haccepted
  | some domainData =>
    by_cases hdisabled : domainData.enabled = some false
    · have hrun : processDomain zms codec handling document saveInStore server =
          processDomain.save handling document saveInStore domainData.name { server with
            store := server.store.deleteDomainFromCache domainData.name
            modified := server.modified.erase domainData.name } := by
        simp only [processDomain, haccepted, if_pos hdisabled]
        rfl
      rw [hrun, save_eq]
      exact .withdrawn haccepted hdisabled
    · cases hbuild : DataStore.buildCache codec handling.now domainData with
      | error e =>
        have hrun : processDomain zms codec handling document saveInStore server =
            (.ok false, { server with store := (server.store.processDomainData codec
              handling.clock handling.now domainData).1 }) := by
          simp only [processDomain, haccepted, if_neg hdisabled, Prog.read_bind,
            DataStore.processDomainData_of_error handling.clock hbuild]
          rfl
        rw [hrun]
        exact .failed haccepted hdisabled hbuild
      | ok cache =>
        have hrun : processDomain zms codec handling document saveInStore server =
            processDomain.save handling document saveInStore domainData.name { server with
              store := (server.store.processDomainData codec handling.clock handling.now
                domainData).1
              modified := server.modified.insert domainData.name document.modified } := by
          simp only [processDomain, haccepted, if_neg hdisabled, Prog.read_bind,
            DataStore.processDomainData_of_ok handling.clock hbuild]
          rfl
        rw [hrun, save_eq]
        exact .published haccepted hdisabled hbuild

theorem processDomain_rejected (h : document.incoming.accepted zms = none) (server : Server) :
    processDomain zms codec handling document saveInStore server = (.ok false, server) := by
  have hcases := processDomain_cases zms codec handling document saveInStore server
  generalize processDomain zms codec handling document saveInStore server = run at hcases ⊢
  cases hcases with
  | rejected => rfl
  | withdrawn haccepted | failed haccepted | published haccepted =>
    rw [h] at haccepted
    cases haccepted

theorem processDomain_ends (server : Server) : ∃ result,
    processDomain zms codec handling document saveInStore server =
      (.ok result, (processDomain zms codec handling document saveInStore server).2) := by
  have hcases := processDomain_cases zms codec handling document saveInStore server
  generalize processDomain zms codec handling document saveInStore server = run at hcases ⊢
  cases hcases with
  | rejected | withdrawn | failed | published => exact ⟨_, rfl⟩

end Documents

end Server

end Athenz.Zts
