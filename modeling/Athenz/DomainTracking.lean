import Athenz.DomainCopies

namespace Athenz.Zts
open Lib Lib.Text Lib.Exceptional
set_option autoImplicit true

/-- What ZMS has for each domain at each moment. -/
abbrev Content := History Str DomainData

/-- The data of a domain has its name. -/
def Content.Named (history : Content) : Prop :=
  ∀ k name version, history k name = some version → version.value.name = name

section Copies

variable {Key : Type} (zms : DataStore.Zms Key) (codec : Codec) (history : Content)

/-- If a document is accepted, it is what ZMS had for a domain at a moment between two. -/
def Delivered (since last : Nat) (name : Str) (document : Document) : Prop :=
  ∀ domainData, document.incoming.accepted zms = some domainData →
    ∃ k, since ≤ k ∧ k ≤ last ∧ history k name = some ⟨domainData, document.modified⟩

/-- The published data of a domain is a version that ZMS had by some moment; where an update has
struck parts of it, ZMS had a later one by then. -/
def CopyAt (last : Nat) (name : Str) (published : PublishedCache) (stamp : Int) : Prop :=
  ∃ k version, k ≤ last ∧ history k name = some version ∧ version.stamp = stamp ∧
    published.domainData.roles.isSome = version.value.roles.isSome ∧
    (DataStore.PublishedFrom codec version.value published ∨
      ∃ k' later, k' ≤ last ∧ history k' name = some later ∧ stamp < later.stamp)

/-- The published domains are copies of what ZMS had, each up to a moment of its own, and so are the
files that can be read. -/
structure Tracks (last : Nat) (bound : Str → Nat) (server : Server) : Prop where
  published : ∀ name published, server.store.cacheStore.lookup name = some published →
    ∃ stamp, server.modified.lookup name = some stamp ∧
      CopyAt codec history (bound name) name published stamp
  files : ∀ name document, server.changeLog.files.lookup name = some (some document) →
    Delivered zms history 0 last name document

variable {zms codec history} {server : Server}

theorem Delivered.mono (h : Delivered zms history since last name document)
    (hsince : since' ≤ since) (hlast : last ≤ last') :
    Delivered zms history since' last' name document := by
  intro domainData haccepted
  obtain ⟨k, hfrom, hto, hk⟩ := h domainData haccepted
  exact ⟨k, hsince.trans hfrom, hto.trans hlast, hk⟩

theorem CopyAt.mono (h : CopyAt codec history last name published stamp) (hlast : last ≤ last') :
    CopyAt codec history last' name published stamp := by
  obtain ⟨k, version, hk, hversion, hstamp, hroles, hcopy⟩ := h
  refine ⟨k, version, hk.trans hlast, hversion, hstamp, hroles, hcopy.imp_right ?_⟩
  rintro ⟨k', later, hk', hlater⟩
  exact ⟨k', later, hk'.trans hlast, hlater⟩

theorem Tracks.mono (h : Tracks zms codec history last bound server) (hlast : last ≤ last')
    (hbound : ∀ name, bound name ≤ bound' name) :
    Tracks zms codec history last' bound' server where
  published name published hlookup := by
    obtain ⟨stamp, hstamp, hcopy⟩ := h.published name published hlookup
    exact ⟨stamp, hstamp, hcopy.mono (hbound name)⟩
  files name document hfile := (h.files name document hfile).mono (Nat.le_refl 0) hlast

/-- A save leaves files that are copies. -/
theorem Tracks.savedLog (h : Tracks zms codec history last bound server)
    (hdelivered : Delivered zms history 0 last name document) (handling : Handling)
    (saveInStore : Bool) : ∀ other file,
      (Server.savedLog handling document saveInStore name server.changeLog).files.lookup other =
        some (some file) → Delivered zms history 0 last other file := by
  intro other file hfile
  unfold Server.savedLog at hfile
  split at hfile
  · unfold ChangeLogStore.put at hfile
    split at hfile
    · dsimp only at hfile
      rw [Map.lookup_insert] at hfile
      split at hfile
      · rename_i hname
        cases hfile
        exact hname ▸ hdelivered
      · exact h.files other file hfile
    · exact h.files other file hfile
    · dsimp only at hfile
      rw [Map.lookup_insert] at hfile
      split at hfile
      · cases hfile
      · exact h.files other file hfile
  · exact h.files other file hfile

/-- The published data that an update with an unbuildable version strikes is older than it. -/
theorem CopyAt.of_struck (hadvancing : history.Advancing)
    (h : CopyAt codec history last name published stamp)
    (hroles : published'.domainData.roles.isSome = published.domainData.roles.isSome)
    (hdocument : history k name = some ⟨domainData, modified⟩) (hk : last ≤ k)
    (hbuild : DataStore.buildCache codec now domainData = .error e) :
    CopyAt codec history k name published' stamp := by
  obtain ⟨k₀, version, hk₀, hversion, hstamp, hroles₀, hcopy⟩ := h
  refine ⟨k₀, version, hk₀.trans hk, hversion, hstamp, hroles.trans hroles₀, .inr ?_⟩
  obtain ⟨time, cache, hbuilt, _⟩ | ⟨k', later, hk', hlater⟩ := hcopy
  · refine ⟨k, _, Nat.le_refl k, hdocument, ?_⟩
    rw [← hstamp]
    refine hadvancing.lt_of_ne (hk₀.trans hk) hversion hdocument fun hsame => ?_
    obtain ⟨cache', hbuilt'⟩ := DataStore.ends_buildCache now
      ⟨cache, (congrArg (DataStore.buildCache codec time) (congrArg Version.value hsame)).symm.trans
        hbuilt⟩
    rw [hbuild] at hbuilt'
    cases hbuilt'
  · exact ⟨k', later, hk'.trans hk, hlater⟩

end Copies

section Steps

variable {Key : Type} {zms : DataStore.Zms Key} {codec : Codec} {history : Content}
  {server : Server} {bound : Str → Nat}

/-- The bounds after the copy of one domain has been brought up to a moment. -/
def raised (bound : Str → Nat) (name : Str) (last : Nat) (other : Str) : Nat :=
  if other = name then last else bound other

theorem le_raised (h : bound name ≤ last) (other : Str) : bound other ≤ raised bound name last other := by
  unfold raised
  split
  · rename_i hname
    exact hname ▸ h
  · exact Nat.le_refl _

theorem Tracks.publishedAt {published : PublishedCache}
    (h : Tracks zms codec history last bound server)
    (hlookup : server.store.cacheStore.lookup other = some published) (hne : other ≠ name) :
    ∃ stamp, server.modified.lookup other = some stamp ∧
      CopyAt codec history (raised bound name last' other) other published stamp := by
  rw [raised, if_neg hne]
  exact h.published other published hlookup

variable [CaseRules]

/-- The processing of a document that is not older than the copy of its domain. -/
theorem Tracks.processDomain (h : Tracks zms codec history last bound server)
    (hadvancing : history.Advancing) (hnamed : history.Named)
    (hdelivered : Delivered zms history since last name document) (hlast : bound name ≤ last)
    (hsince : bound name ≤ since ∨ server.store.cacheStore.lookup name = none) :
    Tracks zms codec history last (raised bound name last)
      (Server.processDomain zms codec handling document saveInStore server).2 := by
  have hcases := Server.processDomain_cases zms codec handling document saveInStore server
  generalize Server.processDomain zms codec handling document saveInStore server = run at hcases ⊢
  have hsaved := h.savedLog (hdelivered.mono (Nat.zero_le since) (Nat.le_refl last)) handling
    saveInStore
  cases hcases with
  | rejected haccepted => exact h.mono (Nat.le_refl last) (le_raised hlast)
  | @withdrawn domainData haccepted hdisabled =>
    obtain ⟨k, _, _, hk⟩ := hdelivered _ haccepted
    have hname : domainData.name = name := hnamed _ _ _ hk
    refine ⟨fun other published hlookup => ?_, ?_⟩
    · rw [Server.withdraws, DataStore.lookup_deleteDomainFromCache] at hlookup
      split at hlookup
      · cases hlookup
      · rename_i hne
        rw [Server.withdraws, Map.lookup_erase, if_neg hne]
        exact h.publishedAt hlookup (hname ▸ hne)
    · rw [Server.withdraws, hname]
      exact hsaved
  | @failed domainData e haccepted henabled hbuild =>
    obtain ⟨k, hfrom, hto, hk⟩ := hdelivered _ haccepted
    have hname : domainData.name = name := hnamed _ _ _ hk
    refine ⟨fun other published hlookup => ?_, h.files⟩
    rw [DataStore.processDomainData_of_error handling.clock hbuild] at hlookup
    by_cases hother : other = name
    · rw [hother, ← hname] at hlookup
      obtain ⟨published₀, hlookup₀, hroles⟩ := DataStore.published_of_struck hlookup
      rw [hname] at hlookup₀
      obtain ⟨stamp, hstamp, hcopy⟩ := h.published name published₀ hlookup₀
      have hbound : bound name ≤ k :=
        (hsince.resolve_right fun hnone => nomatch hnone.symm.trans hlookup₀).trans hfrom
      rw [hother, raised, if_pos rfl]
      exact ⟨stamp, hstamp, (hcopy.of_struck hadvancing hroles hk hbound hbuild).mono hto⟩
    · rw [RequireRoleCertCache.lookup_processDomain_of_ne _ _ _ _ (hname ▸ hother)] at hlookup
      exact h.publishedAt hlookup hother
  | @published domainData cache haccepted henabled hbuild =>
    obtain ⟨k, _, hto, hk⟩ := hdelivered _ haccepted
    have hname : domainData.name = name := hnamed _ _ _ hk
    refine ⟨fun other published hlookup => ?_, ?_⟩
    · rw [Server.publishes, DataStore.lookup_processDomainData handling.clock hbuild] at hlookup
      rw [Server.publishes, Map.lookup_insert]
      split at hlookup
      · rename_i hother
        cases hlookup
        refine ⟨document.modified, if_pos hother, k, ⟨domainData, document.modified⟩, ?_, ?_, rfl,
          Option.isSome_map, .inl ⟨_, cache, hbuild, rfl⟩⟩
        · rw [raised, if_pos (hother.trans hname)]
          exact hto
        · rw [hother, hname]
          exact hk
      · rename_i hne
        rw [if_neg hne]
        exact h.publishedAt hlookup (hname ▸ hne)
    · rw [Server.publishes, hname]
      exact hsaved

omit [CaseRules] in
/-- A change of the log that adds no file. -/
theorem Tracks.onChangeLog {f : ChangeLogStore → ChangeLogStore}
    (h : Tracks zms codec history last bound server)
    (hfiles : ∀ name document, (f server.changeLog).files.lookup name = some (some document) →
      server.changeLog.files.lookup name = some (some document)) :
    Tracks zms codec history last bound (server.onChangeLog f) :=
  ⟨h.published, fun name document hfile => h.files name document (hfiles name document hfile)⟩

omit [CaseRules] in
theorem Tracks.removeLocalDomain (name : Str) (finish : FileEnd) :
    Prog.Keeps (Tracks zms codec history last bound) (Server.removeLocalDomain name finish) := by
  refine Prog.Keeps.bind (.read _) fun files => .ite (fun _ => .pure ()) fun _ =>
    .ite (fun _ => .write _ fun server h => ?_) fun _ => .raise _
  refine h.onChangeLog fun other document hfile => ?_
  rw [Map.lookup_erase] at hfile
  split at hfile
  · cases hfile
  · exact hfile

omit [CaseRules] in
theorem Tracks.setLastModificationTimestamp (time : Option Str) (finish : FileEnd) :
    Prog.Keeps (Tracks zms codec history last bound)
      (Server.setLastModificationTimestamp time finish) := by
  refine Prog.Keeps.bind (.write _ fun server h => h.onChangeLog fun _ _ hfile => hfile) fun _ => ?_
  cases time with
  | none =>
    exact .bind (.read _) fun file => .ite (fun _ => .pure ()) fun _ =>
      .ite (fun _ => .write _ fun server h => h.onChangeLog fun _ _ hfile => hfile) fun _ => .raise _
  | some time =>
    cases finish with
    | done =>
      exact .bind (.write _ fun server h => h.onChangeLog fun _ _ hfile => hfile) fun _ => .pure ()
    | refused => exact .bind (.pure ()) fun _ => .raise _
    | damaged =>
      exact .bind (.write _ fun server h => h.onChangeLog fun _ _ hfile => hfile) fun _ => .raise _

theorem deleteDomain_run (finish : FileEnd) (name : Str) (server : Server) :
    (∃ failure, (server.store.deleteDomain name).2 = .error failure ∧
      Server.deleteDomain finish name server = (.error (.failure failure),
        { server with store := (server.store.deleteDomain name).1 })) ∨
    (server.store.deleteDomain name).2 = .ok () ∧
      Server.deleteDomain finish name server = Server.removeLocalDomain name finish { server with
        store := (server.store.deleteDomain name).1
        modified := server.modified.erase name } := by
  cases hresult : (server.store.deleteDomain name).2 with
  | error failure =>
    refine .inl ⟨failure, rfl, ?_⟩
    simp only [Server.deleteDomain, Prog.read_bind, hresult]
    rfl
  | ok =>
    refine .inr ⟨rfl, ?_⟩
    simp only [Server.deleteDomain, Prog.read_bind, hresult]
    rfl

theorem Tracks.deleteDomain (finish : FileEnd) (name : Str) :
    Prog.Keeps (Tracks zms codec history last bound) (Server.deleteDomain finish name) := by
  refine Prog.Leads.of_run fun server h => ?_
  obtain ⟨failure, hresult, hrun⟩ | ⟨hresult, hrun⟩ := deleteDomain_run finish name server
  · rw [hrun]
    refine ⟨fun other published hlookup => ?_, h.files⟩
    rw [DataStore.lookup_deleteDomain_of_error hresult] at hlookup
    exact h.published other published hlookup
  · rw [hrun]
    refine (Tracks.removeLocalDomain name finish).run ⟨fun other published hlookup => ?_, h.files⟩
    rw [DataStore.lookup_deleteDomain hresult] at hlookup
    split at hlookup
    · cases hlookup
    · rename_i hne
      rw [Map.lookup_erase, if_neg hne]
      exact h.published other published hlookup

end Steps

section Loops

variable {Key : Type} {zms : DataStore.Zms Key} {codec : Codec} {history : Content}

/-- The bounds while the copies of some domains are still to be brought up. -/
def pending (names : List Str) (since last : Nat) (name : Str) : Nat :=
  if name ∈ names then since else last

theorem pending_le (h : since ≤ last) (name : Str) : pending names since last name ≤ last := by
  unfold pending
  split
  · exact h
  · exact Nat.le_refl last

theorem le_pending (h : since ≤ last) (name : Str) : since ≤ pending names since last name := by
  unfold pending
  split
  · exact Nat.le_refl since
  · exact h

theorem pending_cons_self : pending (name :: names) since last name = since :=
  if_pos List.mem_cons_self

/-- The bounds with one name less pending. -/
theorem raised_pending (h : name ∉ names) (other : Str) :
    raised (pending (name :: names) since last) name last other ≤ pending names since last other := by
  unfold raised pending
  by_cases hother : other = name
  · rw [if_pos hother, if_neg (hother ▸ h)]
  · rw [if_neg hother]
    simp only [List.mem_cons, hother, false_or, Nat.le_refl]

theorem pending_cons_le (h : since ≤ last) (other : Str) :
    pending (name :: names) since last other ≤ pending names since last other := by
  by_cases hother : other ∈ names
  · rw [pending, pending, if_pos hother, if_pos (List.mem_cons_of_mem name hother)]
  · rw [pending.eq_1 names, if_neg hother]
    exact pending_le h other

/-- The domain that a document is about, if it is accepted. -/
def documentName (zms : DataStore.Zms Key) (document : Document) : Option Str :=
  (document.incoming.accepted zms).map (·.name)

/-- Documents of domains of their own, each delivered between two moments. -/
structure Delivery (zms : DataStore.Zms Key) (history : Content) (since last : Nat)
    (documents : List Document) : Prop where
  nodup : (documents.filterMap (documentName zms)).Nodup
  delivered : ∀ document ∈ documents, ∃ name, Delivered zms history since last name document

theorem Delivery.tail (h : Delivery zms history since last (document :: documents)) :
    Delivery zms history since last documents where
  nodup := h.nodup.sublist ((List.sublist_cons_self _ _).filterMap _)
  delivered other hother := h.delivered other (List.mem_cons_of_mem document hother)

variable [CaseRules]

/-- One document of a list. -/
theorem Tracks.processNext {server : Server} (hadvancing : history.Advancing)
    (hnamed : history.Named) (hsince : since ≤ last)
    (hdelivery : Delivery zms history since last (document :: documents))
    (h : Tracks zms codec history last
      (pending ((document :: documents).filterMap (documentName zms)) since last) server) :
    Tracks zms codec history last (pending (documents.filterMap (documentName zms)) since last)
      (Server.processDomain zms codec handling document true server).2 := by
  have hnodup := hdelivery.nodup
  obtain ⟨source, hdelivered⟩ := hdelivery.delivered document List.mem_cons_self
  cases haccepted : document.incoming.accepted zms with
  | none =>
    have hname : documentName zms document = none := by rw [documentName, haccepted, Option.map_none]
    rw [List.filterMap_cons_none hname] at h
    have hcases := Server.processDomain_cases zms codec handling document true server
    generalize Server.processDomain zms codec handling document true server = run at hcases ⊢
    cases hcases with
    | rejected => exact h
    | withdrawn hsome | failed hsome | published hsome =>
      rw [haccepted] at hsome
      cases hsome
  | some domainData =>
    have hname : documentName zms document = some domainData.name := by
      rw [documentName, haccepted, Option.map_some]
    rw [List.filterMap_cons_some hname] at h hnodup
    have hsource : source = domainData.name := by
      obtain ⟨k, _, _, hk⟩ := hdelivered _ haccepted
      exact (hnamed _ _ _ hk).symm
    rw [hsource] at hdelivered
    exact (h.processDomain hadvancing hnamed hdelivered (pending_le hsince _)
      (.inl (Nat.le_of_eq pending_cons_self))).mono (Nat.le_refl last)
      (raised_pending (List.nodup_cons.1 hnodup).1)

theorem Tracks.processDomains (hadvancing : history.Advancing) (hnamed : history.Named)
    (hsince : since ≤ last) (hdelivery : Delivery zms history since last (documents.getD [])) :
    Prog.Leads (Tracks zms codec history last fun _ => since)
      (Server.processDomains zms codec handlings documents)
      (fun _ => Tracks zms codec history last fun _ => last)
      (fun _ => Tracks zms codec history last fun _ => last) := by
  refine .ite (fun _ => .pure _ fun server h => h.mono (Nat.le_refl last) fun _ => hsince) fun _ => ?_
  let rests (items : List (Document × Nat)) (server : Server) : Prop :=
    Delivery zms history since last (items.map Prod.fst) ∧ Tracks zms codec history last
      (pending ((items.map Prod.fst).filterMap (documentName zms)) since last) server
  have hend : ∀ items server, rests items server →
      Tracks zms codec history last (fun _ => last) server :=
    fun items server h => h.2.mono (Nat.le_refl last) (pending_le hsince)
  have hstep : ∀ item rest result, Prog.Leads (rests (item :: rest))
      (Server.processNext zms codec handlings result item) (fun _ => rests rest)
      (fun _ => Tracks zms codec history last fun _ => last) := by
    intro item rest result
    refine .bind (M := fun _ => rests rest) ?_ fun processed => .pure _ fun _ h => h
    exact (Prog.Leads.of_run fun server h => ⟨h.1.tail, h.2.processNext hadvancing hnamed hsince h.1⟩).mono
      (fun _ h => h) (fun _ _ h => h) fun _ server h => hend rest server h
  refine (Prog.Leads.foldlM (I := fun items _ => rests items) hstep _ false).mono
    (fun server h => ?_) (fun _ server h => hend [] server h) fun _ _ h => h
  change Delivery _ _ _ _ _ ∧ Tracks _ _ _ _ _ _
  rw [List.zipIdx_map_fst]
  exact ⟨hdelivery, h.mono (Nat.le_refl last) (le_pending hsince)⟩

end Loops

section Calls

variable {Key : Type}

/-- What ZMS answers to a poll: it lists no domain twice, and delivers at most one document for a
request, of something it has between two moments. -/
structure Poll.Honest (zms : DataStore.Zms Key) (history : Content) (since last : Nat)
    (poll : Poll) : Prop where
  listed : ∀ listing domains, poll.listing = some listing → listing.domains = some domains →
    (domains.map (·.name)).Nodup
  single : ∀ name count documents, poll.answers name count = .documents documents →
    documents.length ≤ 1
  delivered : ∀ name count documents, poll.answers name count = .documents documents →
    ∀ document ∈ documents, Delivered zms history since last name document

structure Check.Honest (zms : DataStore.Zms Key) (history : Content) (since last : Nat)
    (check : Check) : Prop where
  listed : ∀ domains, check.listing = some domains → (domains.map (·.name)).Nodup
  delivered : ∀ name document, check.fetch name = some document →
    Delivered zms history since last name document

variable {zms : DataStore.Zms Key} {codec : Codec} {history : Content}

/-- The documents for one domain are those of one answer. -/
theorem fetchDomain_cases (answers : Nat → Fetched) (left count : Nat) :
    fetchDomain answers count left = [] ∨
      ∃ attempt, answers attempt = .documents (fetchDomain answers count left) := by
  induction left generalizing count with
  | zero => exact .inl rfl
  | succ left ih =>
    cases hanswer : answers count with
    | documents documents => exact .inr ⟨count, by simp only [fetchDomain, hanswer]⟩
    | tooManyRequests =>
      simp only [fetchDomain, hanswer]
      exact ih (count + 1)
    | failed => exact .inl (by simp only [fetchDomain, hanswer])

theorem Poll.Honest.fetched {poll : Poll} (h : poll.Honest zms history since last) (name : Str) :
    (fetchDomain (poll.answers name) 1 (maxRateLimitRetryCount - 1)).length ≤ 1 ∧
      ∀ document ∈ fetchDomain (poll.answers name) 1 (maxRateLimitRetryCount - 1),
        Delivered zms history since last name document := by
  obtain hnone | ⟨attempt, hanswer⟩ := fetchDomain_cases (poll.answers name)
    (maxRateLimitRetryCount - 1) 1
  · rw [hnone]
    exact ⟨Nat.zero_le 1, fun _ hmem => absurd hmem List.not_mem_nil⟩
  · exact ⟨h.single _ _ _ hanswer, h.delivered _ _ _ hanswer⟩

/-- The documents of a poll are about the listed domains, in their order. -/
theorem Poll.Honest.names {poll : Poll} (h : poll.Honest zms history since last)
    (hnamed : history.Named) (domains : List DomainMeta) :
    ((getDomainList poll.answers domains).filterMap (documentName zms)).Sublist
      (domains.map (·.name)) := by
  induction domains with
  | nil => exact List.Sublist.refl _
  | cons domain domains ih =>
    obtain ⟨hsingle, hdelivered⟩ := h.fetched domain.name
    rw [getDomainList, List.flatMap_cons, List.filterMap_append, List.map_cons]
    change List.Sublist _ ([domain.name] ++ domains.map (·.name))
    refine List.Sublist.append ?_ ih
    generalize fetchDomain (poll.answers domain.name) 1 (maxRateLimitRetryCount - 1) = documents
      at hsingle hdelivered ⊢
    match documents with
    | [] => exact List.nil_sublist _
    | [document] =>
      cases haccepted : document.incoming.accepted zms with
      | none =>
        rw [List.filterMap_cons_none (by rw [documentName, haccepted, Option.map_none])]
        exact List.nil_sublist _
      | some domainData =>
        obtain ⟨k, _, _, hk⟩ := hdelivered document List.mem_cons_self _ haccepted
        rw [List.filterMap_cons_some (by rw [documentName, haccepted, Option.map_some]),
          List.filterMap_nil, show domainData.name = domain.name from hnamed _ _ _ hk]
    | _ :: _ :: _ =>
      simp only [List.length_cons] at hsingle
      omega

theorem Poll.Honest.delivery {poll : Poll} (h : poll.Honest zms history since last)
    (hnamed : history.Named) : Delivery zms history since last
      ((getUpdatedDomains poll.listing poll.answers).1.getD []) := by
  have hempty : Delivery zms history since last [] :=
    ⟨List.nodup_nil, fun _ hmem => absurd hmem List.not_mem_nil⟩
  unfold getUpdatedDomains
  dsimp only
  cases hlisting : poll.listing with
  | none => exact hempty
  | some listing =>
    cases htag : listing.tag with
    | none =>
      rw [show (getModifiedDomainList (some listing)).1 = none by
        simp only [getModifiedDomainList, htag]]
      exact hempty
    | some tag =>
      rw [show (getModifiedDomainList (some listing)).1 = listing.domains by
        simp only [getModifiedDomainList, htag]]
      cases hdomains : listing.domains with
      | none => exact hempty
      | some domains =>
        refine ⟨(h.listed listing domains hlisting hdomains).sublist (h.names hnamed domains), ?_⟩
        intro document hmem
        obtain ⟨domain, _, hdocument⟩ := List.mem_flatMap.1 hmem
        exact ⟨domain.name, (h.fetched domain.name).2 document hdocument⟩

variable [CaseRules]

theorem Tracks.processDomainUpdates {poll : Poll} (hadvancing : history.Advancing)
    (hnamed : history.Named) (hsince : since ≤ last) (h : poll.Honest zms history since last) :
    Prog.Leads (Tracks zms codec history last fun _ => since)
      (Server.processDomainUpdates zms codec poll)
      (fun _ => Tracks zms codec history last fun _ => last)
      (fun _ => Tracks zms codec history last fun _ => last) := by
  refine .ite (fun _ => .pure _ fun server h => h.mono (Nat.le_refl last) fun _ => hsince) fun _ => ?_
  refine (Tracks.processDomains hadvancing hnamed hsince (h.delivery hnamed)).bind fun result => ?_
  refine Prog.Leads.ite (fun _ => ?_) fun _ => .pure _ fun _ h => h
  exact Prog.Leads.bind (Tracks.setLastModificationTimestamp _ _) fun _ => .pure _ fun _ h => h

theorem Tracks.checkDomain {check : Check} (hadvancing : history.Advancing) (hnamed : history.Named)
    (hsince : since ≤ last) (h : check.Honest zms history since last) (item : DomainMeta × Nat)
    (hrest : item.1.name ∉ names) :
    Prog.Leads (Tracks zms codec history last (pending (item.1.name :: names) since last))
      (Server.checkDomain zms codec check item)
      (fun _ => Tracks zms codec history last (pending names since last))
      (fun _ => Tracks zms codec history last (pending names since last)) := by
  have hkept : ∀ server, Tracks zms codec history last
      (pending (item.1.name :: names) since last) server →
        Tracks zms codec history last (pending names since last) server :=
    fun server h => h.mono (Nat.le_refl last) (pending_cons_le hsince)
  refine Prog.Leads.bind
    (M := fun _ => Tracks zms codec history last (pending (item.1.name :: names) since last))
    (.read _ fun _ h => h) fun localModified => ?_
  refine .ite (fun _ => ?_) fun _ => .pure _ hkept
  cases hfetch : check.fetch item.1.name with
  | none => exact .pure _ hkept
  | some document =>
    refine .bind (M := fun _ => Tracks zms codec history last (pending names since last)) ?_
      fun _ => .pure _ fun _ h => h
    refine .of_run fun server htracks => ?_
    exact (htracks.processDomain hadvancing hnamed (h.delivered _ _ hfetch) (pending_le hsince _)
      (.inl (Nat.le_of_eq pending_cons_self))).mono (Nat.le_refl last) (raised_pending hrest)

theorem Tracks.processDomainChecks {check : Check} (hadvancing : history.Advancing)
    (hnamed : history.Named) (hsince : since ≤ last) (h : check.Honest zms history since last) :
    Prog.Leads (Tracks zms codec history last fun _ => since)
      (Server.processDomainChecks zms codec check)
      (fun _ => Tracks zms codec history last fun _ => last)
      (fun _ => Tracks zms codec history last fun _ => last) := by
  let names (items : List (DomainMeta × Nat)) : List Str := items.map (·.1.name)
  have hnodup : (names (check.listing.getD []).zipIdx).Nodup := by
    have hnames : names (check.listing.getD []).zipIdx =
        (check.listing.getD []).map (·.name) := by
      rw [← List.zipIdx_map_fst 0 (check.listing.getD []), List.map_map, List.zipIdx_map_fst]
      rfl
    rw [hnames]
    cases hlisting : check.listing with
    | none => exact List.nodup_nil
    | some domains => exact h.listed domains hlisting
  have hloop := Prog.Leads.forM (f := Server.checkDomain zms codec check)
    (E := fun _ => Tracks zms codec history last fun _ => last)
    (I := fun items server => (names items).Nodup ∧
      Tracks zms codec history last (pending (names items) since last) server)
    (fun item rest => .start fun server hstart => ?_) (check.listing.getD []).zipIdx
  · exact hloop.mono (fun server h => ⟨hnodup, h.mono (Nat.le_refl last) (le_pending hsince)⟩)
      (fun _ server h => h.2.mono (Nat.le_refl last) (pending_le hsince)) fun _ _ h => h
  · have hnot := List.nodup_cons.1 hstart.1
    exact (Tracks.checkDomain hadvancing hnamed hsince h item hnot.1).mono
      (fun _ hsame => hsame ▸ hstart.2) (fun _ _ h => ⟨hnot.2, h⟩)
      fun _ server h => h.mono (Nat.le_refl last) (pending_le hsince)

theorem Tracks.processDomainDeletes (deletion : Deletion) :
    Prog.Keeps (Tracks zms codec history last bound) (Server.processDomainDeletes deletion) := by
  refine .bind (.read _) fun localDomainList => .ite (fun _ => .pure _) fun _ => ?_
  cases deletion.domainList with
  | none => exact .pure _
  | some zmsDomainList =>
    refine .ite (fun _ => ?_) fun _ => .pure _
    exact .bind (.forM (fun name => Tracks.deleteDomain _ name) _) fun _ => .pure _

end Calls

section Restarts

variable {Key : Type} {zms : DataStore.Zms Key} {codec : Codec} {history : Content} [CaseRules]

/-- The processing of a document leaves the other domains alone. -/
theorem Server.processDomain_others {server : Server}
    (hname : ∀ domainData, document.incoming.accepted zms = some domainData → domainData.name = name)
    (hne : other ≠ name) :
    (processDomain zms codec handling document saveInStore server).2.store.cacheStore.lookup other =
        server.store.cacheStore.lookup other ∧
      (processDomain zms codec handling document saveInStore server).2.modified.lookup other =
        server.modified.lookup other := by
  have hcases := processDomain_cases zms codec handling document saveInStore server
  generalize processDomain zms codec handling document saveInStore server = run at hcases ⊢
  cases hcases with
  | rejected => exact ⟨rfl, rfl⟩
  | withdrawn haccepted =>
    have hother := (hname _ haccepted).symm ▸ hne
    exact ⟨DataStore.lookup_deleteDomainFromCache.trans (if_neg hother),
      (Map.lookup_erase _ _ _).trans (if_neg hother)⟩
  | failed haccepted henabled hbuild =>
    have hother := (hname _ haccepted).symm ▸ hne
    rw [DataStore.processDomainData_of_error handling.clock hbuild]
    exact ⟨RequireRoleCertCache.lookup_processDomain_of_ne _ _ _ _ hother, rfl⟩
  | published haccepted henabled hbuild =>
    have hother := (hname _ haccepted).symm ▸ hne
    exact ⟨(DataStore.lookup_processDomainData handling.clock hbuild other).trans (if_neg hother),
      (Map.lookup_insert _ _ _ _).trans (if_neg hother)⟩

/-- A server that has not published some domains yet. -/
def Unloaded (zms : DataStore.Zms Key) (codec : Codec) (history : Content) (last : Nat)
    (names : List Str) (server : Server) : Prop :=
  (∀ name ∈ names, server.store.cacheStore.lookup name = none) ∧
    Tracks zms codec history last (fun _ => last) server

theorem Unloaded.deleteDomain (finish : FileEnd) (name : Str) :
    Prog.Keeps (Unloaded zms codec history last names) (Server.deleteDomain finish name) := by
  refine .of_run fun server h => ⟨fun other hother => ?_,
    (Tracks.deleteDomain finish name).run h.2⟩
  obtain ⟨failure, hresult, hrun⟩ | ⟨hresult, hrun⟩ := deleteDomain_run finish name server
  · rw [hrun]
    dsimp only
    rw [DataStore.lookup_deleteDomain_of_error hresult]
    exact h.1 other hother
  · have hkept : Prog.Keeps (fun s : Server => s.store.cacheStore.lookup other = none)
        (Server.removeLocalDomain name finish) :=
      .bind (.read _) fun files => .ite (fun _ => .pure ()) fun _ =>
        .ite (fun _ => .write _ fun _ h => h) fun _ => .raise _
    rw [hrun]
    refine hkept.run ?_
    rw [DataStore.lookup_deleteDomain hresult, h.1 other hother, ite_self]

theorem Unloaded.processLocalDomain (hadvancing : history.Advancing) (hnamed : history.Named)
    (hrest : name ∉ names) (handling : Handling) :
    Prog.Leads (Unloaded zms codec history last (name :: names))
      (Server.processLocalDomain zms codec handling name)
      (fun _ => Unloaded zms codec history last names)
      (fun _ => Unloaded zms codec history last names) := by
  refine .of_run fun server h => ?_
  have htail : Unloaded zms codec history last names server :=
    ⟨fun other hother => h.1 other (List.mem_cons_of_mem name hother), h.2⟩
  cases hfile : (server.changeLog.files.lookup name).join with
  | none =>
    have hrun : Server.processLocalDomain zms codec handling name server = (.ok false, server) := by
      simp only [Server.processLocalDomain, Prog.read_bind, hfile]
      rfl
    rw [hrun]
    exact htail
  | some document =>
    have hrun : Server.processLocalDomain zms codec handling name server =
        Server.processDomain zms codec handling document false server := by
      simp only [Server.processLocalDomain, Prog.read_bind, hfile]
    have hdelivered := h.2.files name document (Option.join_eq_some_iff.1 hfile)
    rw [hrun]
    refine ⟨fun other hother => ?_, ?_⟩
    · rw [(Server.processDomain_others (fun domainData haccepted => ?_)
        fun hsame : other = name => hrest (hsame ▸ hother)).1]
      · exact htail.1 other hother
      · obtain ⟨k, _, _, hk⟩ := hdelivered domainData haccepted
        exact hnamed _ _ _ hk
    · refine (h.2.processDomain hadvancing hnamed hdelivered (Nat.le_refl last)
        (.inr (h.1 name List.mem_cons_self))).mono (Nat.le_refl last) fun other => ?_
      unfold raised
      split
      · exact Nat.le_refl last
      · exact Nat.le_refl last

theorem Unloaded.processLocals (hadvancing : history.Advancing) (hnamed : history.Named)
    (start : Start) (names : List Str) (hnodup : names.Nodup) (badDomains : Nat) :
    Prog.Leads (Unloaded zms codec history last names)
      (Server.processLocals zms codec start badDomains names)
      (fun _ => Tracks zms codec history last fun _ => last)
      (fun _ => Tracks zms codec history last fun _ => last) := by
  induction names generalizing badDomains with
  | nil => exact .pure _ fun server h => h.2
  | cons name names ih =>
    obtain ⟨hnot, hrest⟩ := List.nodup_cons.1 hnodup
    refine .ite (fun _ => ?_) fun _ => ?_
    · refine Prog.Leads.bind (M := fun _ => Unloaded zms codec history last names)
        ((Unloaded.deleteDomain _ name).mono (fun server h => ?_) (fun _ _ h => h) fun _ _ h => h.2)
        fun _ => ih hrest badDomains
      exact ⟨fun other hother => h.1 other (List.mem_cons_of_mem name hother), h.2⟩
    · refine Prog.Leads.bind (M := fun _ => Unloaded zms codec history last names)
        ((Unloaded.processLocalDomain hadvancing hnamed hnot _).mono (fun _ h => h)
          (fun _ _ h => h) fun _ _ h => h.2) fun processed => ?_
      refine .ite (fun _ => ih hrest badDomains) fun _ => ?_
      exact .ite (fun _ => .pure _ fun server h => h.2) fun _ => ih hrest (badDomains + 1)

theorem Unloaded.processLocalDomains (hadvancing : history.Advancing) (hnamed : history.Named)
    (start : Start) (names : List Str) (hnodup : names.Nodup) :
    Prog.Leads (Unloaded zms codec history last names)
      (Server.processLocalDomains zms codec start names)
      (fun _ => Tracks zms codec history last fun _ => last)
      (fun _ => Tracks zms codec history last fun _ => last) := by
  refine .ite (fun _ => .pure _ fun server h => h.2) fun _ => ?_
  refine (Unloaded.processLocals hadvancing hnamed start names hnodup 0).bind fun badDomains => ?_
  cases badDomains with
  | none => exact .pure _ fun _ h => h
  | some badDomains => exact .ite (fun _ => .pure _ fun _ h => h) fun _ => .pure _ fun _ h => h

/-- A server that has published nothing yet. -/
def Empty (zms : DataStore.Zms Key) (codec : Codec) (history : Content) (last : Nat)
    (server : Server) : Prop :=
  server.store.cacheStore = ∅ ∧ Tracks zms codec history last (fun _ => last) server

theorem Empty.init (hadvancing : history.Advancing) (hnamed : history.Named) (hpoll : since ≤ middle)
    (hcheck : middle ≤ last) {start : Start} (hpolled : start.poll.Honest zms history since middle)
    (hchecked : start.check.Honest zms history middle last) :
    Prog.Leads (Empty zms codec history since) (Server.init zms codec start)
      (fun _ => Tracks zms codec history last fun _ => last)
      (fun _ => Tracks zms codec history last fun _ => last) := by
  have hlater : ∀ server, Tracks zms codec history middle (fun _ => middle) server →
      Tracks zms codec history last (fun _ => last) server :=
    fun server h => h.mono hcheck fun _ => hcheck
  have hearly : ∀ server, Tracks zms codec history since (fun _ => since) server →
      Tracks zms codec history last (fun _ => last) server :=
    fun server h => h.mono (hpoll.trans hcheck) fun _ => hpoll.trans hcheck
  refine .bind (M := fun names server => names.Nodup ∧ Unloaded zms codec history since names server)
    (.read _ fun server h => ?_) fun names => .start fun server hstart => ?_
  · refine ⟨server.changeLog.files.keys_nodup.filter _, fun name _ => ?_, h.2⟩
    rw [h.1]
    rfl
  · refine .bind (M := fun _ => Tracks zms codec history since fun _ => since)
      ((Unloaded.processLocalDomains hadvancing hnamed start names hstart.1).mono
        (fun _ hsame => hsame ▸ hstart.2) (fun _ _ h => h) fun _ server h => hearly server h)
      fun badDomains => ?_
    have hupdates := (Tracks.processDomainUpdates hadvancing hnamed hpoll hpolled).mono
        (fun server (h : Tracks zms codec history since (fun _ => since) server) =>
          h.mono hpoll fun _ => Nat.le_refl since)
        (fun _ _ h => h) fun _ server h => hlater server h
    have hchecks := (Tracks.processDomainChecks hadvancing hnamed hcheck hchecked).mono
        (fun server (h : Tracks zms codec history middle (fun _ => middle) server) =>
          h.mono hcheck fun _ => Nat.le_refl middle) (fun _ _ h => h) fun _ _ h => h
    have hrest : ∀ _ : PUnit, Prog.Leads (Tracks zms codec history since fun _ => since)
        (Server.processDomainUpdates zms codec start.poll >>= fun updated =>
          if updated = true then
            if badDomains > 0 then Server.processDomainChecks zms codec start.check else pure ()
          else Prog.raise (.failure (.resource 500 "Unable to initialize storage subsystem")))
        (fun _ => Tracks zms codec history last fun _ => last)
        (fun _ => Tracks zms codec history last fun _ => last) :=
      fun _ => hupdates.bind fun updated =>
        .ite (fun _ => .ite (fun _ => hchecks) fun _ => .pure _ hlater) fun _ => .raise _ hlater
    refine .ite (fun _ => ?_) fun _ => hrest ⟨⟩
    refine .bind (M := fun _ => Tracks zms codec history since fun _ => since)
      ((Tracks.setLastModificationTimestamp none _).mono (fun _ h => h) (fun _ _ h => h)
        fun _ => hearly) fun _ => ?_
    exact .bind (M := fun _ => Tracks zms codec history since fun _ => since)
      ((Prog.Keeps.forM (fun name => Tracks.deleteDomain (start.resets name) name) names).mono
        (fun _ h => h) (fun _ _ h => h) fun _ => hearly) hrest

theorem Tracks.restart (hadvancing : history.Advancing) (hnamed : history.Named)
    (hpoll : since ≤ middle) (hcheck : middle ≤ last) {start : Start}
    (hpolled : start.poll.Honest zms history since middle)
    (hchecked : start.check.Honest zms history middle last) :
    Prog.Leads (Tracks zms codec history since fun _ => since) (Server.restart zms codec start)
      (fun _ => Tracks zms codec history last fun _ => last)
      (fun _ => Tracks zms codec history last fun _ => last) := by
  have hopen : Prog.Keeps (Empty zms codec history since) (Server.openChangeLog start) := by
    have hremove : ∀ finish name, Prog.Keeps (Empty zms codec history since)
        (Server.removeLocalDomain name finish) := by
      intro finish name
      have hcaches : Prog.Keeps (fun s : Server => s.store.cacheStore = ∅)
          (Server.removeLocalDomain name finish) :=
        .bind (.read _) fun files => .ite (fun _ => .pure ()) fun _ =>
          .ite (fun _ => .write _ fun _ h => h) fun _ => .raise _
      exact .of_run fun server h =>
        ⟨hcaches.run h.1, (Tracks.removeLocalDomain name finish).run h.2⟩
    refine Prog.Keeps.bind (.read _) fun lastModTime => .bind (.write _ fun server h => ?_)
      fun _ => .ite (fun _ => ?_) fun _ => .pure _
    · exact ⟨h.1, h.2.onChangeLog fun _ _ hfile => hfile⟩
    · exact .bind (.read _) fun localDomains =>
        .forM (fun name => hremove (start.cleanups name) name) localDomains
  refine .bind (M := fun _ => Empty zms codec history since) (.write _ fun server h => ?_)
    fun _ => .bind (M := fun _ => Empty zms codec history since)
      (hopen.mono (fun _ h => h) (fun _ _ h => h) fun _ server h =>
        h.2.mono (hpoll.trans hcheck) fun _ => hpoll.trans hcheck)
      fun _ => Empty.init hadvancing hnamed hpoll hcheck hpolled hchecked
  exact ⟨rfl, ⟨fun _ _ hlookup => (nomatch hlookup), h.files⟩⟩

end Restarts

section Runs

variable {Key : Type} [CaseRules]

/-- The servers that are reached by some moment of the history of ZMS. Each call may meet failures of
all kinds; files may get lost or become unreadable at any time. -/
inductive Run (zms : DataStore.Zms Key) (codec : Codec) (history : Content) :
    Nat → Server → Prop where
  | new (last : Nat) : Run zms codec history last {}
  | later (run : Run zms codec history last server) (h : last ≤ last') :
    Run zms codec history last' server
  | updates (run : Run zms codec history since server) (h : since ≤ last) (poll : Poll)
    (honest : poll.Honest zms history since last) :
    Run zms codec history last (Server.processDomainUpdates zms codec poll server).2
  | checks (run : Run zms codec history since server) (h : since ≤ last) (check : Check)
    (honest : check.Honest zms history since last) :
    Run zms codec history last (Server.processDomainChecks zms codec check server).2
  | deletes (run : Run zms codec history last server) (deletion : Deletion) :
    Run zms codec history last (Server.processDomainDeletes deletion server).2
  | restart (run : Run zms codec history since server) (hpoll : since ≤ middle)
    (hcheck : middle ≤ last) (start : Start) (hpolled : start.poll.Honest zms history since middle)
    (hchecked : start.check.Honest zms history middle last) :
    Run zms codec history last (Server.restart zms codec start server).2
  | damage (run : Run zms codec history last server) (files : Map Str (Option Document))
    (h : ∀ name document, files.lookup name = some (some document) →
      server.changeLog.files.lookup name = some (some document)) :
    Run zms codec history last (server.onChangeLog fun log => { log with files := files })

variable {zms : DataStore.Zms Key} {codec : Codec} {history : Content} {server : Server}

/-- Whatever failed on the way, the published domains and the files are copies of what ZMS had. -/
theorem Run.tracks (run : Run zms codec history last server) (hadvancing : history.Advancing)
    (hnamed : history.Named) : Tracks zms codec history last (fun _ => last) server := by
  induction run with
  | new last => exact ⟨fun _ _ hlookup => (nomatch hlookup), fun _ _ hfile => (nomatch hfile)⟩
  | later run h ih => exact ih.mono h fun _ => h
  | updates run h poll honest ih =>
    exact (Tracks.processDomainUpdates hadvancing hnamed h honest).state
      (ih.mono h fun _ => Nat.le_refl _)
  | checks run h check honest ih =>
    exact (Tracks.processDomainChecks hadvancing hnamed h honest).state
      (ih.mono h fun _ => Nat.le_refl _)
  | deletes run deletion ih => exact (Tracks.processDomainDeletes deletion).run ih
  | restart run hpoll hcheck start hpolled hchecked ih =>
    exact (Tracks.restart hadvancing hnamed hpoll hcheck hpolled hchecked).state ih
  | damage run files h ih => exact ih.onChangeLog h

end Runs

end Athenz.Zts
