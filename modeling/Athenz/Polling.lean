import Athenz.FullSync
import Athenz.Lib.Decimal

namespace Athenz.Zts
open Lib Lib.Text Lib.Exceptional
set_option autoImplicit true

section Listings

/-- The time stamps of the RDL library and their texts. -/
structure Timestamps where
  toText : Int → Str
  fromString : Str → Option Int

/-- The text of a time is read as that time. -/
structure Timestamps.Lawful (timestamps : Timestamps) : Prop where
  reads : ∀ millis, 0 ≤ millis → timestamps.fromString (timestamps.toText millis) = some millis
  nonempty : ∀ millis, timestamps.toText millis ≠ []

def removeQuotes (value : Str) : Str :=
  let value := if value.head? = some '"' then value.tail else value
  if value.getLast? = some '"' then value.dropLast else value

/-- The header text of an entity tag. -/
def entityTag (value : Str) : Str := '"' :: (value ++ ['"'])

variable (timestamps : Timestamps)

def getModTimestamp (matchingTag : Option Str) : Int :=
  match matchingTag with
  | none => 0
  | some tag => if removeQuotes tag = [] then 0 else (timestamps.fromString (removeQuotes tag)).getD 0

def listModifiedDomains (domains : List DomainMeta) (modifiedSince : Int) : List DomainMeta :=
  if modifiedSince ≠ 0 then domains.filter (modifiedSince < ·.modified) else domains

/-- The last modified time in a list of domains. -/
def youngestModified (domains : List DomainMeta) : Int :=
  domains.foldl (fun youngest domain => max youngest domain.modified) (-1)

/-- The answer of `getSignedDomains` to a request for the names and times of all domains. -/
def getSignedDomains (domains : List DomainMeta) (matchingTag : Option Str) : Listing :=
  let modified := listModifiedDomains domains (getModTimestamp timestamps matchingTag)
  if modified = [] then ⟨none, some (matchingTag.getD (entityTag (timestamps.toText 0)))⟩
  else ⟨some modified, some (entityTag (timestamps.toText (youngestModified modified)))⟩

variable {timestamps}

theorem removeQuotes_entityTag (value : Str) : removeQuotes (entityTag value) = value := by
  unfold removeQuotes entityTag
  rw [List.head?_cons, if_pos rfl, List.tail_cons]
  dsimp only
  rw [List.getLast?_concat, if_pos rfl, List.dropLast_concat]

theorem Timestamps.Lawful.getModTimestamp (h : timestamps.Lawful) (hmillis : 0 ≤ millis) :
    getModTimestamp timestamps (some (entityTag (timestamps.toText millis))) = millis := by
  simp only [Zts.getModTimestamp, removeQuotes_entityTag, if_neg (h.nonempty millis),
    h.reads millis hmillis, Option.getD_some]

theorem le_youngestModified (h : domain ∈ domains) : domain.modified ≤ youngestModified domains := by
  have hloop : ∀ (domains : List DomainMeta) (youngest : Int),
      youngest ≤ domains.foldl (fun youngest domain => max youngest domain.modified) youngest ∧
        ∀ domain ∈ domains, domain.modified ≤
          domains.foldl (fun youngest domain => max youngest domain.modified) youngest := by
    intro domains
    induction domains with
    | nil => exact fun youngest => ⟨Int.le_refl _, fun _ hmem => absurd hmem List.not_mem_nil⟩
    | cons domain domains ih =>
      intro youngest
      obtain ⟨hstart, hrest⟩ := ih (max youngest domain.modified)
      refine ⟨(Int.le_max_left _ _).trans hstart, fun other hother => ?_⟩
      obtain rfl | hother := List.mem_cons.1 hother
      · exact (Int.le_max_right _ _).trans hstart
      · exact hrest other hother
  exact (hloop domains (-1)).2 domain h

theorem exists_youngestModified (hnonempty : domains ≠ [])
    (hpositive : ∀ domain ∈ domains, 0 < domain.modified) :
    ∃ domain ∈ domains, domain.modified = youngestModified domains := by
  have hloop : ∀ (domains : List DomainMeta) (youngest : Int),
      domains.foldl (fun youngest domain => max youngest domain.modified) youngest = youngest ∨
        ∃ domain ∈ domains, domain.modified =
          domains.foldl (fun youngest domain => max youngest domain.modified) youngest := by
    intro domains
    induction domains with
    | nil => exact fun youngest => .inl rfl
    | cons domain domains ih =>
      intro youngest
      obtain hmax | ⟨other, hother, hyoungest⟩ := ih (max youngest domain.modified)
      · rw [List.foldl_cons, hmax]
        obtain hle | hle := Int.le_total youngest domain.modified
        · exact .inr ⟨domain, List.mem_cons_self, (Int.max_eq_right hle).symm⟩
        · exact .inl (Int.max_eq_left hle)
      · exact .inr ⟨other, List.mem_cons_of_mem domain hother, hyoungest⟩
  obtain hnone | hsome := hloop domains (-1)
  · obtain ⟨domain, hdomain⟩ := List.exists_mem_of_ne_nil domains hnonempty
    have hle := le_youngestModified hdomain
    have hpos := hpositive domain hdomain
    unfold youngestModified at hle
    omega
  · exact hsome

theorem mem_listModifiedDomains :
    domain ∈ listModifiedDomains domains since ↔ domain ∈ domains ∧
      (since = 0 ∨ since < domain.modified) := by
  unfold listModifiedDomains
  split
  · rename_i hsince
    rw [List.mem_filter, decide_eq_true_iff, or_iff_right hsince]
  · rename_i hsince
    simp only [not_not.1 hsince, true_or, and_true]

end Listings

section Polls

variable {Key : Type} (zms : DataStore.Zms Key) (codec : Codec) (timestamps : Timestamps)
  (history : Content)

/-- The listing of a poll, if there is one, is the answer of ZMS to the saved tag. -/
def Poll.Listed (poll : Poll) (last : Nat) (server : Server) : Prop :=
  ∀ listing, poll.listing = some listing → ∃ domains, Lists history last domains ∧
    listing = getSignedDomains timestamps domains server.changeLog.lastModTime

/-- Every listed domain is delivered, accepted and, when it is enabled, processed. -/
def Poll.Thorough (poll : Poll) : Prop :=
  ∀ listing domains, poll.listing = some listing → listing.domains = some domains →
    ∀ item ∈ domains, ∃ document ∈ fetchDomain (poll.answers item.name) 1
      (maxRateLimitRetryCount - 1), ∃ domainData, document.incoming.accepted zms = some domainData ∧
        (domainData.enabled ≠ some false →
          ∃ now, DataStore.Ends (DataStore.buildCache codec now domainData))

/-- The domain list of a deletion, if there is one, is that of ZMS at a moment. -/
def Deletion.Listed (deletion : Deletion) (last : Nat) : Prop :=
  ∀ names, deletion.domainList = some names → ∀ name, name ∈ names ↔ (history last name).isSome

/-- The servers that polls, checks and deletions reach from the start over an empty directory, where
each poll that moves the saved tag has processed all domains that it listed. -/
inductive PollRun [CaseRules] : Nat → Server → Prop where
  | new (last : Nat) : PollRun last {}
  | later (run : PollRun last server) (h : last ≤ last') : PollRun last' server
  | updates (run : PollRun since server) (hsince : since ≤ middle) (hlast : middle ≤ last)
    (poll : Poll) (listed : poll.Listed timestamps history middle server)
    (honest : poll.Honest zms history middle last)
    (thorough : (Server.processDomainUpdates zms codec poll server).2.changeLog.lastModTime ≠
      server.changeLog.lastModTime → poll.Thorough zms codec) :
    PollRun last (Server.processDomainUpdates zms codec poll server).2
  | checks (run : PollRun since server) (h : since ≤ last) (check : Check)
    (honest : check.Honest zms history since last) :
    PollRun last (Server.processDomainChecks zms codec check server).2
  | deletes (run : PollRun since server) (hsince : since ≤ middle) (hlast : middle ≤ last)
    (deletion : Deletion) (listed : deletion.Listed history middle) :
    PollRun last (Server.processDomainDeletes deletion server).2

end Polls

section Stable

variable {Key : Type} {zms : DataStore.Zms Key} {codec : Codec} {timestamps : Timestamps}
  {history : Content} {server : Server}

/-- ZMS has one version of a domain from one moment to another. -/
def Stable (history : Content) (since last : Nat) (name : Str) (version : Version DomainData) :
    Prop :=
  ∀ k, since ≤ k → k ≤ last → history k name = some version

/-- The time of the saved tag. -/
def tagTime (timestamps : Timestamps) (server : Server) : Int :=
  getModTimestamp timestamps server.changeLog.lastModTime

theorem Stable.tail (h : Stable history since last name version) (hsince : since ≤ middle) :
    Stable history middle last name version :=
  fun k hk hlast => h k (hsince.trans hk) hlast

variable [CaseRules]

/-- The processing of a document keeps a version that ZMS has all the time in which the document is
delivered. -/
theorem ShowsVersion.processDomain (h : ShowsVersion codec name version server)
    (hnamed : history.Named) (hdelivered : Delivered zms history since last source document)
    (hstable : Stable history since last name version) (hname : version.value.name = name) :
    ShowsVersion codec name version
      (Server.processDomain zms codec handling document saveInStore server).2 := by
  cases haccepted : document.incoming.accepted zms with
  | none =>
    rw [Server.processDomain_rejected zms codec handling document saveInStore haccepted]
    exact h
  | some domainData =>
    obtain ⟨k, hfrom, hto, hk⟩ := hdelivered _ haccepted
    have hsource : domainData.name = source := hnamed _ _ _ hk
    by_cases hsame : source = name
    · rw [hsame] at hk
      cases (hstable k hfrom hto).symm.trans hk
      refine .of_processDomain hname haccepted rfl fun henabled => ?_
      obtain ⟨published, _, ⟨now, cache, hcache, _⟩, _⟩ := h.2 henabled
      exact ⟨now, cache, hcache⟩
    · have hothers : ∀ other, document.incoming.accepted zms = some other → other.name = source := by
        intro other hother
        cases haccepted.symm.trans hother
        exact hsource
      exact h.congr (Server.processDomain_others hothers (Ne.symm hsame)).1
        (Server.processDomain_others hothers (Ne.symm hsame)).2

/-- The indexes of a version can be built, if they have to be. -/
def Buildable (codec : Codec) (version : Version DomainData) : Prop :=
  version.value.enabled ≠ some false →
    ∃ now, DataStore.Ends (DataStore.buildCache codec now version.value)

/-- The versions that a list of documents brings, and those that are there already. -/
def Due (zms : DataStore.Zms Key) (codec : Codec) (documents : List Document) (name : Str)
    (version : Version DomainData) (server : Server) : Prop :=
  ShowsVersion codec name version server ∨
    Buildable codec version ∧ name ∈ documents.filterMap (documentName zms)

theorem Due.next (hnamed : history.Named) (hname : version.value.name = name)
    (hstable : Stable history since last name version)
    (hdelivered : Delivered zms history since last source document)
    (h : Due zms codec (document :: documents) name version server) :
    Due zms codec documents name version
      (Server.processDomain zms codec handling document saveInStore server).2 := by
  obtain hshows | ⟨hbuildable, hdue⟩ := h
  · exact .inl (hshows.processDomain hnamed hdelivered hstable hname)
  · obtain ⟨other, hother, hdocument⟩ := List.mem_filterMap.1 hdue
    obtain rfl | hother := List.mem_cons.1 hother
    · obtain ⟨domainData, haccepted, hdata⟩ := Option.map_eq_some_iff.1 hdocument
      obtain ⟨k, hfrom, hto, hk⟩ := hdelivered _ haccepted
      rw [← (hnamed _ _ _ hk : domainData.name = source), hdata] at hk
      cases (hstable k hfrom hto).symm.trans hk
      exact .inl (.of_processDomain hname haccepted rfl hbuildable)
    · exact .inr ⟨hbuildable, List.mem_filterMap.2 ⟨other, hother, hdocument⟩⟩

/-- Behind the processing of a list of documents each version that was due is shown. -/
theorem shows_processDomains (hnamed : history.Named) {documents : Option (List Document)}
    (hdelivery : Delivery zms history since last (documents.getD []))
    (hname : version.value.name = name) (hstable : Stable history since last name version) :
    Prog.Leads (Due zms codec (documents.getD []) name version)
      (Server.processDomains zms codec handlings documents)
      (fun _ => ShowsVersion codec name version) (fun _ => ShowsVersion codec name version) := by
  have hend : ∀ server, Due zms codec [] name version server →
      ShowsVersion codec name version server :=
    fun server h => h.resolve_right fun hdue => absurd hdue.2 List.not_mem_nil
  refine .ite (fun hempty => .pure _ fun server h => hend server (hempty ▸ h)) fun _ => ?_
  let rests (items : List (Document × Nat)) (server : Server) : Prop :=
    (∀ item ∈ items, ∃ source, Delivered zms history since last source item.1) ∧
      Due zms codec (items.map Prod.fst) name version server
  have hstep : ∀ item rest result, Prog.Leads (rests (item :: rest))
      (Server.processNext zms codec handlings result item) (fun _ => rests rest)
      (fun _ => ShowsVersion codec name version) := by
    intro item rest result
    refine .bind (M := fun _ => rests rest) (fun server h => ?_) fun processed => .pure _ fun _ h => h
    obtain ⟨source, hdelivered⟩ := h.1 item List.mem_cons_self
    obtain ⟨processed, hrun⟩ := Server.processDomain_ends zms codec (handlings item.2) item.1 true
      server
    rw [hrun]
    exact ⟨fun other hother => h.1 other (List.mem_cons_of_mem item hother),
      Due.next hnamed hname hstable hdelivered h.2⟩
  refine (Prog.Leads.foldlM (I := fun items _ => rests items) hstep _ false).mono
    (fun server h => ⟨fun item hitem => ?_, ?_⟩) (fun _ server h => hend server h.2) fun _ _ h => h
  · refine hdelivery.delivered item.1 ?_
    have hmem := List.mem_map_of_mem (f := Prod.fst) hitem
    rwa [List.zipIdx_map_fst] at hmem
  · rw [List.zipIdx_map_fst]
    exact h

omit [CaseRules] in
theorem shows_setLastModificationTimestamp (time : Option Str) (finish : FileEnd) :
    Prog.Keeps (ShowsVersion codec name version)
      (Server.setLastModificationTimestamp time finish) := by
  refine Prog.Keeps.bind (.write _ fun _ h => h) fun _ => ?_
  cases time with
  | none =>
    exact .bind (.read _) fun file => .ite (fun _ => .pure ()) fun _ =>
      .ite (fun _ => .write _ fun _ h => h) fun _ => .raise _
  | some time =>
    cases finish with
    | done | damaged => exact .bind (.write _ fun _ h => h) fun _ => .ite (fun _ => .pure ()) fun _ => .raise _
    | refused => exact .bind (.pure ()) fun _ => .raise _

theorem shows_processDomainUpdates (hnamed : history.Named) {poll : Poll}
    (hhonest : poll.Honest zms history since last) (hname : version.value.name = name)
    (hstable : Stable history since last name version) :
    Prog.Leads (Due zms codec ((getUpdatedDomains poll.listing poll.answers).1.getD []) name version)
      (Server.processDomainUpdates zms codec poll)
      (fun _ => ShowsVersion codec name version) (fun _ => ShowsVersion codec name version) := by
  refine .ite (fun hnone => .pure _ fun server h => ?_) fun _ => ?_
  · rw [Option.isNone_iff_eq_none.1 hnone.1] at h
    exact h.resolve_right fun hdue => absurd hdue.2 List.not_mem_nil
  · refine (shows_processDomains hnamed (hhonest.delivery hnamed) hname hstable).bind fun result => ?_
    refine Prog.Leads.ite (fun _ => ?_) fun _ => .pure _ fun _ h => h
    exact Prog.Leads.bind (shows_setLastModificationTimestamp _ _) fun _ => .pure _ fun _ h => h

end Stable

section Tags

variable {Key : Type} {zms : DataStore.Zms Key} {codec : Codec} {timestamps : Timestamps}
  {history : Content} {server : Server} [CaseRules]

omit [CaseRules] in
theorem savedLog_lastModTime (name : Str) (log : ChangeLogStore) :
    (Server.savedLog handling document saveInStore name log).lastModTime = log.lastModTime := by
  unfold Server.savedLog ChangeLogStore.put
  split
  · split
    · rfl
    · rfl
    · rfl
  · rfl

theorem processDomain_keepsTag : Prog.Keeps (fun s : Server => s.changeLog.lastModTime = tag)
    (Server.processDomain zms codec handling document saveInStore) := by
  refine Prog.Leads.of_run fun server h => ?_
  have hcases := Server.processDomain_cases zms codec handling document saveInStore server
  generalize Server.processDomain zms codec handling document saveInStore server = run at hcases ⊢
  cases hcases with
  | rejected | failed => exact h
  | withdrawn | published => exact (savedLog_lastModTime _ _).trans h

theorem processDomains_keepsTag : Prog.Keeps (fun s : Server => s.changeLog.lastModTime = tag)
    (Server.processDomains zms codec handlings documents) := by
  refine .ite (fun _ => .pure _) fun _ => ?_
  exact Prog.Leads.foldlM (I := fun _ _ (s : Server) => s.changeLog.lastModTime = tag)
    (fun item rest result => processDomain_keepsTag.bind fun _ => .pure _) _ false

/-- A poll leaves the saved tag as it is or replaces it by the tag of its listing. -/
theorem processDomainUpdates_tag (zms : DataStore.Zms Key) (codec : Codec) (poll : Poll) :
    Prog.Leads (fun s : Server => s.changeLog.lastModTime = tag)
      (Server.processDomainUpdates zms codec poll)
      (fun _ s => s.changeLog.lastModTime = tag ∨
        s.changeLog.lastModTime = some (getModifiedDomainList poll.listing).2)
      (fun _ s => s.changeLog.lastModTime = tag ∨
        s.changeLog.lastModTime = some (getModifiedDomainList poll.listing).2) := by
  refine .ite (fun _ => .pure _ fun _ h => .inl h) fun _ => ?_
  refine .bind (M := fun _ (s : Server) => s.changeLog.lastModTime = tag)
    (processDomains_keepsTag.mono (fun _ h => h) (fun _ _ h => h) fun _ _ h => .inl h)
    fun result => .ite (fun _ => ?_) fun _ => .pure _ fun _ h => .inl h
  have hset : ∀ (time : Str) (finish : FileEnd), Prog.Leads
      (fun s : Server => s.changeLog.lastModTime = tag)
      (Server.setLastModificationTimestamp (some time) finish)
      (fun _ s => s.changeLog.lastModTime = some time)
      (fun _ s => s.changeLog.lastModTime = some time) := by
    intro time finish
    refine .bind (M := fun _ (s : Server) => s.changeLog.lastModTime = some time)
      (.write _ fun _ _ => rfl) fun _ => ?_
    cases finish with
    | done | damaged =>
      exact Prog.Keeps.bind (.write _ fun _ h => h) fun _ => .ite (fun _ => .pure ()) fun _ => .raise _
    | refused => exact Prog.Keeps.bind (.pure ()) fun _ => .raise _
  exact ((hset _ _).mono (fun _ h => h) (fun _ _ h => h) fun _ _ h => .inr h).bind
    fun _ => .pure _ fun _ h => .inr h

theorem processDomainChecks_keepsTag {check : Check} :
    Prog.Keeps (fun s : Server => s.changeLog.lastModTime = tag)
      (Server.processDomainChecks zms codec check) := by
  refine .forM (fun item => .bind (.read _) fun localModified => .ite (fun _ => ?_) fun _ => .pure _) _
  cases check.fetch item.1.name with
  | none => exact .pure _
  | some document => exact processDomain_keepsTag.bind fun _ => .pure _

omit [CaseRules] in
theorem removeLocalDomain_keeps {P : Server → Prop} (hP : ∀ (server : Server) (files : Map Str (Option Document)),
    P server → P (server.onChangeLog fun log => { log with files := files })) (name : Str) (finish : FileEnd) :
    Prog.Keeps P (Server.removeLocalDomain name finish) :=
  .bind (.read _) fun _ => .ite (fun _ => .pure ()) fun _ =>
    .ite (fun _ => .write _ fun server h => hP server _ h) fun _ => .raise _

/-- A deletion keeps what does not depend on the deleted domain and the files. -/
theorem deleteDomain_keeps {P : Server → Prop} (hP : ∀ (server : Server) (files : Map Str (Option Document)),
      P server → P (server.onChangeLog fun log => { log with files := files }))
    (hother : ∀ (server server' : Server), P server →
      server'.changeLog = server.changeLog → (∀ other, other ≠ name →
        server'.store.cacheStore.lookup other = server.store.cacheStore.lookup other ∧
        server'.modified.lookup other = server.modified.lookup other) → P server')
    (finish : FileEnd) : Prog.Keeps P (Server.deleteDomain finish name) := by
  refine Prog.Leads.of_run fun server h => ?_
  obtain ⟨failure, hresult, hrun⟩ | ⟨hresult, hrun⟩ := deleteDomain_run finish name server
  · rw [hrun]
    refine hother server _ h rfl fun other hne => ⟨?_, rfl⟩
    dsimp only
    rw [DataStore.lookup_deleteDomain_of_error hresult]
  · rw [hrun]
    refine (removeLocalDomain_keeps hP name finish).run (hother server _ h rfl fun other hne => ?_)
    exact ⟨(DataStore.lookup_deleteDomain hresult other).trans (if_neg hne),
      (Map.lookup_erase _ _ _).trans (if_neg hne)⟩

theorem processDomainDeletes_keeps {P : Server → Prop} {deletion : Deletion}
    (hP : ∀ (server : Server) (files : Map Str (Option Document)),
      P server → P (server.onChangeLog fun log => { log with files := files }))
    (hother : ∀ names name, deletion.domainList = some names → name ∉ names →
      ∀ (server server' : Server), P server → server'.changeLog = server.changeLog →
        (∀ other, other ≠ name →
          server'.store.cacheStore.lookup other = server.store.cacheStore.lookup other ∧
          server'.modified.lookup other = server.modified.lookup other) → P server') :
    Prog.Keeps P (Server.processDomainDeletes deletion) := by
  refine .bind (.read _) fun localDomainList => .ite (fun _ => .pure _) fun _ => ?_
  cases hlist : deletion.domainList with
  | none => exact .pure _
  | some zmsDomainList =>
    refine .ite (fun _ => ?_) fun _ => .pure _
    refine Prog.Keeps.bind ?_ fun _ => .pure _
    refine (Prog.Leads.forM (E := fun _ => P)
      (I := fun names server => (∀ name ∈ names, name ∉ zmsDomainList) ∧ P server)
      (fun name rest => .start fun server hstart => ?_) _).mono (fun server h => ⟨fun name hname =>
        of_decide_eq_true (List.mem_filter.1 hname).2, h⟩) (fun _ _ h => h.2) fun _ _ h => h
    have hgone := hstart.1 name List.mem_cons_self
    exact (deleteDomain_keeps hP (hother zmsDomainList name hlist hgone) _).mono (fun _ hsame => hsame ▸ hstart.2)
      (fun _ _ h => ⟨fun other hmem => hstart.1 other (List.mem_cons_of_mem name hmem), h⟩) fun _ _ h => h

end Tags

section Invariant

variable {Key : Type} {zms : DataStore.Zms Key} {codec : Codec} {timestamps : Timestamps}
  {history : Content} {server : Server}

/-- What a server that polls knows: the tag it saved is the time of a change, and all that is not
later is published. -/
structure Polled (codec : Codec) (timestamps : Timestamps) (history : Content) (last : Nat)
    (server : Server) : Prop where
  shows : ∀ name version, history last name = some version →
    version.stamp ≤ tagTime timestamps server → ShowsVersion codec name version server
  tag : tagTime timestamps server = 0 ∨ ∃ k other version, k ≤ last ∧
    history k other = some version ∧ version.stamp = tagTime timestamps server

/-- Modified times are positive. -/
def Content.Positive (history : Content) : Prop :=
  ∀ k name version, history k name = some version → 0 < version.stamp

/-- What is not later than the saved tag has not changed since, and is published. -/
theorem Polled.stable (h : Polled codec timestamps history since server) (hclocked : history.Clocked)
    (hpositive : history.Positive) (hsince : since ≤ last) (hversion : history last name = some version)
    (hle : version.stamp ≤ tagTime timestamps server) :
    Stable history since last name version ∧ ShowsVersion codec name version server := by
  have hpos := hpositive _ _ _ hversion
  obtain hzero | ⟨k, other, tagged, hk, htagged, hstamp⟩ := h.tag
  · omega
  · have hearly := hclocked.unchanged (hk.trans hsince) htagged hversion (hstamp ▸ hle)
    have hstable : Stable history since last name version := fun j hj hlast =>
      hclocked.between (hk.trans hj) hlast hearly hversion
    exact ⟨hstable, h.shows name version (hstable since (Nat.le_refl since) hsince) hle⟩

/-- A step that keeps the saved tag and every version that ZMS has all the time. -/
theorem Polled.step {server' : Server} (h : Polled codec timestamps history since server)
    (hclocked : history.Clocked) (hpositive : history.Positive) (hsince : since ≤ last)
    (htag : server'.changeLog.lastModTime = server.changeLog.lastModTime)
    (hkept : ∀ name version, Stable history since last name version →
      ShowsVersion codec name version server → ShowsVersion codec name version server') :
    Polled codec timestamps history last server' := by
  have htime : tagTime timestamps server' = tagTime timestamps server := by
    rw [tagTime, htag, tagTime]
  constructor
  · intro name version hversion hle
    obtain ⟨hstable, hshows⟩ := h.stable hclocked hpositive hsince hversion (htime ▸ hle)
    exact hkept name version hstable hshows
  · rw [htime]
    exact h.tag.imp_right fun ⟨k, other, version, hk, hversion⟩ =>
      ⟨k, other, version, hk.trans hsince, hversion⟩

variable [CaseRules]

omit [CaseRules] in
/-- The documents of a poll that processes all listed domains. -/
theorem Poll.Thorough.due {poll : Poll} {listing : Listing} {domains : List DomainMeta}
    {item : DomainMeta} {tag : Str} (h : poll.Thorough zms codec)
    (hhonest : poll.Honest zms history since last) (hnamed : history.Named)
    (hlisting : poll.listing = some listing) (htag : listing.tag = some tag)
    (hdomains : listing.domains = some domains) (hitem : item ∈ domains)
    (hstable : Stable history since last item.name version) :
    Due zms codec ((getUpdatedDomains poll.listing poll.answers).1.getD []) item.name version server := by
  obtain ⟨document, hdocument, domainData, haccepted, hbuilt⟩ := h listing domains hlisting hdomains
    item hitem
  obtain ⟨k, hfrom, hto, hk⟩ := (hhonest.fetched item.name).2 document hdocument _ haccepted
  cases (hstable k hfrom hto).symm.trans hk
  refine .inr ⟨hbuilt, List.mem_filterMap.2 ⟨document, ?_, ?_⟩⟩
  · simp only [getUpdatedDomains, getModifiedDomainList, hlisting, htag, hdomains, Option.map_some,
      Option.getD_some]
    exact List.mem_flatMap.2 ⟨item, hitem, hdocument⟩
  · rw [documentName, haccepted, Option.map_some, hnamed _ _ _ hk]

theorem Polled.updates {poll : Poll} (hlawful : timestamps.Lawful) (hclocked : history.Clocked)
    (hnamed : history.Named) (hpositive : history.Positive)
    (h : Polled codec timestamps history since server) (hsince : since ≤ middle)
    (hlast : middle ≤ last) (hlisted : poll.Listed timestamps history middle server)
    (hhonest : poll.Honest zms history middle last)
    (hthorough : (Server.processDomainUpdates zms codec poll server).2.changeLog.lastModTime ≠
      server.changeLog.lastModTime → poll.Thorough zms codec) :
    Polled codec timestamps history last (Server.processDomainUpdates zms codec poll server).2 := by
  have hdue : ∀ name version, version.value.name = name → Stable history middle last name version →
      Due zms codec ((getUpdatedDomains poll.listing poll.answers).1.getD []) name version server →
      ShowsVersion codec name version (Server.processDomainUpdates zms codec poll server).2 :=
    fun name version hname hstable hdue =>
      (shows_processDomainUpdates hnamed hhonest hname hstable).state hdue
  have hkept : ∀ name version, Stable history since last name version →
      ShowsVersion codec name version server →
      ShowsVersion codec name version (Server.processDomainUpdates zms codec poll server).2 :=
    fun name version hstable hshows => hdue name version
      (hnamed _ _ _ (hstable last (hsince.trans hlast) (Nat.le_refl last))) (hstable.tail hsince)
      (.inl hshows)
  have hend := (processDomainUpdates_tag zms codec poll).state (s := server) rfl
  generalize hrun : (Server.processDomainUpdates zms codec poll server).2 = server'
    at hend hkept hdue hthorough ⊢
  by_cases htag : server'.changeLog.lastModTime = server.changeLog.lastModTime
  · exact h.step hclocked hpositive (hsince.trans hlast) htag hkept
  · have hnew := hend.resolve_left htag
    have hall := hthorough htag
    cases hlisting : poll.listing with
    | none =>
      have hidle : Server.processDomainUpdates zms codec poll server = (.ok false, server) := by
        simp only [Server.processDomainUpdates, getUpdatedDomains, getModifiedDomainList, hlisting,
          Option.map_none, Option.isNone_none, and_self, if_true]
        rfl
      rw [hidle] at hrun
      exact absurd (hrun ▸ rfl) htag
    | some listing =>
      obtain ⟨domains, hdomains, hanswer⟩ := hlisted listing hlisting
      by_cases hmodified : listModifiedDomains domains (tagTime timestamps server) = []
      · have hsame : tagTime timestamps server' = tagTime timestamps server := by
          unfold tagTime
          rw [hnew, hlisting, hanswer, getSignedDomains]
          change getModTimestamp timestamps (some (getModifiedDomainList (some (if
            listModifiedDomains domains (tagTime timestamps server) = [] then _ else _))).2) = _
          rw [if_pos hmodified]
          cases server.changeLog.lastModTime with
          | none => exact hlawful.getModTimestamp (Int.le_refl 0)
          | some tag => rfl
        constructor
        · intro name version hversion hle
          obtain ⟨hstable, hshows⟩ := h.stable hclocked hpositive (hsince.trans hlast) hversion
            (hsame ▸ hle)
          exact hkept name version hstable hshows
        · rw [hsame]
          refine h.tag.imp_right ?_
          rintro ⟨k, other, version, hk, hversion⟩
          exact ⟨k, other, version, hk.trans (hsince.trans hlast), hversion⟩
      · have hlist : listing = ⟨some (listModifiedDomains domains (tagTime timestamps server)),
            some (entityTag (timestamps.toText (youngestModified
              (listModifiedDomains domains (tagTime timestamps server)))))⟩ := by
          rw [hanswer]
          exact if_neg hmodified
        have hitem : ∀ item ∈ listModifiedDomains domains (tagTime timestamps server),
            ∃ version, history middle item.name = some version ∧ item.modified = version.stamp := by
          intro item hitem
          obtain ⟨version, hversion, hstamp, _⟩ := (hdomains item).1
            (mem_listModifiedDomains.1 hitem).1
          exact ⟨version, hversion, hstamp⟩
        obtain ⟨youngest, hyoungest, hmax⟩ := exists_youngestModified hmodified fun item hmem => by
          obtain ⟨version, hversion, hstamp⟩ := hitem item hmem
          exact hstamp ▸ hpositive _ _ _ hversion
        obtain ⟨tagged, htagged, hstamp⟩ := hitem youngest hyoungest
        have htime : tagTime timestamps server' = tagged.stamp := by
          unfold tagTime
          rw [hnew, hlisting, hlist, ← hstamp, hmax]
          refine hlawful.getModTimestamp ?_
          rw [← hmax, hstamp]
          exact Int.le_of_lt (hpositive _ _ _ htagged)
        constructor
        · intro name version hversion hle
          rw [htime] at hle
          have hstable : Stable history middle last name version := fun k hk hto =>
            hclocked.between hk hto (hclocked.unchanged hlast htagged hversion hle) hversion
          by_cases hlate : tagTime timestamps server = 0 ∨ tagTime timestamps server < version.stamp
          · refine hdue name version (hnamed _ _ _ hversion) hstable ?_
            exact hall.due hhonest hnamed hlisting (congrArg Listing.tag hlist)
              (congrArg Listing.domains hlist)
              (mem_listModifiedDomains.2 ⟨(hdomains ⟨name, version.stamp, version.value.enabled⟩).2
                ⟨version, hstable middle (Nat.le_refl middle) hlast, rfl, rfl⟩, hlate⟩) hstable
          · obtain ⟨hstable, hshows⟩ := h.stable hclocked hpositive (hsince.trans hlast) hversion
              (Int.not_lt.1 fun hlt => hlate (.inr hlt))
            exact hkept name version hstable hshows
        · exact .inr ⟨middle, youngest.name, tagged, hlast, htagged, htime.symm⟩

end Invariant

section Runs

variable {Key : Type} {zms : DataStore.Zms Key} {codec : Codec} {timestamps : Timestamps}
  {history : Content} {server : Server} [CaseRules]

theorem Polled.checks {check : Check} (hclocked : history.Clocked) (hnamed : history.Named)
    (hpositive : history.Positive) (h : Polled codec timestamps history since server)
    (hsince : since ≤ last) (hhonest : check.Honest zms history since last) :
    Polled codec timestamps history last (Server.processDomainChecks zms codec check server).2 := by
  refine h.step hclocked hpositive hsince (processDomainChecks_keepsTag.run rfl) ?_
  intro name version hstable
  refine Prog.Keeps.run (P := ShowsVersion codec name version) (.forM (fun item => ?_) _)
  refine .bind (.read _) fun localModified => .ite (fun _ => ?_) fun _ => .pure _
  cases hfetch : check.fetch item.1.name with
  | none => exact .pure _
  | some document =>
    refine Prog.Keeps.bind (.of_run fun server hshows => ?_) fun _ => .pure _
    exact hshows.processDomain hnamed (hhonest.delivered _ _ hfetch) hstable
      (hnamed _ _ _ (hstable since (Nat.le_refl since) hsince))

theorem Polled.deletes {deletion : Deletion} (hclocked : history.Clocked)
    (hpositive : history.Positive) (h : Polled codec timestamps history since server)
    (hsince : since ≤ middle) (hlast : middle ≤ last) (hlisted : deletion.Listed history middle) :
    Polled codec timestamps history last (Server.processDomainDeletes deletion server).2 := by
  refine h.step hclocked hpositive (hsince.trans hlast) ?_ fun name version hstable => ?_
  · refine Prog.Keeps.run (P := fun s : Server => s.changeLog.lastModTime =
      server.changeLog.lastModTime) (processDomainDeletes_keeps (fun _ _ h => h) ?_) rfl
    intro names name _ _ server server' h hlog _
    rw [hlog]
    exact h
  · refine Prog.Keeps.run (P := ShowsVersion codec name version)
      (processDomainDeletes_keeps (fun _ _ h => h) ?_)
    intro names deleted hlist hgone server server' hshows _ hothers
    have hne : name ≠ deleted := by
      rintro rfl
      refine hgone ((hlisted names hlist name).2 ?_)
      rw [hstable middle hsince hlast]
      rfl
    exact hshows.congr (hothers name hne).1 (hothers name hne).2

theorem PollRun.polled (run : PollRun zms codec timestamps history last server)
    (hlawful : timestamps.Lawful) (hclocked : history.Clocked) (hnamed : history.Named)
    (hpositive : history.Positive) : Polled codec timestamps history last server := by
  induction run with
  | new last =>
    refine ⟨fun name version hversion hle => ?_, .inl rfl⟩
    exact absurd (Int.lt_of_lt_of_le (hpositive _ _ _ hversion) hle) (Int.lt_irrefl 0)
  | later run h ih => exact ih.step hclocked hpositive h rfl fun _ _ _ hshows => hshows
  | updates run hsince hlast poll listed honest thorough ih =>
    exact ih.updates hlawful hclocked hnamed hpositive hsince hlast listed honest thorough
  | checks run h check honest ih => exact ih.checks hclocked hnamed hpositive h honest
  | deletes run hsince hlast deletion listed ih =>
    exact ih.deletes hclocked hpositive hsince hlast listed

/-- Polls skip no change: where the modified times of all domains come from one clock, and a poll
that moves the saved tag has processed all domains that it listed, each domain of ZMS is published
with its current data, or will be listed by the next poll. -/
theorem polls_skip_nothing (hlawful : timestamps.Lawful) (hclocked : history.Clocked)
    (hnamed : history.Named) (hpositive : history.Positive)
    (run : PollRun zms codec timestamps history last server)
    (hversion : history last name = some version) :
    ShowsVersion codec name version server ∨ ∀ domains, Lists history last domains → ∃ listed,
      (getSignedDomains timestamps domains server.changeLog.lastModTime).domains = some listed ∧
      ⟨name, version.stamp, version.value.enabled⟩ ∈ listed := by
  by_cases hle : version.stamp ≤ tagTime timestamps server
  · exact .inl ((run.polled hlawful hclocked hnamed hpositive).shows name version hversion hle)
  · refine .inr fun domains hdomains => ?_
    have hlisted : ⟨name, version.stamp, version.value.enabled⟩ ∈
        listModifiedDomains domains (tagTime timestamps server) :=
      mem_listModifiedDomains.2 ⟨(hdomains ⟨name, version.stamp, version.value.enabled⟩).2
        ⟨version, hversion, rfl, rfl⟩, .inr (Int.not_le.1 hle)⟩
    refine ⟨_, ?_, hlisted⟩
    exact congrArg Listing.domains (if_neg (List.ne_nil_of_mem hlisted))

end Runs

section Example

local instance pollCaseRules : CaseRules := .ascii

local instance pollDigitRules : Decimal.DigitRules := .ascii

/-- The texts of times in the first second, with a millisecond of three digits. -/
def firstSecond : Str := "1970-01-01T00:00:00."

def sampleTimestamps : Timestamps where
  toText millis := firstSecond ++ Nat.toDigits 10 millis.toNat ++ ['Z']
  fromString text := (Decimal.parseDigits (text.drop firstSecond.length).dropLast).map Int.ofNat

theorem sampleTimestamps_lawful : sampleTimestamps.Lawful where
  reads millis hmillis := by
    unfold sampleTimestamps
    dsimp only
    rw [List.append_assoc, List.drop_left, List.dropLast_concat,
      Decimal.parseDigits_toDigits Decimal.DigitRules.ascii_lawful, Option.map_some]
    exact congrArg some (Int.toNat_of_nonneg hmillis)
  nonempty millis := List.append_ne_nil_of_right_ne_nil _ (List.cons_ne_nil _ _)

theorem syncHistory_positive : syncHistory.Positive := by
  intro k name version h
  obtain ⟨rfl, rfl⟩ | ⟨rfl, rfl⟩ | ⟨rfl, rfl, rfl⟩ := syncHistory_cases h
  · decide
  · split
    · decide
    · decide
  · decide

theorem syncHistory_clocked : syncHistory.Clocked := by
  intro j k k' key other v w hj hk hw hne hv
  obtain ⟨rfl, rfl⟩ | ⟨rfl, rfl⟩ | ⟨rfl, rfl, rfl⟩ := syncHistory_cases hv
  · exact absurd rfl hne
  · have hlate : k' ≠ 0 := by
      rintro rfl
      cases Nat.le_zero.1 hk
      exact hne rfl
    have hearly : k = 0 := by
      by_contra hpos
      refine hne ?_
      rw [if_neg hlate]
      exact congrArg some (if_neg hpos)
    cases Nat.le_zero.1 (hearly ▸ hj)
    rw [if_neg hlate]
    obtain ⟨rfl, rfl⟩ | ⟨rfl, rfl⟩ | ⟨rfl, _, rfl⟩ := syncHistory_cases hw
    · decide
    · decide
    · decide
  · cases Nat.le_zero.1 hk
    exact absurd rfl hne

/-- The first poll of a server, and ZMS changes a domain behind it. -/
def firstPoll : Poll where
  listing := some (getSignedDomains sampleTimestamps
    [⟨"sys.auth", 105, none⟩, ⟨"media", 110, none⟩, ⟨"sports", 107, none⟩] none)
  answers name _ :=
    ((syncHistory 0 name).map fun version => Fetched.documents [syncDocument version]).getD .failed
  handlings _ := ⟨fun _ => 0, 0, .done⟩

theorem firstPoll_answers (h : firstPoll.answers name count = .documents documents) :
    ∃ version, syncHistory 0 name = some version ∧ documents = [syncDocument version] := by
  unfold firstPoll at h
  dsimp only at h
  cases hversion : syncHistory 0 name with
  | none =>
    rw [hversion] at h
    cases h
  | some version =>
    rw [hversion] at h
    cases h
    exact ⟨version, rfl, rfl⟩

theorem firstPoll_honest : firstPoll.Honest DataStore.sampleZms syncHistory 0 0 where
  listed listing domains hlisting hdomains := by
    cases hlisting
    cases hdomains
    decide
  single name count documents h := by
    obtain ⟨version, _, rfl⟩ := firstPoll_answers h
    exact Nat.le_refl 1
  delivered name count documents h document hmem domainData haccepted := by
    obtain ⟨version, hversion, rfl⟩ := firstPoll_answers h
    cases List.mem_singleton.1 hmem
    cases (accepted_syncDocument version).symm.trans haccepted
    exact ⟨0, Nat.le_refl 0, Nat.le_refl 0, hversion⟩

theorem syncHistory_lists : Lists syncHistory 0
    [⟨"sys.auth", 105, none⟩, ⟨"media", 110, none⟩, ⟨"sports", 107, none⟩] := by
  intro item
  constructor
  · intro hitem
    obtain rfl | hitem := List.mem_cons.1 hitem
    · exact ⟨systemVersion, rfl, rfl, rfl⟩
    · obtain rfl | hitem := List.mem_cons.1 hitem
      · exact ⟨mediaVersion, rfl, rfl, rfl⟩
      · cases List.mem_singleton.1 hitem
        exact ⟨sportsVersion, rfl, rfl, rfl⟩
  · rintro ⟨version, hversion, hmodified, henabled⟩
    obtain ⟨name, modified, enabled⟩ := item
    dsimp only at hversion hmodified henabled
    obtain ⟨rfl, rfl⟩ | ⟨rfl, rfl⟩ | ⟨rfl, _, rfl⟩ := syncHistory_cases hversion
    · rw [hmodified, henabled]
      exact List.mem_cons_self
    · rw [hmodified, henabled]
      exact List.mem_cons_of_mem _ List.mem_cons_self
    · rw [hmodified, henabled]
      exact List.mem_cons_of_mem _ (List.mem_cons_of_mem _ List.mem_cons_self)

theorem firstPoll_thorough :
    firstPoll.Thorough DataStore.sampleZms DataStore.sampleSetting.codec := by
  intro listing domains hlisting hdomains item hitem
  cases hlisting
  cases hdomains
  obtain ⟨version, hversion, _⟩ := (syncHistory_lists item).1 hitem
  have hfetched : fetchDomain (firstPoll.answers item.name) 1 (maxRateLimitRetryCount - 1) =
      [syncDocument version] := by
    have hanswer : firstPoll.answers item.name 1 = .documents [syncDocument version] := by
      unfold firstPoll
      dsimp only
      rw [hversion]
      rfl
    simp only [maxRateLimitRetryCount, fetchDomain, hanswer]
  refine ⟨syncDocument version, hfetched ▸ List.mem_singleton_self _, version.value,
    accepted_syncDocument version, fun _ => ?_⟩
  obtain ⟨_, rfl⟩ | ⟨_, rfl⟩ | ⟨_, _, rfl⟩ := syncHistory_cases hversion
  · exact ⟨0, _, rfl⟩
  · exact ⟨0, _, rfl⟩
  · exact ⟨0, _, rfl⟩

def polledServer : Server :=
  (Server.processDomainUpdates DataStore.sampleZms DataStore.sampleSetting.codec firstPoll {}).2

theorem polledServer_run : PollRun DataStore.sampleZms DataStore.sampleSetting.codec
    sampleTimestamps syncHistory 1 polledServer :=
  ((PollRun.new 0).updates (Nat.le_refl 0) (Nat.le_refl 0) firstPoll
    (fun _ hlisting => ⟨_, syncHistory_lists, (Option.some.inj hlisting).symm⟩)
    firstPoll_honest fun _ => firstPoll_thorough).later (Nat.zero_le 1)

/-- The change behind the poll is listed by the next one. -/
theorem polledServer_skips_nothing :
    ShowsVersion DataStore.sampleSetting.codec "media" laterMediaVersion polledServer ∨
      ∀ domains, Lists syncHistory 1 domains → ∃ listed,
        (getSignedDomains sampleTimestamps domains
          polledServer.changeLog.lastModTime).domains = some listed ∧
        ⟨"media", 120, none⟩ ∈ listed :=
  polls_skip_nothing sampleTimestamps_lawful syncHistory_clocked syncHistory_named
    syncHistory_positive polledServer_run rfl

end Example

end Athenz.Zts
