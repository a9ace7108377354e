import Athenz.Lib.Exceptional
import Athenz.RoleCertRun

namespace Athenz.Zts
open Lib Lib.Text Lib.Exceptional
set_option autoImplicit true

section Files

/-- A domain as ZMS sent it, with the modified time of its data. -/
structure Document where
  incoming : DataStore.Incoming
  modified : Int

/-- The files of the change log; a file without a value cannot be read. -/
structure ChangeLogStore where
  files : Map Str (Option Document) := ∅
  lastModTime : Option Str := none
  lastModFile : Option (Option Str) := none

/-- How an operation on a file ends: as it should, or with an exception and the file as it was or
unreadable. -/
inductive FileEnd where
  | done
  | refused
  | damaged
deriving DecidableEq

/-- What a server keeps: the caches, the modified times of the published data, and its files. -/
structure Server where
  store : DataStore := {}
  modified : Map Str Int := ∅
  changeLog : ChangeLogStore := {}

/-- What is thrown: by the processing or by the change log. -/
inductive Thrown where
  | failure (failure : Failure)
  | changeLog
deriving DecidableEq

abbrev Call := Prog Server Thrown

namespace ChangeLogStore

def put (name : Str) (document : Document) (finish : FileEnd) (log : ChangeLogStore) :
    ChangeLogStore :=
  match finish with
  | .done => { log with files := log.files.insert name (some document) }
  | .refused => log
  | .damaged => { log with files := log.files.insert name none }

def getLocalDomainList (log : ChangeLogStore) : List Str :=
  log.files.keys.filter fun name => name.head? ≠ some '.'

def retrieveLastModificationTime (log : ChangeLogStore) : Option Str := log.lastModFile.join

def supportsFullRefresh : Bool := false

end ChangeLogStore

namespace Server

def onChangeLog (f : ChangeLogStore → ChangeLogStore) (server : Server) : Server :=
  { server with changeLog := f server.changeLog }

def throwUnless (finish : FileEnd) : Call Unit :=
  if finish = .done then pure () else Prog.raise .changeLog

def saveLocalDomain (name : Str) (document : Document) (finish : FileEnd) : Call Unit := do
  Prog.write (onChangeLog (·.put name document finish))
  throwUnless finish

def removeLocalDomain (name : Str) (finish : FileEnd) : Call Unit := do
  let files ← Prog.read (·.changeLog.files)
  if (files.lookup name).isNone then pure ()
  else if finish = .done then
    Prog.write (onChangeLog fun log => { log with files := log.files.erase name })
  else Prog.raise .changeLog

def setLastModificationTimestamp (newLastModTime : Option Str) (finish : FileEnd) :
    Call Unit := do
  Prog.write (onChangeLog fun log => { log with lastModTime := newLastModTime })
  match newLastModTime with
  | none => do
    let file ← Prog.read (·.changeLog.lastModFile)
    if file.isNone then pure ()
    else if finish = .done then
      Prog.write (onChangeLog fun log => { log with lastModFile := none })
    else Prog.raise .changeLog
  | some time => do
    match finish with
    | .done => Prog.write (onChangeLog fun log => { log with lastModFile := some (some time) })
    | .refused => pure ()
    | .damaged => Prog.write (onChangeLog fun log => { log with lastModFile := some none })
    throwUnless finish

end Server

end Files

section Fetching

/-- The entry of a domain in a list of ZMS. -/
structure DomainMeta where
  name : Str
  modified : Int
  enabled : Option Bool := none
deriving DecidableEq

/-- The answer to a request for one domain. -/
inductive Fetched where
  | documents (documents : List Document)
  | tooManyRequests
  | failed

/-- The answer to a request for the modified domains, with the tag of its headers. -/
structure Listing where
  domains : Option (List DomainMeta)
  tag : Option Str
deriving DecidableEq

def maxRateLimitRetryCount : Nat := 101

/-- The attempts for one domain from one count on. -/
def fetchDomain (answers : Nat → Fetched) (count : Nat) : Nat → List Document
  | 0 => []
  | left + 1 =>
    match answers count with
    | .documents documents => documents
    | .tooManyRequests => fetchDomain answers (count + 1) left
    | .failed => []

/-- `getSignedDomainList` and `getJWSDomainList`. -/
def getDomainList (answers : Str → Nat → Fetched) (domainList : List DomainMeta) :
    List Document :=
  domainList.flatMap fun domain =>
    fetchDomain (answers domain.name) 1 (maxRateLimitRetryCount - 1)

/-- `getModifiedDomainList`: the listed domains and the text in the buffer; no listing is a request
that failed. -/
def getModifiedDomainList (listing : Option Listing) : Option (List DomainMeta) × Str :=
  match listing with
  | none => (none, [])
  | some listing =>
    match listing.tag with
    | none => (none, [])
    | some newLastModTime => (listing.domains, newLastModTime)

/-- `getUpdatedSignedDomains` and `getUpdatedJWSDomains`. -/
def getUpdatedDomains (listing : Option Listing) (answers : Str → Nat → Fetched) :
    Option (List Document) × Str :=
  let modified := getModifiedDomainList listing
  (modified.1.map (getDomainList answers), modified.2)

end Fetching

section Processing

/-- What the processing of one document meets: the time and the end of its save. -/
structure Handling where
  clock : Group → Int
  now : Int
  finish : FileEnd := .done

/-- What an update of all domains meets. -/
structure Poll where
  listing : Option Listing
  answers : Str → Nat → Fetched
  handlings : Nat → Handling
  finish : FileEnd := .done

/-- What a check of the modified times meets. -/
structure Check where
  listing : Option (List DomainMeta)
  fetch : Str → Option Document
  handlings : Nat → Handling

/-- What a deletion of domains meets. -/
structure Deletion where
  domainList : Option (List Str)
  finish : Str → FileEnd

/-- What the start of a server meets. -/
structure Start where
  cleanups : Str → FileEnd
  domainList : Option (List Str)
  handlings : Str → Handling
  deletions : Str → FileEnd
  resetFinish : FileEnd
  resets : Str → FileEnd
  poll : Poll
  check : Check

namespace Server

variable {Key : Type} [CaseRules] (zms : DataStore.Zms Key) (codec : Codec)

/-- `processSignedDomain` and `processJWSDomain` with what they leave in the files. -/
def processDomain (handling : Handling) (document : Document) (saveInStore : Bool) :
    Call Bool := do
  match document.incoming.accepted zms with
  | none => pure false
  | some domainData =>
    if domainData.enabled = some false then
      Prog.write fun server => { server with
        store := server.store.deleteDomainFromCache domainData.name
        modified := server.modified.erase domainData.name }
      save domainData.name
    else
      let result ← Prog.read fun server =>
        (server.store.processDomainData codec handling.clock handling.now domainData).2
      Prog.write fun server => { server with
        store := (server.store.processDomainData codec handling.clock handling.now domainData).1 }
      match result with
      | .error _ => pure false
      | .ok _ =>
        Prog.write fun server => { server with
          modified := server.modified.insert domainData.name document.modified }
        save domainData.name
where
  save (name : Str) : Call Bool := do
    if saveInStore then
      match ← Prog.caught (saveLocalDomain name document handling.finish) with
      | .ok _ => pure true
      | .error _ => pure false
    else pure true

/-- One document of a list; the list is a success when one of its documents is. -/
def processNext (handlings : Nat → Handling) (result : Bool) (item : Document × Nat) :
    Call Bool := do
  let processed ← processDomain zms codec (handlings item.2) item.1 true
  pure (result || processed)

/-- `processSignedDomains` and `processJWSDomains`. -/
def processDomains (handlings : Nat → Handling) (documents : Option (List Document)) :
    Call Bool :=
  if documents.getD [] = [] then pure true
  else (documents.getD []).zipIdx.foldlM (processNext zms codec handlings) false

/-- `processSignedDomainUpdates` and `processJWSDomainUpdates`. -/
def processDomainUpdates (poll : Poll) : Call Bool := do
  let updated := getUpdatedDomains poll.listing poll.answers
  if updated.1.isNone ∧ updated.2 = [] then pure false
  else
    let result ← processDomains zms codec poll.handlings updated.1
    if result then
      setLastModificationTimestamp (some updated.2) poll.finish
    pure result

def processDomainCheck (localModified : Option Int) (zmsDomain : DomainMeta) : Bool :=
  match localModified with
  | none => zmsDomain.enabled ≠ some false
  | some localTime => zmsDomain.enabled = some false ∨ localTime < zmsDomain.modified

/-- The modified time of the data that is published for a domain. -/
def getModified (name : Str) (server : Server) : Option Int :=
  (server.store.getDomainData name).bind fun _ => server.modified.lookup name

def checkDomain (check : Check) (item : DomainMeta × Nat) : Call Unit := do
  let localModified ← Prog.read (getModified item.1.name)
  if processDomainCheck localModified item.1 then
    match check.fetch item.1.name with
    | none => pure ()
    | some document => do
      let _ ← processDomain zms codec (check.handlings item.2) document true
      pure ()
  else pure ()

/-- `processSignedDomainChecks` and `processJWSDomainChecks`. -/
def processDomainChecks (check : Check) : Call Unit :=
  (check.listing.getD []).zipIdx.forM (checkDomain zms codec check)

def validDomainListResponse (zmsDomainList : List Str) : Bool :=
  !zmsDomainList.isEmpty && decide ((↑"sys.auth" : Str) ∈ zmsDomainList)

/-- `deleteDomain` with what it leaves in the files. -/
def deleteDomain (finish : FileEnd) (name : Str) : Call Unit := do
  let result ← Prog.read fun server => (server.store.deleteDomain name).2
  Prog.write fun server => { server with store := (server.store.deleteDomain name).1 }
  match result with
  | .error failure => Prog.raise (.failure failure)
  | .ok _ =>
    Prog.write fun server => { server with modified := server.modified.erase name }
    removeLocalDomain name finish

def processDomainDeletes (deletion : Deletion) : Call Bool := do
  let localDomainList ← Prog.read (·.store.cacheStore.keys)
  if localDomainList = [] then pure true
  else
    match deletion.domainList with
    | none => pure false
    | some zmsDomainList =>
      if validDomainListResponse zmsDomainList then
        (localDomainList.filter (· ∉ zmsDomainList)).forM fun name =>
          deleteDomain (deletion.finish name) name
        pure true
      else pure false

def processLocalDomain (handling : Handling) (name : Str) : Call Bool := do
  let file ← Prog.read fun server => (server.changeLog.files.lookup name).join
  match file with
  | none => pure false
  | some document => processDomain zms codec handling document false

/-- The loop of `processLocalDomains`: the bad domains so far, none when a full refresh is due. -/
def processLocals (start : Start) : Nat → List Str → Call (Option Nat)
  | badDomains, [] => pure (some badDomains)
  | badDomains, domainName :: rest => do
    if start.domainList.any (domainName ∉ ·) then
      deleteDomain (start.deletions domainName) domainName
      processLocals start badDomains rest
    else
      let processed ← processLocalDomain zms codec (start.handlings domainName) domainName
      if processed then processLocals start badDomains rest
      else if ChangeLogStore.supportsFullRefresh then pure none
      else processLocals start (badDomains + 1) rest

def processLocalDomains (start : Start) (localDomainList : List Str) : Call Int :=
  if localDomainList = [] then pure (-1)
  else do
    match ← processLocals zms codec start 0 localDomainList with
    | none => pure (-1)
    | some badDomains =>
      if badDomains > localDomainList.length / 4 then pure (-1) else pure badDomains

/-- `init`, up to the start of the updater thread. -/
def init (start : Start) : Call Unit := do
  let localDomainList ← Prog.read (·.changeLog.getLocalDomainList)
  let badDomains ← processLocalDomains zms codec start localDomainList
  if badDomains = -1 then
    setLastModificationTimestamp none start.resetFinish
    localDomainList.forM fun name => deleteDomain (start.resets name) name
  let updated ← processDomainUpdates zms codec start.poll
  if updated then
    if badDomains > 0 then processDomainChecks zms codec start.check
  else
    Prog.raise (.failure (.resource 500 "Unable to initialize storage subsystem"))

/-- The constructor of the change log: without a modification time the files are cleaned up. -/
def openChangeLog (start : Start) : Call Unit := do
  let lastModTime ← Prog.read (·.changeLog.retrieveLastModificationTime)
  Prog.write (onChangeLog fun log => { log with lastModTime := lastModTime })
  if lastModTime.isNone then
    let localDomains ← Prog.read (·.changeLog.getLocalDomainList)
    localDomains.forM fun name => removeLocalDomain name (start.cleanups name)

/-- A new process over the files that are there. -/
def restart (start : Start) : Call Unit := do
  Prog.write fun server => { changeLog := server.changeLog }
  openChangeLog start
  init zms codec start

end Server

end Processing

end Athenz.Zts
