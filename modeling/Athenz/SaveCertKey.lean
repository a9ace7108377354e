import Athenz.Lib.Text
import Mathlib.Algebra.Group.Int.Defs
import Mathlib.Logic.Function.Basic

namespace Athenz.Sia
open Lib.Text
set_option autoImplicit true

section Disks

abbrev Bytes := List UInt8

/-- The contents of the files, and whether the backup directory is there. -/
structure Disk where
  content : Str → Option Bytes
  backUpDir : Bool

def Disk.put (disk : Disk) (name : Str) (bytes : Option Bytes) : Disk :=
  { disk with content := Function.update disk.content name bytes }

@[simp] theorem Disk.put_self (disk : Disk) (name : Str) (bytes : Option Bytes) :
    (disk.put name bytes).content name = bytes := by
  simp only [Disk.put, Function.update_self]

theorem Disk.put_other {disk : Disk} {name other : Str} {bytes : Option Bytes}
    (h : other ≠ name) : (disk.put name bytes).content other = disk.content other := by
  simp only [Disk.put, Function.update_of_ne h]

@[simp] theorem Disk.put_backUpDir (disk : Disk) (name : Str) (bytes : Option Bytes) :
    (disk.put name bytes).backUpDir = disk.backUpDir :=
  rfl

@[simp] theorem Disk.put_put (disk : Disk) (name : Str) (first second : Option Bytes) :
    (disk.put name first).put name second = disk.put name second := by
  simp only [Disk.put, Function.update_idem]

theorem Disk.put_same {disk : Disk} (h : disk.content name = bytes) :
    disk.put name bytes = disk := by
  subst h
  simp only [Disk.put, Function.update_eq_self]

/-- The operation of a copy that fails; a write has stored so many bytes by then, or has not
created the file. -/
inductive CopyFault where
  | read
  | stat
  | remove
  | write (written : Option Nat)
  deriving DecidableEq

/-- The operation of an update that fails. -/
inductive UpdateFault where
  | stat
  | write (written : Option Nat)
  | renameAway
  | renameIn
  | remove
  | chown
  deriving DecidableEq

/-- The one file operation of a call that fails. -/
inductive Fault where
  | backUpDirStat
  | backUpDirMake
  | backUpCert (fault : CopyFault)
  | backUpKey (fault : CopyFault)
  | writeKey (fault : UpdateFault)
  | keyStat
  | keyStatAgain
  | chownKey
  | chmodKey
  | writeCert (fault : UpdateFault)
  | loadCert
  | loadKey
  | restoreCert (fault : CopyFault)
  | restoreKey (fault : CopyFault)
  deriving DecidableEq

def CopyFault.failedWrite : CopyFault → Option (Option Nat)
  | .write written => some written
  | _ => none

def UpdateFault.failedWrite : UpdateFault → Option (Option Nat)
  | .write written => some written
  | _ => none

def onBackUpCert : Option Fault → Option CopyFault
  | some (.backUpCert fault) => some fault
  | _ => none

def onBackUpKey : Option Fault → Option CopyFault
  | some (.backUpKey fault) => some fault
  | _ => none

def onRestoreCert : Option Fault → Option CopyFault
  | some (.restoreCert fault) => some fault
  | _ => none

def onRestoreKey : Option Fault → Option CopyFault
  | some (.restoreKey fault) => some fault
  | _ => none

def onWriteKey : Option Fault → Option UpdateFault
  | some (.writeKey fault) => some fault
  | _ => none

def onWriteCert : Option Fault → Option UpdateFault
  | some (.writeCert fault) => some fault
  | _ => none

end Disks

section Operations

/-- Only an error that says the file does not exist counts as its absence. -/
def fileExists (disk : Disk) (path : Str) (failed : Bool) : Bool :=
  failed || (disk.content path).isSome

def writeFile (disk : Disk) (dir : Bool) (name : Str) (contents : Bytes)
    (failed : Option (Option Nat)) : Disk × Bool :=
  if dir = false then (disk, false)
  else
    match failed with
    | some written => (disk.put name (written.map contents.take), false)
    | none => (disk.put name (some contents), true)

def ensureBackUpDir (disk : Disk) (fault : Option Fault) : Disk × Bool :=
  if fault = some .backUpDirStat || disk.backUpDir then (disk, true)
  else if fault = some .backUpDirMake then (disk, false)
  else ({ disk with backUpDir := true }, true)

/-- A failed removal is only logged. -/
def copy (disk : Disk) (destDir : Bool) (sourceFile destFile : Str)
    (fault : Option CopyFault) : Disk × Bool :=
  if fault = some .read then (disk, false)
  else
    match disk.content sourceFile with
    | none => (disk, false)
    | some sourceBytes =>
      let removed :=
        if fileExists disk destFile (fault = some .stat) && fault ≠ some .remove then
          disk.put destFile none
        else disk
      writeFile removed destDir destFile sourceBytes (fault.bind CopyFault.failedWrite)

def copyCertKeyFile (disk : Disk) (destDir : Bool) (srcKey destKey srcCert destCert : Str)
    (certFault keyFault : Option CopyFault) : Disk × Bool :=
  let certCopied := copy disk destDir srcCert destCert certFault
  if certCopied.2 then copy certCopied.1 destDir srcKey destKey keyFault else certCopied

/-- The new contents in the place of the old ones. -/
def replaceFile (disk : Disk) (fileName : Str) (contents : Bytes)
    (fault : Option UpdateFault) : Disk × Bool :=
  if (fault.bind UpdateFault.failedWrite).isSome then (disk, false)
  else if fault = some .renameAway then (disk, false)
  else
    match disk.content fileName with
    | none => (disk, false)
    | some old =>
      let away := disk.put fileName none
      if fault = some .renameIn then (away.put fileName (some old), false)
      else (away.put fileName (some contents), true)

/-- Empty contents are skipped; `chowns` tells whether the file is for another owner than the
process. -/
def updateFile (disk : Disk) (fileName : Str) (contents : Bytes) (chowns : Bool)
    (fault : Option UpdateFault) : Disk × Bool :=
  if contents = [] then (disk, true)
  else
    let stored :=
      if !fileExists disk fileName (fault = some .stat) then
        writeFile disk true fileName contents (fault.bind UpdateFault.failedWrite)
      else replaceFile disk fileName contents fault
    if stored.2 then (stored.1, !(chowns && fault = some .chown)) else stored

/-- False when the process exits. -/
def updateKey (disk : Disk) (keyFile : Str) (uid gid : Int) (fault : Option Fault) : Bool :=
  !((uid ≠ 0 || gid ≠ 0) && (fault = some .chownKey || (disk.content keyFile).isNone)) &&
    !(gid ≠ 0 && (fault = some .chmodKey || (disk.content keyFile).isNone))

end Operations

section Saving

/-- What the TLS library makes of a certificate and a key. -/
structure Tls where
  x509KeyPair : Bytes → Bytes → Option (List Bytes)
  parseCertificate : Bytes → Bool

def Tls.Match (tls : Tls) (cert key : Bytes) : Prop := (tls.x509KeyPair cert key).isSome = true

instance (tls : Tls) (cert key : Bytes) : Decidable (tls.Match cert key) :=
  inferInstanceAs (Decidable (_ = true))

/-- A pair is loaded only from texts that are not empty, and with a leaf that parses. -/
structure Tls.Lawful (tls : Tls) : Prop where
  leaf : ∀ cert key chain, tls.x509KeyPair cert key = some chain →
    ∃ leaf rest, chain = leaf :: rest ∧ tls.parseCertificate leaf = true
  cert_ne : ∀ cert key, tls.Match cert key → cert ≠ []
  key_ne : ∀ cert key, tls.Match cert key → key ≠ []

structure SaveRequest where
  key : Bytes
  cert : Bytes
  file : Str
  keyPrefix : Str
  certPrefix : Str
  uid : Int
  gid : Int
  createKey : Bool
  rotateKey : Bool
  keyDir : Str
  certDir : Str
  backupDir : Str
  currentUid : Int
  currentGid : Int

def keyPem (dir keyPrefix : Str) : Str := dir ++ '/' :: keyPrefix ++ ".key.pem".toList

def certPem (dir certPrefix : Str) : Str := dir ++ '/' :: certPrefix ++ ".cert.pem".toList

def getCertKeyFileName (file keyDir certDir keyPrefix certPrefix : Str) : Str × Str :=
  if file.head? = some '/' then (file, keyPem keyDir keyPrefix)
  else (certPem certDir certPrefix, keyPem keyDir keyPrefix)

def SaveRequest.certFile (req : SaveRequest) : Str :=
  (getCertKeyFileName req.file req.keyDir req.certDir req.keyPrefix req.certPrefix).1

def SaveRequest.keyFile (req : SaveRequest) : Str :=
  (getCertKeyFileName req.file req.keyDir req.certDir req.keyPrefix req.certPrefix).2

def SaveRequest.backUpKeyFile (req : SaveRequest) : Str := keyPem req.backupDir req.keyPrefix

def SaveRequest.backUpCertFile (req : SaveRequest) : Str := certPem req.backupDir req.certPrefix

def SaveRequest.chowns (req : SaveRequest) : Bool :=
  req.currentUid ≠ req.uid || req.currentGid ≠ req.gid

inductive SaveError where
  | doNotMatch (keyPrefix : Str)
  | unableToParse (keyPrefix : Str)
  | fileOperation
  deriving DecidableEq

inductive Ending where
  | returned (err : Option SaveError)
  | panicked
  | exited
  deriving DecidableEq

def returnFile (disk : Disk) : Disk × Ending := (disk, .returned (some .fileOperation))

/-- The check of the pair before anything is written. -/
def validate (tls : Tls) (req : SaveRequest) : Option Ending :=
  match tls.x509KeyPair req.cert req.key with
  | none => some (.returned (some (.doNotMatch req.keyPrefix)))
  | some [] => some .panicked
  | some (leaf :: _) =>
    if tls.parseCertificate leaf then none
    else some (.returned (some (.unableToParse req.keyPrefix)))

/-- The pair in the files. -/
def loadX509KeyPair (tls : Tls) (disk : Disk) (certFile keyFile : Str)
    (fault : Option Fault) : Option (List Bytes) :=
  if fault = some .loadCert then none
  else
    match disk.content certFile with
    | none => none
    | some cert =>
      if fault = some .loadKey then none
      else
        match disk.content keyFile with
        | none => none
        | some key => tls.x509KeyPair cert key

def takeBackUp (req : SaveRequest) (disk : Disk) (fault : Option Fault) : Disk × Bool :=
  copyCertKeyFile disk disk.backUpDir req.keyFile req.backUpKeyFile req.certFile
    req.backUpCertFile (onBackUpCert fault) (onBackUpKey fault)

def restoreBackUp (req : SaveRequest) (disk : Disk) (fault : Option Fault) : Disk × Bool :=
  copyCertKeyFile disk true req.backUpKeyFile req.keyFile req.backUpCertFile req.certFile
    (onRestoreCert fault) (onRestoreKey fault)

def writeKey (req : SaveRequest) (disk : Disk) (fault : Option Fault) : Disk × Bool :=
  updateFile disk req.keyFile req.key req.chowns (onWriteKey fault)

/-- The branches before the certificate is written; no ending when the call goes on. -/
def keyStep (req : SaveRequest) (disk : Disk) (fault : Option Fault) : Disk × Option Ending :=
  let failed (disk : Disk) : Disk × Option Ending :=
    (disk, some (.returned (some .fileOperation)))
  let newKey (disk : Disk) : Disk × Option Ending :=
    let written := writeKey req disk fault
    if !written.2 then failed written.1 else (written.1, none)
  if req.rotateKey then
    let ensured := ensureBackUpDir disk fault
    if !ensured.2 then failed ensured.1
    else
      let backedUp := takeBackUp req ensured.1 fault
      if !backedUp.2 then failed backedUp.1 else newKey backedUp.1
  else if req.createKey && !fileExists disk req.keyFile (fault = some .keyStat) then newKey disk
  else if fileExists disk req.keyFile (fault = some .keyStatAgain) then
    if updateKey disk req.keyFile req.uid req.gid fault then (disk, none)
    else (disk, some .exited)
  else (disk, none)

/-- The check of the written pair: the pair that failed to load has no certificates. -/
def checkStep (tls : Tls) (req : SaveRequest) (disk : Disk) (fault : Option Fault) :
    Disk × Ending :=
  match loadX509KeyPair tls disk req.certFile req.keyFile fault with
  | none =>
    let restored := restoreBackUp req disk fault
    if !restored.2 then returnFile restored.1 else (restored.1, .panicked)
  | some [] => (disk, .panicked)
  | some (leaf :: _) =>
    if tls.parseCertificate leaf then (disk, .returned none)
    else
      let restored := restoreBackUp req disk fault
      if !restored.2 then returnFile restored.1 else (restored.1, .returned none)

/-- What is left once the key is in place. -/
def certStep (tls : Tls) (req : SaveRequest) (disk : Disk) (fault : Option Fault) :
    Disk × Ending :=
  let written := updateFile disk req.certFile req.cert req.chowns (onWriteCert fault)
  if !written.2 then returnFile written.1 else checkStep tls req written.1 fault

def saveCertKey (tls : Tls) (req : SaveRequest) (disk : Disk) (fault : Option Fault) :
    Disk × Ending :=
  match validate tls req with
  | some ending => (disk, ending)
  | none =>
    match keyStep req disk fault with
    | (disk, some ending) => (disk, ending)
    | (disk, none) => certStep tls req disk fault

end Saving

section Specifications

def CopyFault.stops : CopyFault → Bool
  | .read | .write _ => true
  | _ => false

/-- Whether an update fails, given whether the file was there and is to be chowned. -/
def UpdateFault.stops (present chowns : Bool) : UpdateFault → Bool
  | .stat => !present
  | .write _ => true
  | .renameAway | .renameIn => present
  | .remove => false
  | .chown => chowns

theorem copy_unread {disk : Disk} {dir : Bool} {source dest : Str} {fault : Option CopyFault}
    (h : fault = some .read ∨ disk.content source = none) :
    copy disk dir source dest fault = (disk, false) := by
  rcases h with rfl | h
  · rfl
  · simp only [copy, h, ite_self]

theorem copy_broken {disk : Disk} {source dest : Str} {bytes : Bytes} {written : Option Nat}
    (h : disk.content source = some bytes) :
    copy disk true source dest (some (.write written)) =
      (disk.put dest (written.map bytes.take), false) := by
  cases hd : (disk.content dest).isSome <;>
    simp [copy, h, writeFile, fileExists, hd, CopyFault.failedWrite]

theorem copy_copied {disk : Disk} {source dest : Str} {bytes : Bytes}
    {fault : Option CopyFault} (h : disk.content source = some bytes)
    (hfault : fault.any CopyFault.stops = false) :
    copy disk true source dest fault = (disk.put dest (some bytes), true) := by
  cases fault with
  | none => cases hd : (disk.content dest).isSome <;> simp [copy, h, writeFile, fileExists, hd]
  | some fault =>
    cases fault with
    | read => cases hfault
    | write written => cases hfault
    | stat => simp [copy, h, writeFile, fileExists, CopyFault.failedWrite]
    | remove => simp [copy, h, writeFile, CopyFault.failedWrite]

theorem copy_other {disk : Disk} {dir : Bool} {source dest other : Str}
    {fault : Option CopyFault} (h : other ≠ dest) :
    (copy disk dir source dest fault).1.content other = disk.content other := by
  unfold copy
  split
  · rfl
  · split
    · rfl
    · unfold writeFile
      split_ifs <;> (try split) <;> simp only [Disk.put_put, Disk.put_other h]

theorem copy_done {disk : Disk} {dir : Bool} {source dest : Str} {fault : Option CopyFault}
    (h : (copy disk dir source dest fault).2 = true) :
    ∃ bytes, disk.content source = some bytes ∧ dir = true ∧
      (copy disk dir source dest fault).1 = disk.put dest (some bytes) := by
  cases hs : disk.content source with
  | none => rw [copy_unread (.inr hs)] at h; cases h
  | some bytes =>
    cases dir with
    | false =>
      unfold copy at h
      simp only [hs, writeFile, if_true] at h
      split at h <;> cases h
    | true =>
      refine ⟨bytes, rfl, rfl, ?_⟩
      cases hf : fault.any CopyFault.stops with
      | false => rw [copy_copied hs hf]
      | true =>
        cases fault with
        | none => cases hf
        | some fault =>
          cases fault with
          | read => rw [copy_unread (.inl rfl)] at h; cases h
          | write written => rw [copy_broken hs] at h; cases h
          | stat => cases hf
          | remove => cases hf

/-- What an update of a file can do. -/
inductive Updates (disk : Disk) (name : Str) (contents : Bytes) (chowns : Bool)
    (fault : Option UpdateFault) : Disk × Bool → Prop
  | created (bytes : Option Bytes) (absent : disk.content name = none)
      (stops : fault.any (UpdateFault.stops false chowns) = true) :
      Updates disk name contents chowns fault (disk.put name bytes, false)
  | kept (present : (disk.content name).isSome = true) (fails : fault = some f)
      (early : f ≠ .chown) (stops : f.stops true chowns = true) :
      Updates disk name contents chowns fault (disk, false)
  | unowned (fails : fault = some .chown) (due : chowns = true) :
      Updates disk name contents chowns fault (disk.put name (some contents), false)
  | done (passes : fault.any (UpdateFault.stops (disk.content name).isSome chowns) = false) :
      Updates disk name contents chowns fault (disk.put name (some contents), true)

theorem updateFile_updates {disk : Disk} {name : Str} {contents : Bytes} {chowns : Bool}
    {fault : Option UpdateFault} (h : contents ≠ []) :
    Updates disk name contents chowns fault (updateFile disk name contents chowns fault) := by
  cases hold : disk.content name with
  | none =>
    have hsame : disk.put name none = disk := Disk.put_same hold
    cases fault with
    | none => simpa [updateFile, h, fileExists, hold, writeFile] using Updates.done (by rfl)
    | some fault =>
      cases fault with
      | stat =>
        have hu : Updates disk name contents chowns (some .stat) (disk.put name none, false) :=
          .created none hold rfl
        rw [hsame] at hu
        simpa [updateFile, h, fileExists, hold, replaceFile, UpdateFault.failedWrite] using hu
      | write written =>
        have hu : Updates disk name contents chowns (some (.write written))
            (disk.put name (written.map contents.take), false) := .created _ hold rfl
        simpa [updateFile, h, fileExists, hold, writeFile, UpdateFault.failedWrite] using hu
      | renameAway =>
        simpa [updateFile, h, fileExists, hold, writeFile, UpdateFault.failedWrite] using
          Updates.done (by rw [hold]; rfl)
      | renameIn =>
        simpa [updateFile, h, fileExists, hold, writeFile, UpdateFault.failedWrite] using
          Updates.done (by rw [hold]; rfl)
      | remove =>
        simpa [updateFile, h, fileExists, hold, writeFile, UpdateFault.failedWrite] using
          Updates.done (by rw [hold]; rfl)
      | chown =>
        cases chowns with
        | true =>
          simpa [updateFile, h, fileExists, hold, writeFile, UpdateFault.failedWrite] using
            Updates.unowned rfl rfl
        | false =>
          simpa [updateFile, h, fileExists, hold, writeFile, UpdateFault.failedWrite] using
            Updates.done (by rfl)
  | some old =>
    have hsame : disk.put name (some old) = disk := Disk.put_same hold
    have hpresent : (disk.content name).isSome = true := by rw [hold]; rfl
    cases fault with
    | none => simpa [updateFile, h, fileExists, hold, replaceFile] using Updates.done (by rfl)
    | some fault =>
      cases fault with
      | stat =>
        simpa [updateFile, h, fileExists, hold, replaceFile, UpdateFault.failedWrite] using
          Updates.done (by rw [hold]; rfl)
      | write written =>
        simpa [updateFile, h, fileExists, hold, replaceFile, UpdateFault.failedWrite] using
          Updates.kept hpresent rfl (f := .write written) (by simp) rfl
      | renameAway =>
        simpa [updateFile, h, fileExists, hold, replaceFile, UpdateFault.failedWrite] using
          Updates.kept hpresent rfl (f := .renameAway) (by simp) rfl
      | renameIn =>
        simpa [updateFile, h, fileExists, hold, replaceFile, UpdateFault.failedWrite, hsame] using
          Updates.kept hpresent rfl (f := .renameIn) (by simp) rfl
      | remove =>
        simpa [updateFile, h, fileExists, hold, replaceFile, UpdateFault.failedWrite] using
          Updates.done (by rw [hold]; rfl)
      | chown =>
        cases chowns with
        | true =>
          simpa [updateFile, h, fileExists, hold, replaceFile, UpdateFault.failedWrite] using
            Updates.unowned rfl rfl
        | false =>
          simpa [updateFile, h, fileExists, hold, replaceFile, UpdateFault.failedWrite] using
            Updates.done (by rw [hold]; rfl)

/-- What a restore that fails leaves of the certificate and the key, given the two backups and
what the files hold before it. -/
inductive StopsHalfway (backUpCert backUpKey cert key : Option Bytes) (fault : Option Fault) :
    Option Bytes → Option Bytes → Prop
  | certUnread (unread : onRestoreCert fault = some .read ∨ backUpCert = none) :
      StopsHalfway backUpCert backUpKey cert key fault cert key
  | certBroken (there : backUpCert = some bytes)
      (fails : onRestoreCert fault = some (.write written)) :
      StopsHalfway backUpCert backUpKey cert key fault (written.map bytes.take) key
  | keyUnread (there : backUpCert = some bytes)
      (passes : (onRestoreCert fault).any CopyFault.stops = false)
      (unread : onRestoreKey fault = some .read ∨ backUpKey = none) :
      StopsHalfway backUpCert backUpKey cert key fault backUpCert key
  | keyBroken (there : backUpCert = some certBytes) (keyThere : backUpKey = some bytes)
      (fails : onRestoreKey fault = some (.write written)) :
      StopsHalfway backUpCert backUpKey cert key fault backUpCert (written.map bytes.take)

/-- A restore that meets no failure. -/
def Restores (req : SaveRequest) (disk : Disk) (fault : Option Fault) : Prop :=
  (disk.content req.backUpCertFile).isSome = true ∧
    (disk.content req.backUpKeyFile).isSome = true ∧
    (onRestoreCert fault).any CopyFault.stops = false ∧
    (onRestoreKey fault).any CopyFault.stops = false

/-- The certificate, the key and their backups are four files. -/
structure SaveRequest.FourFiles (req : SaveRequest) : Prop where
  certKey : req.certFile ≠ req.keyFile
  certBackUpCert : req.certFile ≠ req.backUpCertFile
  certBackUpKey : req.certFile ≠ req.backUpKeyFile
  keyBackUpCert : req.keyFile ≠ req.backUpCertFile
  keyBackUpKey : req.keyFile ≠ req.backUpKeyFile
  backUps : req.backUpCertFile ≠ req.backUpKeyFile

theorem stops_split {fault : Option CopyFault} (h : fault.any CopyFault.stops = true) :
    fault = some .read ∨ ∃ written, fault = some (.write written) := by
  cases fault with
  | none => cases h
  | some fault =>
    cases fault with
    | read => exact .inl rfl
    | write written => exact .inr ⟨written, rfl⟩
    | stat => cases h
    | remove => cases h

theorem onRestoreKey_of_cert {fault : Option Fault} {failed : CopyFault}
    (h : onRestoreKey fault = some failed) : onRestoreCert fault = none := by
  unfold onRestoreKey at h
  split at h
  · rfl
  · cases h

theorem restoreBackUp_restores {req : SaveRequest} {disk : Disk} {fault : Option Fault}
    (hfour : req.FourFiles) (h : Restores req disk fault) :
    (restoreBackUp req disk fault).2 = true := by
  obtain ⟨hcert, hkey, hcertPasses, hkeyPasses⟩ := h
  obtain ⟨cert, hcert⟩ := Option.isSome_iff_exists.1 hcert
  obtain ⟨key, hkey⟩ := Option.isSome_iff_exists.1 hkey
  have hkey' : (disk.put req.certFile (some cert)).content req.backUpKeyFile = some key := by
    rw [Disk.put_other hfour.certBackUpKey.symm, hkey]
  simp only [restoreBackUp, copyCertKeyFile, copy_copied hcert hcertPasses,
    copy_copied hkey' hkeyPasses, if_true]

theorem restoreBackUp_halfway {req : SaveRequest} {disk : Disk} {fault : Option Fault}
    {cert key : Option Bytes} (hfour : req.FourFiles)
    (h : StopsHalfway (disk.content req.backUpCertFile) (disk.content req.backUpKeyFile)
      (disk.content req.certFile) (disk.content req.keyFile) fault cert key) :
    (restoreBackUp req disk fault).2 = false ∧
      (restoreBackUp req disk fault).1.content req.certFile = cert ∧
      (restoreBackUp req disk fault).1.content req.keyFile = key := by
  have hbackUp (bytes : Option Bytes) :
      (disk.put req.certFile bytes).content req.backUpKeyFile =
        disk.content req.backUpKeyFile := Disk.put_other hfour.certBackUpKey.symm
  cases h with
  | certUnread unread =>
    simp only [restoreBackUp, copyCertKeyFile, copy_unread unread, Bool.false_eq_true, if_false,
      and_self]
  | certBroken there fails =>
    simp only [restoreBackUp, copyCertKeyFile, fails, copy_broken there, Bool.false_eq_true,
      if_false, Disk.put_self, Disk.put_other hfour.certKey.symm, and_self]
  | keyUnread there passes unread =>
    simp only [restoreBackUp, copyCertKeyFile, copy_copied there passes, if_true,
      copy_unread (unread.imp_right ((hbackUp _).trans ·)), Disk.put_self,
      Disk.put_other hfour.certKey.symm, there, and_self]
  | keyBroken there keyThere fails =>
    have hpasses : (onRestoreCert fault).any CopyFault.stops = false := by
      rw [onRestoreKey_of_cert fails]; rfl
    simp only [restoreBackUp, copyCertKeyFile, copy_copied there hpasses, if_true, fails,
      copy_broken ((hbackUp _).trans keyThere), Disk.put_self, Disk.put_other hfour.certKey,
      there, and_self]

theorem restores_or_halfway (req : SaveRequest) (disk : Disk) (cert key : Option Bytes)
    (fault : Option Fault) :
    Restores req disk fault ∨ ∃ certLeft keyLeft,
      StopsHalfway (disk.content req.backUpCertFile) (disk.content req.backUpKeyFile) cert key
        fault certLeft keyLeft := by
  cases hbc : disk.content req.backUpCertFile with
  | none => exact .inr ⟨_, _, .certUnread (.inr rfl)⟩
  | some backUpCert =>
    cases hcert : (onRestoreCert fault).any CopyFault.stops with
    | true =>
      rcases stops_split hcert with h | ⟨written, h⟩
      · exact .inr ⟨_, _, .certUnread (.inl h)⟩
      · exact .inr ⟨_, _, .certBroken rfl h⟩
    | false =>
      cases hbk : disk.content req.backUpKeyFile with
      | none => exact .inr ⟨_, _, .keyUnread rfl hcert (.inr rfl)⟩
      | some backUpKey =>
        cases hkey : (onRestoreKey fault).any CopyFault.stops with
        | true =>
          rcases stops_split hkey with h | ⟨written, h⟩
          · exact .inr ⟨_, _, .keyUnread rfl hcert (.inl h)⟩
          · exact .inr ⟨_, _, .keyBroken rfl rfl h⟩
        | false => exact .inl ⟨by rw [hbc]; rfl, by rw [hbk]; rfl, hcert, hkey⟩

theorem takeBackUp_keeps {req : SaveRequest} (disk : Disk) (fault : Option Fault)
    (hfour : req.FourFiles) :
    (takeBackUp req disk fault).1.content req.certFile = disk.content req.certFile ∧
      (takeBackUp req disk fault).1.content req.keyFile = disk.content req.keyFile := by
  unfold takeBackUp copyCertKeyFile
  dsimp only
  split
  · rw [copy_other hfour.certBackUpKey, copy_other hfour.keyBackUpKey,
      copy_other hfour.certBackUpCert, copy_other hfour.keyBackUpCert]
    exact ⟨rfl, rfl⟩
  · exact ⟨copy_other hfour.certBackUpCert, copy_other hfour.keyBackUpCert⟩

theorem takeBackUp_done {req : SaveRequest} {disk : Disk} {fault : Option Fault}
    (hfour : req.FourFiles) (h : (takeBackUp req disk fault).2 = true) :
    (disk.content req.certFile).isSome = true ∧ (disk.content req.keyFile).isSome = true ∧
      ((takeBackUp req disk fault).1.content req.backUpCertFile).isSome = true ∧
      ((takeBackUp req disk fault).1.content req.backUpKeyFile).isSome = true := by
  unfold takeBackUp copyCertKeyFile at h ⊢
  dsimp only at h ⊢
  split at h
  · rename_i hcert
    obtain ⟨cert, hsource, -, hafter⟩ := copy_done hcert
    obtain ⟨key, hkey, -, hkeyAfter⟩ := copy_done h
    rw [if_pos hcert, hkeyAfter, hafter, Disk.put_self, Disk.put_other hfour.backUps,
      Disk.put_self, hsource]
    rw [hafter, Disk.put_other hfour.keyBackUpCert] at hkey
    rw [hkey]
    exact ⟨rfl, rfl, rfl, rfl⟩
  · rename_i hcert
    exact absurd h hcert

theorem takeBackUp_succeeds {req : SaveRequest} {disk : Disk} {fault : Option Fault}
    (hfour : req.FourFiles) (hdir : disk.backUpDir = true)
    (hcert : (disk.content req.certFile).isSome = true)
    (hkey : (disk.content req.keyFile).isSome = true) (hcertFault : onBackUpCert fault = none)
    (hkeyFault : onBackUpKey fault = none) : (takeBackUp req disk fault).2 = true := by
  obtain ⟨cert, hcert⟩ := Option.isSome_iff_exists.1 hcert
  obtain ⟨key, hkey⟩ := Option.isSome_iff_exists.1 hkey
  have hkey' : (disk.put req.backUpCertFile (some cert)).content req.keyFile = some key := by
    rw [Disk.put_other hfour.keyBackUpCert, hkey]
  have hpasses : (none : Option CopyFault).any CopyFault.stops = false := rfl
  simp only [takeBackUp, copyCertKeyFile, hcertFault, hkeyFault, hdir,
    copy_copied hcert hpasses, copy_copied hkey' hpasses, if_true]

end Specifications

end Athenz.Sia
