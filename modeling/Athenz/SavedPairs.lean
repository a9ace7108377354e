import Athenz.SaveCertKey

namespace Athenz.Sia
open Lib.Text
set_option autoImplicit true

section Pairs

def Disk.Paired (tls : Tls) (req : SaveRequest) (disk : Disk) : Prop :=
  ∃ cert key, disk.content req.certFile = some cert ∧ disk.content req.keyFile = some key ∧
    tls.Match cert key

/-- The old pair, or the new certificate with a key that matches it. -/
def Allowed (tls : Tls) (req : SaveRequest) (disk : Disk) (cert key : Option Bytes) : Prop :=
  (cert = disk.content req.certFile ∧ key = disk.content req.keyFile) ∨
    (cert = some req.cert ∧ ∃ bytes, key = some bytes ∧ tls.Match req.cert bytes)

/-- A call that does no harm. -/
structure Keeps (tls : Tls) (req : SaveRequest) (disk : Disk) (after : Disk × Ending) : Prop where
  returns : ∃ err, after.2 = .returned err
  pair : disk.Paired tls req → after.1.Paired tls req ∧
    Allowed tls req disk (after.1.content req.certFile) (after.1.content req.keyFile)
  saved : after.2 = .returned none → after.1.content req.certFile = some req.cert ∧
    ∃ key, after.1.content req.keyFile = some key ∧ tls.Match req.cert key

/-- Whether the call takes the branch that creates the key. -/
def Creates (req : SaveRequest) (disk : Disk) (fault : Option Fault) : Prop :=
  req.createKey = true ∧ fileExists disk req.keyFile (fault = some .keyStat) = false

/-- The key that the certificate meets where keys are not rotated. -/
def KeyInUse (req : SaveRequest) (disk : Disk) (fault : Option Fault) (key : Option Bytes) :
    Prop :=
  (Creates req disk fault ∧ key = some req.key) ∨
    (¬ Creates req disk fault ∧ key = disk.content req.keyFile)

/-- The owner or the mode of the key cannot be changed. -/
def ExitsOnKey (req : SaveRequest) (disk : Disk) (fault : Option Fault) : Prop :=
  ¬ Creates req disk fault ∧
    fileExists disk req.keyFile (fault = some .keyStatAgain) = true ∧
    updateKey disk req.keyFile req.uid req.gid fault = false

/-- No operation before the last check fails, where keys are not rotated. -/
structure ReachesCheck (req : SaveRequest) (disk : Disk) (fault : Option Fault) : Prop where
  key : Creates req disk fault →
    (onWriteKey fault).any (UpdateFault.stops false req.chowns) = false
  owner : ¬ ExitsOnKey req disk fault
  cert : (onWriteCert fault).any
    (UpdateFault.stops (disk.content req.certFile).isSome req.chowns) = false

/-- The last check fails on this key. -/
def Unloadable (tls : Tls) (req : SaveRequest) (fault : Option Fault) (key : Option Bytes) :
    Prop :=
  fault = some .loadCert ∨ fault = some .loadKey ∨
    ∀ bytes, key = some bytes → ¬ tls.Match req.cert bytes

/-- The inputs on which a call does harm. -/
inductive Breaks (tls : Tls) (req : SaveRequest) (disk : Disk) (fault : Option Fault) : Prop
  | exits (stays : req.rotateKey = false) (owner : ExitsOnKey req disk fault)
  | keyUnowned (rotates : req.rotateKey = true) (paired : disk.Paired tls req)
      (fails : fault = some (.writeKey .chown)) (due : req.chowns = true)
      (apart : ¬ Allowed tls req disk (disk.content req.certFile) (some req.key))
  | keyAlone (rotates : req.rotateKey = true) (paired : disk.Paired tls req)
      (fails : fault = some (.writeCert f)) (early : f ≠ .chown)
      (stops : f.stops true req.chowns = true)
      (apart : ¬ Allowed tls req disk (disk.content req.certFile) (some req.key))
  | certUnowned (stays : req.rotateKey = false) (paired : disk.Paired tls req)
      (fails : fault = some (.writeCert .chown)) (due : req.chowns = true)
      (apart : ¬ Allowed tls req disk (some req.cert) (disk.content req.keyFile))
  | rotatedUnread (rotates : req.rotateKey = true)
      (cert : (disk.content req.certFile).isSome = true)
      (key : (disk.content req.keyFile).isSome = true)
      (fails : fault = some .loadCert ∨ fault = some .loadKey)
  | restored (stays : req.rotateKey = false) (reaches : ReachesCheck req disk fault)
      (inUse : KeyInUse req disk fault key) (unloadable : Unloadable tls req fault key)
      (restores : Restores req disk fault)
  | halfRestored (stays : req.rotateKey = false) (paired : disk.Paired tls req)
      (reaches : ReachesCheck req disk fault)
      (unloadable : Unloadable tls req fault (disk.content req.keyFile))
      (halfway : StopsHalfway (disk.content req.backUpCertFile)
        (disk.content req.backUpKeyFile) (some req.cert) (disk.content req.keyFile) fault cert key)
      (apart : ¬ Allowed tls req disk cert key)

variable {tls : Tls} {req : SaveRequest} {disk : Disk} {fault : Option Fault}

theorem Allowed.paired {after : Disk} (hpaired : disk.Paired tls req)
    (h : Allowed tls req disk (after.content req.certFile) (after.content req.keyFile)) :
    after.Paired tls req := by
  rcases h with ⟨hcert, hkey⟩ | ⟨hcert, key, hkey, hmatch⟩
  · obtain ⟨cert, key, hold, holdKey, hmatch⟩ := hpaired
    exact ⟨cert, key, hcert.trans hold, hkey.trans holdKey, hmatch⟩
  · exact ⟨req.cert, key, hcert, hkey, hmatch⟩

/-- A call that ends with an error leaves a pair that is allowed. -/
theorem keeps_failed {after : Disk} {err : SaveError}
    (h : disk.Paired tls req →
      Allowed tls req disk (after.content req.certFile) (after.content req.keyFile)) :
    Keeps tls req disk (after, .returned (some err)) where
  returns := ⟨_, rfl⟩
  pair hpaired := ⟨(h hpaired).paired hpaired, h hpaired⟩
  saved hnone := by cases hnone

theorem keeps_unchanged {after : Disk} {err : SaveError}
    (hcert : after.content req.certFile = disk.content req.certFile)
    (hkey : after.content req.keyFile = disk.content req.keyFile) :
    Keeps tls req disk (after, .returned (some err)) :=
  keeps_failed fun _ => .inl ⟨hcert, hkey⟩

theorem keeps_saved {after : Disk} {key : Bytes}
    (hcert : after.content req.certFile = some req.cert)
    (hkey : after.content req.keyFile = some key) (hmatch : tls.Match req.cert key) :
    Keeps tls req disk (after, .returned none) where
  returns := ⟨_, rfl⟩
  pair hpaired :=
    have h : Allowed tls req disk (after.content req.certFile) (after.content req.keyFile) :=
      .inr ⟨hcert, key, hkey, hmatch⟩
    ⟨h.paired hpaired, h⟩
  saved _ := ⟨hcert, key, hkey, hmatch⟩

theorem not_keeps_panicked {after : Disk} : ¬ Keeps tls req disk (after, .panicked) := by
  rintro ⟨⟨err, herr⟩, -, -⟩
  cases herr

theorem not_keeps_apart {after : Disk × Ending} (hpaired : disk.Paired tls req)
    (h : ¬ Allowed tls req disk (after.1.content req.certFile) (after.1.content req.keyFile)) :
    ¬ Keeps tls req disk after :=
  fun hkeeps => h (hkeeps.pair hpaired).2

theorem validate_match (hlawful : tls.Lawful) (h : tls.Match req.cert req.key) :
    validate tls req = none := by
  obtain ⟨chain, hchain⟩ := Option.isSome_iff_exists.1 h
  obtain ⟨leaf, rest, rfl, hleaf⟩ := hlawful.leaf _ _ _ hchain
  simp only [validate, hchain, hleaf, if_true]

theorem validate_mismatch (h : ¬ tls.Match req.cert req.key) :
    validate tls req = some (.returned (some (.doNotMatch req.keyPrefix))) := by
  have hnone : tls.x509KeyPair req.cert req.key = none := by
    simpa only [Tls.Match, Option.not_isSome_iff_eq_none] using h
  simp only [validate, hnone]

theorem load_unloadable {key : Option Bytes} (hcert : disk.content req.certFile = some req.cert)
    (hkey : disk.content req.keyFile = key) (h : Unloadable tls req fault key) :
    loadX509KeyPair tls disk req.certFile req.keyFile fault = none := by
  rcases h with rfl | rfl | h
  · rfl
  · simp [loadX509KeyPair, hcert]
  · cases key with
    | none => simp [loadX509KeyPair, hcert, hkey]
    | some bytes =>
      have hnone : tls.x509KeyPair req.cert bytes = none := by
        simpa only [Tls.Match, Option.not_isSome_iff_eq_none] using h bytes rfl
      simp [loadX509KeyPair, hcert, hkey, hnone]

theorem load_loadable {key : Option Bytes} (hcert : disk.content req.certFile = some req.cert)
    (hkey : disk.content req.keyFile = key) (h : ¬ Unloadable tls req fault key) :
    ∃ bytes chain, key = some bytes ∧ tls.Match req.cert bytes ∧
      loadX509KeyPair tls disk req.certFile req.keyFile fault = some chain ∧
      tls.x509KeyPair req.cert bytes = some chain := by
  simp only [Unloadable, not_or, not_forall, not_not] at h
  obtain ⟨hloadCert, hloadKey, bytes, rfl, hmatch⟩ := h
  obtain ⟨chain, hchain⟩ := Option.isSome_iff_exists.1 hmatch
  refine ⟨bytes, chain, rfl, hmatch, ?_, hchain⟩
  simp [loadX509KeyPair, hloadCert, hloadKey, hcert, hkey, hchain]

theorem checkStep_loadable {key : Option Bytes} (hlawful : tls.Lawful)
    (hcert : disk.content req.certFile = some req.cert)
    (hkey : disk.content req.keyFile = key) (h : ¬ Unloadable tls req fault key) :
    ∃ bytes, key = some bytes ∧ tls.Match req.cert bytes ∧
      checkStep tls req disk fault = (disk, .returned none) := by
  obtain ⟨bytes, chain, hbytes, hmatch, hload, hchain⟩ := load_loadable hcert hkey h
  obtain ⟨leaf, rest, rfl, hleaf⟩ := hlawful.leaf _ _ _ hchain
  exact ⟨bytes, hbytes, hmatch, by simp only [checkStep, hload, hleaf, if_true]⟩

theorem checkStep_restores {key : Option Bytes} (hfour : req.FourFiles)
    (hcert : disk.content req.certFile = some req.cert)
    (hkey : disk.content req.keyFile = key) (h : Unloadable tls req fault key)
    (hrestores : Restores req disk fault) :
    (checkStep tls req disk fault).2 = .panicked := by
  simp only [checkStep, load_unloadable hcert hkey h, restoreBackUp_restores hfour hrestores,
    Bool.not_true, Bool.false_eq_true, if_false]

theorem checkStep_halfway {key certLeft keyLeft : Option Bytes} (hfour : req.FourFiles)
    (hcert : disk.content req.certFile = some req.cert)
    (hkey : disk.content req.keyFile = key) (h : Unloadable tls req fault key)
    (hhalf : StopsHalfway (disk.content req.backUpCertFile) (disk.content req.backUpKeyFile)
      (some req.cert) key fault certLeft keyLeft) :
    ∃ after, checkStep tls req disk fault = (after, .returned (some .fileOperation)) ∧
      after.content req.certFile = certLeft ∧ after.content req.keyFile = keyLeft := by
  subst hkey
  rw [← hcert] at hhalf
  obtain ⟨hfails, hcertLeft, hkeyLeft⟩ := restoreBackUp_halfway hfour hhalf
  refine ⟨(restoreBackUp req disk fault).1, ?_, hcertLeft, hkeyLeft⟩
  simp only [checkStep, load_unloadable hcert rfl h, hfails, Bool.not_false, if_true, returnFile]

end Pairs

section Calls

variable {tls : Tls} {req : SaveRequest} {disk : Disk} {fault : Option Fault}

theorem updateFile_passes {name : Str} {contents : Bytes} {chowns : Bool}
    {failed : Option UpdateFault} (hne : contents ≠ [])
    (h : failed.any (UpdateFault.stops (disk.content name).isSome chowns) = false) :
    updateFile disk name contents chowns failed = (disk.put name (some contents), true) := by
  have hu : Updates disk name contents chowns failed
    (updateFile disk name contents chowns failed) := updateFile_updates hne
  generalize updateFile disk name contents chowns failed = result at hu
  cases hu with
  | created bytes absent stops =>
    rw [absent] at h
    exact absurd (h.symm.trans stops) Bool.false_ne_true
  | kept present fails early stops =>
    rw [fails, present] at h
    exact absurd (h.symm.trans stops) Bool.false_ne_true
  | unowned fails due =>
    subst fails due
    cases h
  | done passes => rfl

theorem updateFile_unowned {name : Str} {contents : Bytes} (hne : contents ≠ [])
    (hpresent : (disk.content name).isSome = true) :
    updateFile disk name contents true (some .chown) =
      (disk.put name (some contents), false) := by
  have hu : Updates disk name contents true (some .chown)
    (updateFile disk name contents true (some .chown)) := updateFile_updates hne
  generalize updateFile disk name contents true (some .chown) = result at hu
  cases hu with
  | created bytes absent stops => rw [absent] at hpresent; cases hpresent
  | kept present fails early stops => cases fails; exact absurd rfl early
  | unowned fails due => rfl
  | done passes => cases passes

theorem updateFile_kept {name : Str} {contents : Bytes} {chowns : Bool} {failed : UpdateFault}
    (hne : contents ≠ []) (hpresent : (disk.content name).isSome = true)
    (hearly : failed ≠ .chown) (hstops : failed.stops true chowns = true) :
    updateFile disk name contents chowns (some failed) = (disk, false) := by
  have hu : Updates disk name contents chowns (some failed)
    (updateFile disk name contents chowns (some failed)) := updateFile_updates hne
  generalize updateFile disk name contents chowns (some failed) = result at hu
  cases hu with
  | created bytes absent stops => rw [absent] at hpresent; cases hpresent
  | kept present fails early stops => rfl
  | unowned fails due => cases fails; exact absurd rfl hearly
  | done passes =>
    rw [hpresent] at passes
    exact absurd (passes.symm.trans hstops) Bool.false_ne_true

theorem saveCertKey_goes (hlawful : tls.Lawful) (hmatch : tls.Match req.cert req.key)
    {after : Disk} (h : keyStep req disk fault = (after, none)) :
    saveCertKey tls req disk fault = certStep tls req after fault := by
  simp only [saveCertKey, validate_match hlawful hmatch, h]

theorem saveCertKey_ends (hlawful : tls.Lawful) (hmatch : tls.Match req.cert req.key)
    {after : Disk} {ending : Ending} (h : keyStep req disk fault = (after, some ending)) :
    saveCertKey tls req disk fault = (after, ending) := by
  simp only [saveCertKey, validate_match hlawful hmatch, h]

theorem certStep_passes (hne : req.cert ≠ [])
    (h : (onWriteCert fault).any
      (UpdateFault.stops (disk.content req.certFile).isSome req.chowns) = false) :
    certStep tls req disk fault =
      checkStep tls req (disk.put req.certFile (some req.cert)) fault := by
  simp only [certStep, updateFile_passes hne h, Bool.not_true, Bool.false_eq_true, if_false]

/-- The key is rotated only once both files have been copied. -/
theorem keyStep_rotates (disk : Disk) (fault : Option Fault) (hfour : req.FourFiles)
    (hrotates : req.rotateKey = true) :
    (∃ after, keyStep req disk fault = (after, some (.returned (some .fileOperation))) ∧
      after.content req.certFile = disk.content req.certFile ∧
      after.content req.keyFile = disk.content req.keyFile) ∨
    ∃ backed, keyStep req disk fault =
        (if !(writeKey req backed fault).2 then
          ((writeKey req backed fault).1, some (.returned (some .fileOperation)))
        else ((writeKey req backed fault).1, none)) ∧
      backed.content req.certFile = disk.content req.certFile ∧
      backed.content req.keyFile = disk.content req.keyFile ∧
      (disk.content req.certFile).isSome = true ∧ (disk.content req.keyFile).isSome = true ∧
      (backed.content req.backUpCertFile).isSome = true ∧
      (backed.content req.backUpKeyFile).isSome = true := by
  have hensured : (ensureBackUpDir disk fault).1.content = disk.content := by
    unfold ensureBackUpDir
    split_ifs <;> rfl
  cases hdir : (ensureBackUpDir disk fault).2 with
  | false =>
    refine .inl ⟨_, ?_, congrFun hensured _, congrFun hensured _⟩
    simp only [keyStep, hrotates, hdir, if_true, Bool.not_false]
  | true =>
    obtain ⟨hcert, hkey⟩ :=
      takeBackUp_keeps (ensureBackUpDir disk fault).1 fault hfour
    rw [hensured] at hcert hkey
    cases hbacked : (takeBackUp req (ensureBackUpDir disk fault).1 fault).2 with
    | false =>
      refine .inl ⟨_, ?_, hcert, hkey⟩
      simp only [keyStep, hrotates, hdir, hbacked, if_true, Bool.not_true, Bool.false_eq_true,
        if_false, Bool.not_false]
    | true =>
      have hdone := takeBackUp_done hfour hbacked
      rw [hensured] at hdone
      refine .inr ⟨_, ?_, hcert, hkey, hdone⟩
      simp only [keyStep, hrotates, hdir, hbacked, if_true, Bool.not_true, Bool.false_eq_true,
        if_false]

theorem keyStep_backsUp (fault : Option Fault) (hfour : req.FourFiles)
    (hrotates : req.rotateKey = true)
    (hcert : (disk.content req.certFile).isSome = true)
    (hkey : (disk.content req.keyFile).isSome = true) (hstat : fault ≠ some .backUpDirStat)
    (hmake : fault ≠ some .backUpDirMake) (hcertFault : onBackUpCert fault = none)
    (hkeyFault : onBackUpKey fault = none) :
    ∃ backed, keyStep req disk fault =
        (if !(writeKey req backed fault).2 then
          ((writeKey req backed fault).1, some (.returned (some .fileOperation)))
        else ((writeKey req backed fault).1, none)) ∧
      backed.content req.certFile = disk.content req.certFile ∧
      backed.content req.keyFile = disk.content req.keyFile ∧
      (backed.content req.backUpCertFile).isSome = true ∧
      (backed.content req.backUpKeyFile).isSome = true := by
  have hensured : ensureBackUpDir disk fault = ({ disk with backUpDir := true }, true) := by
    cases disk with
    | mk content backUpDir => cases backUpDir <;> simp [ensureBackUpDir, hstat, hmake]
  have hbacked : (takeBackUp req { disk with backUpDir := true } fault).2 = true :=
    takeBackUp_succeeds hfour rfl hcert hkey hcertFault hkeyFault
  obtain ⟨hcertKept, hkeyKept⟩ :=
    takeBackUp_keeps { disk with backUpDir := true } fault hfour
  obtain ⟨-, -, hbackUps⟩ := takeBackUp_done hfour hbacked
  refine ⟨_, ?_, hcertKept, hkeyKept, hbackUps⟩
  simp only [keyStep, hrotates, hensured, hbacked, if_true, Bool.not_true, Bool.false_eq_true,
    if_false]

end Calls

section Results

variable {tls : Tls} {req : SaveRequest} {disk : Disk} {fault : Option Fault}

theorem onWriteCert_eq {failed : UpdateFault} (h : onWriteCert fault = some failed) :
    fault = some (.writeCert failed) := by
  unfold onWriteCert at h
  split at h
  · cases h; rfl
  · cases h

theorem onWriteKey_eq {failed : UpdateFault} (h : onWriteKey fault = some failed) :
    fault = some (.writeKey failed) := by
  unfold onWriteKey at h
  split at h
  · cases h; rfl
  · cases h

/-- Once the new key is in place beside its backups, only the certificate is at stake. -/
theorem certStep_rotated (hlawful : tls.Lawful) (hfour : req.FourFiles)
    (hmatch : tls.Match req.cert req.key) (hrotates : req.rotateKey = true) {written : Disk}
    (hcert : written.content req.certFile = disk.content req.certFile)
    (hkey : written.content req.keyFile = some req.key)
    (hcertThere : (disk.content req.certFile).isSome = true)
    (hkeyThere : (disk.content req.keyFile).isSome = true)
    (h : ¬ Breaks tls req disk fault) :
    Keeps tls req disk (certStep tls req written fault) := by
  have hu : Updates written req.certFile req.cert req.chowns (onWriteCert fault)
    (updateFile written req.certFile req.cert req.chowns (onWriteCert fault)) :=
    updateFile_updates (hlawful.cert_ne _ _ hmatch)
  unfold certStep
  generalize updateFile written req.certFile req.cert req.chowns (onWriteCert fault) = result
    at hu
  have hkeyPut : (written.put req.certFile (some req.cert)).content req.keyFile =
      some req.key := by
    rw [Disk.put_other hfour.certKey.symm, hkey]
  cases hu with
  | created bytes absent stops => rw [hcert] at absent; rw [absent] at hcertThere; cases hcertThere
  | kept present fails early stops =>
    refine keeps_failed fun hpaired => ?_
    rw [hcert, hkey]
    by_contra hapart
    exact h (.keyAlone hrotates hpaired (onWriteCert_eq fails) early stops hapart)
  | unowned fails due =>
    exact keeps_failed fun _ => .inr ⟨Disk.put_self _ _ _, _, hkeyPut, hmatch⟩
  | done passes =>
    have hloads : ¬ Unloadable tls req fault (some req.key) := by
      rintro (hload | hload | hmismatch)
      · exact h (.rotatedUnread hrotates hcertThere hkeyThere (.inl hload))
      · exact h (.rotatedUnread hrotates hcertThere hkeyThere (.inr hload))
      · exact hmismatch _ rfl hmatch
    obtain ⟨bytes, hbytes, hbytesMatch, hcheck⟩ :=
      checkStep_loadable hlawful (Disk.put_self _ _ _) hkeyPut hloads
    simp only [Bool.not_true, Bool.false_eq_true, if_false, hcheck]
    exact keeps_saved (Disk.put_self _ _ _) (hkeyPut.trans hbytes) hbytesMatch

theorem rotating_keeps (hlawful : tls.Lawful) (hfour : req.FourFiles)
    (hmatch : tls.Match req.cert req.key) (hrotates : req.rotateKey = true)
    (h : ¬ Breaks tls req disk fault) : Keeps tls req disk (saveCertKey tls req disk fault) := by
  rcases keyStep_rotates disk fault hfour hrotates with
    ⟨after, hstep, hcert, hkey⟩ | ⟨backed, hstep, hcert, hkey, hcertThere, hkeyThere, -, -⟩
  · rw [saveCertKey_ends hlawful hmatch hstep]
    exact keeps_unchanged hcert hkey
  · have hu : Updates backed req.keyFile req.key req.chowns (onWriteKey fault)
      (writeKey req backed fault) := updateFile_updates (hlawful.key_ne _ _ hmatch)
    generalize writeKey req backed fault = result at hu hstep
    have hcertPut : (backed.put req.keyFile (some req.key)).content req.certFile =
        disk.content req.certFile := by
      rw [Disk.put_other hfour.certKey, hcert]
    cases hu with
    | created bytes absent stops =>
      rw [hkey] at absent
      rw [absent] at hkeyThere
      cases hkeyThere
    | kept present fails early stops =>
      rw [saveCertKey_ends hlawful hmatch hstep]
      exact keeps_unchanged hcert hkey
    | unowned fails due =>
      rw [saveCertKey_ends hlawful hmatch hstep]
      refine keeps_failed fun hpaired => ?_
      rw [hcertPut, Disk.put_self]
      by_contra hapart
      exact h (.keyUnowned hrotates hpaired (onWriteKey_eq fails) due hapart)
    | done passes =>
      rw [saveCertKey_goes hlawful hmatch hstep]
      exact certStep_rotated hlawful hfour hmatch hrotates hcertPut (Disk.put_self _ _ _)
        hcertThere hkeyThere h

/-- The certificate meets the key in use; what the check makes of them. -/
theorem certStep_staying (hlawful : tls.Lawful) (hfour : req.FourFiles)
    (hmatch : tls.Match req.cert req.key) (hstays : req.rotateKey = false) {met : Disk}
    {key : Option Bytes} (hcert : met.content req.certFile = disk.content req.certFile)
    (hkey : met.content req.keyFile = key)
    (hbackUpCert : met.content req.backUpCertFile = disk.content req.backUpCertFile)
    (hbackUpKey : met.content req.backUpKeyFile = disk.content req.backUpKeyFile)
    (hinUse : KeyInUse req disk fault key)
    (hcreates : Creates req disk fault →
      (onWriteKey fault).any (UpdateFault.stops false req.chowns) = false)
    (howner : ¬ ExitsOnKey req disk fault) (h : ¬ Breaks tls req disk fault) :
    Keeps tls req disk (certStep tls req met fault) := by
  have hsame : disk.Paired tls req → key = disk.content req.keyFile := by
    rintro ⟨cert, old, -, hold, -⟩
    rcases hinUse with ⟨⟨-, hmissing⟩, -⟩ | ⟨-, hkept⟩
    · simp only [fileExists, hold, Option.isSome_some, Bool.or_true, Bool.true_eq_false]
        at hmissing
    · exact hkept
  have hu : Updates met req.certFile req.cert req.chowns (onWriteCert fault)
    (updateFile met req.certFile req.cert req.chowns (onWriteCert fault)) :=
    updateFile_updates (hlawful.cert_ne _ _ hmatch)
  unfold certStep
  generalize updateFile met req.certFile req.cert req.chowns (onWriteCert fault) = result at hu
  have hkeyPut : (met.put req.certFile (some req.cert)).content req.keyFile = key := by
    rw [Disk.put_other hfour.certKey.symm, hkey]
  cases hu with
  | created bytes absent stops =>
    refine keeps_failed fun hpaired => ?_
    obtain ⟨cert, old, hold, -, -⟩ := hpaired
    rw [hcert, hold] at absent
    cases absent
  | kept present fails early stops =>
    exact keeps_failed fun hpaired => .inl ⟨hcert, hkey.trans (hsame hpaired)⟩
  | unowned fails due =>
    refine keeps_failed fun hpaired => ?_
    rw [Disk.put_self, hkeyPut, hsame hpaired]
    by_contra hapart
    exact h (.certUnowned hstays hpaired (onWriteCert_eq fails) due hapart)
  | done passes =>
    simp only [Bool.not_true, Bool.false_eq_true, if_false]
    rw [hcert] at passes
    have hreaches : ReachesCheck req disk fault := ⟨hcreates, howner, passes⟩
    by_cases hunloadable : Unloadable tls req fault key
    · have hrestores : ¬ Restores req disk fault := fun hrestores =>
        h (.restored hstays hreaches hinUse hunloadable hrestores)
      obtain ⟨certLeft, keyLeft, hhalf⟩ :=
        (restores_or_halfway req disk (some req.cert) key fault).resolve_left hrestores
      have hhalfPut := hhalf
      rw [← hbackUpCert, ← hbackUpKey, ← Disk.put_other hfour.certBackUpCert.symm,
        ← Disk.put_other hfour.certBackUpKey.symm] at hhalfPut
      obtain ⟨after, hcheck, hcertLeft, hkeyLeft⟩ :=
        checkStep_halfway hfour (Disk.put_self _ _ _) hkeyPut hunloadable hhalfPut
      rw [hcheck]
      refine keeps_failed fun hpaired => ?_
      rw [hcertLeft, hkeyLeft]
      by_contra hapart
      rw [hsame hpaired] at hhalf hunloadable
      exact h (.halfRestored hstays hpaired hreaches hunloadable hhalf hapart)
    · obtain ⟨bytes, hbytes, hbytesMatch, hcheck⟩ :=
        checkStep_loadable hlawful (Disk.put_self _ _ _) hkeyPut hunloadable
      rw [hcheck]
      exact keeps_saved (Disk.put_self _ _ _) (hkeyPut.trans hbytes) hbytesMatch

theorem keyStep_creates (hstays : req.rotateKey = false) (h : Creates req disk fault) :
    keyStep req disk fault =
      if !(writeKey req disk fault).2 then
        ((writeKey req disk fault).1, some (.returned (some .fileOperation)))
      else ((writeKey req disk fault).1, none) := by
  simp only [keyStep, hstays, h.1, h.2, Bool.false_eq_true, if_false, Bool.not_false,
    Bool.and_self, if_true]

theorem keyStep_elsewhere (hstays : req.rotateKey = false) (h : ¬ Creates req disk fault) :
    keyStep req disk fault =
      if fileExists disk req.keyFile (fault = some .keyStatAgain) then
        if updateKey disk req.keyFile req.uid req.gid fault then (disk, none)
        else (disk, some .exited)
      else (disk, none) := by
  have hcreates :
      ¬ (req.createKey && !fileExists disk req.keyFile (fault = some .keyStat)) = true := by
    rwa [Bool.and_eq_true, Bool.not_eq_true']
  simp only [keyStep, hstays, Bool.false_eq_true, if_false, hcreates]

theorem keyStep_keeps (hstays : req.rotateKey = false) (h : ¬ Creates req disk fault)
    (howner : ¬ ExitsOnKey req disk fault) : keyStep req disk fault = (disk, none) := by
  rw [keyStep_elsewhere hstays h]
  split_ifs with hexists hupdated
  · rfl
  · exact absurd ⟨h, hexists, Bool.eq_false_iff.2 hupdated⟩ howner
  · rfl

theorem keyStep_exits (hstays : req.rotateKey = false) (howner : ExitsOnKey req disk fault) :
    keyStep req disk fault = (disk, some .exited) := by
  obtain ⟨hcreates, hexists, hupdated⟩ := howner
  rw [keyStep_elsewhere hstays hcreates, if_pos hexists, hupdated]
  rfl

theorem Creates.absent (h : Creates req disk fault) : disk.content req.keyFile = none := by
  obtain ⟨-, hmissing⟩ := h
  simp only [fileExists, Bool.or_eq_false_iff, Option.isSome_eq_false_iff,
    Option.isNone_iff_eq_none] at hmissing
  exact hmissing.2

theorem Creates.not_paired (h : Creates req disk fault) : ¬ disk.Paired tls req := by
  rintro ⟨cert, key, -, hkey, -⟩
  rw [h.absent] at hkey
  cases hkey

theorem staying_keeps (hlawful : tls.Lawful) (hfour : req.FourFiles)
    (hmatch : tls.Match req.cert req.key) (hstays : req.rotateKey = false)
    (h : ¬ Breaks tls req disk fault) : Keeps tls req disk (saveCertKey tls req disk fault) := by
  by_cases hcreates : Creates req disk fault
  · have hstep := keyStep_creates hstays hcreates
    have hu : Updates disk req.keyFile req.key req.chowns (onWriteKey fault)
      (writeKey req disk fault) := updateFile_updates (hlawful.key_ne _ _ hmatch)
    generalize writeKey req disk fault = result at hu hstep
    cases hu with
    | created bytes absent stops =>
      rw [saveCertKey_ends hlawful hmatch hstep]
      exact keeps_failed fun hpaired => absurd hpaired hcreates.not_paired
    | kept present fails early stops => rw [hcreates.absent] at present; cases present
    | unowned fails due =>
      rw [saveCertKey_ends hlawful hmatch hstep]
      exact keeps_failed fun hpaired => absurd hpaired hcreates.not_paired
    | done passes =>
      rw [saveCertKey_goes hlawful hmatch hstep]
      rw [hcreates.absent] at passes
      exact certStep_staying hlawful hfour hmatch hstays (Disk.put_other hfour.certKey)
        (Disk.put_self _ _ _) (Disk.put_other hfour.keyBackUpCert.symm)
        (Disk.put_other hfour.keyBackUpKey.symm) (.inl ⟨hcreates, rfl⟩) (fun _ => passes)
        (fun hexits => hexits.1 hcreates) h
  · have howner : ¬ ExitsOnKey req disk fault := fun howner => h (.exits hstays howner)
    rw [saveCertKey_goes hlawful hmatch (keyStep_keeps hstays hcreates howner)]
    exact certStep_staying hlawful hfour hmatch hstays rfl rfl rfl rfl (.inr ⟨hcreates, rfl⟩)
      (fun hcreated => absurd hcreated hcreates) howner h

/-- The disk that the last check meets where keys are not rotated. -/
theorem certStep_reached (hlawful : tls.Lawful) (hfour : req.FourFiles)
    (hmatch : tls.Match req.cert req.key) (hstays : req.rotateKey = false)
    (hreaches : ReachesCheck req disk fault) {key : Option Bytes}
    (hinUse : KeyInUse req disk fault key) :
    ∃ met, saveCertKey tls req disk fault = checkStep tls req met fault ∧
      met.content req.certFile = some req.cert ∧ met.content req.keyFile = key ∧
      met.content req.backUpCertFile = disk.content req.backUpCertFile ∧
      met.content req.backUpKeyFile = disk.content req.backUpKeyFile := by
  have hcertNe : req.cert ≠ [] := hlawful.cert_ne _ _ hmatch
  rcases hinUse with ⟨hcreates, rfl⟩ | ⟨hcreates, rfl⟩
  · have hpasses := hreaches.key hcreates
    have hwritten : writeKey req disk fault = (disk.put req.keyFile (some req.key), true) :=
      updateFile_passes (hlawful.key_ne _ _ hmatch) (by rw [hcreates.absent]; exact hpasses)
    have hstep : keyStep req disk fault = (disk.put req.keyFile (some req.key), none) := by
      rw [keyStep_creates hstays hcreates, hwritten]
      rfl
    have hcertPut : (disk.put req.keyFile (some req.key)).content req.certFile =
        disk.content req.certFile := Disk.put_other hfour.certKey
    have hcertPasses := hreaches.cert
    rw [← hcertPut] at hcertPasses
    refine ⟨_, (saveCertKey_goes hlawful hmatch hstep).trans (certStep_passes hcertNe hcertPasses),
      Disk.put_self _ _ _, ?_, ?_, ?_⟩
    · rw [Disk.put_other hfour.certKey.symm, Disk.put_self]
    · rw [Disk.put_other hfour.certBackUpCert.symm, Disk.put_other hfour.keyBackUpCert.symm]
    · rw [Disk.put_other hfour.certBackUpKey.symm, Disk.put_other hfour.keyBackUpKey.symm]
  · have hstep := keyStep_keeps hstays hcreates hreaches.owner
    exact ⟨_, (saveCertKey_goes hlawful hmatch hstep).trans (certStep_passes hcertNe hreaches.cert),
      Disk.put_self _ _ _, Disk.put_other hfour.certKey.symm,
      Disk.put_other hfour.certBackUpCert.symm, Disk.put_other hfour.certBackUpKey.symm⟩

theorem not_creates_of_paired (h : disk.Paired tls req) : ¬ Creates req disk fault :=
  fun hcreates => hcreates.not_paired h

theorem Disk.Paired.there (h : disk.Paired tls req) :
    (disk.content req.certFile).isSome = true ∧ (disk.content req.keyFile).isSome = true := by
  obtain ⟨cert, key, hcert, hkey, -⟩ := h
  rw [hcert, hkey]
  exact ⟨rfl, rfl⟩

theorem updateKey_present (hkey : (disk.content req.keyFile).isSome = true)
    (hchown : fault ≠ some .chownKey) (hchmod : fault ≠ some .chmodKey) :
    updateKey disk req.keyFile req.uid req.gid fault = true := by
  obtain ⟨key, hkey⟩ := Option.isSome_iff_exists.1 hkey
  simp [updateKey, hkey, hchown, hchmod]

/-- A file that cannot be loaded is the one failure of the call. -/
theorem unread_elsewhere (h : fault = some .loadCert ∨ fault = some .loadKey) :
    fault ≠ some .backUpDirStat ∧ fault ≠ some .backUpDirMake ∧ onBackUpCert fault = none ∧
      onBackUpKey fault = none ∧ onWriteKey fault = none ∧ onWriteCert fault = none ∧
      onRestoreCert fault = none ∧ onRestoreKey fault = none := by
  rcases h with rfl | rfl <;> exact ⟨by simp, by simp, rfl, rfl, rfl, rfl, rfl, rfl⟩

theorem breaks_harms (hlawful : tls.Lawful) (hfour : req.FourFiles)
    (hmatch : tls.Match req.cert req.key) (h : Breaks tls req disk fault) :
    ¬ Keeps tls req disk (saveCertKey tls req disk fault) := by
  have hcertNe : req.cert ≠ [] := hlawful.cert_ne _ _ hmatch
  have hkeyNe : req.key ≠ [] := hlawful.key_ne _ _ hmatch
  cases h with
  | exits stays owner =>
    rw [saveCertKey_ends hlawful hmatch (keyStep_exits stays owner)]
    rintro ⟨⟨err, herr⟩, -, -⟩
    cases herr
  | keyUnowned rotates paired fails due apart =>
    subst fails
    obtain ⟨backed, hstep, hcert, hkey, -, -⟩ :=
      keyStep_backsUp (some (.writeKey .chown)) hfour rotates paired.there.1
        paired.there.2 (by simp) (by simp) rfl rfl
    have hwritten : writeKey req backed (some (.writeKey .chown)) =
        (backed.put req.keyFile (some req.key), false) := by
      rw [writeKey, due]
      exact updateFile_unowned hkeyNe (by rw [hkey]; exact paired.there.2)
    rw [hwritten] at hstep
    rw [saveCertKey_ends hlawful hmatch hstep]
    refine not_keeps_apart paired ?_
    rwa [Disk.put_self, Disk.put_other hfour.certKey, hcert]
  | keyAlone rotates paired fails early stops apart =>
    subst fails
    rename_i failed
    obtain ⟨backed, hstep, hcert, hkey, -, -⟩ :=
      keyStep_backsUp (some (.writeCert failed)) hfour rotates paired.there.1
        paired.there.2 (by simp) (by simp) rfl rfl
    have hwritten : writeKey req backed (some (.writeCert failed)) =
        (backed.put req.keyFile (some req.key), true) := updateFile_passes hkeyNe rfl
    rw [hwritten] at hstep
    have hcertPut : (backed.put req.keyFile (some req.key)).content req.certFile =
        disk.content req.certFile := by
      rw [Disk.put_other hfour.certKey, hcert]
    have hpresent :
        ((backed.put req.keyFile (some req.key)).content req.certFile).isSome = true := by
      rw [hcertPut]
      exact paired.there.1
    have hkept := updateFile_kept hcertNe hpresent early stops
    rw [saveCertKey_goes hlawful hmatch hstep, certStep, onWriteCert, hkept]
    refine not_keeps_apart paired ?_
    simpa only [Bool.not_false, if_true, returnFile, hcertPut, Disk.put_self] using apart
  | certUnowned stays paired fails due apart =>
    subst fails
    have howner : ¬ ExitsOnKey req disk (some (.writeCert .chown)) := by
      rintro ⟨-, -, hupdated⟩
      rw [updateKey_present paired.there.2 (by simp) (by simp)] at hupdated
      cases hupdated
    have hwritten : updateFile disk req.certFile req.cert req.chowns (some .chown) =
        (disk.put req.certFile (some req.cert), false) := by
      rw [due]
      exact updateFile_unowned hcertNe paired.there.1
    rw [saveCertKey_goes hlawful hmatch
      (keyStep_keeps stays (not_creates_of_paired paired) howner), certStep, onWriteCert,
      hwritten]
    refine not_keeps_apart paired ?_
    simpa only [Bool.not_false, if_true, returnFile, Disk.put_self,
      Disk.put_other hfour.certKey.symm] using apart
  | rotatedUnread rotates cert key fails =>
    obtain ⟨hstat, hmake, hbackUpCert, hbackUpKey, hwriteKey, hwriteCert, hrestoreCert,
      hrestoreKey⟩ := unread_elsewhere fails
    obtain ⟨backed, hstep, hcert, hkey, hcertThere, hkeyThere⟩ :=
      keyStep_backsUp fault hfour rotates cert key hstat hmake hbackUpCert hbackUpKey
    have hwritten : writeKey req backed fault = (backed.put req.keyFile (some req.key), true) :=
      updateFile_passes hkeyNe (by rw [hwriteKey]; rfl)
    rw [hwritten] at hstep
    rw [saveCertKey_goes hlawful hmatch hstep,
      certStep_passes hcertNe (by rw [hwriteCert]; rfl)]
    generalize hmet : (backed.put req.keyFile (some req.key)).put req.certFile
      (some req.cert) = met
    have hrestores : Restores req met fault := by
      rw [← hmet]
      refine ⟨?_, ?_, by rw [hrestoreCert]; rfl, by rw [hrestoreKey]; rfl⟩
      · rwa [Disk.put_other hfour.certBackUpCert.symm, Disk.put_other hfour.keyBackUpCert.symm]
      · rwa [Disk.put_other hfour.certBackUpKey.symm, Disk.put_other hfour.keyBackUpKey.symm]
    rw [← Prod.eta (checkStep tls req met fault), checkStep_restores hfour
      (by rw [← hmet, Disk.put_self]) rfl (fails.imp_right .inl) hrestores]
    exact not_keeps_panicked
  | restored stays reaches inUse unloadable restores =>
    obtain ⟨met, hcall, hcert, hkey, hbackUpCert, hbackUpKey⟩ :=
      certStep_reached hlawful hfour hmatch stays reaches inUse
    rw [Restores, ← hbackUpCert, ← hbackUpKey] at restores
    rw [hcall, ← Prod.eta (checkStep tls req met fault),
      checkStep_restores hfour hcert hkey unloadable restores]
    exact not_keeps_panicked
  | halfRestored stays paired reaches unloadable halfway apart =>
    obtain ⟨met, hcall, hcert, hkey, hbackUpCert, hbackUpKey⟩ :=
      certStep_reached hlawful hfour hmatch stays reaches
        (.inr ⟨not_creates_of_paired paired, rfl⟩)
    rw [← hbackUpCert, ← hbackUpKey] at halfway
    obtain ⟨after, hcheck, hcertLeft, hkeyLeft⟩ :=
      checkStep_halfway hfour hcert hkey unloadable halfway
    rw [hcall, hcheck]
    refine not_keeps_apart paired ?_
    rwa [hcertLeft, hkeyLeft]

/-- Exactly when a call that saves a certificate leaves the installed pair whole. -/
theorem saveCertKey_keeps_iff (hlawful : tls.Lawful) (hfour : req.FourFiles) :
    Keeps tls req disk (saveCertKey tls req disk fault) ↔
      (tls.Match req.cert req.key → ¬ Breaks tls req disk fault) := by
  constructor
  · intro hkeeps hmatch hbreaks
    exact breaks_harms hlawful hfour hmatch hbreaks hkeeps
  · intro h
    by_cases hmatch : tls.Match req.cert req.key
    · cases hrotates : req.rotateKey with
      | true => exact rotating_keeps hlawful hfour hmatch hrotates (h hmatch)
      | false => exact staying_keeps hlawful hfour hmatch hrotates (h hmatch)
    · simp only [saveCertKey, validate_mismatch hmatch]
      exact keeps_unchanged rfl rfl

/-- A key fits a certificate of the same text. -/
def sameText : Tls where
  x509KeyPair cert key := if cert = key ∧ cert ≠ [] then some [cert] else none
  parseCertificate _ := true

theorem sameText_match {cert key : Bytes} (h : sameText.Match cert key) :
    cert = key ∧ cert ≠ [] := by
  by_contra hne
  simp [Tls.Match, sameText, if_neg hne] at h

theorem sameText_lawful : sameText.Lawful where
  leaf cert key chain h := by
    have hmatch : sameText.Match cert key := by rw [Tls.Match, h]; rfl
    have hsame := sameText_match hmatch
    simp only [sameText, if_pos hsame, Option.some.injEq] at h
    exact ⟨cert, [], h.symm, rfl⟩
  cert_ne cert key h := (sameText_match h).2
  key_ne cert key h := (sameText_match h).1 ▸ (sameText_match h).2

def rotation : SaveRequest where
  key := [2]
  cert := [2]
  file := []
  keyPrefix := "athenz.api".toList
  certPrefix := "athenz.api".toList
  uid := 0
  gid := 0
  createKey := false
  rotateKey := true
  keyDir := "/sia/keys".toList
  certDir := "/sia/certs".toList
  backupDir := "/sia/backup".toList
  currentUid := 0
  currentGid := 0

theorem rotation_fourFiles : rotation.FourFiles := by
  constructor <;> decide

/-- A pair that matches, and its backups. -/
def installed : Disk where
  content name :=
    if name ∈ [rotation.certFile, rotation.keyFile, rotation.backUpCertFile,
      rotation.backUpKeyFile] then some [1] else none
  backUpDir := true

theorem rotation_keeps_iff :
    Keeps sameText rotation installed (saveCertKey sameText rotation installed none) ↔
      (sameText.Match [2] [2] → ¬ Breaks sameText rotation installed none) :=
  saveCertKey_keeps_iff sameText_lawful rotation_fourFiles

/-- A rename that fails leaves the old certificate beside the new key; a new pair whose key is
not the installed one ends in a panic. -/
theorem new_key_beside_old_cert :
    installed.Paired sameText rotation ∧
      ¬ Keeps sameText rotation installed
        (saveCertKey sameText rotation installed (some (.writeCert .renameAway))) ∧
      (saveCertKey sameText { rotation with rotateKey := false } installed none).2 =
        .panicked := by
  refine ⟨⟨[1], [1], by decide, by decide, by decide⟩, ?_, by decide⟩
  intro hkeeps
  have hpaired : installed.Paired sameText rotation :=
    ⟨[1], [1], by decide, by decide, by decide⟩
  obtain ⟨cert, key, hcert, hkey, hmatch⟩ := (hkeeps.pair hpaired).1
  have hcertLeft : (saveCertKey sameText rotation installed
      (some (.writeCert .renameAway))).1.content rotation.certFile = some [1] := by decide
  have hkeyLeft : (saveCertKey sameText rotation installed
      (some (.writeCert .renameAway))).1.content rotation.keyFile = some [2] := by decide
  have hcertEq : [1] = cert := Option.some.inj (hcertLeft.symm.trans hcert)
  have hkeyEq : [2] = key := Option.some.inj (hkeyLeft.symm.trans hkey)
  have hsame := (sameText_match hmatch).1
  rw [← hcertEq, ← hkeyEq] at hsame
  cases hsame

end Results

end Athenz.Sia
