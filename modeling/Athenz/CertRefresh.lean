import Athenz.CertRecordStore
import Athenz.ZtsImpl

namespace Athenz.Zts.Cert
open Lib Lib.Text
set_option autoImplicit true

section Refresh

/-- What is read from a certificate; serial numbers are not negative. -/
structure Certificate where
  serialNumber : Nat
  notBefore : Int
  notAfter : Int
deriving DecidableEq

def Certificate.serial (cert : Certificate) : Str := Nat.toDigits 10 cert.serialNumber

/-- A refresh of the certificate of an instance; the service of the key is the principal. -/
structure RefreshRequest where
  key : RecordKey
  cert : Certificate
  remoteAddress : Str
  hostName : Option Str := none
  now : Int

def revokedSerial : Str := "-1"

variable (conn : CertRecordStoreConnection σ)

def insertX509CertRecord (request : RefreshRequest) (serial : Str) (certUsage : Bool) (expirationDate : Int)
    (store : σ) : Option X509CertRecord × σ :=
  let x509CertRecord : X509CertRecord := {
    provider := request.key.1
    instanceId := request.key.2.1
    service := request.key.2.2
    currentSerial := serial
    currentIP := request.remoteAddress
    currentTime := request.now
    prevSerial := serial
    prevIP := request.remoteAddress
    prevTime := request.now
    clientCert := certUsage
    expiryTime := some expirationDate
    hostName := request.hostName
    svcDataUpdateTime := some request.now }
  let (inserted, store) := conn.insertX509CertRecord request.now x509CertRecord store
  (if inserted then some x509CertRecord else none, store)

def revokeCertificateRefresh (now : Int) (x509CertRecord : X509CertRecord) (store : σ) : σ :=
  (conn.updateX509CertRecord now
    { x509CertRecord with prevSerial := revokedSerial, currentSerial := revokedSerial } store).2

/-- The record that is found, or inserted when the certificate was issued before the reset time. -/
def findX509CertRecord (x509CertRefreshResetTime : Int) (request : RefreshRequest) (store : σ) :
    Option X509CertRecord × σ :=
  match conn.getX509CertRecord request.key store with
  | some x509CertRecord => (some x509CertRecord, store)
  | none =>
    if request.cert.notBefore < x509CertRefreshResetTime then
      insertX509CertRecord conn request request.cert.serial false request.cert.notAfter store
    else (none, store)

/-- What the comparison of a certificate with the record comes to. -/
inductive Verdict where
  | valid (x509CertRecord : X509CertRecord)
  | mismatch
  | refused (failure : Failure)

/-- The comparison of `getValidatedX509CertRecord`: a current certificate becomes the previous one. -/
def compareSerials (x509CertRefreshResetTime : Int) (request : RefreshRequest)
    (x509CertRecord : X509CertRecord) : Verdict :=
  let principalName := request.key.2.2
  let serialNumber := request.cert.serial
  if principalName ≠ x509CertRecord.service then
    .refused (requestError ("service name mismatch - csr: " ++ principalName ++ " cert db: " ++
      x509CertRecord.service))
  else if x509CertRecord.currentSerial = serialNumber then
    .valid { x509CertRecord with
      prevIP := x509CertRecord.currentIP
      prevTime := x509CertRecord.currentTime
      prevSerial := x509CertRecord.currentSerial }
  else if x509CertRecord.prevSerial ≠ serialNumber ∧ request.cert.notBefore > x509CertRefreshResetTime then
    .mismatch
  else .valid x509CertRecord

def getValidatedX509CertRecord (x509CertRefreshResetTime : Int) (request : RefreshRequest) (store : σ) :
    Except Failure X509CertRecord × σ :=
  match findX509CertRecord conn x509CertRefreshResetTime request store with
  | (none, store) => (.error (forbiddenError "Unable to find certificate record"), store)
  | (some x509CertRecord, store) =>
    match compareSerials x509CertRefreshResetTime request x509CertRecord with
    | .refused failure => (.error failure, store)
    | .mismatch => (.error (forbiddenError "Certificate revoked"),
        revokeCertificateRefresh conn request.now x509CertRecord store)
    | .valid x509CertRecord => (.ok x509CertRecord, store)

def processCertRecordChange (request : RefreshRequest) (x509CertRecord : X509CertRecord) : X509CertRecord :=
  if x509CertRecord.currentIP ≠ request.remoteAddress ∨ x509CertRecord.hostName ≠ request.hostName then
    { x509CertRecord with svcDataUpdateTime := some request.now }
  else x509CertRecord

/-- The record with the details of a new certificate. -/
def refreshedRecord (request : RefreshRequest) (newCert : Certificate) (x509CertRecord : X509CertRecord) :
    X509CertRecord :=
  { processCertRecordChange request x509CertRecord with
    currentSerial := newCert.serial
    currentIP := request.remoteAddress
    currentTime := request.now
    expiryTime := some newCert.notAfter
    hostName := request.hostName }

/-- `processProviderX509RefreshRequest` once the provider has confirmed the request: check the record
unless the provider has the check turned off, sign, keep the new certificate. The signer is told whether
the record is for client use only. -/
def refreshConfirmed (x509CertRefreshResetTime : Int) (certRefreshCheck : Bool)
    (generateIdentity : Bool → Option Certificate) (request : RefreshRequest) (store : σ) :
    Except Failure Certificate × σ :=
  if !certRefreshCheck then
    match generateIdentity false with
    | none => (.error (serverError "unable to generate identity"), store)
    | some newCert => (.ok newCert, store)
  else
    match getValidatedX509CertRecord conn x509CertRefreshResetTime request store with
    | (.error failure, store) => (.error failure, store)
    | (.ok x509CertRecord, store) =>
      match generateIdentity x509CertRecord.clientCert with
      | none => (.error (serverError "unable to generate identity"), store)
      | some newCert =>
        match conn.updateX509CertRecord request.now (refreshedRecord request newCert x509CertRecord) store with
        | (false, store) => (.error (serverError "unable to update cert db"), store)
        | (true, store) => (.ok newCert, store)

end Refresh

section Serials

variable {conn : CertRecordStoreConnection σ} {key : RecordKey} {request : RefreshRequest} {store : σ}

/-- A store holds a record of a key with its two serial numbers, or none. -/
def Tracks (conn : CertRecordStoreConnection σ) (key : RecordKey) (store : σ) : Option (Str × Str) → Prop
  | none => conn.getX509CertRecord key store = none
  | some (current, previous) => ∃ x509CertRecord, conn.getX509CertRecord key store = some x509CertRecord ∧
      x509CertRecord.key = key ∧ x509CertRecord.currentSerial = current ∧
        x509CertRecord.prevSerial = previous

/-- The operations on the record of a key succeed, and keep its serial numbers. -/
structure KeepsSerials (conn : CertRecordStoreConnection σ) (key : RecordKey) : Prop where
  insert : ∀ now x509CertRecord store, x509CertRecord.key = key →
    (conn.insertX509CertRecord now x509CertRecord store).1 = true ∧
      Tracks conn key (conn.insertX509CertRecord now x509CertRecord store).2
        (some (x509CertRecord.currentSerial, x509CertRecord.prevSerial))
  update : ∀ now x509CertRecord store, x509CertRecord.key = key → conn.getX509CertRecord key store ≠ none →
    (conn.updateX509CertRecord now x509CertRecord store).1 = true ∧
      Tracks conn key (conn.updateX509CertRecord now x509CertRecord store).2
        (some (x509CertRecord.currentSerial, x509CertRecord.prevSerial))
  delete : ∀ store, conn.getX509CertRecord key (conn.deleteX509CertRecord key store).2 = none

/-- A request about the record of a key, with a certificate that was issued after the epoch. -/
structure RefreshRequest.About (key : RecordKey) (request : RefreshRequest) : Prop where
  key : request.key = key
  issued : 0 < request.cert.notBefore

theorem serial_ne_revokedSerial (cert : Certificate) : revokedSerial ≠ cert.serial := by
  intro hsame
  have hmem : '-' ∈ Nat.toDigits 10 cert.serialNumber := by
    rw [← Certificate.serial, ← hsame]
    decide
  exact absurd (Nat.isDigit_of_mem_toDigits (by decide) (by decide) hmem) (by decide)

theorem Tracks.get_ne_none (h : Tracks conn key store (some serials)) :
    conn.getX509CertRecord key store ≠ none := by
  obtain ⟨x509CertRecord, hget, _⟩ := h
  rw [hget]
  exact Option.some_ne_none _

theorem refreshedRecord_fields (request : RefreshRequest) (newCert : Certificate)
    (x509CertRecord : X509CertRecord) :
    (refreshedRecord request newCert x509CertRecord).key = x509CertRecord.key ∧
      (refreshedRecord request newCert x509CertRecord).currentSerial = newCert.serial ∧
      (refreshedRecord request newCert x509CertRecord).prevSerial = x509CertRecord.prevSerial := by
  unfold refreshedRecord processCertRecordChange
  split <;> exact ⟨rfl, rfl, rfl⟩

theorem insertX509CertRecord_tracks (hkeeps : KeepsSerials conn key) (hkey : request.key = key)
    (serial : Str) (certUsage : Bool) (expirationDate : Int) (store : σ) :
    ∃ x509CertRecord store', insertX509CertRecord conn request serial certUsage expirationDate store =
        (some x509CertRecord, store') ∧ x509CertRecord.key = key ∧
      x509CertRecord.currentSerial = serial ∧ x509CertRecord.prevSerial = serial ∧
      Tracks conn key store' (some (serial, serial)) := by
  simp only [insertX509CertRecord]
  generalize hrecord : X509CertRecord.mk _ _ _ _ _ _ _ _ _ _ _ _ _ _ _ = x509CertRecord
  have hfields : x509CertRecord.key = key ∧ x509CertRecord.currentSerial = serial ∧
      x509CertRecord.prevSerial = serial := by
    rw [← hrecord]
    exact ⟨hkey, rfl, rfl⟩
  obtain ⟨hrecordKey, hcurrent, hprevious⟩ := hfields
  obtain ⟨hok, htracks⟩ := hkeeps.insert request.now x509CertRecord store hrecordKey
  rw [hcurrent, hprevious] at htracks
  exact ⟨x509CertRecord, _, by rw [hok]; rfl, hrecordKey, hcurrent, hprevious, htracks⟩

/-- Without a record no refresh goes through, and none comes into being. -/
theorem refreshConfirmed_absent (generateIdentity : Bool → Option Certificate)
    (habout : request.About key) (h : Tracks conn key store none) :
    ∃ failure, refreshConfirmed conn 0 true generateIdentity request store = (.error failure, store) := by
  have hfind : findX509CertRecord conn 0 request store = (none, store) := by
    unfold findX509CertRecord
    rw [habout.key, show conn.getX509CertRecord key store = none from h]
    exact if_neg (Int.not_lt.2 (Int.le_of_lt habout.issued))
  unfold refreshConfirmed getValidatedX509CertRecord
  rw [hfind]
  exact ⟨_, rfl⟩

section Compare

variable {x509CertRecord : X509CertRecord} {x509CertRefreshResetTime : Int}

theorem compareSerials_accepted (hkey : request.key = x509CertRecord.key)
    (hserial : x509CertRecord.currentSerial = request.cert.serial ∨
      x509CertRecord.prevSerial = request.cert.serial) :
    ∃ valid, compareSerials x509CertRefreshResetTime request x509CertRecord = .valid valid ∧
      valid.key = x509CertRecord.key ∧ valid.prevSerial = request.cert.serial := by
  have hservice : ¬ request.key.2.2 ≠ x509CertRecord.service := not_not_intro (congrArg (·.2.2) hkey)
  unfold compareSerials
  dsimp only
  rw [if_neg hservice]
  by_cases hcurrent : x509CertRecord.currentSerial = request.cert.serial
  · rw [if_pos hcurrent]
    exact ⟨_, rfl, rfl, hcurrent⟩
  · have hprevious := hserial.resolve_left hcurrent
    rw [if_neg hcurrent, if_neg fun hboth => hboth.1 hprevious]
    exact ⟨_, rfl, rfl, hprevious⟩

theorem compareSerials_mismatch (hkey : request.key = x509CertRecord.key)
    (hissued : x509CertRefreshResetTime < request.cert.notBefore)
    (hcurrent : x509CertRecord.currentSerial ≠ request.cert.serial)
    (hprevious : x509CertRecord.prevSerial ≠ request.cert.serial) :
    compareSerials x509CertRefreshResetTime request x509CertRecord = .mismatch := by
  have hservice : ¬ request.key.2.2 ≠ x509CertRecord.service := not_not_intro (congrArg (·.2.2) hkey)
  unfold compareSerials
  dsimp only
  rw [if_neg hservice, if_neg hcurrent, if_pos ⟨hprevious, hissued⟩]

end Compare

/-- A refresh with one of the two serial numbers leaves the new one and its own. -/
theorem refreshConfirmed_accepted (generateIdentity : Bool → Option Certificate)
    (hkeeps : KeepsSerials conn key) (habout : request.About key)
    (h : Tracks conn key store (some (current, previous)))
    (hserial : current = request.cert.serial ∨ previous = request.cert.serial) :
    ∃ usage, (generateIdentity usage = none ∧ ∃ failure,
        refreshConfirmed conn 0 true generateIdentity request store = (.error failure, store)) ∨
      ∃ newCert, generateIdentity usage = some newCert ∧
        (refreshConfirmed conn 0 true generateIdentity request store).1 = .ok newCert ∧
        Tracks conn key (refreshConfirmed conn 0 true generateIdentity request store).2
          (some (newCert.serial, request.cert.serial)) := by
  obtain ⟨x509CertRecord, hget, hkey, rfl, rfl⟩ := h
  obtain ⟨valid, hcompare, hvalidKey, hprevious⟩ :=
    compareSerials_accepted (habout.key.trans hkey.symm) hserial
  have hvalid : getValidatedX509CertRecord conn 0 request store = (.ok valid, store) := by
    unfold getValidatedX509CertRecord findX509CertRecord
    rw [habout.key, hget]
    dsimp only
    rw [hcompare]
  refine ⟨valid.clientCert, ?_⟩
  unfold refreshConfirmed
  rw [if_neg (by decide), hvalid]
  dsimp only
  cases hsign : generateIdentity valid.clientCert with
  | none => exact .inl ⟨rfl, _, rfl⟩
  | some newCert =>
    obtain ⟨hsame, hnew, hkept⟩ := refreshedRecord_fields request newCert valid
    have hpresent : conn.getX509CertRecord key store ≠ none := by
      rw [hget]
      exact Option.some_ne_none _
    obtain ⟨hok, htracks⟩ := hkeeps.update request.now (refreshedRecord request newCert valid) store
      (hsame.trans (hvalidKey.trans hkey)) hpresent
    rw [hnew, hkept, hprevious] at htracks
    rcases hpair : conn.updateX509CertRecord request.now (refreshedRecord request newCert valid) store
      with ⟨answer, updated⟩
    rw [hpair] at hok htracks
    cases hok
    refine .inr ⟨newCert, rfl, ?_⟩
    dsimp only
    rw [hpair]
    exact ⟨rfl, htracks⟩

/-- A refresh with another serial number fails and revokes the record. -/
theorem refreshConfirmed_mismatch (generateIdentity : Bool → Option Certificate)
    (hkeeps : KeepsSerials conn key) (habout : request.About key)
    (h : Tracks conn key store (some (current, previous))) (hcurrent : current ≠ request.cert.serial)
    (hprevious : previous ≠ request.cert.serial) :
    ∃ failure revoked, refreshConfirmed conn 0 true generateIdentity request store =
        (.error failure, revoked) ∧ Tracks conn key revoked (some (revokedSerial, revokedSerial)) := by
  obtain ⟨x509CertRecord, hget, hkey, rfl, rfl⟩ := h
  have hpresent : conn.getX509CertRecord key store ≠ none := by
    rw [hget]
    exact Option.some_ne_none _
  unfold refreshConfirmed getValidatedX509CertRecord findX509CertRecord
  rw [if_neg (by decide), habout.key, hget]
  dsimp only
  rw [compareSerials_mismatch (habout.key.trans hkey.symm) habout.issued hcurrent hprevious]
  refine ⟨_, _, rfl, ?_⟩
  exact habout.key ▸ (hkeeps.update request.now { x509CertRecord with
    prevSerial := revokedSerial, currentSerial := revokedSerial } store hkey hpresent).2

/-- What requests about one record do to it. -/
inductive Event where
  | register (request : RefreshRequest) (certUsage : Bool)
  | refresh (request : RefreshRequest) (generateIdentity : Bool → Option Certificate)
  | delete

def Event.About (key : RecordKey) : Event → Prop
  | .register request _ | .refresh request _ => request.About key
  | .delete => True

/-- The store behind a request, when no reset time is set and the provider leaves the check on. -/
def Event.apply (conn : CertRecordStoreConnection σ) (key : RecordKey) (store : σ) : Event → σ
  | .register request certUsage =>
    (insertX509CertRecord conn request request.cert.serial certUsage request.cert.notAfter store).2
  | .refresh request generateIdentity => (refreshConfirmed conn 0 true generateIdentity request store).2
  | .delete => (conn.deleteX509CertRecord key store).2

/-- No certificate is accepted: there is no record or it is revoked. -/
def Dead (serials : Option (Str × Str)) : Prop :=
  serials = none ∨ serials = some (revokedSerial, revokedSerial)

theorem Event.apply_tracks (hkeeps : KeepsSerials conn key) (habout : Event.About key event)
    (h : Tracks conn key store serials) :
    ∃ serials', Tracks conn key (event.apply conn key store) serials' ∧
      (Dead serials → (∀ request usage, event ≠ .register request usage) → Dead serials') := by
  cases event with
  | register request certUsage =>
    refine ⟨_, (hkeeps.insert _ _ _ ?_).2, fun _ hnone => absurd rfl (hnone request certUsage)⟩
    exact habout.key
  | delete => exact ⟨none, hkeeps.delete store, fun _ _ => .inl rfl⟩
  | refresh request generateIdentity =>
    cases serials with
    | none =>
      obtain ⟨failure, hrefresh⟩ := refreshConfirmed_absent generateIdentity habout h
      refine ⟨none, ?_, fun hdead _ => hdead⟩
      rw [apply, hrefresh]
      exact h
    | some serials =>
      obtain ⟨current, previous⟩ := serials
      by_cases hserial : current = request.cert.serial ∨ previous = request.cert.serial
      · have hnot : ¬ Dead (some (current, previous)) := by
          rintro (hnone | hsome)
          · cases hnone
          · cases hsome
            exact hserial.elim (serial_ne_revokedSerial _) (serial_ne_revokedSerial _)
        obtain ⟨usage, ⟨_, failure, hrefresh⟩ | ⟨newCert, _, _, htracks⟩⟩ :=
          refreshConfirmed_accepted generateIdentity hkeeps habout h hserial
        · refine ⟨some (current, previous), ?_, fun hdead _ => absurd hdead hnot⟩
          rw [apply, hrefresh]
          exact h
        · exact ⟨_, htracks, fun hdead _ => absurd hdead hnot⟩
      · obtain ⟨failure, revoked, hrefresh, htracks⟩ := refreshConfirmed_mismatch generateIdentity hkeeps
          habout h
          (fun hcurrent => hserial (.inl hcurrent)) (fun hprevious => hserial (.inr hprevious))
        refine ⟨_, ?_, fun _ _ => .inr rfl⟩
        rw [apply, hrefresh]
        exact htracks

def runEvents (conn : CertRecordStoreConnection σ) (key : RecordKey) (events : List Event) (store : σ) : σ :=
  events.foldl (Event.apply conn key) store

theorem runEvents_tracks (hkeeps : KeepsSerials conn key) (habout : ∀ event ∈ events, Event.About key event)
    (h : Tracks conn key store serials) :
    ∃ serials', Tracks conn key (runEvents conn key events store) serials' ∧
      (Dead serials → (∀ request usage, .register request usage ∉ events) → Dead serials') := by
  induction events generalizing store serials with
  | nil => exact ⟨serials, h, fun hdead _ => hdead⟩
  | cons event events ih =>
    obtain ⟨between, hbetween, hstep⟩ := Event.apply_tracks hkeeps (habout event List.mem_cons_self) h
    obtain ⟨serials', htracks, hrun⟩ := ih (fun other hother => habout other (.tail _ hother)) hbetween
    refine ⟨serials', htracks, fun hdead hnone => hrun (hstep hdead ?_) fun request usage hmem => ?_⟩
    · intro request usage heq
      exact hnone request usage (heq ▸ List.mem_cons_self)
    · exact hnone request usage (.tail _ hmem)

/-- A record is revoked: its serial numbers are taken away. -/
def Revoked (x509CertRecord : X509CertRecord) : Prop :=
  x509CertRecord.currentSerial = revokedSerial ∧ x509CertRecord.prevSerial = revokedSerial

/-- A presented certificate is the last one that was issued for the record or the one before. -/
def Accepts (x509CertRecord : X509CertRecord) (cert : Certificate) : Prop :=
  x509CertRecord.currentSerial = cert.serial ∨ x509CertRecord.prevSerial = cert.serial

/-- What a store makes of the refresh requests for a record: the record tells which certificates are
accepted, and a certificate that is not revokes it until the next registration. -/
structure DetectsClones (conn : CertRecordStoreConnection σ) (key : RecordKey) (store : σ) : Prop where
  accepts : ∀ request : RefreshRequest, request.About key → ∀ generateIdentity : Bool → Option Certificate,
    (∀ usage, generateIdentity usage ≠ none) →
    ((∃ newCert, (refreshConfirmed conn 0 true generateIdentity request store).1 = .ok newCert) ↔
      ∃ x509CertRecord, conn.getX509CertRecord key store = some x509CertRecord ∧
        Accepts x509CertRecord request.cert)
  rotates : ∀ request : RefreshRequest, request.About key → ∀ generateIdentity newCert,
    (refreshConfirmed conn 0 true generateIdentity request store).1 = .ok newCert →
    ∃ x509CertRecord, conn.getX509CertRecord key
        (refreshConfirmed conn 0 true generateIdentity request store).2 = some x509CertRecord ∧
      x509CertRecord.currentSerial = newCert.serial ∧ x509CertRecord.prevSerial = request.cert.serial
  revokes : ∀ request : RefreshRequest, request.About key → ∀ generateIdentity x509CertRecord,
    conn.getX509CertRecord key store = some x509CertRecord → ¬ Accepts x509CertRecord request.cert →
    ∃ failure revoked, refreshConfirmed conn 0 true generateIdentity request store =
        (.error failure, revoked) ∧
      ∃ x509CertRecord, conn.getX509CertRecord key revoked = some x509CertRecord ∧ Revoked x509CertRecord
  final : ∀ x509CertRecord, conn.getX509CertRecord key store = some x509CertRecord →
    Revoked x509CertRecord → ∀ events : List Event, (∀ event ∈ events, event.About key) →
    (∀ request usage, .register request usage ∉ events) →
    ∀ request : RefreshRequest, request.About key → ∀ generateIdentity,
    ∃ failure, (refreshConfirmed conn 0 true generateIdentity request (runEvents conn key events store)).1 =
      .error failure

theorem Dead.refresh_fails (hdead : Dead serials) (hkeeps : KeepsSerials conn key)
    (habout : request.About key) (h : Tracks conn key store serials)
    (generateIdentity : Bool → Option Certificate) :
    ∃ failure, (refreshConfirmed conn 0 true generateIdentity request store).1 = .error failure := by
  obtain rfl | rfl := hdead
  · obtain ⟨failure, hrefresh⟩ := refreshConfirmed_absent generateIdentity habout h
    exact ⟨failure, by rw [hrefresh]⟩
  · obtain ⟨failure, revoked, hrefresh, _⟩ := refreshConfirmed_mismatch generateIdentity hkeeps habout h
      (serial_ne_revokedSerial _) (serial_ne_revokedSerial _)
    exact ⟨failure, by rw [hrefresh]⟩

theorem Tracks.of_get (h : Tracks conn key store serials)
    (hget : conn.getX509CertRecord key store = some x509CertRecord) :
    Tracks conn key store (some (x509CertRecord.currentSerial, x509CertRecord.prevSerial)) := by
  cases serials with
  | none => exact absurd (hget.symm.trans h) (Option.some_ne_none _)
  | some serials =>
    obtain ⟨found, hfound, hkey, _, _⟩ := h
    obtain rfl := Option.some.inj (hfound.symm.trans hget)
    exact ⟨found, hfound, hkey, rfl, rfl⟩

theorem Tracks.detectsClones (h : Tracks conn key store serials) (hkeeps : KeepsSerials conn key) :
    DetectsClones conn key store where
  accepts request habout generateIdentity hsigns := by
    cases serials with
    | none =>
      obtain ⟨failure, hrefresh⟩ := refreshConfirmed_absent generateIdentity habout h
      rw [hrefresh, show conn.getX509CertRecord key store = none from h]
      simp
    | some serials =>
      obtain ⟨current, previous⟩ := serials
      have hrecord := h
      obtain ⟨x509CertRecord, hget, _, rfl, rfl⟩ := hrecord
      rw [hget]
      simp only [Option.some.injEq, exists_eq_left']
      by_cases hserial : Accepts x509CertRecord request.cert
      · obtain ⟨usage, ⟨hnone, _⟩ | ⟨newCert, _, hok, _⟩⟩ :=
          refreshConfirmed_accepted generateIdentity hkeeps habout h hserial
        · exact absurd hnone (hsigns usage)
        · exact iff_of_true ⟨newCert, hok⟩ hserial
      · obtain ⟨failure, revoked, hrefresh, _⟩ := refreshConfirmed_mismatch generateIdentity hkeeps habout h
          (fun hcurrent => hserial (.inl hcurrent)) (fun hprevious => hserial (.inr hprevious))
        rw [hrefresh]
        exact iff_of_false (fun ⟨_, hok⟩ => nomatch hok) hserial
  rotates request habout generateIdentity newCert hok := by
    cases serials with
    | none =>
      obtain ⟨failure, hrefresh⟩ := refreshConfirmed_absent generateIdentity habout h
      rw [hrefresh] at hok
      cases hok
    | some serials =>
      obtain ⟨current, previous⟩ := serials
      by_cases hserial : current = request.cert.serial ∨ previous = request.cert.serial
      · obtain ⟨usage, ⟨_, failure, hrefresh⟩ | ⟨signed, _, hsigned, htracks⟩⟩ :=
          refreshConfirmed_accepted generateIdentity hkeeps habout h hserial
        · rw [hrefresh] at hok
          cases hok
        · obtain rfl := Except.ok.inj (hsigned.symm.trans hok)
          obtain ⟨x509CertRecord, hget, _, hcurrent, hprevious⟩ := htracks
          exact ⟨x509CertRecord, hget, hcurrent, hprevious⟩
      · obtain ⟨failure, revoked, hrefresh, _⟩ := refreshConfirmed_mismatch generateIdentity hkeeps habout h
          (fun hcurrent => hserial (.inl hcurrent)) (fun hprevious => hserial (.inr hprevious))
        rw [hrefresh] at hok
        cases hok
  revokes request habout generateIdentity x509CertRecord hget hnot := by
    obtain ⟨failure, revoked, hrefresh, found, hfound, _, hcurrent, hprevious⟩ :=
      refreshConfirmed_mismatch generateIdentity hkeeps habout (h.of_get hget)
        (fun hcurrent => hnot (.inl hcurrent)) (fun hprevious => hnot (.inr hprevious))
    exact ⟨failure, revoked, hrefresh, found, hfound, hcurrent, hprevious⟩
  final x509CertRecord hget hrevoked events hevents hnone request habout generateIdentity := by
    have hdead : Tracks conn key store (some (revokedSerial, revokedSerial)) := by
      have h := h.of_get hget
      rwa [hrevoked.1, hrevoked.2] at h
    obtain ⟨serials', htracks, hrun⟩ := runEvents_tracks hkeeps hevents hdead
    exact (hrun (.inr rfl) hnone).refresh_fails hkeeps habout htracks generateIdentity

/-- Behind every sequence of requests for a record the refresh requests detect clones. -/
theorem refresh_detects_clones (conn : CertRecordStoreConnection σ) (key : RecordKey)
    (hkeeps : KeepsSerials conn key) (empty : σ) (hempty : conn.getX509CertRecord key empty = none)
    (events : List Event) (hevents : ∀ event ∈ events, event.About key) :
    DetectsClones conn key (runEvents conn key events empty) := by
  have hstart : Tracks conn key empty none := hempty
  obtain ⟨serials, htracks, _⟩ := runEvents_tracks hkeeps hevents hstart
  exact htracks.detectsClones hkeeps

end Serials

section Stores

open JDBCCertRecordStoreConnection in
/-- The table of the certificates keeps the serial numbers of every record. -/
theorem jdbc_keepsSerials (key : RecordKey) : KeepsSerials connection key := by
  have htracks {x509CertRecord : X509CertRecord} {row : CertificateRow} (certificates : Certificates)
      (hkey : x509CertRecord.key = key) (hcurrent : row.currentSerial = x509CertRecord.currentSerial)
      (hprevious : row.prevSerial = x509CertRecord.prevSerial) :
      Tracks connection key (certificates.insert x509CertRecord.key row)
        (some (x509CertRecord.currentSerial, x509CertRecord.prevSerial)) := by
    refine ⟨setRecordFromResultSet key row, ?_, rfl, hcurrent, hprevious⟩
    show ((certificates.insert x509CertRecord.key row).lookup key).map _ = _
    rw [hkey, AList.lookup_insert, Option.map_some]
  have hupdate (x509CertRecord : X509CertRecord) (certificates : Certificates)
      (hkey : x509CertRecord.key = key) (hpresent : certificates.lookup x509CertRecord.key ≠ none) :
      (updateX509CertRecord x509CertRecord certificates).1 = true ∧
        Tracks connection key (updateX509CertRecord x509CertRecord certificates).2
          (some (x509CertRecord.currentSerial, x509CertRecord.prevSerial)) := by
    unfold updateX509CertRecord
    cases hrow : certificates.lookup x509CertRecord.key with
    | none => exact absurd hrow hpresent
    | some row => exact ⟨rfl, htracks certificates hkey rfl rfl⟩
  constructor
  · intro now x509CertRecord certificates hkey
    show (JDBCCertRecordStoreConnection.insertX509CertRecord x509CertRecord certificates).1 = true ∧
      Tracks connection key
        (JDBCCertRecordStoreConnection.insertX509CertRecord x509CertRecord certificates).2 _
    unfold JDBCCertRecordStoreConnection.insertX509CertRecord
    cases hrow : certificates.lookup x509CertRecord.key with
    | none => exact ⟨rfl, htracks certificates hkey rfl rfl⟩
    | some row => exact hupdate x509CertRecord certificates hkey (by rw [hrow]; exact Option.some_ne_none _)
  · intro now x509CertRecord certificates hkey hpresent
    refine hupdate x509CertRecord certificates hkey fun hnone => hpresent ?_
    show (certificates.lookup key).map _ = none
    rw [← hkey, hnone, Option.map_none]
  · intro certificates
    show ((certificates.erase key).lookup key).map _ = none
    rw [AList.lookup_erase, Option.map_none]

open DynamoDBCertRecordStoreConnection in
def sampleKey : RecordKey := (↑"aws", ↑"i", ↑"sports.api")

def sampleCert (serialNumber : Nat) : Certificate := ⟨serialNumber, 100, 1000⟩

def sampleRequest (serialNumber : Nat) : RefreshRequest where
  key := sampleKey
  cert := sampleCert serialNumber
  remoteAddress := "10.0.0.1"
  now := 100

/-- A certificate is registered and refreshed once. -/
theorem sample_detects_clones : DetectsClones JDBCCertRecordStoreConnection.connection sampleKey
    (runEvents JDBCCertRecordStoreConnection.connection sampleKey
      [.register (sampleRequest 1) false, .refresh (sampleRequest 1) fun _ => some (sampleCert 2)] ∅) :=
  refresh_detects_clones _ sampleKey (jdbc_keepsSerials sampleKey) ∅ rfl _ (by
    simp only [List.forall_mem_cons, List.not_mem_nil, false_implies, implies_true, and_true]
    exact ⟨⟨rfl, by decide⟩, rfl, by decide⟩)

end Stores

end Athenz.Zts.Cert
