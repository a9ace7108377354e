import Athenz.CertRefresh

namespace Athenz.Zts.Cert
open Lib Lib.Text
set_option autoImplicit true

section Steps

/-- How far a refresh request is: it has read the record and holds a copy of it, it has a certificate
signed as well, or it has written the record and returned. -/
inductive Phase where
  | idle
  | mismatched (request : RefreshRequest) (x509CertRecord : X509CertRecord)
  | validated (request : RefreshRequest) (x509CertRecord : X509CertRecord)
  | signed (request : RefreshRequest) (x509CertRecord : X509CertRecord) (newCert : Certificate)
  | revoked
  | refreshed (newCert : Certificate)
  | failed

/-- Refresh requests on some servers with one store. -/
structure System (σ : Type) where
  store : σ
  phases : Nat → Phase

inductive Action where
  | read (i : Nat) (request : RefreshRequest)
  | sign (i : Nat) (newCert : Option Certificate)
  | write (i : Nat)
  | register (request : RefreshRequest) (certUsage : Bool)

variable (conn : CertRecordStoreConnection σ) (x509CertRefreshResetTime : Int)

/-- The first half of `getValidatedX509CertRecord`: what a request holds behind its read. -/
def readRecord (request : RefreshRequest) (store : σ) : Phase × σ :=
  match findX509CertRecord conn x509CertRefreshResetTime request store with
  | (none, store) => (.failed, store)
  | (some x509CertRecord, store) =>
    match compareSerials x509CertRefreshResetTime request x509CertRecord with
    | .refused _ => (.failed, store)
    | .mismatch => (.mismatched request x509CertRecord, store)
    | .valid x509CertRecord => (.validated request x509CertRecord, store)

def System.move (system : System σ) (i : Nat) (step : Phase × σ) : System σ where
  store := step.2
  phases := Function.update system.phases i step.1

/-- What the answer of the signer makes of a request. -/
def signedPhase (request : RefreshRequest) (x509CertRecord : X509CertRecord) : Option Certificate → Phase
  | none => .failed
  | some newCert => .signed request x509CertRecord newCert

/-- One step of one request, or a registration of the instance. -/
def System.step (system : System σ) : Action → Option (System σ)
  | .read i request =>
    match system.phases i with
    | .idle => some (system.move i (readRecord conn x509CertRefreshResetTime request system.store))
    | _ => none
  | .sign i newCert =>
    match system.phases i with
    | .validated request x509CertRecord =>
      some (system.move i (signedPhase request x509CertRecord newCert, system.store))
    | _ => none
  | .write i =>
    match system.phases i with
    | .mismatched request x509CertRecord =>
      some (system.move i (.revoked, revokeCertificateRefresh conn request.now x509CertRecord system.store))
    | .signed request x509CertRecord newCert =>
      let (updated, store) := conn.updateX509CertRecord request.now
        (refreshedRecord request newCert x509CertRecord) system.store
      some (system.move i (if updated then .refreshed newCert else .failed, store))
    | _ => none
  | .register request certUsage =>
    some { system with
      store := (insertX509CertRecord conn request request.cert.serial certUsage request.cert.notAfter
        system.store).2 }

def System.run (system : System σ) (actions : List Action) : Option (System σ) :=
  actions.foldlM (System.step conn x509CertRefreshResetTime) system

end Steps

section Invariant

variable {conn : CertRecordStoreConnection σ} {key : RecordKey} {x509CertRefreshResetTime : Int}
  {system system' : System σ}

/-- The copy of the record that a request holds. -/
def Phase.holds : Phase → Option X509CertRecord
  | .mismatched _ x509CertRecord | .validated _ x509CertRecord | .signed _ x509CertRecord _ =>
    some x509CertRecord
  | _ => none

/-- A request has found its certificate valid and is about to write the record. -/
def Phase.inFlight : Phase → Bool
  | .validated _ _ | .signed _ _ _ => true
  | _ => false

/-- A request for the instance. -/
def Action.About (key : RecordKey) : Action → Prop
  | .read _ request | .register request _ => request.key = key
  | _ => True

/-- The record in the store is one of the instance, and so are the copies of it. -/
structure Consistent (conn : CertRecordStoreConnection σ) (key : RecordKey) (system : System σ) : Prop where
  tracked : ∃ serials, Tracks conn key system.store serials
  held : ∀ i x509CertRecord, (system.phases i).holds = some x509CertRecord →
    x509CertRecord.key = key ∧ conn.getX509CertRecord key system.store ≠ none

theorem phases_move (system : System σ) (i : Nat) (step : Phase × σ) (j : Nat) :
    (system.move i step).phases j = if j = i then step.1 else system.phases j :=
  Function.update_apply ..

theorem Consistent.move (h : Consistent conn key system) (htracks : Tracks conn key store serials)
    (hpresent : conn.getX509CertRecord key system.store ≠ none → conn.getX509CertRecord key store ≠ none)
    (hheld : ∀ x509CertRecord, phase.holds = some x509CertRecord →
      x509CertRecord.key = key ∧ conn.getX509CertRecord key store ≠ none) :
    Consistent conn key (system.move i (phase, store)) where
  tracked := ⟨serials, htracks⟩
  held j x509CertRecord hholds := by
    rw [phases_move] at hholds
    split at hholds
    · exact hheld x509CertRecord hholds
    · obtain ⟨hkey, hsome⟩ := h.held j x509CertRecord hholds
      exact ⟨hkey, hpresent hsome⟩

theorem findX509CertRecord_tracks (x509CertRefreshResetTime : Int) (hkeeps : KeepsSerials conn key)
    (hkey : request.key = key) (h : Tracks conn key store serials) :
    findX509CertRecord conn x509CertRefreshResetTime request store = (none, store) ∨
      ∃ x509CertRecord store', findX509CertRecord conn x509CertRefreshResetTime request store =
          (some x509CertRecord, store') ∧ x509CertRecord.key = key ∧
        Tracks conn key store' (some (x509CertRecord.currentSerial, x509CertRecord.prevSerial)) := by
  rw [findX509CertRecord, hkey]
  cases hget : conn.getX509CertRecord key store with
  | some x509CertRecord =>
    have htracks := h.of_get hget
    have hrecord := htracks
    obtain ⟨found, hfound, hfoundKey, _⟩ := hrecord
    obtain rfl := Option.some.inj (hget.symm.trans hfound)
    exact .inr ⟨x509CertRecord, store, rfl, hfoundKey, htracks⟩
  | none =>
    dsimp only
    split
    · obtain ⟨x509CertRecord, store', hinsert, hrecord, hcurrent, hprevious, htracks⟩ :=
        insertX509CertRecord_tracks hkeeps hkey request.cert.serial false request.cert.notAfter store
      rw [← hcurrent] at htracks
      have hsame : x509CertRecord.prevSerial = x509CertRecord.currentSerial := hprevious.trans hcurrent.symm
      exact .inr ⟨x509CertRecord, store', hinsert, hrecord, by rw [hsame]; exact htracks⟩
    · exact .inl rfl

theorem compareSerials_valid_key
    (h : compareSerials x509CertRefreshResetTime request x509CertRecord = .valid valid) :
    valid.key = x509CertRecord.key := by
  simp only [compareSerials] at h
  split at h
  · cases h
  split at h
  · cases h
    rfl
  split at h
  · cases h
  · cases h
    rfl

/-- A read leaves a record of the instance, if there is one, and a copy of one. -/
theorem readRecord_tracks (x509CertRefreshResetTime : Int) (hkeeps : KeepsSerials conn key)
    (hkey : request.key = key) (h : Tracks conn key store serials) :
    ∃ phase store' serials', readRecord conn x509CertRefreshResetTime request store = (phase, store') ∧
      Tracks conn key store' serials' ∧
      (conn.getX509CertRecord key store ≠ none → conn.getX509CertRecord key store' ≠ none) ∧
      ∀ x509CertRecord, phase.holds = some x509CertRecord →
        x509CertRecord.key = key ∧ conn.getX509CertRecord key store' ≠ none := by
  obtain hnone | ⟨found, store', hfind, hfound, htracks⟩ :=
    findX509CertRecord_tracks x509CertRefreshResetTime hkeeps hkey h
  · rw [readRecord, hnone]
    exact ⟨_, _, _, rfl, h, id, fun _ hholds => nomatch hholds⟩
  · have hpresent := htracks.get_ne_none
    rw [readRecord, hfind]
    dsimp only
    cases hcompare : compareSerials x509CertRefreshResetTime request found with
    | refused failure => exact ⟨_, _, _, rfl, htracks, fun _ => hpresent, fun _ hholds => nomatch hholds⟩
    | mismatch =>
      refine ⟨_, _, _, rfl, htracks, fun _ => hpresent, fun x509CertRecord hholds => ?_⟩
      cases hholds
      exact ⟨hfound, hpresent⟩
    | valid valid =>
      refine ⟨_, _, _, rfl, htracks, fun _ => hpresent, fun x509CertRecord hholds => ?_⟩
      cases hholds
      exact ⟨(compareSerials_valid_key hcompare).trans hfound, hpresent⟩

theorem update_tracks (hkeeps : KeepsSerials conn key) (hkey : x509CertRecord.key = key)
    (hpresent : conn.getX509CertRecord key store ≠ none) (now : Int) :
    ∃ store', conn.updateX509CertRecord now x509CertRecord store = (true, store') ∧
      Tracks conn key store' (some (x509CertRecord.currentSerial, x509CertRecord.prevSerial)) := by
  obtain ⟨hok, htracks⟩ := hkeeps.update now x509CertRecord store hkey hpresent
  exact ⟨_, Prod.ext hok rfl, htracks⟩

theorem step_read_eq (h : system.step conn x509CertRefreshResetTime (.read i request) = some system') :
    system.phases i = .idle ∧
      system' = system.move i (readRecord conn x509CertRefreshResetTime request system.store) := by
  simp only [System.step] at h
  cases hphase : system.phases i with
  | idle =>
    rw [hphase] at h
    exact ⟨rfl, (Option.some.inj h).symm⟩
  | _ =>
    rw [hphase] at h
    cases h

theorem step_sign_eq (h : system.step conn x509CertRefreshResetTime (.sign i newCert) = some system') :
    ∃ request x509CertRecord, system.phases i = .validated request x509CertRecord ∧
      system' = system.move i (signedPhase request x509CertRecord newCert, system.store) := by
  simp only [System.step] at h
  cases hphase : system.phases i with
  | validated request x509CertRecord =>
    rw [hphase] at h
    exact ⟨_, _, rfl, (Option.some.inj h).symm⟩
  | _ =>
    rw [hphase] at h
    cases h

/-- A write revokes the record, or stores the new certificate. -/
theorem step_write_eq (h : system.step conn x509CertRefreshResetTime (.write i) = some system') :
    (∃ request x509CertRecord, system.phases i = .mismatched request x509CertRecord ∧
      system' = system.move i (.revoked,
        revokeCertificateRefresh conn request.now x509CertRecord system.store)) ∨
    ∃ request x509CertRecord newCert, system.phases i = .signed request x509CertRecord newCert ∧
      system' = system.move i
        (if (conn.updateX509CertRecord request.now (refreshedRecord request newCert x509CertRecord)
            system.store).1 then .refreshed newCert else .failed,
          (conn.updateX509CertRecord request.now (refreshedRecord request newCert x509CertRecord)
            system.store).2) := by
  simp only [System.step] at h
  cases hphase : system.phases i with
  | mismatched request x509CertRecord =>
    rw [hphase] at h
    exact .inl ⟨_, _, rfl, (Option.some.inj h).symm⟩
  | signed request x509CertRecord newCert =>
    rw [hphase] at h
    exact .inr ⟨_, _, _, rfl, (Option.some.inj h).symm⟩
  | _ =>
    rw [hphase] at h
    cases h

theorem Consistent.step (h : Consistent conn key system) (hkeeps : KeepsSerials conn key)
    (habout : Action.About key action) (hstep : system.step conn x509CertRefreshResetTime action = some system') :
    Consistent conn key system' := by
  obtain ⟨serials, htracks⟩ := h.tracked
  cases action with
  | read i request =>
    obtain ⟨_, rfl⟩ := step_read_eq hstep
    obtain ⟨phase, store', serials', hread, htracks', hpresent, hheld⟩ :=
      readRecord_tracks x509CertRefreshResetTime hkeeps habout htracks
    rw [hread]
    exact h.move htracks' hpresent hheld
  | sign i newCert =>
    obtain ⟨request, x509CertRecord, hphase, rfl⟩ := step_sign_eq hstep
    refine h.move htracks id fun held hholds => ?_
    cases newCert with
    | none => cases hholds
    | some newCert =>
      cases hholds
      exact h.held i x509CertRecord (by rw [hphase]; rfl)
  | write i =>
    obtain ⟨request, x509CertRecord, hphase, rfl⟩ | ⟨request, x509CertRecord, newCert, hphase, rfl⟩ :=
      step_write_eq hstep
    · obtain ⟨hkey, hpresent⟩ := h.held i x509CertRecord (by rw [hphase]; rfl)
      have hrevoked := (hkeeps.update request.now { x509CertRecord with
        prevSerial := revokedSerial, currentSerial := revokedSerial } system.store hkey hpresent).2
      exact h.move hrevoked (fun _ => hrevoked.get_ne_none) fun _ hholds => nomatch hholds
    · obtain ⟨hkey, hpresent⟩ := h.held i x509CertRecord (by rw [hphase]; rfl)
      obtain ⟨hsame, _, _⟩ := refreshedRecord_fields request newCert x509CertRecord
      obtain ⟨store', hupdate, hupdated⟩ := update_tracks hkeeps (hsame.trans hkey) hpresent request.now
      rw [hupdate]
      exact h.move hupdated (fun _ => hupdated.get_ne_none) fun _ hholds => nomatch hholds
  | register request certUsage =>
    obtain ⟨x509CertRecord, store', hinsert, _, _, _, hinserted⟩ := insertX509CertRecord_tracks hkeeps habout
      request.cert.serial certUsage request.cert.notAfter system.store
    simp only [System.step, hinsert, Option.some.injEq] at hstep
    rw [← hstep]
    refine ⟨⟨_, hinserted⟩, fun j held hholds => ?_⟩
    exact ⟨(h.held j held hholds).1, hinserted.get_ne_none⟩

theorem Consistent.run (h : Consistent conn key system) (hkeeps : KeepsSerials conn key)
    (habout : ∀ action ∈ actions, Action.About key action)
    (hrun : system.run conn x509CertRefreshResetTime actions = some system') :
    Consistent conn key system' := by
  induction actions generalizing system with
  | nil =>
    cases hrun
    exact h
  | cons action actions ih =>
    rw [System.run, List.foldlM_cons, Option.bind_eq_bind, Option.bind_eq_some_iff] at hrun
    obtain ⟨between, hstep, hrun⟩ := hrun
    have hbetween := h.step hkeeps (habout action List.mem_cons_self) hstep
    exact ih hbetween (fun other hother => habout other (.tail _ hother)) hrun

/-- A step of a refresh request with a certificate that the reset time does not excuse. -/
def Action.Refreshes (key : RecordKey) (x509CertRefreshResetTime : Int) : Action → Prop
  | .read _ request => request.key = key ∧ x509CertRefreshResetTime < request.cert.notBefore
  | .register _ _ => False
  | _ => True

theorem Action.Refreshes.about (h : Action.Refreshes key x509CertRefreshResetTime action) :
    Action.About key action := by
  cases action with
  | read i request => exact h.1
  | sign i newCert => trivial
  | write i => trivial
  | register request certUsage => exact h.elim

/-- The record is revoked and no request is about to write another. -/
structure Sealed (conn : CertRecordStoreConnection σ) (key : RecordKey) (system : System σ) : Prop
    extends Consistent conn key system where
  revoked : Tracks conn key system.store (some (revokedSerial, revokedSerial))
  landed : ∀ j, (system.phases j).inFlight = false

theorem readRecord_revoked (hkey : request.key = key)
    (hissued : x509CertRefreshResetTime < request.cert.notBefore)
    (h : Tracks conn key store (some (revokedSerial, revokedSerial))) :
    ∃ x509CertRecord, readRecord conn x509CertRefreshResetTime request store =
      (.mismatched request x509CertRecord, store) := by
  obtain ⟨x509CertRecord, hget, hrecord, hcurrent, hprevious⟩ := h
  have hcompare : compareSerials x509CertRefreshResetTime request x509CertRecord = .mismatch := by
    apply compareSerials_mismatch (hkey.trans hrecord.symm) hissued
    · rw [hcurrent]
      exact serial_ne_revokedSerial _
    · rw [hprevious]
      exact serial_ne_revokedSerial _
  rw [readRecord, findX509CertRecord, hkey, hget]
  dsimp only
  rw [hcompare]
  exact ⟨x509CertRecord, rfl⟩

theorem Sealed.step (h : Sealed conn key system) (hkeeps : KeepsSerials conn key)
    (hrefreshes : Action.Refreshes key x509CertRefreshResetTime action)
    (hstep : system.step conn x509CertRefreshResetTime action = some system') : Sealed conn key system' := by
  have hconsistent := h.toConsistent.step hkeeps hrefreshes.about hstep
  have hlanded {i : Nat} {phase : Phase} {store : σ} (hphase : phase.inFlight = false) :
      ∀ j, ((system.move i (phase, store)).phases j).inFlight = false := by
    intro j
    rw [phases_move]
    split
    · exact hphase
    · exact h.landed j
  cases action with
  | read i request =>
    obtain ⟨_, rfl⟩ := step_read_eq hstep
    obtain ⟨x509CertRecord, hread⟩ := readRecord_revoked hrefreshes.1 hrefreshes.2 h.revoked
    rw [hread] at hconsistent ⊢
    exact ⟨hconsistent, h.revoked, hlanded rfl⟩
  | sign i newCert =>
    obtain ⟨request, x509CertRecord, hphase, rfl⟩ := step_sign_eq hstep
    have hlanded := h.landed i
    rw [hphase] at hlanded
    cases hlanded
  | write i =>
    obtain ⟨request, x509CertRecord, hphase, rfl⟩ | ⟨request, x509CertRecord, newCert, hphase, rfl⟩ :=
      step_write_eq hstep
    · obtain ⟨hkey, hpresent⟩ := h.held i x509CertRecord (by rw [hphase]; rfl)
      have hrevoked := (hkeeps.update request.now { x509CertRecord with
        prevSerial := revokedSerial, currentSerial := revokedSerial } system.store hkey hpresent).2
      exact ⟨hconsistent, hrevoked, hlanded rfl⟩
    · have hlanded := h.landed i
      rw [hphase] at hlanded
      cases hlanded
  | register request certUsage => exact hrefreshes.elim

theorem Sealed.run (h : Sealed conn key system) (hkeeps : KeepsSerials conn key)
    (hrefreshes : ∀ action ∈ actions, Action.Refreshes key x509CertRefreshResetTime action)
    (hrun : system.run conn x509CertRefreshResetTime actions = some system') : Sealed conn key system' := by
  induction actions generalizing system with
  | nil =>
    cases hrun
    exact h
  | cons action actions ih =>
    rw [System.run, List.foldlM_cons, Option.bind_eq_bind, Option.bind_eq_some_iff] at hrun
    obtain ⟨between, hstep, hrun⟩ := hrun
    have hbetween := h.step hkeeps (hrefreshes action List.mem_cons_self) hstep
    exact ih hbetween (fun other hother => hrefreshes other (.tail _ hother)) hrun

/-- A request whose certificate has been signed stores it. -/
theorem Consistent.write_signed (h : Consistent conn key system) (hkeeps : KeepsSerials conn key)
    (hphase : system.phases j = .signed request x509CertRecord newCert) :
    ∃ written, system.step conn x509CertRefreshResetTime (.write j) = some written ∧
      ∃ previous, Tracks conn key written.store (some (newCert.serial, previous)) := by
  obtain ⟨hkey, hpresent⟩ := h.held j x509CertRecord (by rw [hphase]; rfl)
  obtain ⟨hsame, hnew, _⟩ := refreshedRecord_fields request newCert x509CertRecord
  obtain ⟨store', hupdate, hupdated⟩ := update_tracks hkeeps (hsame.trans hkey) hpresent request.now
  rw [hnew] at hupdated
  simp only [System.step, hphase, hupdate]
  exact ⟨_, rfl, _, hupdated⟩

theorem Tracks.not_revoked (h : Tracks conn key store (some (Certificate.serial cert, previous))) :
    ¬ ∃ found, conn.getX509CertRecord key store = some found ∧ Revoked found := by
  rintro ⟨found, hfound, hrevoked, _⟩
  obtain ⟨x509CertRecord, hget, _, hcurrent, _⟩ := h
  obtain rfl := Option.some.inj (hfound.symm.trans hget)
  exact serial_ne_revokedSerial cert (hrevoked.symm.trans hcurrent)

/-- A request that is about to write when the record is revoked takes the revocation back. -/
theorem Consistent.undoes (h : Consistent conn key system) (hkeeps : KeepsSerials conn key)
    (hflight : (system.phases j).inFlight = true) :
    ∃ after final, (∀ action ∈ after, Action.Refreshes key x509CertRefreshResetTime action) ∧
      system.run conn x509CertRefreshResetTime after = some final ∧
      ¬ ∃ found, conn.getX509CertRecord key final.store = some found ∧ Revoked found := by
  cases hphase : system.phases j with
  | signed request x509CertRecord newCert =>
    obtain ⟨written, hwrite, previous, htracks⟩ := h.write_signed hkeeps hphase
    refine ⟨[.write j], written, fun action haction => ?_, ?_, htracks.not_revoked⟩
    · rw [List.mem_singleton.1 haction]
      trivial
    · rw [System.run, List.foldlM_cons, hwrite]
      rfl
  | validated request x509CertRecord =>
    have hsign : system.step conn x509CertRefreshResetTime (.sign j (some ⟨0, 0, 0⟩)) =
        some (system.move j (.signed request x509CertRecord ⟨0, 0, 0⟩, system.store)) := by
      simp only [System.step, hphase, signedPhase]
    have hsigned := h.step hkeeps (by trivial) hsign
    have hphase : (system.move j (.signed request x509CertRecord ⟨0, 0, 0⟩, system.store)).phases j =
        .signed request x509CertRecord ⟨0, 0, 0⟩ := by rw [phases_move, if_pos rfl]
    obtain ⟨written, hwrite, previous, htracks⟩ := hsigned.write_signed hkeeps hphase
    refine ⟨[.sign j (some ⟨0, 0, 0⟩), .write j], written, fun action haction => ?_, ?_,
      htracks.not_revoked⟩
    · obtain rfl | rfl := List.mem_pair.1 haction <;> trivial
    · rw [System.run, List.foldlM_cons, hsign, Option.bind_eq_bind, Option.bind_some, List.foldlM_cons, hwrite]
      rfl
  | _ =>
    rw [hphase] at hflight
    cases hflight

/-- In every interleaving a revocation is final exactly when no other request is about to write as the
record is revoked, and of two refreshes that go through one certificate is accepted. -/
theorem revocation_final_iff (conn : CertRecordStoreConnection σ) (key : RecordKey)
    (x509CertRefreshResetTime : Int) (hkeeps : KeepsSerials conn key) (store : σ)
    (serials : Option (Str × Str)) (htracks : Tracks conn key store serials) (before : List Action)
    (habout : ∀ action ∈ before, action.About key) (between : System σ)
    (hrun : System.run conn x509CertRefreshResetTime ⟨store, fun _ => .idle⟩ before = some between) :
    (∀ i request x509CertRecord revoked, between.phases i = .mismatched request x509CertRecord →
      between.step conn x509CertRefreshResetTime (.write i) = some revoked →
      ((∀ after final, (∀ action ∈ after, Action.Refreshes key x509CertRefreshResetTime action) →
          revoked.run conn x509CertRefreshResetTime after = some final →
          ∃ found, conn.getX509CertRecord key final.store = some found ∧ Revoked found) ↔
        ∀ j, (between.phases j).inFlight = false)) ∧
    ∀ i firstCert j request x509CertRecord secondCert written, between.phases i = .refreshed firstCert →
      between.phases j = .signed request x509CertRecord secondCert →
      between.step conn x509CertRefreshResetTime (.write j) = some written →
      ∃ found, conn.getX509CertRecord key written.store = some found ∧
        (Accepts found firstCert ∨ Accepts found secondCert) := by
  have hstart : Consistent conn key ⟨store, fun _ => .idle⟩ := ⟨⟨serials, htracks⟩, fun _ _ hholds => nomatch hholds⟩
  have hbetween := hstart.run hkeeps habout hrun
  constructor
  · intro i request x509CertRecord revoked hphase hwrite
    have hrevokedSystem : revoked = between.move i (.revoked,
        revokeCertificateRefresh conn request.now x509CertRecord between.store) := by
      simp only [System.step, hphase] at hwrite
      exact (Option.some.inj hwrite).symm
    have hconsistent : Consistent conn key revoked := hbetween.step hkeeps (by trivial) hwrite
    have hothers : (∀ j, (revoked.phases j).inFlight = false) ↔ ∀ j, (between.phases j).inFlight = false := by
      apply forall_congr'
      intro j
      rw [hrevokedSystem, phases_move]
      split
      · rename_i hj
        rw [hj, hphase]
        exact iff_of_true rfl rfl
      · exact Iff.rfl
    rw [← hothers]
    constructor
    · intro hfinal j
      apply eq_false_of_ne_true
      intro hflight
      obtain ⟨after, final, hrefreshes, hafter, hnot⟩ := hconsistent.undoes hkeeps hflight
      exact hnot (hfinal after final hrefreshes hafter)
    · intro hlanded after final hrefreshes hafter
      obtain ⟨hkey, hpresent⟩ := hbetween.held i x509CertRecord (by rw [hphase]; rfl)
      have htracked := (hkeeps.update request.now { x509CertRecord with
        prevSerial := revokedSerial, currentSerial := revokedSerial } between.store hkey hpresent).2
      have hsealed : Sealed conn key revoked := ⟨hconsistent, by rw [hrevokedSystem]; exact htracked, hlanded⟩
      obtain ⟨found, hfound, _, hcurrent, hprevious⟩ := (hsealed.run hkeeps hrefreshes hafter).revoked
      exact ⟨found, hfound, hcurrent, hprevious⟩
  · intro i firstCert j request x509CertRecord secondCert written _ hphase hwrite
    obtain ⟨other, hother, previous, found, hfound, _, hcurrent, _⟩ := hbetween.write_signed hkeeps hphase
    obtain rfl := Option.some.inj (hwrite.symm.trans hother)
    exact ⟨found, hfound, .inr (.inl hcurrent)⟩

end Invariant

section Sample

def raceStart : List Action :=
  [.register (sampleRequest 1) false, .read 0 (sampleRequest 1), .read 1 (sampleRequest 7), .write 1]

/-- The serial numbers behind some steps. -/
def raceSerials (actions : List Action) : Option (Option (Str × Str)) :=
  (System.run JDBCCertRecordStoreConnection.connection 0 ⟨∅, fun _ => .idle⟩ actions).map fun system =>
    (JDBCCertRecordStoreConnection.getX509CertRecord sampleKey system.store).map fun x509CertRecord =>
      (x509CertRecord.currentSerial, x509CertRecord.prevSerial)

/-- The refresh of the genuine instance reads the record, a clone has it revoked and returns, and the
refresh is written over it. -/
theorem revocation_undone : raceSerials raceStart = some (some (revokedSerial, revokedSerial)) ∧
    raceSerials (raceStart ++ [.sign 0 (some (sampleCert 2)), .write 0]) = some (some (↑"2", ↑"1")) := by
  refine ⟨?_, ?_⟩ <;> decide +kernel

/-- Without another request the revocation is final. -/
theorem lone_revocation_final : ∃ between revoked,
    System.run JDBCCertRecordStoreConnection.connection 0 ⟨∅, fun _ => .idle⟩
      [.register (sampleRequest 1) false, .read 1 (sampleRequest 7)] = some between ∧
    between.step JDBCCertRecordStoreConnection.connection 0 (.write 1) = some revoked ∧
    ∀ after final, (∀ action ∈ after, Action.Refreshes sampleKey 0 action) →
      revoked.run JDBCCertRecordStoreConnection.connection 0 after = some final →
      ∃ found, JDBCCertRecordStoreConnection.getX509CertRecord sampleKey final.store = some found ∧
        Revoked found := by
  have habout : ∀ action ∈ [Action.register (sampleRequest 1) false, .read 1 (sampleRequest 7)],
      action.About sampleKey := by
    simp only [List.forall_mem_cons, List.not_mem_nil, false_implies, implies_true, and_true]
    exact ⟨rfl, rfl⟩
  refine ⟨_, _, rfl, rfl, ((revocation_final_iff JDBCCertRecordStoreConnection.connection sampleKey 0
    (jdbc_keepsSerials sampleKey) ∅ none rfl _ habout _ rfl).1 1 _ _ _ rfl rfl).2 fun j => ?_⟩
  show (Function.update (fun _ => Phase.idle) 1 _ j).inFlight = false
  by_cases hj : j = 1
  · rw [hj, Function.update_self]
    rfl
  · rw [Function.update_of_ne hj]
    rfl

end Sample

end Athenz.Zts.Cert
