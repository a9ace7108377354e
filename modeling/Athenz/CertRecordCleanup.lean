import Athenz.CertRecordStore
import Athenz.JavaToken

namespace Athenz.Zts.Cert.FileCertRecordStoreConnection
open Lib Lib.Text
set_option autoImplicit true

section Cleanup

/-- A file of the directory with its modification time. -/
structure RecordFile where
  lastModified : Int
  data : Str

/-- The modification time of a file, zero when there is no such file. -/
def lastModified (files : Map Str RecordFile) (fname : Str) : Int :=
  ((files.lookup fname).map (·.lastModified)).getD 0

/-- The 32-bit value that an arithmetic result wraps around to. -/
def int (n : Int) : Int := n.bmod (2 ^ 32)

/-- The limit in milliseconds as the code computes it. -/
def expiryMillis (expiryTimeMins : Int) : Int := int (int (expiryTimeMins * 60) * 1000)

def notExpired (currentTime lastModified expiryTimeMins : Int) : Bool :=
  Java.long (currentTime - lastModified) < expiryMillis expiryTimeMins

def deleteExpired (currentTime expiryTimeMins : Int) :
    List Str → Map Str RecordFile → Nat × Map Str RecordFile
  | [], files => (0, files)
  | fname :: fnames, files =>
    if notExpired currentTime (lastModified files fname) expiryTimeMins then
      deleteExpired currentTime expiryTimeMins fnames files
    else
      let (count, files) := deleteExpired currentTime expiryTimeMins fnames (files.erase fname)
      (count + 1, files)

/-- The number of deleted files and the directory they leave. -/
def deleteExpiredX509CertRecords (currentTime expiryTimeMins : Int)
    (rootDir : Option (Map Str RecordFile)) : Nat × Option (Map Str RecordFile) :=
  match rootDir with
  | none => (0, none)
  | some files =>
    let (count, files) := deleteExpired currentTime expiryTimeMins files.keys files
    (count, some files)

end Cleanup

section Deletions

/-- A directory without the files that are not fresh enough. -/
theorem lookup_deleteExpired {fnames : List Str} {files : Map Str RecordFile}
    (hnodup : fnames.Nodup) (k : Str) :
    (deleteExpired now mins fnames files).2.lookup k =
      if k ∈ fnames ∧ notExpired now (lastModified files k) mins = false then none
      else files.lookup k := by
  induction fnames generalizing files with
  | nil => simp only [deleteExpired, List.not_mem_nil, false_and, if_false]
  | cons fname fnames ih =>
    obtain ⟨hfresh, hrest⟩ := List.nodup_cons.1 hnodup
    unfold deleteExpired
    split
    · rename_i hnot
      rw [ih hrest]
      by_cases hk : k = fname
      · subst hk
        simp only [hfresh, hnot, List.mem_cons, true_or, true_and, false_and, if_false,
          Bool.true_eq_false]
      · simp only [List.mem_cons, hk, false_or]
    · rename_i hnot
      have hnot := eq_false_of_ne_true hnot
      by_cases hk : k = fname
      · subst hk
        rw [ih hrest]
        simp only [hfresh, hnot, List.mem_cons, true_or, true_and, false_and, if_false, if_true,
          Map.lookup_erase]
      · have hstays : lastModified (files.erase fname) k = lastModified files k := by
          rw [lastModified, Map.lookup_erase, if_neg hk, lastModified]
        rw [ih hrest, hstays, Map.lookup_erase, if_neg hk]
        simp only [List.mem_cons, hk, false_or]

theorem lookup_deleteExpiredX509CertRecords {files : Map Str RecordFile}
    (hfile : files.lookup fname = some file) :
    ∃ left, (deleteExpiredX509CertRecords now mins (some files)).2 = some left ∧
      (left.lookup fname = none ↔ notExpired now file.lastModified mins = false) := by
  refine ⟨_, rfl, ?_⟩
  have hkey : fname ∈ AList.keys files :=
    AList.mem_keys.1 (AList.lookup_isSome.1 (by rw [hfile]; rfl))
  have htime : lastModified files fname = file.lastModified := by
    rw [lastModified, hfile]
    rfl
  rw [lookup_deleteExpired (AList.keys_nodup files), htime, hfile]
  cases hexpired : notExpired now file.lastModified mins with
  | true => simp only [Bool.true_eq_false, and_false, if_false, reduceCtorEq]
  | false => simp only [hkey, and_self, if_true]

end Deletions

section Limits

/-- The two multiplications wrap around as one. -/
theorem expiryMillis_eq (mins : Int) : expiryMillis mins = (mins * 60000).bmod (2 ^ 32) := by
  rw [expiryMillis, int, int, Int.bmod_mul_bmod, Int.mul_assoc]
  rfl

/-- A limit that wraps around is lower than the exact one. -/
theorem expiryMillis_le {mins : Int} (hmins : 0 < mins) : expiryMillis mins ≤ mins * 60000 := by
  rw [expiryMillis_eq]
  have hlt := Int.bmod_lt (x := mins * 60000) (m := 2 ^ 32) (by decide)
  by_cases hsmall : mins * 60000 < 2 ^ 31
  · rw [Int.bmod_eq_of_le (by omega) (by omega)]
  · omega

end Limits

section Exactness

/-- The age of a file is on the same side of the wrapped limit as of the exact one. -/
def JudgedExactly (expiryTimeMins age : Int) : Prop :=
  age < (expiryTimeMins * 60000).bmod (2 ^ 32) ∨
    expiryTimeMins * 60000 ≤ age ∧
      (age < 2 ^ 63 ∨ (expiryTimeMins * 60000).bmod (2 ^ 32) ≤ age - 2 ^ 64)

instance : Decidable (JudgedExactly mins age) := inferInstanceAs (Decidable (_ ∨ _ ∧ (_ ∨ _)))

theorem notExpired_exact {now lastModified mins : Int} (hmins : 0 < mins) (hint : mins < 2 ^ 31)
    (hlong : -2 ^ 63 ≤ lastModified ∧ lastModified ≤ now ∧ now < 2 ^ 63) :
    (notExpired now lastModified mins = false ↔ mins * 60000 ≤ now - lastModified) ↔
      JudgedExactly mins (now - lastModified) := by
  obtain ⟨hfirst, hpast, hlast⟩ := hlong
  have hlimit := expiryMillis_le hmins
  rw [notExpired, decide_eq_false_iff_not, JudgedExactly, ← expiryMillis_eq]
  have hlower : -2 ^ 31 ≤ expiryMillis mins := by
    rw [expiryMillis_eq]
    exact Int.le_bmod (x := mins * 60000) (m := 2 ^ 32) (by decide)
  by_cases hage : now - lastModified < 2 ^ 63
  · have hlong : Java.long (now - lastModified) = now - lastModified :=
      Int.bmod_eq_of_le (by omega) (by omega)
    rw [hlong]
    omega
  · have hwrap : Java.long (now - lastModified) = Java.long (now - lastModified - 2 ^ 64) :=
      (Int.sub_bmod_right _ _).symm
    have hlong : Java.long (now - lastModified - 2 ^ 64) = now - lastModified - 2 ^ 64 :=
      Int.bmod_eq_of_le (by omega) (by omega)
    rw [← hwrap] at hlong
    rw [hlong]
    omega

/-- The files of the age limit or more are deleted and the others stay. -/
def DeletesExactlyOld (currentTime expiryTimeMins : Int) (files : Map Str RecordFile) : Prop :=
  ∀ fname file, files.lookup fname = some file →
    ∃ left, (deleteExpiredX509CertRecords currentTime expiryTimeMins (some files)).2 = some left ∧
      (left.lookup fname = none ↔ expiryTimeMins * 60000 ≤ currentTime - file.lastModified)

/-- The times of the files are 64-bit values that are not in the future. -/
def PastTimes (currentTime : Int) (files : Map Str RecordFile) : Prop :=
  ∀ fname file, files.lookup fname = some file →
    -2 ^ 63 ≤ file.lastModified ∧ file.lastModified ≤ currentTime ∧ currentTime < 2 ^ 63

/-- The cleanup is exact when the limit that wraps around judges each file as the exact one. -/
theorem deletesExactlyOld_iff (currentTime expiryTimeMins : Int) (files : Map Str RecordFile)
    (hexpiry : 0 < expiryTimeMins) (hint : expiryTimeMins < 2 ^ 31)
    (htimes : PastTimes currentTime files) :
    DeletesExactlyOld currentTime expiryTimeMins files ↔
      ∀ fname file, files.lookup fname = some file →
        JudgedExactly expiryTimeMins (currentTime - file.lastModified) := by
  constructor
  · intro h fname file hfile
    obtain ⟨left, hleft, hold⟩ := h fname file hfile
    obtain ⟨left', hleft', hdeleted⟩ := lookup_deleteExpiredX509CertRecords hfile
    rw [hleft] at hleft'
    cases hleft'
    exact (notExpired_exact hexpiry hint (htimes fname file hfile)).1 (hdeleted.symm.trans hold)
  · intro h fname file hfile
    obtain ⟨left, hleft, hdeleted⟩ := lookup_deleteExpiredX509CertRecords hfile
    have hexact := notExpired_exact hexpiry hint (htimes fname file hfile)
    exact ⟨left, hleft, hdeleted.trans (hexact.2 (h fname file hfile))⟩

/-- A record written at a time. -/
def oneRecord (lastModified : Int) : Map Str RecordFile :=
  AList.insert "provider-id-service".toList { lastModified := lastModified, data := [] } ∅

theorem lookup_oneRecord (h : (oneRecord time).lookup fname = some file) :
    file.lastModified = time := by
  rw [oneRecord, Map.lookup_insert] at h
  split at h
  · cases h
    rfl
  · cases h

/-- Thirty days wrap around to a limit that a record of one second exceeds. -/
theorem fresh_record_deleted :
    ¬ DeletesExactlyOld 1600000001000 43200 (oneRecord 1600000000000) := by
  intro h
  obtain ⟨left, hleft, hold⟩ := h "provider-id-service".toList _ (by rfl)
  have hgone : (deleteExpiredX509CertRecords 1600000001000 43200
      (some (oneRecord 1600000000000))).2.map (fun left =>
        (left.lookup "provider-id-service".toList).isNone) = some true := by decide +kernel
  rw [hleft, Option.map_some, Option.some_inj, Option.isNone_iff_eq_none] at hgone
  exact absurd (hold.1 hgone) (by decide)

theorem half_hour_deletes_old :
    DeletesExactlyOld 1600003600000 30 (oneRecord 1600000000000) ↔
      ∀ fname file, (oneRecord 1600000000000).lookup fname = some file →
        JudgedExactly 30 (1600003600000 - file.lastModified) :=
  deletesExactlyOld_iff 1600003600000 30 (oneRecord 1600000000000) (by decide) (by decide)
    fun _ _ hfile => by
      rw [lookup_oneRecord hfile]
      decide

end Exactness

end Athenz.Zts.Cert.FileCertRecordStoreConnection
