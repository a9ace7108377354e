import Athenz.ZpeDecision

namespace Athenz.Zpe
open Lib Lib.Text Lib.Index Lib.Result Zts
set_option autoImplicit true

section Loader

/-- A file of the policy directory; its data is missing when it cannot be read, decoded or verified. -/
structure PolFile where
  lastModified : Int
  data : Option PolicyData
deriving DecidableEq

/-- The files of the policy directory by their names, in the order in which they are listed. -/
abbrev Directory := Map Str PolFile

namespace ZpeUpdMonitor

def loadFileStatus (directory : Directory) : List Str := directory.keys.filter (↑".pol" <:+ ·)

end ZpeUpdMonitor

namespace ZpeUpdPolLoader

def markInvalidFile (fileName : Str) (loader : ZpeUpdPolLoader) : ZpeUpdPolLoader :=
  match loader.fileStatusRef.lookup fileName with
  | none => loader
  | some fstat =>
    { loader with fileStatusRef := loader.fileStatusRef.insert fileName { fstat with validPolFile := false } }

variable [CaseRules]

def loadFile (directory : Directory) (fileName : Str) (loader : ZpeUpdPolLoader) : ZpeUpdPolLoader :=
  match (directory.lookup fileName).bind (·.data) with
  | none => loader.markInvalidFile fileName
  | some policyData =>
    let loader :=
      match loader.fileStatusRef.lookup fileName with
      | none => loader
      | some fstat =>
        { loader with
          fileStatusRef := loader.fileStatusRef.insert fileName
            { fstat with validPolFile := true, domain := some policyData.domain } }
    loader.putMaps policyData.domain (roleMaps policyData)

/-- One file of a cycle. The time of a file is kept from its first loading. -/
def loadPolFile (directory : Directory) (loader : ZpeUpdPolLoader) (fileName : Str) : ZpeUpdPolLoader :=
  let lastModMilliSeconds := ((directory.lookup fileName).map (·.lastModified)).getD 0
  match loader.fileStatusRef.lookup fileName with
  | some fstat =>
    if directory.lookup fileName = none then
      let loader := { loader with fileStatusRef := loader.fileStatusRef.erase fileName }
      match fstat.domain with
      | none => loader
      | some domain => if fstat.validPolFile then loader.putMaps domain {} else loader
    else if lastModMilliSeconds ≤ fstat.modifyTimeMillis ∧ fstat.validPolFile then loader
    else loader.loadFile directory fileName
  | none =>
    loadFile directory fileName
      { loader with
        fileStatusRef := loader.fileStatusRef.insert fileName { modifyTimeMillis := lastModMilliSeconds } }

def loadDb (directory : Directory) (polFileNames : List Str) (loader : ZpeUpdPolLoader) :
    ZpeUpdPolLoader :=
  polFileNames.foldl (loadPolFile directory) loader

/-- A cycle of the monitor on a snapshot of the directory. -/
def cycle (directory : Directory) (loader : ZpeUpdPolLoader) : ZpeUpdPolLoader :=
  loader.loadDb directory (ZpeUpdMonitor.loadFileStatus directory)

end ZpeUpdPolLoader

end Loader

section Views

namespace ZpeUpdPolLoader

/-- One of the four maps of a domain. -/
def mapAt (loader : ZpeUpdPolLoader) (deny equal : Bool) (domainName : Str) : Option RoleMap :=
  if deny then
    if equal then loader.domStandardRoleDenyMap.lookup domainName
    else loader.domWildcardRoleDenyMap.lookup domainName
  else
    if equal then loader.domStandardRoleAllowMap.lookup domainName
    else loader.domWildcardRoleAllowMap.lookup domainName

/-- The maps of a domain are the same for two loaders. -/
def SameMaps (loader loader' : ZpeUpdPolLoader) (domainName : Str) : Prop :=
  ∀ deny equal, loader'.mapAt deny equal domainName = loader.mapAt deny equal domainName

theorem has_iff {loader : ZpeUpdPolLoader} : loader.Has domain maps ↔
    ∀ deny equal, loader.mapAt deny equal domain = some (maps.get deny equal) := by
  constructor
  · intro h deny equal
    cases deny <;> cases equal
    · exact h.wildcardAllow
    · exact h.standardAllow
    · exact h.wildcardDeny
    · exact h.standardDeny
  · intro h
    exact ⟨h false true, h false false, h true true, h true false⟩

theorem Has.of_sameMaps (h : Has loader domain maps) (hsame : SameMaps loader loader' domain) :
    Has loader' domain maps :=
  has_iff.2 fun deny equal => (hsame deny equal).trans (has_iff.1 h deny equal)

theorem sameMaps_putMaps {loader : ZpeUpdPolLoader} (hne : domain ≠ domainName) :
    SameMaps loader (loader.putMaps domainName maps) domain := by
  intro deny equal
  cases deny <;> cases equal <;> exact (Map.lookup_insert ..).trans (if_neg hne)

theorem SameMaps.trans (h : SameMaps loader loader' domain) (h' : SameMaps loader' loader'' domain) :
    SameMaps loader loader'' domain :=
  fun deny equal => (h' deny equal).trans (h deny equal)

end ZpeUpdPolLoader

end Views

section Files

/-- A file is loaded, not only looked at. -/
def PolFile.isLoaded (file : PolFile) : Option ZpeFileStatus → Bool
  | none => true
  | some fstat => !(decide (file.lastModified ≤ fstat.modifyTimeMillis) && fstat.validPolFile)

/-- The record of a file after a loading. -/
def PolFile.loadedStatus (file : PolFile) (fstat : ZpeFileStatus) : ZpeFileStatus :=
  match file.data with
  | none => { fstat with validPolFile := false }
  | some policyData => { fstat with validPolFile := true, domain := some policyData.domain }

/-- The record of a file after a cycle. -/
def PolFile.nextStatus (file : PolFile) : Option ZpeFileStatus → ZpeFileStatus
  | none => file.loadedStatus { modifyTimeMillis := file.lastModified }
  | some fstat => if file.isLoaded (some fstat) then file.loadedStatus fstat else fstat

namespace ZpeUpdPolLoader

variable [CaseRules] {directory : Directory} {loader : ZpeUpdPolLoader} {file : PolFile}

theorem loadFile_record (hfile : directory.lookup fileName = some file)
    (hrecord : loader.fileStatusRef.lookup fileName = some fstat) (other : Str) :
    (loader.loadFile directory fileName).fileStatusRef.lookup other =
      if other = fileName then some (file.loadedStatus fstat) else loader.fileStatusRef.lookup other := by
  unfold loadFile PolFile.loadedStatus
  rw [hfile, Option.bind_some]
  cases file.data with
  | none =>
    dsimp only
    unfold markInvalidFile
    rw [hrecord]
    exact Map.lookup_insert ..
  | some policyData =>
    dsimp only
    rw [hrecord]
    exact Map.lookup_insert ..

theorem loadFile_has (hfile : directory.lookup fileName = some file) (hdata : file.data = some policyData) :
    (loader.loadFile directory fileName).Has policyData.domain (roleMaps policyData) := by
  unfold loadFile
  rw [hfile, Option.bind_some, hdata]
  exact has_putMaps ..

omit [CaseRules] in
theorem sameMaps_records {loader : ZpeUpdPolLoader} (records : Map Str ZpeFileStatus) (domain : Str) :
    SameMaps loader { loader with fileStatusRef := records } domain :=
  fun _ _ => rfl

omit [CaseRules] in
theorem sameMaps_markInvalidFile (loader : ZpeUpdPolLoader) (fileName domain : Str) :
    SameMaps loader (loader.markInvalidFile fileName) domain := by
  unfold markInvalidFile
  split
  · exact fun _ _ => rfl
  · exact sameMaps_records _ _

theorem loadFile_sameMaps (hfile : directory.lookup fileName = some file)
    (h : ∀ policyData, file.data = some policyData → policyData.domain ≠ domain) :
    SameMaps loader (loader.loadFile directory fileName) domain := by
  unfold loadFile
  rw [hfile, Option.bind_some]
  cases hdata : file.data with
  | none => exact sameMaps_markInvalidFile _ _ _
  | some policyData =>
    refine SameMaps.trans ?_ (sameMaps_putMaps (Ne.symm (h policyData hdata)))
    cases loader.fileStatusRef.lookup fileName with
    | none => exact fun _ _ => rfl
    | some fstat => exact sameMaps_records _ _

/-- What is done with a file of the directory. -/
theorem loadPolFile_eq (hfile : directory.lookup fileName = some file) :
    loadPolFile directory loader fileName =
      match loader.fileStatusRef.lookup fileName with
      | some fstat => if file.isLoaded (some fstat) then loader.loadFile directory fileName else loader
      | none =>
        loadFile directory fileName
          { loader with
            fileStatusRef := loader.fileStatusRef.insert fileName { modifyTimeMillis := file.lastModified } } := by
  unfold loadPolFile PolFile.isLoaded
  dsimp only
  rw [hfile, Option.map_some, Option.getD_some]
  cases loader.fileStatusRef.lookup fileName with
  | none => rfl
  | some fstat =>
    dsimp only
    rw [if_neg (fun hnone => nomatch hnone)]
    by_cases hskip : file.lastModified ≤ fstat.modifyTimeMillis ∧ fstat.validPolFile = true
    · rw [if_pos hskip, if_neg]
      simp [hskip.1, hskip.2]
    · rw [if_neg hskip, if_pos]
      rw [Bool.not_eq_true', ← Bool.not_eq_true, Bool.and_eq_true, decide_eq_true_eq]
      exact hskip

theorem loadPolFile_record (hfile : directory.lookup fileName = some file) (other : Str) :
    (loadPolFile directory loader fileName).fileStatusRef.lookup other =
      if other = fileName then some (file.nextStatus (loader.fileStatusRef.lookup fileName))
      else loader.fileStatusRef.lookup other := by
  rw [loadPolFile_eq hfile]
  cases hrecord : loader.fileStatusRef.lookup fileName with
  | none =>
    dsimp only [PolFile.nextStatus]
    rw [loadFile_record hfile ((Map.lookup_insert ..).trans (if_pos rfl)), Map.lookup_insert]
    split
    · rfl
    · rfl
  | some fstat =>
    dsimp only [PolFile.nextStatus]
    by_cases hloaded : file.isLoaded (some fstat) = true
    · rw [if_pos hloaded, if_pos hloaded, loadFile_record hfile hrecord]
    · rw [if_neg hloaded, if_neg hloaded]
      split
      · rename_i hsame
        rw [hsame, hrecord]
      · rfl

theorem loadPolFile_has (hfile : directory.lookup fileName = some file)
    (hloaded : file.isLoaded (loader.fileStatusRef.lookup fileName) = true)
    (hdata : file.data = some policyData) :
    (loadPolFile directory loader fileName).Has policyData.domain (roleMaps policyData) := by
  rw [loadPolFile_eq hfile]
  cases hrecord : loader.fileStatusRef.lookup fileName with
  | none => exact loadFile_has hfile hdata
  | some fstat =>
    rw [hrecord] at hloaded
    dsimp only
    rw [if_pos hloaded]
    exact loadFile_has hfile hdata

theorem loadPolFile_sameMaps (hfile : directory.lookup fileName = some file)
    (h : file.isLoaded (loader.fileStatusRef.lookup fileName) = true →
      ∀ policyData, file.data = some policyData → policyData.domain ≠ domain) :
    SameMaps loader (loadPolFile directory loader fileName) domain := by
  rw [loadPolFile_eq hfile]
  cases hrecord : loader.fileStatusRef.lookup fileName with
  | none =>
    rw [hrecord] at h
    exact SameMaps.trans (sameMaps_records _ _) (loadFile_sameMaps hfile (h rfl))
  | some fstat =>
    rw [hrecord] at h
    dsimp only
    split
    · rename_i hloaded
      exact loadFile_sameMaps hfile (h hloaded)
    · exact fun _ _ => rfl

end ZpeUpdPolLoader

end Files

section Cycles

namespace ZpeUpdPolLoader

variable [CaseRules] {directory : Directory} {loader : ZpeUpdPolLoader}

/-- All these files are in the directory. -/
def Listed (directory : Directory) (names : List Str) : Prop :=
  ∀ name ∈ names, ∃ file, directory.lookup name = some file

theorem loadDb_record_of_notMem (hlisted : Listed directory names) (h : name ∉ names) :
    (loader.loadDb directory names).fileStatusRef.lookup name = loader.fileStatusRef.lookup name := by
  induction names generalizing loader with
  | nil => rfl
  | cons first names ih =>
    rw [List.mem_cons, not_or] at h
    obtain ⟨file, hfile⟩ := hlisted first List.mem_cons_self
    have hrest : Listed directory names := fun other hother => hlisted other (.tail first hother)
    have hstep : (loadPolFile directory loader first).fileStatusRef.lookup name = _ :=
      loadPolFile_record hfile name
    rw [if_neg h.1] at hstep
    exact (ih hrest h.2).trans hstep

/-- Each file of the list leaves its record, in which the other files have no part. -/
theorem loadDb_record (hlisted : Listed directory names) (hnodup : names.Nodup) (hname : name ∈ names)
    (hfile : directory.lookup name = some file) :
    (loader.loadDb directory names).fileStatusRef.lookup name =
      some (file.nextStatus (loader.fileStatusRef.lookup name)) := by
  induction names generalizing loader with
  | nil => exact absurd hname List.not_mem_nil
  | cons first names ih =>
    obtain ⟨hfirst, hnames⟩ := List.nodup_cons.1 hnodup
    have hrest : Listed directory names := fun other hother => hlisted other (.tail first hother)
    obtain rfl | hmem := List.mem_cons.1 hname
    · have hstep : (loadPolFile directory loader name).fileStatusRef.lookup name = _ :=
        loadPolFile_record hfile name
      rw [if_pos rfl] at hstep
      exact (loadDb_record_of_notMem hrest hfirst).trans hstep
    · obtain ⟨other, hother⟩ := hlisted first List.mem_cons_self
      have hne : name ≠ first := by
        rintro rfl
        exact hfirst hmem
      have hstep : (loadPolFile directory loader first).fileStatusRef.lookup name = _ :=
        loadPolFile_record hother name
      rw [if_neg hne] at hstep
      rw [← hstep]
      exact ih hrest hnames hmem

/-- A domain that no loaded file is about keeps its maps. -/
theorem loadDb_sameMaps (hlisted : Listed directory names) (hnodup : names.Nodup)
    (h : ∀ name ∈ names, ∀ file, directory.lookup name = some file →
      file.isLoaded (loader.fileStatusRef.lookup name) = true →
      ∀ policyData, file.data = some policyData → policyData.domain ≠ domain) :
    SameMaps loader (loader.loadDb directory names) domain := by
  induction names generalizing loader with
  | nil => exact fun _ _ => rfl
  | cons first names ih =>
    obtain ⟨hfirst, hnames⟩ := List.nodup_cons.1 hnodup
    obtain ⟨file, hfile⟩ := hlisted first List.mem_cons_self
    have hrest : Listed directory names := fun other hother => hlisted other (.tail first hother)
    refine SameMaps.trans (loadPolFile_sameMaps hfile (h first List.mem_cons_self file hfile)) ?_
    apply ih hrest hnames
    intro name hname other hother hloaded
    have hne : name ≠ first := by
      rintro rfl
      exact hfirst hname
    rw [loadPolFile_record hfile, if_neg hne] at hloaded
    exact h name (.tail first hname) other hother hloaded

/-- A file that is loaded leaves its maps when no other file is about its domain. -/
theorem loadDb_has (hlisted : Listed directory names) (hnodup : names.Nodup) (hname : name ∈ names)
    (hfile : directory.lookup name = some file)
    (hloaded : file.isLoaded (loader.fileStatusRef.lookup name) = true)
    (hdata : file.data = some policyData)
    (hunique : ∀ other ∈ names, ∀ file', directory.lookup other = some file' →
      ∀ policyData', file'.data = some policyData' → policyData'.domain = policyData.domain → other = name) :
    (loader.loadDb directory names).Has policyData.domain (roleMaps policyData) := by
  induction names generalizing loader with
  | nil => exact absurd hname List.not_mem_nil
  | cons first names ih =>
    obtain ⟨hfirst, hnames⟩ := List.nodup_cons.1 hnodup
    have hrest : Listed directory names := fun other hother => hlisted other (.tail first hother)
    obtain rfl | hmem := List.mem_cons.1 hname
    · refine (loadPolFile_has hfile hloaded hdata).of_sameMaps (loadDb_sameMaps hrest hnames ?_)
      intro other hother file' hfile' _ policyData' hdata' hsame
      exact hfirst (hunique other (.tail _ hother) file' hfile' policyData' hdata' hsame ▸ hother)
    · obtain ⟨other, hother⟩ := hlisted first List.mem_cons_self
      have hne : name ≠ first := by
        rintro rfl
        exact hfirst hmem
      apply ih hrest hnames hmem
      · rw [loadPolFile_record hother, if_neg hne]
        exact hloaded
      · intro other' hother'
        exact hunique other' (.tail first hother')

end ZpeUpdPolLoader

end Cycles

section Runs

/-- The policies of a file of the directory, when it is a valid policy file. -/
def Directory.policyOf (directory : Directory) (name : Str) : Option PolicyData :=
  if ↑".pol" <:+ name then (directory.lookup name).bind (·.data) else none

/-- A valid policy file of a domain is present. -/
def Directory.ValidFor (directory : Directory) (domain : Str) : Prop :=
  ∃ name policyData, directory.policyOf name = some policyData ∧ policyData.domain = domain

/-- The policies of the last snapshot in which a file was valid; the latest snapshot comes first. -/
def lastValid (name : Str) : List Directory → Option PolicyData
  | [] => none
  | directory :: earlier => (directory.policyOf name).or (lastValid name earlier)

/-- The next snapshot: a file that is rewritten gets a later time, and no two valid files are about one
domain. -/
structure Evolves (before after : Directory) : Prop where
  later : ∀ name old new, before.lookup name = some old → after.lookup name = some new →
    new = old ∨ old.lastModified < new.lastModified
  single : ∀ name name' policyData policyData', after.policyOf name = some policyData →
    after.policyOf name' = some policyData' → policyData.domain = policyData'.domain → name = name'

namespace ZpeUpdPolLoader

/-- There is no assertion of a domain. -/
def HoldsNone (loader : ZpeUpdPolLoader) (domain : Str) : Prop :=
  ∀ deny equal roleMap, loader.mapAt deny equal domain = some roleMap →
    ∀ roleName, roleMap.listAt roleName = []

variable [CaseRules]

/-- The maps hold the assertions of the valid files, and none of a domain whose file was deleted. -/
structure Tracks (loader : ZpeUpdPolLoader) (directory : Directory) (earlier : List Directory) : Prop where
  valid : ∀ name policyData, directory.policyOf name = some policyData →
    loader.Has policyData.domain (roleMaps policyData)
  deleted : ∀ name policyData, directory.lookup name = none → lastValid name earlier = some policyData →
    directory.ValidFor policyData.domain ∨ loader.HoldsNone policyData.domain

/-- What the records say of a file is not out of date: one that comes back has a later time than the one
recorded or is the one that was loaded, and one that is gone has left no assertions. -/
structure Noticed (loader : ZpeUpdPolLoader) (before after : Directory) : Prop where
  created : ∀ name file fstat, ↑".pol" <:+ name → before.lookup name = none →
    after.lookup name = some file → loader.fileStatusRef.lookup name = some fstat →
    fstat.modifyTimeMillis ≤ file.lastModified ∧
      (fstat.modifyTimeMillis = file.lastModified → fstat.validPolFile = true →
        ∃ policyData, file.data = some policyData ∧ fstat.domain = some policyData.domain ∧
          loader.Has policyData.domain (roleMaps policyData))
  deleted : ∀ name fstat domain, after.lookup name = none →
    loader.fileStatusRef.lookup name = some fstat → fstat.domain = some domain →
    after.ValidFor domain ∨ loader.HoldsNone domain

/-- A run of cycles, with the snapshots from the latest to the first. -/
inductive Run : ZpeUpdPolLoader → List Directory → Prop
  | start : Run {} []
  | cycle : Run loader earlier → Evolves (earlier.headD ∅) directory →
      Noticed loader (earlier.headD ∅) directory → Run (loader.cycle directory) (directory :: earlier)

/-- The record of a file and the maps agree with the file. -/
structure UpToDate (loader : ZpeUpdPolLoader) (file : PolFile) (fstat : ZpeFileStatus) : Prop where
  time : fstat.modifyTimeMillis ≤ file.lastModified
  valid : fstat.validPolFile = file.data.isSome
  maps : ∀ policyData, file.data = some policyData → fstat.domain = some policyData.domain ∧
    loader.Has policyData.domain (roleMaps policyData)

/-- The records agree with the last snapshot and with the history of each file. -/
structure Recorded (loader : ZpeUpdPolLoader) (snapshots : List Directory) : Prop where
  present : ∀ name file, ↑".pol" <:+ name → (snapshots.headD ∅).lookup name = some file →
    ∃ fstat, loader.fileStatusRef.lookup name = some fstat ∧ loader.UpToDate file fstat
  domains : ∀ name, ↑".pol" <:+ name → (loader.fileStatusRef.lookup name).bind (·.domain) =
    (lastValid name snapshots).map (·.domain)

end ZpeUpdPolLoader

end Runs

section Tracking

theorem policyOf_iff {directory : Directory} : directory.policyOf name = some policyData ↔
    ↑".pol" <:+ name ∧ ∃ file, directory.lookup name = some file ∧ file.data = some policyData := by
  unfold Directory.policyOf
  by_cases hpol : ↑".pol" <:+ name
  · rw [if_pos hpol, Option.bind_eq_some_iff]
    exact (and_iff_right hpol).symm
  · rw [if_neg hpol]
    exact iff_of_false (fun h => nomatch h) fun h => hpol h.1

theorem pol_of_lastValid (h : lastValid name snapshots = some policyData) : ↑".pol" <:+ name := by
  induction snapshots with
  | nil => exact nomatch h
  | cons directory earlier ih =>
    obtain hhere | ⟨_, hearlier⟩ := Option.or_eq_some_iff.1 h
    · exact (policyOf_iff.1 hhere).1
    · exact ih hearlier

theorem mem_loadFileStatus_iff {directory : Directory} :
    name ∈ ZpeUpdMonitor.loadFileStatus directory ↔
      ↑".pol" <:+ name ∧ ∃ file, directory.lookup name = some file := by
  unfold ZpeUpdMonitor.loadFileStatus
  rw [List.mem_filter, decide_eq_true_iff, and_comm, ← AList.mem_keys, ← AList.lookup_isSome,
    Option.isSome_iff_exists]

theorem nodup_loadFileStatus (directory : Directory) :
    (ZpeUpdMonitor.loadFileStatus directory).Nodup :=
  directory.keys_nodup.filter _

namespace ZpeUpdPolLoader

variable [CaseRules] {loader : ZpeUpdPolLoader} {directory before after : Directory} {file : PolFile}

omit [CaseRules] in
theorem listed_loadFileStatus (directory : Directory) :
    Listed directory (ZpeUpdMonitor.loadFileStatus directory) :=
  fun _ hname => (mem_loadFileStatus_iff.1 hname).2

theorem cycle_record (hpol : ↑".pol" <:+ name) (hfile : directory.lookup name = some file) :
    (loader.cycle directory).fileStatusRef.lookup name =
      some (file.nextStatus (loader.fileStatusRef.lookup name)) :=
  loadDb_record (listed_loadFileStatus directory) (nodup_loadFileStatus directory)
    (mem_loadFileStatus_iff.2 ⟨hpol, file, hfile⟩) hfile

theorem cycle_record_of_none (h : directory.lookup name = none) :
    (loader.cycle directory).fileStatusRef.lookup name = loader.fileStatusRef.lookup name := by
  apply loadDb_record_of_notMem (listed_loadFileStatus directory)
  intro hname
  obtain ⟨_, file, hfile⟩ := mem_loadFileStatus_iff.1 hname
  rw [h] at hfile
  exact nomatch hfile

theorem cycle_sameMaps (h : ∀ name file policyData, directory.lookup name = some file →
      directory.policyOf name = some policyData → policyData.domain = domain →
      file.isLoaded (loader.fileStatusRef.lookup name) = false) :
    SameMaps loader (loader.cycle directory) domain := by
  apply loadDb_sameMaps (listed_loadFileStatus directory) (nodup_loadFileStatus directory)
  intro name hname file hfile hloaded policyData hdata hsame
  have hpolicy := policyOf_iff.2 ⟨(mem_loadFileStatus_iff.1 hname).1, file, hfile, hdata⟩
  exact ne_true_of_eq_false (h name file policyData hfile hpolicy hsame) hloaded

theorem cycle_has (hevolves : Evolves before after) (hpol : ↑".pol" <:+ name)
    (hfile : after.lookup name = some file)
    (hloaded : file.isLoaded (loader.fileStatusRef.lookup name) = true)
    (hdata : file.data = some policyData) :
    (loader.cycle after).Has policyData.domain (roleMaps policyData) := by
  apply loadDb_has (listed_loadFileStatus after) (nodup_loadFileStatus after)
    (mem_loadFileStatus_iff.2 ⟨hpol, file, hfile⟩) hfile hloaded hdata
  intro other hother file' hfile' policyData' hdata' hsame
  have hpolicy' := policyOf_iff.2 ⟨(mem_loadFileStatus_iff.1 hother).1, file', hfile', hdata'⟩
  exact hevolves.single other name policyData' policyData hpolicy'
    (policyOf_iff.2 ⟨hpol, file, hfile, hdata⟩) hsame

omit [CaseRules] in
theorem skipped_iff : file.isLoaded (some fstat) = false ↔
    file.lastModified ≤ fstat.modifyTimeMillis ∧ fstat.validPolFile = true := by
  unfold PolFile.isLoaded
  rw [Bool.not_eq_false', Bool.and_eq_true, decide_eq_true_eq]

/-- A file that is skipped is the one that was loaded. -/
def Skippable (loader : ZpeUpdPolLoader) (file : PolFile) (fstat : ZpeFileStatus) : Prop :=
  file.isLoaded (some fstat) = false →
    ∃ policyData, file.data = some policyData ∧ fstat.domain = some policyData.domain ∧
      loader.Has policyData.domain (roleMaps policyData)

theorem UpToDate.of_loaded (htime : fstat.modifyTimeMillis ≤ file.lastModified)
    (hmaps : ∀ policyData, file.data = some policyData → loader.Has policyData.domain (roleMaps policyData)) :
    loader.UpToDate file (file.loadedStatus fstat) := by
  unfold PolFile.loadedStatus
  cases hdata : file.data with
  | none => exact ⟨htime, by rw [hdata]; rfl, fun policyData hsome => nomatch hdata.symm.trans hsome⟩
  | some policyData =>
    refine ⟨htime, by rw [hdata]; rfl, ?_⟩
    intro found hfound
    obtain rfl := Option.some.inj (hdata.symm.trans hfound)
    exact ⟨rfl, hmaps policyData hdata⟩

/-- After a cycle the record of a file is up to date. -/
theorem upToDate_cycle (hevolves : Evolves before after) (hpol : ↑".pol" <:+ name)
    (hfile : after.lookup name = some file)
    (h : ∀ fstat, loader.fileStatusRef.lookup name = some fstat →
      fstat.modifyTimeMillis ≤ file.lastModified ∧ loader.Skippable file fstat) :
    (loader.cycle after).UpToDate file (file.nextStatus (loader.fileStatusRef.lookup name)) := by
  have hmaps : file.isLoaded (loader.fileStatusRef.lookup name) = true → ∀ policyData,
      file.data = some policyData → (loader.cycle after).Has policyData.domain (roleMaps policyData) :=
    fun hloaded policyData hdata => cycle_has hevolves hpol hfile hloaded hdata
  cases hrecord : loader.fileStatusRef.lookup name with
  | none => exact UpToDate.of_loaded (Int.le_refl _) (hmaps (by rw [hrecord]; rfl))
  | some fstat =>
    obtain ⟨htime, hskip⟩ := h fstat hrecord
    rw [hrecord] at hmaps
    unfold PolFile.nextStatus
    dsimp only
    cases hloaded : file.isLoaded (some fstat) with
    | true => exact UpToDate.of_loaded htime (hmaps hloaded)
    | false =>
      obtain ⟨policyData, hdata, hdomain, hhas⟩ := hskip hloaded
      have hvalid : fstat.validPolFile = true := (skipped_iff.1 hloaded).2
      have hsame : SameMaps loader (loader.cycle after) policyData.domain := by
        apply cycle_sameMaps
        intro other file' policyData' hfile' hpolicy' hsame
        obtain rfl := hevolves.single other name policyData' policyData hpolicy'
          (policyOf_iff.2 ⟨hpol, file, hfile, hdata⟩) hsame
        obtain rfl := Option.some.inj (hfile.symm.trans hfile')
        rw [hrecord]
        exact hloaded
      rw [if_neg Bool.false_ne_true]
      refine ⟨htime, by rw [hvalid, hdata]; rfl, ?_⟩
      intro found hfound
      obtain rfl := Option.some.inj (hdata.symm.trans hfound)
      exact ⟨hdomain, hhas.of_sameMaps hsame⟩

omit [CaseRules] in
theorem nextStatus_domain_of_none (h : file.data = none) (record : Option ZpeFileStatus) :
    (file.nextStatus record).domain = record.bind (·.domain) := by
  have hloaded : ∀ fstat, (file.loadedStatus fstat).domain = fstat.domain := by
    intro fstat
    rw [PolFile.loadedStatus, h]
  cases record with
  | none => exact hloaded _
  | some fstat =>
    rw [PolFile.nextStatus, Option.bind_some]
    split
    · exact hloaded fstat
    · rfl

/-- The records of the files of the next snapshot can be relied on. -/
theorem Recorded.skippable (h : Recorded loader snapshots)
    (hevolves : Evolves (snapshots.headD ∅) after) (hnoticed : Noticed loader (snapshots.headD ∅) after)
    (hpol : ↑".pol" <:+ name) (hfile : after.lookup name = some file)
    (hrecord : loader.fileStatusRef.lookup name = some fstat) :
    fstat.modifyTimeMillis ≤ file.lastModified ∧ loader.Skippable file fstat := by
  cases hbefore : (snapshots.headD ∅).lookup name with
  | none =>
    obtain ⟨htime, hsame⟩ := hnoticed.created name file fstat hpol hbefore hfile hrecord
    refine ⟨htime, ?_⟩
    intro hskipped
    obtain ⟨hle, hvalid⟩ := skipped_iff.1 hskipped
    exact hsame (Int.le_antisymm htime hle) hvalid
  | some old =>
    obtain ⟨found, hfound, htime, hvalid, hmaps⟩ := h.present name old hpol hbefore
    obtain rfl := Option.some.inj (hrecord.symm.trans hfound)
    obtain rfl | hlater := hevolves.later name old file hbefore hfile
    · refine ⟨htime, ?_⟩
      intro hskipped
      rw [(skipped_iff.1 hskipped).2] at hvalid
      obtain ⟨policyData, hdata⟩ := Option.isSome_iff_exists.1 hvalid.symm
      exact ⟨policyData, hdata, hmaps policyData hdata⟩
    · refine ⟨Int.le_of_lt (Int.lt_of_le_of_lt htime hlater), ?_⟩
      intro hskipped
      obtain ⟨hle, _⟩ := skipped_iff.1 hskipped
      omega

theorem Recorded.cycle (h : Recorded loader snapshots)
    (hevolves : Evolves (snapshots.headD ∅) after) (hnoticed : Noticed loader (snapshots.headD ∅) after) :
    Recorded (loader.cycle after) (after :: snapshots) where
  present := by
    intro name file hpol hfile
    refine ⟨_, cycle_record hpol hfile, upToDate_cycle hevolves hpol hfile ?_⟩
    intro fstat hrecord
    exact h.skippable hevolves hnoticed hpol hfile hrecord
  domains := by
    intro name hpol
    have hearlier := h.domains name hpol
    cases hfile : after.lookup name with
    | none =>
      have hnone : after.policyOf name = none := by
        rw [Directory.policyOf, if_pos hpol, hfile]
        rfl
      rw [cycle_record_of_none hfile, hearlier, lastValid, hnone, Option.none_or]
    | some file =>
      have hcurrent : (loader.cycle after).UpToDate file
          (file.nextStatus (loader.fileStatusRef.lookup name)) :=
        upToDate_cycle hevolves hpol hfile fun fstat hrecord =>
          h.skippable hevolves hnoticed hpol hfile hrecord
      have hpolicy : after.policyOf name = file.data := by
        rw [Directory.policyOf, if_pos hpol, hfile]
        rfl
      rw [cycle_record hpol hfile, Option.bind_some, lastValid, hpolicy]
      cases hdata : file.data with
      | some policyData => exact (hcurrent.maps policyData hdata).1
      | none =>
        rw [Option.none_or, ← hearlier]
        exact nextStatus_domain_of_none hdata _

theorem Run.recorded (h : Run loader snapshots) : Recorded loader snapshots := by
  induction h with
  | start => exact ⟨fun _ _ _ hfile => (nomatch hfile), fun _ _ => rfl⟩
  | cycle _ hevolves hnoticed ih => exact ih.cycle hevolves hnoticed

theorem Recorded.tracks (h : Recorded loader snapshots)
    (hevolves : Evolves (snapshots.headD ∅) after) (hnoticed : Noticed loader (snapshots.headD ∅) after) :
    (loader.cycle after).Tracks after snapshots where
  valid := by
    intro name policyData hpolicy
    obtain ⟨hpol, file, hfile, hdata⟩ := policyOf_iff.1 hpolicy
    obtain ⟨fstat, _, hcurrent⟩ := (h.cycle hevolves hnoticed).present name file hpol hfile
    exact (hcurrent.maps policyData hdata).2
  deleted := by
    intro name policyData hnone hlast
    have hdomain := h.domains name (pol_of_lastValid hlast)
    rw [hlast] at hdomain
    obtain ⟨fstat, hrecord, hdomain⟩ := Option.bind_eq_some_iff.1 hdomain
    by_cases hvalid : after.ValidFor policyData.domain
    · exact .inl hvalid
    · have hempty := (hnoticed.deleted name fstat policyData.domain hnone hrecord hdomain).resolve_left hvalid
      have hsame : SameMaps loader (loader.cycle after) policyData.domain := by
        apply cycle_sameMaps
        intro other file found _ hfound hsame
        exact absurd ⟨other, found, hfound, hsame⟩ hvalid
      refine .inr fun deny equal roleMap hmap => ?_
      exact hempty deny equal roleMap ((hsame deny equal).symm.trans hmap)

end ZpeUpdPolLoader

end Tracking

section Sample

local instance directoryCaseRules : CaseRules := .ascii

def newsPolicy (action : Str) : PolicyData where
  domain := "news"
  policies := [{ assertions := some [
    { role := "news:role.readers", resource := "news:*", action := action }] }]

/-- The directory with the file of one domain. -/
def newsDirectory (lastModified : Int) (data : Option PolicyData) : Directory :=
  (∅ : Directory).insert "news.pol" ⟨lastModified, data⟩

theorem lookup_newsDirectory : (newsDirectory time data).lookup name =
    if name = "news.pol" then some ⟨time, data⟩ else none :=
  Map.lookup_insert ..

theorem newsDirectory_single (h : (newsDirectory time data).policyOf name = some policyData) :
    name = "news.pol" := by
  obtain ⟨_, file, hfile, _⟩ := policyOf_iff.1 h
  rw [lookup_newsDirectory] at hfile
  by_contra hne
  rw [if_neg hne] at hfile
  exact nomatch hfile

theorem evolves_newsDirectory {before : Directory}
    (h : ∀ old, before.lookup (↑"news.pol" : Str) = some old → old.lastModified < time) :
    Evolves before (newsDirectory time data) where
  later := by
    intro name old new hold hnew
    rw [lookup_newsDirectory] at hnew
    split at hnew
    · rename_i hname
      obtain rfl := Option.some.inj hnew
      exact .inr (h old (hname ▸ hold))
    · exact nomatch hnew
  single := by
    intro name name' _ _ hname hname' _
    rw [newsDirectory_single hname, newsDirectory_single hname']

theorem noticed_newsDirectory {loader : ZpeUpdPolLoader} {before : Directory}
    (hothers : ∀ name : Str, name ≠ "news.pol" → loader.fileStatusRef.lookup name = none)
    (hfirst : before.lookup (↑"news.pol" : Str) = none → loader.fileStatusRef.lookup (↑"news.pol" : Str) = none) :
    loader.Noticed before (newsDirectory time data) where
  created := by
    intro name file fstat _ hbefore _ hrecord
    by_cases hname : name = "news.pol"
    · subst hname
      rw [hfirst hbefore] at hrecord
      exact nomatch hrecord
    · rw [hothers name hname] at hrecord
      exact nomatch hrecord
  deleted := by
    intro name fstat domain hnone hrecord _
    have hname : name ≠ "news.pol" := by
      rintro rfl
      rw [lookup_newsDirectory, if_pos rfl] at hnone
      exact nomatch hnone
    rw [hothers name hname] at hrecord
    exact nomatch hrecord

theorem records_newsDirectory {loader : ZpeUpdPolLoader}
    (h : ∀ name : Str, name ≠ "news.pol" → loader.fileStatusRef.lookup name = none) :
    ∀ name : Str, name ≠ "news.pol" →
      (loader.cycle (newsDirectory time data)).fileStatusRef.lookup name = none := by
  intro name hname
  rw [ZpeUpdPolLoader.cycle_record_of_none (lookup_newsDirectory.trans (if_neg hname))]
  exact h name hname

/-- A file that is rewritten, spoiled and repaired. -/
def repairedLoader : ZpeUpdPolLoader :=
  ((({} : ZpeUpdPolLoader).cycle (newsDirectory 10 (some (newsPolicy "read")))).cycle
    (newsDirectory 20 none)).cycle (newsDirectory 30 (some (newsPolicy "write")))

end Sample

end Athenz.Zpe
