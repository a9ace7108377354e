import Mathlib.Data.List.Induction
import Mathlib.Data.Set.Insert
import Athenz.Lib.Keyed
import Athenz.Lib.Text

namespace Athenz.Zts.Cert
open Lib Lib.Text Lib.Keyed
set_option autoImplicit true

section Records

structure X509CertRecord where
  provider : Str
  instanceId : Str
  service : Str
  currentSerial : Str
  currentTime : Int
  currentIP : Str
  prevSerial : Str
  prevTime : Int
  prevIP : Str
  clientCert : Bool := false
  lastNotifiedTime : Option Int := none
  lastNotifiedServer : Option Str := none
  expiryTime : Option Int := none
  hostName : Option Str := none
  svcDataUpdateTime : Option Int := none
deriving DecidableEq

/-- What a record is found by: provider, instance id and service. -/
abbrev RecordKey := Str × Str × Str

def X509CertRecord.key (certRecord : X509CertRecord) : RecordKey :=
  (certRecord.provider, certRecord.instanceId, certRecord.service)

/-- What a record tells about the certificates that were issued. -/
structure Issued where
  currentSerial : Str
  currentTime : Int
  currentIP : Str
  prevSerial : Str
  prevTime : Int
  prevIP : Str
  clientCert : Bool
  expiryTime : Option Int
  hostName : Option Str
deriving DecidableEq

def X509CertRecord.issued (certRecord : X509CertRecord) : Issued where
  currentSerial := certRecord.currentSerial
  currentTime := certRecord.currentTime
  currentIP := certRecord.currentIP
  prevSerial := certRecord.prevSerial
  prevTime := certRecord.prevTime
  prevIP := certRecord.prevIP
  clientCert := certRecord.clientCert
  expiryTime := certRecord.expiryTime
  hostName := certRecord.hostName

/-- A connection to a store with states `σ`; the updates read the clock. -/
structure CertRecordStoreConnection (σ : Type) where
  getX509CertRecord : RecordKey → σ → Option X509CertRecord
  updateX509CertRecord : Int → X509CertRecord → σ → Bool × σ
  insertX509CertRecord : Int → X509CertRecord → σ → Bool × σ
  deleteX509CertRecord : RecordKey → σ → Bool × σ

end Records

namespace FileCertRecordStoreConnection

/-- The JSON library: what it writes and what it reads back. -/
structure JSON where
  string : X509CertRecord → Str
  fromBytes : Str → Option X509CertRecord

def getRecordFileName (key : RecordKey) : Str :=
  let (provider, instanceId, service) := key
  provider ++ '-' :: instanceId ++ '-' :: service

def getCertRecord (json : JSON) (key : RecordKey) (files : Map Str Str) : Option X509CertRecord :=
  match files.lookup (getRecordFileName key) with
  | none => none
  | some data => json.fromBytes data

def putCertRecord (json : JSON) (certRecord : X509CertRecord) (files : Map Str Str) : Map Str Str :=
  files.insert (getRecordFileName certRecord.key) (json.string certRecord)

def deleteCertRecord (key : RecordKey) (files : Map Str Str) : Map Str Str :=
  files.erase (getRecordFileName key)

/-- A directory with a file for each record. -/
def connection (json : JSON) : CertRecordStoreConnection (Map Str Str) where
  getX509CertRecord := getCertRecord json
  updateX509CertRecord _ certRecord files := (true, putCertRecord json certRecord files)
  insertX509CertRecord _ certRecord files := (true, putCertRecord json certRecord files)
  deleteX509CertRecord key files := (true, deleteCertRecord key files)

end FileCertRecordStoreConnection

namespace JDBCCertRecordStoreConnection

/-- The columns behind the primary key. -/
structure CertificateRow where
  currentSerial : Str
  currentTime : Int
  currentIP : Str
  prevSerial : Str
  prevTime : Int
  prevIP : Str
  clientCert : Bool
  lastNotifiedTime : Option Int
  lastNotifiedServer : Option Str
  expiryTime : Option Int
  hostName : Option Str

abbrev Certificates := Map RecordKey CertificateRow

def setRecordFromResultSet (key : RecordKey) (row : CertificateRow) : X509CertRecord where
  provider := key.1
  instanceId := key.2.1
  service := key.2.2
  currentIP := row.currentIP
  currentSerial := row.currentSerial
  currentTime := row.currentTime
  prevIP := row.prevIP
  prevSerial := row.prevSerial
  prevTime := row.prevTime
  clientCert := row.clientCert
  lastNotifiedTime := row.lastNotifiedTime
  lastNotifiedServer := row.lastNotifiedServer
  expiryTime := row.expiryTime
  hostName := row.hostName

def getX509CertRecord (key : RecordKey) (certificates : Certificates) : Option X509CertRecord :=
  (certificates.lookup key).map (setRecordFromResultSet key)

def CertificateRow.update (certRecord : X509CertRecord) (row : CertificateRow) : CertificateRow :=
  { row with
    currentSerial := certRecord.currentSerial
    currentTime := certRecord.currentTime
    currentIP := certRecord.currentIP
    prevSerial := certRecord.prevSerial
    prevTime := certRecord.prevTime
    prevIP := certRecord.prevIP
    expiryTime := certRecord.expiryTime
    hostName := certRecord.hostName
    clientCert := certRecord.clientCert }

def updateX509CertRecord (certRecord : X509CertRecord) (certificates : Certificates) :
    Bool × Certificates :=
  match certificates.lookup certRecord.key with
  | none => (false, certificates)
  | some row => (true, certificates.insert certRecord.key (row.update certRecord))

def newRow (certRecord : X509CertRecord) : CertificateRow where
  currentSerial := certRecord.currentSerial
  currentTime := certRecord.currentTime
  currentIP := certRecord.currentIP
  prevSerial := certRecord.prevSerial
  prevTime := certRecord.prevTime
  prevIP := certRecord.prevIP
  clientCert := certRecord.clientCert
  lastNotifiedTime := none
  lastNotifiedServer := none
  expiryTime := certRecord.expiryTime
  hostName := certRecord.hostName

/-- A record that exists already is reset by an update. -/
def insertX509CertRecord (certRecord : X509CertRecord) (certificates : Certificates) :
    Bool × Certificates :=
  match certificates.lookup certRecord.key with
  | some _ => updateX509CertRecord certRecord certificates
  | none => (true, certificates.insert certRecord.key (newRow certRecord))

def deleteX509CertRecord (key : RecordKey) (certificates : Certificates) : Bool × Certificates :=
  ((certificates.lookup key).isSome, certificates.erase key)

/-- The table of the certificates. -/
def connection : CertRecordStoreConnection Certificates where
  getX509CertRecord := getX509CertRecord
  updateX509CertRecord _ := updateX509CertRecord
  insertX509CertRecord _ := insertX509CertRecord
  deleteX509CertRecord := deleteX509CertRecord

end JDBCCertRecordStoreConnection

namespace DynamoDBCertRecordStoreConnection

/-- The attributes of an item behind its primary key. -/
structure Item where
  instanceId : Str
  provider : Str
  service : Str
  currentSerial : Str
  currentIP : Str
  currentTime : Int
  currentDate : Str
  prevSerial : Str
  prevIP : Str
  prevTime : Int
  clientCert : Bool
  lastNotifiedTime : Option Int := none
  lastNotifiedServer : Option Str := none
  ttl : Int
  svcDataUpdateTime : Option Int
  expiryTime : Option Int
  hostName : Str
  registerTime : Option Int := none

/-- The settings of the table: the time that items live in hours, and the text of a day. -/
structure Settings where
  expiryHours : Int := 720
  getIso8601FromDate : Int → Str

def Settings.expiryTime (settings : Settings) : Int := 3660 * settings.expiryHours

def getPrimaryKey (key : RecordKey) : Str :=
  let (provider, instanceId, service) := key
  provider ++ ':' :: service ++ ':' :: instanceId

def itemToX509CertRecord (item : Item) : X509CertRecord where
  provider := item.provider
  instanceId := item.instanceId
  service := item.service
  currentSerial := item.currentSerial
  currentIP := item.currentIP
  currentTime := item.currentTime
  prevSerial := item.prevSerial
  prevIP := item.prevIP
  prevTime := item.prevTime
  clientCert := item.clientCert
  lastNotifiedTime := item.lastNotifiedTime
  lastNotifiedServer := item.lastNotifiedServer
  expiryTime := item.expiryTime
  hostName := some item.hostName
  svcDataUpdateTime := item.svcDataUpdateTime

def getX509CertRecord (key : RecordKey) (table : Map Str Item) : Option X509CertRecord :=
  (table.lookup (getPrimaryKey key)).map itemToX509CertRecord

/-- The host name that is stored: the index on it allows no missing one. -/
def itemHostName (certRecord : X509CertRecord) : Str :=
  match certRecord.hostName with
  | none | some [] => getPrimaryKey certRecord.key
  | some hostName => hostName

/-- The attributes that an insertion and an update write. -/
def writtenItem (settings : Settings) (certRecord : X509CertRecord) : Item where
  instanceId := certRecord.instanceId
  provider := certRecord.provider
  service := certRecord.service
  currentSerial := certRecord.currentSerial
  currentIP := certRecord.currentIP
  currentTime := certRecord.currentTime
  currentDate := settings.getIso8601FromDate certRecord.currentTime
  prevSerial := certRecord.prevSerial
  prevIP := certRecord.prevIP
  prevTime := certRecord.prevTime
  clientCert := certRecord.clientCert
  ttl := certRecord.currentTime.tdiv 1000 + settings.expiryTime
  svcDataUpdateTime := certRecord.svcDataUpdateTime
  expiryTime := certRecord.expiryTime
  hostName := itemHostName certRecord

/-- An update leaves the attributes that it does not write, and makes an item where there is none. -/
def updateX509CertRecord (settings : Settings) (now : Int) (certRecord : X509CertRecord)
    (table : Map Str Item) : Bool × Map Str Item :=
  let certRecord := { certRecord with svcDataUpdateTime := some (certRecord.svcDataUpdateTime.getD now) }
  let primaryKey := getPrimaryKey certRecord.key
  let item := writtenItem settings certRecord
  (true, table.insert primaryKey (match table.lookup primaryKey with
    | none => item
    | some old => { item with
        lastNotifiedTime := old.lastNotifiedTime
        lastNotifiedServer := old.lastNotifiedServer
        registerTime := old.registerTime }))

def insertX509CertRecord (settings : Settings) (now : Int) (certRecord : X509CertRecord)
    (table : Map Str Item) : Bool × Map Str Item :=
  (true, table.insert (getPrimaryKey certRecord.key)
    { writtenItem settings certRecord with registerTime := some now })

def deleteX509CertRecord (key : RecordKey) (table : Map Str Item) : Bool × Map Str Item :=
  (true, table.erase (getPrimaryKey key))

/-- The table of the items. -/
def connection (settings : Settings) : CertRecordStoreConnection (Map Str Item) where
  getX509CertRecord := getX509CertRecord
  updateX509CertRecord := updateX509CertRecord settings
  insertX509CertRecord := insertX509CertRecord settings
  deleteX509CertRecord := deleteX509CertRecord

end DynamoDBCertRecordStoreConnection

section Agreement

inductive Call where
  | insert (certRecord : X509CertRecord)
  | update (certRecord : X509CertRecord)
  | delete (key : RecordKey)

def Call.key : Call → RecordKey
  | .insert certRecord | .update certRecord => certRecord.key
  | .delete key => key

def Call.send (conn : CertRecordStoreConnection σ) (now : Int) : Call → σ → Bool × σ
  | .insert certRecord => conn.insertX509CertRecord now certRecord
  | .update certRecord => conn.updateX509CertRecord now certRecord
  | .delete key => conn.deleteX509CertRecord key

/-- What a map makes of a call with its answer: a write that succeeds is kept. -/
def Call.apply (answer : Bool) (spec : RecordKey → Option Issued) : Call → RecordKey → Option Issued
  | .insert certRecord | .update certRecord =>
    if answer then Function.update spec certRecord.key (some certRecord.issued) else spec
  | .delete key => Function.update spec key none

/-- A call at some time to a store and to a map. -/
def sendBoth (conn : CertRecordStoreConnection σ) (state : σ × (RecordKey → Option Issued))
    (call : Int × Call) : σ × (RecordKey → Option Issued) :=
  let (answer, store) := call.2.send conn call.1 state.1
  (store, call.2.apply answer state.2)

def runBoth (conn : CertRecordStoreConnection σ) (empty : σ) (calls : List (Int × Call)) :
    σ × (RecordKey → Option Issued) :=
  calls.foldl (sendBoth conn) (empty, fun _ => none)

/-- Behind the calls the store answers for a key as the map does. -/
def AnswersAsMap (conn : CertRecordStoreConnection σ) (empty : σ) (calls : List (Int × Call))
    (key : RecordKey) : Prop :=
  (conn.getX509CertRecord key (runBoth conn empty calls).1).map (·.issued) = (runBoth conn empty calls).2 key

/-- What every call keeps holds behind the calls. -/
theorem runBoth_invariant {conn : CertRecordStoreConnection σ}
    {P : σ → (RecordKey → Option Issued) → Prop} (hempty : P empty fun _ => none)
    (hstep : ∀ call ∈ calls, ∀ state : σ × (RecordKey → Option Issued), P state.1 state.2 →
      P (sendBoth conn state call).1 (sendBoth conn state call).2) :
    P (runBoth conn empty calls).1 (runBoth conn empty calls).2 := by
  unfold runBoth
  induction calls using List.reverseRecOn with
  | nil => exact hempty
  | append_singleton calls call ih =>
    rw [List.foldl_append, List.foldl_cons, List.foldl_nil]
    refine hstep call (List.mem_append_right _ List.mem_cons_self) _ (ih fun other hother => ?_)
    exact hstep other (List.mem_append_left _ hother)

variable {calls : List (Int × Call)} {key : RecordKey}

/-- No call for another record shares the encoding of a key. -/
def Apart (encode : RecordKey → ι) (calls : List (Int × Call)) (key : RecordKey) : Prop :=
  ∀ call ∈ calls, encode call.2.key = encode key → call.2.key = key

theorem Apart.eq {encode : RecordKey → ι} (h : Apart encode calls key) (hcall : call ∈ calls) :
    ∀ k ∈ ({key} : Set RecordKey), encode k = encode call.2.key → k = call.2.key := by
  intro k hk hsame
  rw [Set.mem_singleton_iff.1 hk] at hsame ⊢
  exact (h call hcall hsame.symm).symm

/-- The library reads back the record that a call writes. -/
def Call.ReadsBack (json : FileCertRecordStoreConnection.JSON) : Call → Prop
  | .insert certRecord | .update certRecord => json.fromBytes (json.string certRecord) = some certRecord
  | .delete _ => True

open FileCertRecordStoreConnection in
theorem file_answersAsMap {json : JSON} (hjson : ∀ call ∈ calls, call.2.ReadsBack json)
    (hapart : Apart getRecordFileName calls key) : AnswersAsMap (connection json) ∅ calls key := by
  have hget (files : Map Str Str) : (getCertRecord json key files).map (·.issued) =
      (files.lookup (getRecordFileName key)).bind fun data => (json.fromBytes data).map (·.issued) := by
    unfold getCertRecord
    cases AList.lookup (getRecordFileName key) files <;> rfl
  have hput {certRecord : X509CertRecord}
      (hread : json.fromBytes (json.string certRecord) = some certRecord) :
      (json.fromBytes (json.string certRecord)).map (·.issued) = some certRecord.issued := by
    rw [hread, Option.map_some]
  have h : Represents getRecordFileName (fun data => (json.fromBytes data).map (·.issued)) {key}
      (runBoth (connection json) ∅ calls).1 (runBoth (connection json) ∅ calls).2 := by
    refine runBoth_invariant (represents_empty _ _ _) fun call hcall state hstate => ?_
    have hapart := hapart.eq hcall
    have hread := hjson call hcall
    obtain ⟨now, call⟩ := call
    cases call with
    | insert certRecord => exact hstate.insert hapart fun _ => hput hread
    | update certRecord => exact hstate.insert hapart fun _ => hput hread
    | delete key => exact hstate.erase hapart
  exact (hget _).trans (h key rfl)

open JDBCCertRecordStoreConnection in
theorem jdbc_answersAsMap (calls : List (Int × Call)) (key : RecordKey) :
    AnswersAsMap connection ∅ calls key := by
  have hget (certificates : Certificates) : (getX509CertRecord key certificates).map (·.issued) =
      (certificates.lookup key).bind fun row => some (setRecordFromResultSet key row).issued := by
    unfold getX509CertRecord
    cases AList.lookup key certificates <;> rfl
  have h : Represents id (fun row => some (setRecordFromResultSet key row).issued) {key}
      (runBoth connection ∅ calls).1 (runBoth connection ∅ calls).2 := by
    refine runBoth_invariant (represents_empty _ _ _) fun call hcall state hstate => ?_
    have hapart (other : RecordKey) : ∀ k ∈ ({key} : Set RecordKey), id k = id other → k = other :=
      fun _ _ hsame => hsame
    obtain ⟨now, call⟩ := call
    cases call with
    | insert certRecord =>
      unfold sendBoth Call.send Call.apply connection insertX509CertRecord updateX509CertRecord
      dsimp only
      cases state.1.lookup certRecord.key with
      | none => exact hstate.insert (hapart _) fun _ => rfl
      | some row => exact hstate.insert (hapart _) fun _ => rfl
    | update certRecord =>
      unfold sendBoth Call.send Call.apply connection updateX509CertRecord
      dsimp only
      cases state.1.lookup certRecord.key with
      | none => exact hstate
      | some row => exact hstate.insert (hapart _) fun _ => rfl
    | delete other => exact hstate.erase (hapart other)
  exact (hget _).trans (h key rfl)

/-- The names of providers and services hold no colon. -/
def LegalNames (key : RecordKey) : Prop := ':' ∉ key.1 ∧ ':' ∉ key.2.2

/-- The record has a host name. -/
def NamesHost (certRecord : X509CertRecord) : Prop :=
  ∃ hostName, hostName ≠ [] ∧ certRecord.hostName = some hostName

/-- A call writes no record without a host name under a key. -/
def Call.NamesHostAt (key : RecordKey) : Call → Prop
  | .insert certRecord | .update certRecord => certRecord.key = key → NamesHost certRecord
  | .delete _ => True

open DynamoDBCertRecordStoreConnection

theorem getPrimaryKey_inj (h : LegalNames key) (h' : LegalNames key')
    (hsame : getPrimaryKey key = getPrimaryKey key') : key = key' := by
  obtain ⟨provider, instanceId, service⟩ := key
  obtain ⟨provider', instanceId', service'⟩ := key'
  obtain ⟨hprovider, hservice⟩ := h
  obtain ⟨hprovider', hservice'⟩ := h'
  unfold getPrimaryKey at hsame
  simp only [List.append_assoc, List.cons_append] at hsame
  obtain ⟨rfl, hrest⟩ := append_cons_inj_first hprovider hprovider' hsame
  obtain ⟨rfl, rfl⟩ := append_cons_inj_first hservice hservice' hrest
  rfl

theorem issued_writtenItem (h : NamesHost certRecord) :
    (itemToX509CertRecord (writtenItem settings certRecord)).issued = certRecord.issued := by
  obtain ⟨hostName, hne, hsome⟩ := h
  have hitem : itemHostName certRecord = hostName := by
    unfold itemHostName
    rw [hsome]
    cases hostName with
    | nil => exact absurd rfl hne
    | cons c hostName => rfl
  unfold itemToX509CertRecord writtenItem X509CertRecord.issued
  rw [hitem, hsome]

theorem dynamoDB_answersAsMap {settings : Settings} (hlegal : ∀ call ∈ calls, LegalNames call.2.key)
    (hkey : LegalNames key) (hhosts : ∀ call ∈ calls, call.2.NamesHostAt key) :
    AnswersAsMap (connection settings) ∅ calls key := by
  have hget (table : Map Str Item) : (getX509CertRecord key table).map (·.issued) =
      (table.lookup (getPrimaryKey key)).bind fun item => some (itemToX509CertRecord item).issued := by
    unfold getX509CertRecord
    cases AList.lookup (getPrimaryKey key) table <;> rfl
  have h : Represents getPrimaryKey (fun item => some (itemToX509CertRecord item).issued) {key}
      (runBoth (connection settings) ∅ calls).1 (runBoth (connection settings) ∅ calls).2 := by
    refine runBoth_invariant (represents_empty _ _ _) fun call hcall state hstate => ?_
    have hapart := Apart.eq (fun other hother hsame => getPrimaryKey_inj (hlegal other hother) hkey hsame)
      hcall
    have hhost := hhosts call hcall
    obtain ⟨now, call⟩ := call
    cases call with
    | insert certRecord =>
      refine hstate.insert hapart fun hmem => congrArg some ?_
      have hwritten : (itemToX509CertRecord (writtenItem settings certRecord)).issued =
          certRecord.issued := issued_writtenItem (hhost (Set.mem_singleton_iff.1 hmem))
      exact hwritten
    | update certRecord =>
      refine hstate.insert hapart fun hmem => congrArg some ?_
      have hwritten : (itemToX509CertRecord (writtenItem settings { certRecord with
          svcDataUpdateTime := some (certRecord.svcDataUpdateTime.getD now) })).issued =
            certRecord.issued := issued_writtenItem (hhost (Set.mem_singleton_iff.1 hmem))
      refine Eq.trans ?_ hwritten
      split <;> rfl
    | delete other => exact hstate.erase hapart
  exact (hget _).trans (h key rfl)

/-- Behind every sequence of calls a store answers as the map does: the files where no other record has
the name of the file, the items where the records that were written have host names. -/
theorem stores_answer_as_map (json : FileCertRecordStoreConnection.JSON) (settings : Settings)
    (calls : List (Int × Call)) (key : RecordKey) (hjson : ∀ call ∈ calls, call.2.ReadsBack json)
    (hlegal : ∀ call ∈ calls, LegalNames call.2.key) (hkey : LegalNames key) :
    (Apart FileCertRecordStoreConnection.getRecordFileName calls key →
      AnswersAsMap (FileCertRecordStoreConnection.connection json) ∅ calls key) ∧
    AnswersAsMap JDBCCertRecordStoreConnection.connection ∅ calls key ∧
    ((∀ call ∈ calls, call.2.NamesHostAt key) → AnswersAsMap (connection settings) ∅ calls key) :=
  ⟨file_answersAsMap hjson, jdbc_answersAsMap calls key, dynamoDB_answersAsMap hlegal hkey⟩

end Agreement

section Sample

def sampleRecord (instanceId service : Str) (hostName : Option Str) : X509CertRecord where
  provider := "aws"
  instanceId := instanceId
  service := service
  currentSerial := "1"
  currentTime := 100
  currentIP := "10.0.0.1"
  prevSerial := "1"
  prevTime := 100
  prevIP := "10.0.0.1"
  hostName := hostName

/-- What the JSON library does on a record of the samples. -/
def sampleJson (certRecord : X509CertRecord) : FileCertRecordStoreConnection.JSON where
  string _ := "{}"
  fromBytes _ := some certRecord

def sampleSettings : DynamoDBCertRecordStoreConnection.Settings where
  getIso8601FromDate _ := "1970-01-01"

theorem sample_answered :
    AnswersAsMap (DynamoDBCertRecordStoreConnection.connection sampleSettings) ∅
      [(0, .insert (sampleRecord "i" "sports.api" (some "host")))] (↑"aws", ↑"i", ↑"sports.api") := by
  refine (stores_answer_as_map (sampleJson (sampleRecord "i" "sports.api" (some "host"))) sampleSettings
    _ _ ?_ ?_ ?_).2.2 ?_
  · exact List.forall_mem_singleton.2 rfl
  · exact List.forall_mem_singleton.2 (by unfold LegalNames; decide)
  · unfold LegalNames
    decide
  · exact List.forall_mem_singleton.2 fun _ => ⟨_, by decide, rfl⟩

/-- A record is found under another key whose file has the same name, and a record without a host name
is answered with one. -/
theorem stores_differ_from_map :
    ¬ AnswersAsMap (FileCertRecordStoreConnection.connection (sampleJson (sampleRecord "a-b" "c.d" none))) ∅
        [(0, .insert (sampleRecord "a-b" "c.d" none))] (↑"aws", ↑"a", ↑"b-c.d") ∧
    ¬ AnswersAsMap (DynamoDBCertRecordStoreConnection.connection sampleSettings) ∅
        [(0, .insert (sampleRecord "a-b" "c.d" none))] (↑"aws", ↑"a-b", ↑"c.d") := by
  unfold AnswersAsMap
  refine ⟨?_, ?_⟩ <;> decide +kernel

end Sample

end Athenz.Zts.Cert
