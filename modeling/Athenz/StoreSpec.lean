import Athenz.Lib.Focus
import Athenz.JdbcConnection

namespace Athenz.ZmsServer
open Lib Lib.Text Lib.Transaction
set_option autoImplicit true

section Names

theorem objectName_append (domainName separator name : Str) :
    objectName domainName (domainName ++ separator ++ name) separator = pure name := by
  unfold objectName extractObjectName
  rw [if_pos (List.prefix_append _ _), List.drop_left]

end Names

section Domains

def domainFocus (domainName : Str) : Focus Database DomainRow where
  get db := db.domains.lookup domainName
  put db row := { db with domains := db.domains.insert domainName row }
  get_put _ row := AList.lookup_insert _
  put_put db row row' := by
    dsimp only
    rw [AList.insert_insert]

theorem onDomain_eq_ok {f : DomainRow → Except Failure (α × DomainRow)} :
    onDomain domainName f c = (.ok a, c') ↔ (c.events 0).fault = none ∧
      ∃ row row', (domainFocus domainName).get c.working = some row ∧ f row = .ok (a, row') ∧
        c' = c.tick.write ((domainFocus domainName).put c.working row') := by
  unfold onDomain
  rw [Tx.statement_eq_ok]
  refine and_congr_right fun _ => ?_
  constructor
  · rintro ⟨s, hs, rfl⟩
    split at hs
    · cases hs
    · rename_i row hrow
      cases hf : f row with
      | error e =>
        rw [hf] at hs
        cases hs
      | ok result =>
        obtain ⟨b, row'⟩ := result
        rw [hf] at hs
        cases hs
        exact ⟨row, row', hrow, hf, rfl⟩
  · rintro ⟨row, row', hrow, hf, rfl⟩
    refine ⟨_, ?_, rfl⟩
    rw [show c.working.domains.lookup domainName = some row from hrow]
    dsimp only
    rw [hf]
    rfl

theorem onDomain_returns (f : DomainRow → Except Failure (α × DomainRow)) :
    Tx.Returns (onDomain domainName f) fun db a db' => ∃ row row',
      (domainFocus domainName).get db = some row ∧ f row = .ok (a, row') ∧
        db' = (domainFocus domainName).put db row' := by
  intro c a c' h
  obtain ⟨_, row, row', hrow, hf, rfl⟩ := onDomain_eq_ok.1 h
  exact ⟨row, row', hrow, hf, rfl⟩

theorem readDomain_returns (f : DomainRow → Except Failure α) :
    Tx.Returns (readDomain domainName f) fun db a db' => db' = db ∧
      ∃ row, (domainFocus domainName).get db = some row ∧ f row = .ok a := by
  refine (Tx.Returns.statement _).mono ?_
  rintro db a db' ⟨time, h⟩
  split at h
  · cases h
  · rename_i row hrow
    cases hf : f row with
    | error e =>
      rw [hf] at h
      cases h
    | ok b =>
      rw [hf] at h
      cases h
      exact ⟨rfl, row, hrow, hf⟩

end Domains

section Collections

def Table.focus (table : Table S) (domainName name : Str) : Focus Database (Collection S) where
  get db := table.find db domainName name
  put db collection :=
    match db.domains.lookup domainName with
    | none => db
    | some row => { db with
        domains := db.domains.insert domainName
          (table.set ((table.get row).insert name collection) row) }
  get_put := by
    intro db collection h collection'
    obtain ⟨row, hrow, _⟩ := Option.bind_eq_some_iff.1 h
    rw [hrow]
    dsimp only
    rw [Table.find, AList.lookup_insert, Option.bind_some, table.get_set, AList.lookup_insert]
  put_put := by
    intro db collection collection'
    cases hrow : db.domains.lookup domainName with
    | none =>
      dsimp only
      rw [hrow]
    | some row =>
      dsimp only
      rw [AList.lookup_insert]
      dsimp only
      rw [table.get_set, table.set_set, AList.insert_insert, AList.insert_insert]

theorem Table.focus_put {table : Table S} (h : db.domains.lookup domainName = some row)
    (collection : Collection S) :
    (table.focus domainName name).put db collection = (domainFocus domainName).put db
      (table.set ((table.get row).insert name collection) row) := by
  unfold Table.focus
  dsimp only
  rw [h]
  rfl

theorem Table.on_eq_ok {table : Table S} {f : Collection S → Except Failure (α × Collection S)} :
    table.on domainName name f c = (.ok a, c') ↔ (c.events 0).fault = none ∧
      ∃ stored stored', table.find c.working domainName name = some stored ∧
        f stored = .ok (a, stored') ∧
        c' = c.tick.write ((table.focus domainName name).put c.working stored') := by
  rw [Table.on, onDomain_eq_ok]
  refine and_congr_right fun _ => ?_
  constructor
  · rintro ⟨row, row', hrow, hf, rfl⟩
    unfold Table.change at hf
    split at hf
    · cases hf
    · rename_i stored hstored
      cases hg : f stored with
      | error e =>
        rw [hg] at hf
        cases hf
      | ok result =>
        obtain ⟨b, stored'⟩ := result
        rw [hg] at hf
        cases hf
        refine ⟨stored, stored', ?_, hg, ?_⟩
        · rw [Table.find, show c.working.domains.lookup domainName = some row from hrow]
          exact hstored
        · rw [Table.focus_put hrow]
  · rintro ⟨stored, stored', hfind, hf, rfl⟩
    obtain ⟨row, hrow, hstored⟩ := Option.bind_eq_some_iff.1 hfind
    refine ⟨row, _, hrow, ?_, congrArg c.tick.write (Table.focus_put hrow stored')⟩
    unfold Table.change
    rw [hstored]
    dsimp only
    rw [hf]
    rfl

theorem Table.on_returns (table : Table S)
    (f : Collection S → Except Failure (α × Collection S)) :
    Tx.Returns (table.on domainName name f) fun db a db' => ∃ stored stored',
      table.find db domainName name = some stored ∧ f stored = .ok (a, stored') ∧
        db' = (table.focus domainName name).put db stored' := by
  intro c a c' h
  obtain ⟨_, stored, stored', hfind, hf, rfl⟩ := Table.on_eq_ok.1 h
  exact ⟨stored, stored', hfind, hf, rfl⟩

/-- The collection is stored, with a property. -/
def Table.Holds (table : Table S) (domainName name : Str) (I : Collection S → Prop)
    (db : Database) : Prop :=
  ∃ stored, table.find db domainName name = some stored ∧ I stored

theorem Table.on_maintains {table : Table S} {f : Collection S → Except Failure (α × Collection S)}
    {I : Collection S → Prop}
    (h : ∀ stored a stored', I stored → f stored = .ok (a, stored') → I stored') :
    Tx.Maintains (table.Holds domainName name I) (table.on domainName name f) := by
  have hreturns : Tx.Returns (table.on domainName name f) _ := table.on_returns f
  unfold Table.on onDomain at hreturns ⊢
  refine hreturns.statement_maintains ?_
  rintro db a db' ⟨stored, hstored, hI⟩ ⟨stored₁, stored', hfind, hf, rfl⟩
  cases hstored.symm.trans hfind
  exact ⟨stored', (table.focus domainName name).get_put hfind stored', h stored a stored' hI hf⟩

theorem Table.updateRow_returns (table : Table S) (settings : S) :
    Tx.Returns (table.updateRow domainName name settings) fun db _ db' => ∃ stored,
      table.find db domainName name = some stored ∧
        db' = (table.focus domainName name).put db { stored with settings := settings } := by
  refine (table.on_returns _).mono ?_
  rintro db a db' ⟨stored, stored', hfind, hf, rfl⟩
  cases hf
  exact ⟨stored, hfind, rfl⟩

theorem Table.updateRow_maintains {table : Table S} {I : Collection S → Prop} {settings : S}
    (h : ∀ stored, I stored → I { stored with settings := settings }) :
    Tx.Maintains (table.Holds domainName name I) (table.updateRow domainName name settings) := by
  refine Table.on_maintains fun stored a stored' hI hf => ?_
  cases hf
  exact h stored hI

theorem updateRole_eq {role : Role} (hname : role.name = domainName ++ ":role." ++ roleName) :
    updateRole domainName role = roleTable.updateRow domainName roleName role.settings := by
  unfold updateRole
  rw [hname, objectName_append]
  rfl

theorem insertGroup_eq {group : Group} (hname : group.name = domainName ++ ":group." ++ groupName) :
    insertGroup domainName group = groupTable.insertRow domainName groupName group.settings := by
  unfold insertGroup
  rw [hname, objectName_append]
  rfl

theorem updateGroup_eq {group : Group} (hname : group.name = domainName ++ ":group." ++ groupName) :
    updateGroup domainName group = groupTable.updateRow domainName groupName group.settings := by
  unfold updateGroup
  rw [hname, objectName_append]
  rfl

end Collections

section Services

def Database.service (db : Database) (domainName serviceName : Str) : Option ServiceRow :=
  (db.domains.lookup domainName).bind fun row => row.services.lookup serviceName

def serviceFocus (domainName serviceName : Str) : Focus Database ServiceRow where
  get db := db.service domainName serviceName
  put db service :=
    match db.domains.lookup domainName with
    | none => db
    | some row => { db with
        domains := db.domains.insert domainName
          { row with services := row.services.insert serviceName service } }
  get_put := by
    intro db service h service'
    obtain ⟨row, hrow, _⟩ := Option.bind_eq_some_iff.1 h
    rw [hrow]
    dsimp only
    rw [Database.service, AList.lookup_insert, Option.bind_some, AList.lookup_insert]
  put_put := by
    intro db service service'
    cases hrow : db.domains.lookup domainName with
    | none =>
      dsimp only
      rw [hrow]
    | some row =>
      dsimp only
      rw [AList.lookup_insert]
      dsimp only
      rw [AList.insert_insert, AList.insert_insert]

theorem onService_returns (f : ServiceRow → Except Failure (α × ServiceRow)) :
    Tx.Returns (onService domainName serviceName f) fun db a db' => ∃ stored stored',
      db.service domainName serviceName = some stored ∧ f stored = .ok (a, stored') ∧
        db' = (serviceFocus domainName serviceName).put db stored' := by
  refine (onDomain_returns _).mono ?_
  rintro db a db' ⟨row, row', hrow, hf, rfl⟩
  split at hf
  · cases hf
  · rename_i stored hstored
    cases hg : f stored with
    | error e =>
      rw [hg] at hf
      cases hf
    | ok result =>
      obtain ⟨b, stored'⟩ := result
      rw [hg] at hf
      cases hf
      refine ⟨stored, stored', Option.bind_eq_some_iff.2 ⟨row, hrow, hstored⟩, hg, ?_⟩
      unfold serviceFocus domainFocus
      dsimp only
      rw [show db.domains.lookup domainName = some row from hrow]

/-- A statement that answers true for what it does to the service. -/
theorem onService_accepts {f : ServiceRow → Except Failure (Bool × ServiceRow)}
    {g : ServiceRow → ServiceRow} (h : ∀ stored stored', f stored = .ok (true, stored') →
      stored' = g stored) :
    (serviceFocus domainName serviceName).Accepts (onService domainName serviceName f)
      fun stored stored' => stored' = g stored := by
  refine (onService_returns f).toAccepts.mono ?_
  rintro db db' ⟨stored, stored', hstored, hf, rfl⟩ t ht
  cases hstored.symm.trans ht
  exact ⟨stored', h stored stored' hf, .put⟩

end Services

section Stamps

theorem lookup_stampDomain (domainName name : Str) (time : Int) (db : Database) :
    (stampDomain domainName time db).domains.lookup name = (db.domains.lookup name).map fun row =>
      if name = domainName then { row with modified := time } else row := by
  unfold stampDomain
  cases hrow : db.domains.lookup domainName with
  | none =>
    by_cases hname : name = domainName
    · rw [hname, hrow]
      rfl
    · simp only [hname, if_false, Option.map_id']
  | some row =>
    dsimp only
    rw [Map.lookup_insert]
    by_cases hname : name = domainName
    · rw [if_pos hname, hname, hrow]
      simp only [if_true, Option.map_some]
    · simp only [hname, if_false, Option.map_id']

theorem service_stampDomain (domainName : Str) (time : Int) (db : Database) (name serviceName : Str) :
    (stampDomain domainName time db).service name serviceName = db.service name serviceName := by
  unfold Database.service
  rw [lookup_stampDomain]
  cases db.domains.lookup name with
  | none => rfl
  | some row =>
    dsimp only [Option.map_some, Option.bind_some]
    split
    · rfl
    · rfl

/-- The table has nothing to do with the time of the domain. -/
def Table.Timeless (table : Table S) : Prop :=
  ∀ row time, table.get { row with modified := time } = table.get row

theorem roleTable_timeless : roleTable.Timeless := fun _ _ => rfl

theorem groupTable_timeless : groupTable.Timeless := fun _ _ => rfl

theorem Table.find_stampDomain {table : Table S} (htable : table.Timeless) (domainName : Str)
    (time : Int) (db : Database) (otherDomain name : Str) :
    table.find (stampDomain domainName time db) otherDomain name =
      table.find db otherDomain name := by
  unfold Table.find
  rw [lookup_stampDomain]
  cases db.domains.lookup otherDomain with
  | none => rfl
  | some row =>
    dsimp only [Option.map_some, Option.bind_some]
    split
    · rw [htable]
    · rfl

theorem Table.Holds.stamp {table : Table S} {I : Collection S → Prop} (htable : table.Timeless)
    (h : table.Holds domainName name I db) (otherDomain : Str) (time : Int) :
    table.Holds domainName name I (stampDomain otherDomain time db) := by
  obtain ⟨stored, hstored, hI⟩ := h
  refine ⟨stored, ?_, hI⟩
  rw [Table.find_stampDomain htable]
  exact hstored

theorem updateDomainModTimestamp_preserves {table : Table S} {I : Collection S → Prop}
    (htable : table.Timeless) (otherDomain : Str) :
    Tx.Preserves (table.Holds domainName name I) (updateDomainModTimestamp otherDomain) := by
  refine .statement fun time db _ db' hdb h => ?_
  cases h
  exact hdb.stamp htable otherDomain time

end Stamps

end Athenz.ZmsServer
