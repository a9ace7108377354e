import Athenz.MemberWrites
import Athenz.RowChanges

namespace Athenz.ZmsServer
open Lib Lib.Text Lib.Transaction
set_option autoImplicit true

section States

def SYS_AUTH_MONITOR : Str := "sys.auth.monitor"

variable {table : Table S} {other : Table S'}

/-- The disabled state of a member of an object, if it is one. -/
def Table.disabledState (table : Table S) (db : Database) (domainName name memberName : Str) : Option Nat :=
  (table.find db domainName name).bind fun stored =>
    (stored.members.lookup memberName).map (·.systemDisabled)

/-- No member's state has changed. -/
structure Table.Rests (table : Table S) (other : Table S') (db db' : Database) : Prop where
  own : ∀ domainName name memberName,
    table.disabledState db' domainName name memberName = table.disabledState db domainName name memberName
  beside : ∀ domainName name memberName,
    other.disabledState db' domainName name memberName = other.disabledState db domainName name memberName

/-- The state of one member has changed. -/
structure Table.Sets (table : Table S) (other : Table S') (domainName name memberName : Str)
    (state : Nat) (db db' : Database) : Prop where
  set : table.disabledState db' domainName name memberName =
    (table.disabledState db domainName name memberName).map fun _ => state
  own : ∀ domain object member, ¬ (domain = domainName ∧ object = name ∧ member = memberName) →
    table.disabledState db' domain object member = table.disabledState db domain object member
  beside : ∀ domain object member,
    other.disabledState db' domain object member = other.disabledState db domain object member

theorem Table.Rests.refl (table : Table S) (other : Table S') (db : Database) :
    table.Rests other db db where
  own _ _ _ := rfl
  beside _ _ _ := rfl

theorem Table.Rests.trans (h : table.Rests other db db') (h' : table.Rests other db' db'') :
    table.Rests other db db'' where
  own domainName name memberName := (h'.own domainName name memberName).trans (h.own ..)
  beside domainName name memberName := (h'.beside domainName name memberName).trans (h.beside ..)

theorem Table.Sets.rests (h : table.Sets other domainName name memberName state db db')
    (h' : table.Rests other db' db'') :
    table.Sets other domainName name memberName state db db'' where
  set := (h'.own ..).trans h.set
  own domain object member hother := (h'.own ..).trans (h.own domain object member hother)
  beside domain object member := (h'.beside ..).trans (h.beside domain object member)

theorem Table.state_of_find (h : table.find db domainName name = some stored) (memberName : Str) :
    table.disabledState db domainName name memberName =
      (stored.members.lookup memberName).map (·.systemDisabled) := by
  rw [Table.disabledState, h, Option.bind_some]

theorem Table.find_of_state (h : table.disabledState db domainName name memberName = some state) :
    ∃ stored, table.find db domainName name = some stored := by
  obtain ⟨stored, hstored, _⟩ := Option.bind_eq_some_iff.1 h
  exact ⟨stored, hstored⟩

theorem Table.state_put (h : table.find db domainName name = some stored) (stored' : Collection S)
    (domain object memberName : Str) :
    table.disabledState ((table.focus domainName name).put db stored') domain object memberName =
      if domain = domainName ∧ object = name then
        (stored'.members.lookup memberName).map (·.systemDisabled)
      else table.disabledState db domain object memberName := by
  rw [Table.disabledState, Table.find_put_eq h]
  split
  · rfl
  · rfl

theorem Table.state_put_beside (hother : other.Apart table)
    (h : table.find db domainName name = some stored) (stored' : Collection S)
    (domain object memberName : Str) :
    other.disabledState ((table.focus domainName name).put db stored') domain object memberName =
      other.disabledState db domain object memberName := by
  obtain ⟨row, hrow, _⟩ := Option.bind_eq_some_iff.1 h
  rw [Table.disabledState, Table.find_put_beside hother hrow, Table.disabledState]

/-- A change of a row that leaves the states of its members leaves those of all. -/
theorem Table.Rests.put (hother : other.Apart table)
    (h : table.find db domainName name = some stored)
    (hmembers : ∀ memberName, (stored'.members.lookup memberName).map (·.systemDisabled) =
      (stored.members.lookup memberName).map (·.systemDisabled)) :
    table.Rests other db ((table.focus domainName name).put db stored') where
  own domain object memberName := by
    rw [Table.state_put h]
    split
    · rename_i hsame
      rw [hsame.1, hsame.2, Table.state_of_find h, hmembers]
    · rfl
  beside := Table.state_put_beside hother h stored'

theorem Table.Sets.put (hother : other.Apart table)
    (h : table.find db domainName name = some stored) (memberName : Str) (state : Nat) :
    table.Sets other domainName name memberName state db
      ((table.focus domainName name).put db (stored.disableMember memberName state).2) where
  set := by
    rw [Table.state_put h, if_pos ⟨rfl, rfl⟩, Table.state_of_find h, Collection.disableMember]
    cases hmember : stored.members.lookup memberName with
    | none =>
      dsimp only [Option.elim]
      rw [hmember]
      rfl
    | some member =>
      dsimp only [Option.elim]
      rw [AList.lookup_insert]
      rfl
  own domain object member hother := by
    rw [Table.state_put h]
    split
    · rename_i hsame
      have hne : member ≠ memberName := fun hmember => hother ⟨hsame.1, hsame.2, hmember⟩
      rw [hsame.1, hsame.2, Table.state_of_find h, Collection.disableMember]
      cases stored.members.lookup memberName with
      | none => rfl
      | some row =>
        dsimp only [Option.elim]
        rw [AList.lookup_insert_ne hne]
    · rfl
  beside := Table.state_put_beside hother h _

end States

section Statements

variable {table : Table S} {other : Table S'}

theorem updateDomainModTimestamp_rests (htable : table.Timeless) (hother : other.Timeless)
    (domainName : Str) :
    Tx.Evolves (updateDomainModTimestamp domainName) fun db r db' =>
      r = .ok () ∧ table.Rests other db db' := by
  refine (Tx.Evolves.statement _).mono ?_
  rintro db r db' ⟨time, ⟨a, hf, rfl⟩ | ⟨e, hf, _⟩⟩
  · cases hf
    refine ⟨rfl, ?_, ?_⟩
    · intro domain name memberName
      rw [Table.disabledState, Table.find_stampDomain htable, Table.disabledState]
    · intro domain name memberName
      rw [Table.disabledState, Table.find_stampDomain hother, Table.disabledState]
  · cases hf

/-- A change beside the members of a stored object. -/
theorem Table.on_rests (hother : other.Apart table) (domainName name : Str)
    (g : Collection S → α × Collection S)
    (hg : ∀ stored, (g stored).2.members = stored.members) :
    Tx.Evolves (table.on domainName name fun stored => .ok (g stored)) fun db r db' =>
      table.Rests other db db' ∧ ∀ stored, table.find db domainName name = some stored →
        r = .ok (g stored).1 := by
  refine (table.on_evolves domainName name g).mono ?_
  rintro db r db' (⟨stored, hstored, rfl, rfl⟩ | ⟨hnone, rfl⟩)
  · refine ⟨.put hother hstored fun memberName => by rw [hg], ?_⟩
    intro found hfound
    rw [hstored] at hfound
    cases hfound
    rfl
  · refine ⟨.refl table other db', ?_⟩
    intro stored hstored
    rw [hnone] at hstored
    cases hstored

theorem Table.updateModTimestamp_rests (hother : other.Apart table) (domainName name : Str) :
    Tx.Evolves (table.updateModTimestamp domainName name) fun db r db' =>
      table.Rests other db db' ∧
        ∀ stored, table.find db domainName name = some stored → r = .ok true :=
  table.on_rests hother domainName name (fun stored => (true, stored)) fun _ => rfl

theorem Table.insertAuditLog_rests (hother : other.Apart table) (domainName name : Str)
    (admin : Option Str) (member action : Str) :
    Tx.Evolves (table.insertAuditLog domainName name admin member action) fun db r db' =>
      table.Rests other db db' ∧
        ∀ stored, table.find db domainName name = some stored → r = .ok true :=
  table.on_rests hother domainName name (fun stored => (true, { stored with
    auditLog := stored.auditLog ++ [⟨processInsertValue admin, member, action⟩] })) fun _ => rfl

/-- The state of a stored member is set; otherwise nothing is. -/
theorem Table.updateMemberDisabledState_sets (hother : other.Apart table)
    (domainName name memberName : Str) (admin : Option Str) (disabledState : Nat) :
    Tx.Evolves (table.updateMemberDisabledState domainName name memberName admin disabledState)
      fun db r db' => table.Sets other domainName name memberName disabledState db db' ∧
        ∀ state, table.disabledState db domainName name memberName = some state → r = .ok true := by
  rw [Table.updateMemberDisabledState_eq]
  have hupdate : Tx.Evolves (table.on domainName name fun collection =>
      .ok (collection.disableMember memberName disabledState)) fun db r db' =>
        table.Sets other domainName name memberName disabledState db db' ∧
          ∀ state, table.disabledState db domainName name memberName = some state → r = .ok true := by
    refine (table.on_evolves domainName name _).mono ?_
    rintro db r db' (⟨stored, hstored, rfl, rfl⟩ | ⟨hnone, rfl⟩)
    · refine ⟨.put hother hstored memberName disabledState, ?_⟩
      intro state hstate
      rw [Table.state_of_find hstored] at hstate
      obtain ⟨row, hrow, _⟩ := Option.map_eq_some_iff.1 hstate
      rw [Collection.disableMember, hrow]
      rfl
    · have hstate : table.disabledState db' domainName name memberName = none := by
        rw [Table.disabledState, hnone, Option.bind_none]
      refine ⟨⟨?_, fun _ _ _ _ => rfl, fun _ _ _ => rfl⟩, ?_⟩
      · rw [hstate, Option.map_none]
      · intro state hsome
        rw [hstate] at hsome
        cases hsome
  refine (Tx.Evolves.bind hupdate fun updated => Tx.Evolves.ite
    (R := fun db r db' => table.Rests other db db' ∧
      ∀ stored, table.find db domainName name = some stored → r = .ok updated)
    (fun hfalse => (Tx.Evolves.pure false).mono ?_)
    (fun htrue => (table.insertAuditLog_rests hother domainName name admin memberName _).mono ?_)).mono ?_
  · rintro db r db' ⟨rfl, rfl⟩
    rw [Bool.not_eq_true'] at hfalse
    exact ⟨.refl table other db', fun _ _ => by rw [hfalse]⟩
  · rintro db r db' ⟨hrests, hok⟩
    rw [Bool.not_eq_true', Bool.not_eq_false] at htrue
    exact ⟨hrests, fun stored hstored => by rw [htrue, hok stored hstored]⟩
  · rintro db r db'' (⟨e, ⟨hsets, hok⟩, rfl⟩ | ⟨updated, db', ⟨hsets, hok⟩, hrests, hlogged⟩)
    · refine ⟨hsets, ?_⟩
      intro state hstate
      cases hok state hstate
    · refine ⟨hsets.rests hrests, ?_⟩
      intro state hstate
      have hafter := hsets.set
      rw [hstate, Option.map_some] at hafter
      obtain ⟨stored, hstored⟩ := Table.find_of_state hafter
      rw [hlogged stored hstored, Except.ok.inj (hok state hstate)]

end Statements

end Athenz.ZmsServer
