import Athenz.DbServiceMeta
import Athenz.Lib.Autocommit
import Athenz.StoreSpec

namespace Athenz.ZmsServer
open Lib Lib.Text Lib.Transaction
set_option autoImplicit true

section Writes

variable {table other : Table S}

/-- When a member expires, if it is one. -/
def Table.expiration (table : Table S) (domainName : Str) (db : Database) (name memberName : Str) :
    Option (Option Int) :=
  (table.find db domainName name).bind fun stored =>
    (stored.members.lookup memberName).map (·.expiration)

/-- A member can be written: its object and its domain are stored. -/
def Table.Writable (table : Table S) (domainName : Str) (db : Database) (name memberName : Str) :
    Prop :=
  (table.find db domainName name).isSome = true ∧ validatePrincipalDomain db memberName = true

/-- The members that are written to the objects of a domain, with their expirations. -/
structure Table.Writes (table : Table S) (domainName : Str) (writes : List (Str × Member))
    (db db' : Database) : Prop where
  domains : ∀ name, (db'.domains.lookup name).isSome = (db.domains.lookup name).isSome
  settings : ∀ name, (table.find db' domainName name).map (·.settings) =
    (table.find db domainName name).map (·.settings)
  written : ∀ name memberName expiration,
    (∀ write ∈ writes, write.1 = name → write.2.memberName = memberName →
      write.2.expiration = expiration) →
    (∃ write ∈ writes, write.1 = name ∧ write.2.memberName = memberName) →
    table.Writable domainName db name memberName →
    table.expiration domainName db' name memberName = some expiration
  unwritten : ∀ name memberName,
    ((∃ write ∈ writes, write.1 = name ∧ write.2.memberName = memberName) →
      ¬ table.Writable domainName db name memberName) →
    table.expiration domainName db' name memberName = table.expiration domainName db name memberName

theorem validatePrincipalDomain_congr
    (h : ∀ name, (db'.domains.lookup name).isSome = (db.domains.lookup name).isSome)
    (principal : Str) : validatePrincipalDomain db' principal = validatePrincipalDomain db principal := by
  unfold validatePrincipalDomain
  simp only [h]

theorem Table.Writes.writable_iff (h : table.Writes domainName writes db db') :
    table.Writable domainName db' name memberName ↔ table.Writable domainName db name memberName := by
  have hsettings := congrArg Option.isSome (h.settings name)
  rw [Option.isSome_map, Option.isSome_map] at hsettings
  rw [Table.Writable, hsettings, validatePrincipalDomain_congr h.domains, Table.Writable]

theorem Table.Writes.refl (table : Table S) (domainName : Str) (db : Database) :
    table.Writes domainName [] db db where
  domains _ := rfl
  settings _ := rfl
  written _ _ _ _ h := by
    obtain ⟨_, hmem, _⟩ := h
    cases hmem
  unwritten _ _ _ := rfl

theorem Table.Writes.append (h : table.Writes domainName writes db db')
    (h' : table.Writes domainName writes' db' db'') :
    table.Writes domainName (writes ++ writes') db db'' where
  domains name := (h'.domains name).trans (h.domains name)
  settings name := (h'.settings name).trans (h.settings name)
  written := by
    intro name memberName expiration hsame hexists hwritable
    have hsame' : ∀ write ∈ writes', write.1 = name → write.2.memberName = memberName →
        write.2.expiration = expiration := fun write hmem =>
      hsame write (List.mem_append_right writes hmem)
    by_cases hlater : ∃ write ∈ writes', write.1 = name ∧ write.2.memberName = memberName
    · exact h'.written name memberName expiration hsame' hlater (h.writable_iff.2 hwritable)
    · have hkept := h'.unwritten name memberName fun hagain => absurd hagain hlater
      rw [hkept]
      obtain ⟨write, hmem, hkey⟩ := hexists
      obtain hfirst | hsecond := List.mem_append.1 hmem
      · exact h.written name memberName expiration
          (fun write hmem => hsame write (List.mem_append_left writes' hmem)) ⟨write, hfirst, hkey⟩
          hwritable
      · exact absurd ⟨write, hsecond, hkey⟩ hlater
  unwritten := by
    intro name memberName hnot
    have hkept' := h'.unwritten name memberName fun ⟨write, hmem, hkey⟩ hwritable =>
      hnot ⟨write, List.mem_append_right writes hmem, hkey⟩ (h.writable_iff.1 hwritable)
    have hkept := h.unwritten name memberName fun ⟨write, hmem, hkey⟩ =>
      hnot ⟨write, List.mem_append_left writes' hmem, hkey⟩
    exact hkept'.trans hkept

end Writes

section Statements

variable {table : Table S}

theorem Table.on_evolves (table : Table S) (domainName name : Str)
    (g : Collection S → α × Collection S) :
    Tx.Evolves (table.on domainName name fun stored => .ok (g stored)) fun db r db' =>
      (∃ stored, table.find db domainName name = some stored ∧ r = .ok (g stored).1 ∧
        db' = (table.focus domainName name).put db (g stored).2) ∨
      table.find db domainName name = none ∧ db' = db := by
  unfold Table.on onDomain
  refine (Tx.Evolves.statement _).mono ?_
  rintro db r db' ⟨time, ⟨a, hf, rfl⟩ | ⟨e, hf, _, rfl⟩⟩
  · left
    split at hf
    · cases hf
    · rename_i row hrow
      unfold Table.change at hf
      cases hstored : (table.get row).lookup name with
      | none =>
        rw [hstored] at hf
        cases hf
      | some stored =>
        rw [hstored] at hf
        cases hf
        refine ⟨stored, ?_, rfl, (Table.focus_put hrow _).symm⟩
        rw [Table.find, hrow]
        exact hstored
  · right
    refine ⟨?_, rfl⟩
    split at hf
    · rename_i hrow
      rw [Table.find, hrow]
      rfl
    · rename_i row hrow
      unfold Table.change at hf
      cases hstored : (table.get row).lookup name with
      | none =>
        rw [Table.find, hrow]
        exact hstored
      | some stored =>
        rw [hstored] at hf
        cases hf

theorem Table.lookup_put (h : table.find db domainName name = some stored)
    (stored' : Collection S) :
    ∃ row, db.domains.lookup domainName = some row ∧
      ((table.focus domainName name).put db stored').domains = db.domains.insert domainName
        (table.set ((table.get row).insert name stored') row) := by
  obtain ⟨row, hrow, _⟩ := Option.bind_eq_some_iff.1 h
  refine ⟨row, hrow, ?_⟩
  rw [Table.focus_put hrow]
  rfl

theorem Table.isSome_lookup_put (h : table.find db domainName name = some stored)
    (stored' : Collection S) (domain : Str) :
    (((table.focus domainName name).put db stored').domains.lookup domain).isSome =
      (db.domains.lookup domain).isSome := by
  obtain ⟨row, hrow, hput⟩ := Table.lookup_put h stored'
  rw [hput, Map.lookup_insert]
  split
  · rename_i hsame
    rw [hsame, hrow]
    rfl
  · rfl

theorem Table.find_put (h : table.find db domainName name = some stored)
    (stored' : Collection S) (other : Str) :
    table.find ((table.focus domainName name).put db stored') domainName other =
      if other = name then some stored' else table.find db domainName other := by
  obtain ⟨row, hrow, hput⟩ := Table.lookup_put h stored'
  rw [Table.find, hput, AList.lookup_insert, Option.bind_some, table.get_set, Map.lookup_insert,
    Table.find, hrow]
  rfl

/-- A change of one object that leaves its settings and when its members expire. -/
theorem Table.Writes.put (h : table.find db domainName name = some stored)
    (hsettings : stored'.settings = stored.settings)
    (hmembers : ∀ memberName, (stored'.members.lookup memberName).map (·.expiration) =
      (stored.members.lookup memberName).map (·.expiration)) :
    table.Writes domainName [] db ((table.focus domainName name).put db stored') where
  domains := Table.isSome_lookup_put h stored'
  settings other := by
    rw [Table.find_put h]
    split
    · rename_i hsame
      rw [hsame, h, Option.map_some, Option.map_some, hsettings]
    · rfl
  written _ _ _ _ hexists := by
    obtain ⟨_, hmem, _⟩ := hexists
    cases hmem
  unwritten other memberName _ := by
    rw [Table.expiration, Table.find_put h]
    split
    · rename_i hsame
      rw [Table.expiration, hsame, h, Option.bind_some, Option.bind_some, hmembers]
    · rfl

/-- The change of one member. -/
theorem Table.Writes.put_member {member : Member} (admin : Option Str)
    (h : table.find db domainName name = some stored)
    (hknown : validatePrincipalDomain db member.memberName = true)
    (happroved : member.approved ≠ some false) :
    table.Writes domainName [(name, member)] db
      ((table.focus domainName name).put db (stored.putMember table.keepsReview member admin).2) := by
  have hput : (stored.putMember table.keepsReview member admin).2 = { stored with
      members := stored.members.insert member.memberName
        (memberRow table.keepsReview member (stored.members.lookup member.memberName)) } := by
    rw [Collection.putMember, if_neg happroved]
  rw [hput]
  refine ⟨Table.isSome_lookup_put h _, ?_, ?_, ?_⟩
  · intro other
    rw [Table.find_put h]
    split
    · rename_i hsame
      rw [hsame, h]
      rfl
    · rfl
  · rintro other memberName expiration hsame ⟨write, hmem, rfl, rfl⟩ _
    have hexpiration := hsame write hmem rfl rfl
    rw [List.mem_singleton] at hmem
    rw [hmem] at hexpiration ⊢
    rw [Table.expiration, Table.find_put h, if_pos rfl, Option.bind_some, AList.lookup_insert,
      ← hexpiration]
    rfl
  · intro other memberName hnot
    rw [Table.expiration, Table.find_put h]
    split
    · rename_i hsame
      have hmember : memberName ≠ member.memberName := by
        rintro rfl
        refine hnot ⟨_, List.mem_singleton_self _, hsame.symm, rfl⟩ ⟨?_, hknown⟩
        rw [hsame, h]
        rfl
      rw [Table.expiration, hsame, h, Option.bind_some, Option.bind_some,
        AList.lookup_insert_ne hmember]
    · rfl

theorem Table.Writes.unwritable (h : ¬ table.Writable domainName db name member.memberName) :
    table.Writes domainName [(name, member)] db db where
  domains _ := rfl
  settings _ := rfl
  written := by
    rintro other memberName expiration _ ⟨write, hmem, rfl, rfl⟩ hwritable
    rw [List.mem_singleton] at hmem
    rw [hmem] at hwritable
    exact absurd hwritable h
  unwritten _ _ _ := rfl

end Statements

section Passes

/-- The one table has nothing to do with the other one. -/
def Table.Apart (other : Table S') (table : Table S) : Prop :=
  ∀ m row, other.get (table.set m row) = other.get row

theorem groupTable_apart : groupTable.Apart roleTable := fun _ _ => rfl

theorem roleTable_apart : roleTable.Apart groupTable := fun _ _ => rfl

/-- Writes to the one table that leave the other one. -/
structure Table.Pass (table : Table S) (other : Table S') (domainName : Str)
    (writes : List (Str × Member)) (db db' : Database) : Prop where
  writes : table.Writes domainName writes db db'
  leaves : other.Writes domainName [] db db'

variable {table : Table S} {other : Table S'}

theorem Table.Pass.refl (table : Table S) (other : Table S') (domainName : Str) (db : Database) :
    table.Pass other domainName [] db db :=
  ⟨.refl table domainName db, .refl other domainName db⟩

theorem Table.Pass.append (h : table.Pass other domainName first db db')
    (h' : table.Pass other domainName second db' db'') :
    table.Pass other domainName (first ++ second) db db'' :=
  ⟨h.writes.append h'.writes, h.leaves.append h'.leaves⟩

theorem Table.find_put_apart (hother : other.Apart table)
    (h : table.find db domainName name = some stored) (stored' : Collection S) (otherName : Str) :
    other.find ((table.focus domainName name).put db stored') domainName otherName =
      other.find db domainName otherName := by
  obtain ⟨row, hrow, hput⟩ := Table.lookup_put h stored'
  rw [Table.find, hput, AList.lookup_insert, Option.bind_some, hother, Table.find, hrow]
  rfl

theorem Table.leaves_put (hother : other.Apart table)
    (h : table.find db domainName name = some stored) (stored' : Collection S) :
    other.Writes domainName [] db ((table.focus domainName name).put db stored') where
  domains := Table.isSome_lookup_put h stored'
  settings otherName := by
    rw [Table.find_put_apart hother h]
  written _ _ _ _ hexists := by
    obtain ⟨_, hmem, _⟩ := hexists
    cases hmem
  unwritten otherName memberName _ := by
    rw [Table.expiration, Table.find_put_apart hother h]
    rfl

/-- The log has no part in the settings and the members. -/
theorem Table.insertAuditLog_passes (hother : other.Apart table) (domainName name : Str)
    (admin : Option Str) (member action : Str) :
    Tx.Evolves (table.insertAuditLog domainName name admin member action) fun db _ db' =>
      table.Pass other domainName [] db db' := by
  refine (table.on_evolves domainName name _).mono ?_
  rintro db r db' (⟨stored, hstored, _, rfl⟩ | ⟨_, rfl⟩)
  · exact ⟨.put hstored rfl fun _ => rfl, Table.leaves_put hother hstored _⟩
  · exact .refl table other domainName _

theorem Table.updateModTimestamp_passes (hother : other.Apart table) (domainName name : Str) :
    Tx.Evolves (table.updateModTimestamp domainName name) fun db _ db' =>
      table.Pass other domainName [] db db' := by
  refine (table.on_evolves domainName name _).mono ?_
  rintro db r db' (⟨stored, hstored, _, rfl⟩ | ⟨_, rfl⟩)
  · exact ⟨.put hstored rfl fun _ => rfl, Table.leaves_put hother hstored _⟩
  · exact .refl table other domainName _

theorem Table.logMember_passes (hother : other.Apart table) (domainName name memberName : Str)
    (admin action : Option Str) :
    Tx.Evolves (table.logMember domainName name memberName admin action) fun db _ db' =>
      table.Pass other domainName [] db db' := by
  cases action with
  | none =>
    refine (Tx.Evolves.pure true).mono fun db r db' h => ?_
    rw [h.2]
    exact .refl table other domainName db
  | some action => exact table.insertAuditLog_passes hother domainName name admin memberName action

theorem Table.putMember_passes (hother : other.Apart table) (domainName name : Str)
    {member : Member} (admin : Option Str) (happroved : member.approved ≠ some false) :
    Tx.Evolves (table.putMember domainName name member admin) fun db _ db' =>
      table.Pass other domainName [(name, member)] db db' := by
  have hunwritable : ∀ {db}, ¬ table.Writable domainName db name member.memberName →
      table.Pass other domainName [(name, member)] db db := fun h =>
    ⟨.unwritable h, .refl other domainName _⟩
  refine (Tx.Evolves.bind (Tx.Evolves.query fun db => validatePrincipalDomain db member.memberName)
    fun known => (Tx.Evolves.ite (R := fun db _ db' =>
      known = validatePrincipalDomain db member.memberName →
        table.Pass other domainName [(name, member)] db db')
      (fun hunknown => (Tx.Evolves.abort _).mono ?_)
      fun hknown => (table.on_evolves domainName name _).mono ?_)).mono ?_
  · intro db r db' h hsame
    rw [h.2]
    refine hunwritable fun hwritable => ?_
    rw [hsame, hwritable.2] at hunknown
    cases hunknown
  · rw [Bool.not_eq_true', Bool.not_eq_false] at hknown
    rintro db r db' (⟨stored, hstored, _, rfl⟩ | ⟨hnone, rfl⟩) hsame
    · exact ⟨.put_member admin hstored (hsame.symm.trans hknown) happroved,
        Table.leaves_put hother hstored _⟩
    · refine hunwritable fun hwritable => ?_
      have hstored := hwritable.1
      rw [hnone] at hstored
      cases hstored
  · rintro db r db'' (⟨e, ⟨hr, _⟩, _⟩ | ⟨known, db', ⟨hr, rfl⟩, h⟩)
    · cases hr
    · cases hr
      exact h rfl

theorem Table.insertMember_passes (hother : other.Apart table) (domainName name : Str)
    {member : Member} (happroved : member.approved ≠ some false) (admin : Option Str) :
    Tx.Evolves (table.insertMember domainName name member admin) fun db _ db' =>
      table.Pass other domainName [(name, member)] db db' := by
  refine (Tx.Evolves.bind (table.putMember_passes hother domainName name admin happroved) fun action =>
    table.logMember_passes hother domainName name member.memberName admin action).mono ?_
  rintro db r db'' (⟨_, hwrites, _⟩ | ⟨_, db', hwrites, hlogged⟩)
  · exact hwrites
  · exact hwrites.append hlogged

/-- A loop of steps that are tried. -/
theorem Table.tryEach_passes {step : Member → Op Bool} {members : List Member}
    {writes : Member → List (Str × Member)}
    (h : ∀ member ∈ members, Tx.Evolves (step member) fun db _ db' =>
      table.Pass other domainName (writes member) db db') :
    Tx.Evolves (tryEach step members) fun db _ db' =>
      table.Pass other domainName (members.flatMap writes) db db' := by
  induction members with
  | nil =>
    refine (Tx.Evolves.pure false).mono fun db r db' hs => ?_
    rw [hs.2]
    exact .refl table other domainName db
  | cons member members ih =>
    have hrest := ih fun other hmem => h other (List.mem_cons_of_mem member hmem)
    refine (Tx.Evolves.bind (h member List.mem_cons_self).quietly fun done =>
      Tx.Evolves.bind hrest fun others => Tx.Evolves.pure (done || others)).mono ?_
    rintro db r db'' (⟨_, ⟨_, hr, _⟩, _⟩ |
      ⟨_, db', ⟨_, _, hfirst⟩, ⟨_, hrest, _⟩ | ⟨_, _, hrest, _, rfl⟩⟩)
    · cases hr
    · exact (hfirst.elim id fun ⟨_, _, h⟩ => h).append hrest
    · exact (hfirst.elim id fun ⟨_, _, h⟩ => h).append hrest

/-- What a pass over the objects of a domain writes. -/
def dueWrites (config : Config) (now : Int) (limits : DueLimits)
    (members : Collection S → List Member) (objects : List (Sigma fun _ : Str => Collection S)) :
    List (Str × Member) :=
  objects.flatMap fun object =>
    (getMembersWithUpdatedDueDates config now limits (members object.2)).map (object.1, ·)

theorem Table.updateAllDueDates_cons (table : Table S) (config : Config) (ctx : Context)
    (now : Int) (domainName : Str) (limits : DueLimits) (members : Collection S → List Member)
    (object : Sigma fun _ : Str => Collection S) (objects : List (Sigma fun _ => Collection S)) :
    table.updateAllDueDates config ctx now domainName limits members (object :: objects) =
      tryEach (fun member => table.insertMember domainName object.1 member ctx.principal)
        (getMembersWithUpdatedDueDates config now limits (members object.2)) >>= fun changed =>
      (if changed then table.updateModTimestamp domainName object.1 else pure false) >>= fun _ =>
      table.updateAllDueDates config ctx now domainName limits members objects >>= fun others =>
      pure (changed || others) := by
  rw [Table.updateAllDueDates]
  congr 1
  funext changed
  cases changed with
  | true => rfl
  | false => rfl

theorem Table.updateAllDueDates_passes (hother : other.Apart table) (config : Config)
    (ctx : Context) (now : Int) (domainName : Str) (limits : DueLimits)
    (members : Collection S → List Member) (objects : List (Sigma fun _ : Str => Collection S))
    (happroved : ∀ object ∈ objects,
      ∀ member ∈ getMembersWithUpdatedDueDates config now limits (members object.2),
        member.approved ≠ some false) :
    Tx.Evolves (table.updateAllDueDates config ctx now domainName limits members objects)
      fun db r db' => (∀ changed, r = .ok changed →
        table.Pass other domainName (dueWrites config now limits members objects) db db') := by
  induction objects with
  | nil =>
    refine (Tx.Evolves.pure false).mono fun db r db' hs _ _ => ?_
    rw [hs.2]
    exact .refl table other domainName db
  | cons object objects ih =>
    have hfirst := Table.tryEach_passes fun member hmem =>
      table.insertMember_passes hother domainName object.1
        (happroved object List.mem_cons_self member hmem) ctx.principal
    rw [← List.map_eq_flatMap] at hfirst
    have hrest := ih fun object hmem => happroved object (List.mem_cons_of_mem _ hmem)
    have hstamp : ∀ changed : Bool, Tx.Evolves
        (if changed then table.updateModTimestamp domainName object.1 else pure false)
        fun db _ db' => table.Pass other domainName [] db db' := by
      refine fun changed => .ite (fun _ => table.updateModTimestamp_passes hother domainName _)
        fun _ => (Tx.Evolves.pure false).mono fun db r db' hs => ?_
      rw [hs.2]
      exact .refl table other domainName db
    rw [Table.updateAllDueDates_cons]
    refine (Tx.Evolves.bind hfirst fun changed => Tx.Evolves.bind (hstamp changed) fun _ =>
      Tx.Evolves.bind hrest fun others => Tx.Evolves.pure (changed || others)).mono ?_
    rintro db r db₃ (⟨_, _, rfl⟩ | ⟨changed, db₁, hwrites, ⟨_, _, rfl⟩ |
      ⟨_, db₂, hstamped, ⟨_, _, rfl⟩ | ⟨others, _, hothers, _, rfl⟩⟩⟩) b hb
    · cases hb
    · cases hb
    · cases hb
    · exact hwrites.append (hstamped.append (hothers others rfl))

/-- The rows behind a change of the state of a member, if there is one. -/
def Collection.disableMember (memberName : Str) (disabledState : Nat) (collection : Collection S) :
    Bool × Collection S :=
  ((collection.members.lookup memberName).isSome,
    (collection.members.lookup memberName).elim collection fun member => { collection with
      members := collection.members.insert memberName { member with systemDisabled := disabledState } })

theorem Table.updateMemberDisabledState_eq (table : Table S) (domainName name memberName : Str)
    (admin : Option Str) (disabledState : Nat) :
    table.updateMemberDisabledState domainName name memberName admin disabledState = (do
      let updated ← table.on domainName name fun collection =>
        .ok (collection.disableMember memberName disabledState)
      if !updated then pure false
      else
        table.insertAuditLog domainName name admin memberName
          (if disabledState = 0 then ↑"ENABLE" else ↑"DISABLE")) := by
  unfold Table.updateMemberDisabledState
  congr
  funext collection
  rw [Collection.disableMember]
  cases collection.members.lookup memberName with
  | none => rfl
  | some member => rfl

theorem Table.updateMemberDisabledState_passes (hother : other.Apart table) (domainName name : Str)
    (memberName : Str) (admin : Option Str) (disabledState : Nat) :
    Tx.Evolves (table.updateMemberDisabledState domainName name memberName admin disabledState)
      fun db _ db' => table.Pass other domainName [] db db' := by
  have hupdate : Tx.Evolves (table.on domainName name fun collection =>
      .ok (collection.disableMember memberName disabledState))
      fun db _ db' => table.Pass other domainName [] db db' := by
    refine (table.on_evolves domainName name _).mono ?_
    rintro db r db' (⟨stored, hstored, _, rfl⟩ | ⟨_, rfl⟩)
    · have hput : (stored.disableMember memberName disabledState).2.settings = stored.settings ∧
          ∀ other, ((stored.disableMember memberName disabledState).2.members.lookup other).map
            (·.expiration) = (stored.members.lookup other).map (·.expiration) := by
        unfold Collection.disableMember
        cases hmember : stored.members.lookup memberName with
        | none => exact ⟨rfl, fun _ => rfl⟩
        | some member =>
          refine ⟨rfl, fun other => ?_⟩
          dsimp only [Option.elim]
          rw [Map.lookup_insert]
          split
          · rename_i hsame
            rw [hsame, hmember]
            rfl
          · rfl
      exact ⟨.put hstored hput.1 hput.2, Table.leaves_put hother hstored _⟩
    · exact .refl table other domainName _
  rw [Table.updateMemberDisabledState_eq]
  refine (Tx.Evolves.bind hupdate fun updated => Tx.Evolves.ite
    (R := fun db _ db' => table.Pass other domainName [] db db')
    (fun _ => (Tx.Evolves.pure false).mono fun db r db' hs => ?_) fun _ =>
      table.insertAuditLog_passes hother domainName name admin memberName _).mono ?_
  · rw [hs.2]
    exact .refl table other domainName db
  · rintro db r db'' (⟨_, hpass, _⟩ | ⟨_, db', hpass, hlogged⟩)
    · exact hpass
    · exact hpass.append hlogged

theorem stampDomain_passes (htable : table.Timeless) (hother : other.Timeless) (domainName : Str)
    (time : Int) (db : Database) :
    table.Pass other domainName [] db (stampDomain domainName time db) := by
  have hstamped : ∀ {S : Type} {table : Table S}, table.Timeless →
      table.Writes domainName [] db (stampDomain domainName time db) := by
    intro S table htable
    refine ⟨fun name => ?_, fun name => ?_, ?_, fun name memberName _ => ?_⟩
    · rw [lookup_stampDomain, Option.isSome_map]
    · rw [Table.find_stampDomain htable]
    · rintro _ _ _ _ ⟨_, hmem, _⟩
      cases hmem
    · rw [Table.expiration, Table.find_stampDomain htable]
      rfl
  exact ⟨hstamped htable, hstamped hother⟩

theorem updateDomainModTimestamp_passes (htable : table.Timeless) (hother : other.Timeless)
    (domainName : Str) : Tx.Evolves (updateDomainModTimestamp domainName) fun db _ db' =>
      table.Pass other domainName [] db db' := by
  refine (Tx.Evolves.statement _).mono ?_
  rintro db r db' ⟨time, ⟨_, hf, _⟩ | ⟨_, hf, _⟩⟩
  · cases hf
    exact stampDomain_passes htable hother domainName time db
  · cases hf

theorem updateAllDisabledStates_passes (config : Config) (ctx : Context) (domainName : Str)
    (domainFilter : Option Str) (roles : List (Sigma fun _ : Str => Collection RoleSettings)) :
    Tx.Evolves (updateAllDisabledStates config ctx domainName domainFilter roles) fun db _ db' =>
      roleTable.Pass groupTable domainName [] db db' := by
  have hstop : ∀ db, roleTable.Pass groupTable domainName [] db db :=
    .refl roleTable groupTable domainName
  induction roles with
  | nil =>
    refine (Tx.Evolves.pure ()).mono fun db r db' hs => ?_
    rw [hs.2]
    exact hstop db
  | cons role roles ih =>
    have htouch : ∀ changed, Tx.Evolves (roleTable.touch domainName role.1 changed)
        fun db _ db' => roleTable.Pass groupTable domainName [] db db' := by
      refine fun changed => .ite (fun _ => ?_) fun _ =>
        (Tx.Evolves.pure ()).mono fun db r db' hs => ?_
      · refine (Tx.Evolves.bind (roleTable.updateModTimestamp_passes groupTable_apart _ _) fun _ =>
          updateDomainModTimestamp_passes roleTable_timeless groupTable_timeless domainName).mono ?_
        rintro db r db'' (⟨_, hpass, _⟩ | ⟨_, db', hpass, hstamped⟩)
        · exact hpass
        · exact hpass.append hstamped
      · rw [hs.2]
        exact hstop db
    rw [updateAllDisabledStates]
    refine (Tx.Evolves.bind (roleTable.tryEach_passes fun member _ =>
      roleTable.updateMemberDisabledState_passes groupTable_apart domainName role.1
        member.memberName ctx.principal _) fun changed => Tx.Evolves.bind (htouch changed) fun _ =>
      ih).mono ?_
    rintro db r db₃ (⟨_, hpass, _⟩ | ⟨_, db₁, hpass, ⟨_, htouched, _⟩ | ⟨_, db₂, htouched, hrest⟩⟩)
    · rw [List.flatMap_eq_nil_iff.2 fun _ _ => rfl] at hpass
      exact hpass
    · rw [List.flatMap_eq_nil_iff.2 fun _ _ => rfl] at hpass
      exact hpass.append htouched
    · rw [List.flatMap_eq_nil_iff.2 fun _ _ => rfl] at hpass
      exact hpass.append (htouched.append hrest)

end Passes

end Athenz.ZmsServer
