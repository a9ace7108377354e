import Athenz.DisabledStates

namespace Athenz.ZmsServer
open Lib Lib.Text Lib.Transaction Lib.Transaction.Tx
set_option autoImplicit true

section Model

/-- Where the settings of an object hold what an authority restricts. -/
structure AuthorityColumns (S : Type) where
  userAuthorityFilter : S → Column
  userAuthorityExpiration : S → Column
  trust : S → Column

def roleColumns : AuthorityColumns RoleSettings :=
  ⟨(·.userAuthorityFilter), (·.userAuthorityExpiration), (·.trust)⟩

/-- A group is not delegated. -/
def groupColumns : AuthorityColumns GroupSettings :=
  ⟨(·.userAuthorityFilter), (·.userAuthorityExpiration), fun _ => processInsertValue none⟩

/-- The member with the date of the authority. -/
def expiredMember (config : Config) (now : Int) (userAuthorityExpiry : Str) (member : Member) :
    Member :=
  if isUserDomainPrincipal config member.memberName then
    { member with
      expiration := config.userAuthority.elim member.expiration fun authority =>
        updateUserAuthorityExpiry authority now member.memberName (some userAuthorityExpiry)
          member.expiration }
  else member

variable [Collation]

def Table.enforceExpiration (table : Table S) (config : Config) (now : Int) (domainName name : Str)
    (userAuthorityExpiry : Option Str) (members : List Member) : Op Bool :=
  match userAuthorityExpiry with
  | none => pure false
  | some expiry =>
    tryEach (fun member => table.insertMember domainName name member (some SYS_AUTH_MONITOR))
      ((members.filter fun member => expiredMember config now expiry member ≠ member).map
        (expiredMember config now expiry))

def Table.enforceFilter (table : Table S) (config : Config) (domainName name : Str)
    (userAuthorityFilter : Option Str) (members : List Member) : Op Bool :=
  match userAuthorityFilter with
  | none => pure false
  | some filter =>
    tryEach (fun member => table.updateMemberDisabledState domainName name member.memberName
        (some SYS_AUTH_MONITOR) (member.systemDisabled.getD 0))
      (getMembersWithUpdatedDisabledState config members (some filter))

/-- The restrictions of one object; a delegated role has no members to look at. -/
def Table.enforceMembers (table : Table S) (columns : AuthorityColumns S) (config : Config)
    (now : Int) (domainName name : Str) (domainFilter : Option Str) (stored : Collection S) :
    Op Unit :=
  if saveValue (columns.trust stored.settings) = none then do
    let expiryUpdated ← table.enforceExpiration config now domainName name
      (saveValue (columns.userAuthorityExpiration stored.settings)) stored.listMembers
    let filterUpdated ← table.enforceFilter config domainName name
      (combineUserAuthorityFilters (saveValue (columns.userAuthorityFilter stored.settings))
        domainFilter) stored.listMembers
    table.touch domainName name (expiryUpdated || filterUpdated)
  else pure ()

/-- `enforceRoleUserAuthorityRestrictions` and `enforceGroupUserAuthorityRestrictions` -/
def Table.enforce (table : Table S) (columns : AuthorityColumns S) (config : Config) (now : Int)
    (domainName name : Str) (domainFilter : Option Str) : Op Unit := do
  let found ← Tx.query fun db => table.find db domainName name
  found.elim (pure ())
    (table.enforceMembers columns config now domainName name domainFilter)

/-- The objects with restrictions of their own or of their domain, each with the filter of its
domain. -/
def Table.listWithRestrictions (table : Table S) (columns : AuthorityColumns S) (db : Database) :
    List (Str × Str × Column) :=
  db.domains.entries.flatMap fun domain =>
    ((table.get domain.2).entries.filter fun object =>
      (columns.userAuthorityFilter object.2.settings).1 ≠ [] ∨
        (columns.userAuthorityExpiration object.2.settings).1 ≠ [] ∨
        domain.2.settings.userAuthorityFilter.1 ≠ []).map fun object =>
      (domain.1, object.1, domain.2.settings.userAuthorityFilter)

/-- Each object on its own; one that fails does not stop the others. -/
def Table.enforceEach (table : Table S) (columns : AuthorityColumns S) (config : Config)
    (now : Int) : List (Str × Str × Column) → Op Unit
  | [] => pure ()
  | object :: objects => do
    let _ ← Tx.quietly do
      table.enforce columns config now object.1 object.2.1 (some object.2.2.1)
      pure true
    table.enforceEach columns config now objects

/-- `processRoleUserAuthorityRestrictions` and `processGroupUserAuthorityRestrictions` -/
def Table.processUserAuthorityRestrictions (table : Table S) (columns : AuthorityColumns S)
    (config : Config) (now : Int) : Op Unit :=
  if config.userAuthority.isNone then pure ()
  else do
    let objects ← Tx.query (table.listWithRestrictions columns)
    table.enforceEach columns config now objects

/-- The run of the enforcer; what fails for the roles does not stop the groups. -/
def userAuthorityFilterEnforcer (config : Config) (now : Int) : Op Unit := do
  let _ ← Tx.quietly do
    roleTable.processUserAuthorityRestrictions roleColumns config now
    pure true
  let _ ← Tx.quietly do
    groupTable.processUserAuthorityRestrictions groupColumns config now
    pure true
  pure ()

end Model

section Settings

variable {table : Table S} {other : Table S'}

/-- The filters of the domains and the settings of the objects are the same. -/
structure Table.KeepsSettings (table : Table S) (other : Table S') (db db' : Database) : Prop where
  filter : ∀ domainName, (db'.domains.lookup domainName).map (·.settings.userAuthorityFilter) =
    (db.domains.lookup domainName).map (·.settings.userAuthorityFilter)
  own : ∀ domainName name, (table.find db' domainName name).map (·.settings) =
    (table.find db domainName name).map (·.settings)
  beside : ∀ domainName name, (other.find db' domainName name).map (·.settings) =
    (other.find db domainName name).map (·.settings)

/-- A table whose rows stand beside the settings of the domain. -/
def Table.Plain (table : Table S) : Prop := ∀ m row, (table.set m row).settings = row.settings

theorem roleTable_plain : roleTable.Plain := fun _ _ => rfl

theorem groupTable_plain : groupTable.Plain := fun _ _ => rfl

theorem Table.KeepsSettings.refl (table : Table S) (other : Table S') (db : Database) :
    table.KeepsSettings other db db where
  filter _ := rfl
  own _ _ := rfl
  beside _ _ := rfl

theorem Table.KeepsSettings.trans {db'' : Database} (h : table.KeepsSettings other db db')
    (h' : table.KeepsSettings other db' db'') : table.KeepsSettings other db db'' where
  filter domainName := (h'.filter domainName).trans (h.filter domainName)
  own domainName name := (h'.own domainName name).trans (h.own domainName name)
  beside domainName name := (h'.beside domainName name).trans (h.beside domainName name)

theorem Table.KeepsSettings.swap (h : table.KeepsSettings other db db') :
    other.KeepsSettings table db db' :=
  ⟨h.filter, h.beside, h.own⟩

theorem Table.KeepsSettings.admits {before : Database} {R : Collection S → Collection S → Prop}
    (hplain : table.Plain) (hother : other.Apart table)
    (h : ∀ stored stored', R stored stored' → stored'.settings = stored.settings) :
    table.Admits (table.KeepsSettings other before) domainName name R := by
  intro db stored stored' hstored hR hdb
  refine ⟨fun domain => ?_, fun domain object => ?_, fun domain object => ?_⟩
  · rw [← hdb.filter]
    obtain ⟨row, hrow, hput⟩ := Table.lookup_put hstored stored'
    rw [hput, Map.lookup_insert]
    split
    · rename_i hsame
      rw [hsame, hrow, Option.map_some, Option.map_some, hplain]
    · rfl
  · rw [← hdb.own, Table.find_put_eq hstored]
    split
    · rename_i hsame
      rw [hsame.1, hsame.2, hstored, Option.map_some, Option.map_some, h stored stored' hR]
    · rfl
  · rw [← hdb.beside]
    obtain ⟨row, hrow, _⟩ := Option.bind_eq_some_iff.1 hstored
    rw [Table.find_put_beside hother hrow]

theorem Table.KeepsSettings.ignores {before : Database} (hplain : table.Plain)
    (hother : other.Apart table) (htable : table.Timeless) (htimeless : other.Timeless) :
    table.Ignores (table.KeepsSettings other before) domainName name where
  beside := .admits hplain hother fun _ _ h => h.settings
  stamp time db hdb := by
    refine ⟨fun domain => ?_, fun domain object => ?_, fun domain object => ?_⟩
    · rw [← hdb.filter, lookup_stampDomain, Option.map_map]
      congr 1
      funext row
      dsimp only [Function.comp]
      split
      · rfl
      · rfl
    · rw [Table.find_stampDomain htable, hdb.own]
    · rw [Table.find_stampDomain htimeless, hdb.beside]

end Settings

section Frames

variable {table : Table S} {other : Table S'} {K : Database → Prop}

theorem Table.Ignores.updateMemberDisabledState {memberName : Str} {disabledState : Nat}
    (hK : table.Ignores K domainName name)
    (hstates : table.Admits K domainName name fun stored stored' =>
      stored' = (stored.disableMember memberName disabledState).2) :
    Preserves K (table.updateMemberDisabledState domainName name memberName admin disabledState) := by
  rw [Table.updateMemberDisabledState_eq]
  refine Preserves.bind ?_ fun updated => .ite (fun _ => .pure false) fun _ =>
    hK.insertAuditLog admin memberName _
  refine Table.on_admits hstates fun stored a stored' h => ?_
  rw [Except.ok.injEq] at h
  exact (congrArg Prod.snd h).symm

theorem Table.Ignores.touch (hK : table.Ignores K domainName name) (changed : Bool) :
    Preserves K (table.touch domainName name changed) :=
  .ite (fun _ => hK.updateModTimestamp.bind fun _ => hK.updateDomainModTimestamp) fun _ => .pure ()

theorem disableMember_settings (stored : Collection S) (memberName : Str) (disabledState : Nat) :
    (stored.disableMember memberName disabledState).2.settings = stored.settings := by
  unfold Collection.disableMember
  cases stored.members.lookup memberName with
  | none => rfl
  | some member => rfl

theorem putMember_settings (stored : Collection S) (keepsReview : Bool) (member : Member)
    (admin : Option Str) :
    (stored.putMember keepsReview member admin).2.settings = stored.settings := by
  unfold Collection.putMember
  split
  · rfl
  · rfl

/-- The enforcement leaves every setting. -/
theorem Table.enforce_keeps (hplain : table.Plain) (hother : other.Apart table)
    (htable : table.Timeless) (htimeless : other.Timeless) (columns : AuthorityColumns S)
    (config : Config) (now : Int) (domainName name : Str) (domainFilter : Option Str)
    (before : Database) :
    Preserves (table.KeepsSettings other before)
      (table.enforce columns config now domainName name domainFilter) := by
  have hK : table.Ignores (table.KeepsSettings other before) domainName name :=
    Table.KeepsSettings.ignores hplain hother htable htimeless
  refine (Preserves.query _).bind fun found => ?_
  cases found with
  | none => exact .pure ()
  | some stored =>
    refine .ite (fun _ => ?_) fun _ => .pure ()
    refine Preserves.bind ?_ fun expiryUpdated => Preserves.bind ?_ fun filterUpdated => hK.touch _
    · cases saveValue (columns.userAuthorityExpiration stored.settings) with
      | none => exact .pure false
      | some expiry =>
        refine tryEach_preserves (fun member => hK.insertMember (.admits hplain hother ?_)) _
        rintro stored stored' rfl
        exact putMember_settings stored _ member _
    · cases combineUserAuthorityFilters (saveValue (columns.userAuthorityFilter stored.settings))
          domainFilter with
      | none => exact .pure false
      | some filter =>
        refine tryEach_preserves (fun member => hK.updateMemberDisabledState
          (.admits hplain hother ?_)) _
        rintro stored stored' rfl
        exact disableMember_settings stored member.memberName _

end Frames

section Loops

variable {table : Table S} {other : Table S'} {F : Str → Str → Str → Nat → Nat}
  {opens opens' : Str → Str → Str → Prop} {before db db' : Database}

/-- On the way from the states of `before` to those that `F` makes of them: what is not open any
more is there. -/
structure Table.Shifting (table : Table S) (other : Table S') (F : Str → Str → Str → Nat → Nat)
    (opens : Str → Str → Str → Prop) (before db : Database) : Prop where
  own : ∀ domainName name memberName,
    table.disabledState db domainName name memberName =
      (table.disabledState before domainName name memberName).map (F domainName name memberName) ∨
    table.disabledState db domainName name memberName =
        table.disabledState before domainName name memberName ∧ opens domainName name memberName
  beside : ∀ domainName name memberName, other.disabledState db domainName name memberName =
    other.disabledState before domainName name memberName

theorem Table.Shifting.start (table : Table S) (other : Table S') (F : Str → Str → Str → Nat → Nat)
    (before : Database) : table.Shifting other F (fun _ _ _ => True) before before where
  own _ _ _ := .inr ⟨rfl, trivial⟩
  beside _ _ _ := rfl

theorem Table.Shifting.rests (h : table.Shifting other F opens before db)
    (hrests : table.Rests other db db') : table.Shifting other F opens before db' where
  own domainName name memberName := by
    rw [hrests.own]
    exact h.own domainName name memberName
  beside domainName name memberName := (hrests.beside ..).trans (h.beside ..)

/-- What is closed has nothing to do, or is there already. -/
theorem Table.Shifting.closes (h : table.Shifting other F opens before db)
    (hclosed : ∀ domainName name memberName, opens domainName name memberName →
      opens' domainName name memberName ∨ ∀ state,
        table.disabledState db domainName name memberName = some state →
          F domainName name memberName state = state) :
    table.Shifting other F opens' before db where
  own domainName name memberName := by
    obtain hmoved | ⟨hkept, hopen⟩ := h.own domainName name memberName
    · exact .inl hmoved
    obtain hstill | hfixed := hclosed domainName name memberName hopen
    · exact .inr ⟨hkept, hstill⟩
    · left
      rw [← hkept]
      cases hstate : table.disabledState db domainName name memberName with
      | none => rfl
      | some state => rw [Option.map_some, hfixed state hstate]
  beside := h.beside

/-- The state of an open member is that of before, or the one that it is to have. -/
theorem Table.Shifting.old_or_new (h : table.Shifting other F opens before db)
    (hstate : table.disabledState db domainName name memberName = some state) :
    ∃ old, table.disabledState before domainName name memberName = some old ∧
      (state = old ∨ state = F domainName name memberName old) := by
  obtain hmoved | ⟨hkept, _⟩ := h.own domainName name memberName
  · rw [hstate] at hmoved
    obtain ⟨old, hold, hnew⟩ := Option.map_eq_some_iff.1 hmoved.symm
    exact ⟨old, hold, .inr hnew.symm⟩
  · rw [hstate] at hkept
    exact ⟨state, hkept.symm, .inl rfl⟩

theorem Table.Shifting.sets (h : table.Shifting other F opens before db)
    (hsets : table.Sets other domainName name memberName newState db db')
    (hnew : ∀ old, table.disabledState before domainName name memberName = some old →
      newState = F domainName name memberName old) :
    table.Shifting other F (fun domain object member => opens domain object member ∧
      ¬ (domain = domainName ∧ object = name ∧ member = memberName)) before db' where
  own domain object member := by
    by_cases hsame : domain = domainName ∧ object = name ∧ member = memberName
    · left
      rw [hsame.1, hsame.2.1, hsame.2.2, hsets.set]
      cases hstate : table.disabledState db domainName name memberName with
      | none =>
        obtain hmoved | ⟨hkept, _⟩ := h.own domainName name memberName
        · rw [← hmoved, hstate, Option.map_none]
        · rw [← hkept, hstate, Option.map_none, Option.map_none]
      | some state =>
        obtain ⟨old, hold, _⟩ := h.old_or_new hstate
        rw [hold, Option.map_some, Option.map_some, hnew old hold]
    · rw [hsets.own domain object member hsame]
      obtain hmoved | ⟨hkept, hopen⟩ := h.own domain object member
      · exact .inl hmoved
      · exact .inr ⟨hkept, hopen, hsame⟩
  beside domainName name memberName := (hsets.beside ..).trans (h.beside ..)

/-- Each member of the list gets the state that it is to have. -/
theorem Table.disableEach_shifts (F : Str → Str → Str → Nat → Nat) (before : Database)
    (hother : other.Apart table) (domainName name : Str) (admin : Option Str) (members : List Member) :
    Tx.Evolves (tryEach (fun member => table.updateMemberDisabledState domainName name
        member.memberName admin (member.systemDisabled.getD 0)) members)
      fun db r db' => (∃ changed, r = .ok changed) ∧ ∀ opens,
        table.Shifting other F opens before db →
        (∀ member ∈ members, ∀ old,
          table.disabledState before domainName name member.memberName = some old →
            member.systemDisabled.getD 0 = F domainName name member.memberName old) →
          table.Shifting other F (fun domain object memberName => opens domain object memberName ∧
            ¬ (domain = domainName ∧ object = name ∧
              ∃ member ∈ members, memberName = member.memberName)) before db' := by
  induction members with
  | nil =>
    refine (Tx.Evolves.pure false).mono ?_
    rintro db r db' ⟨rfl, rfl⟩
    refine ⟨⟨false, rfl⟩, fun opens hshifting _ => hshifting.closes fun _ _ _ hopen => .inl ?_⟩
    refine ⟨hopen, ?_⟩
    rintro ⟨_, _, _, hmem, _⟩
    cases hmem
  | cons member members ih =>
    refine ((table.updateMemberDisabledState_sets hother domainName name member.memberName admin
      _).quietly.bind fun done => ih.bind fun others => Tx.Evolves.pure (done || others)).mono ?_
    intro db r db'' hrun
    obtain ⟨e, ⟨b, hb, _⟩, _⟩ | ⟨done, db₁, ⟨b, _, hdone⟩, hrun⟩ := hrun
    · cases hb
    have hsets : table.Sets other domainName name member.memberName
        (member.systemDisabled.getD 0) db db₁ := by
      obtain ⟨hsets, _⟩ | ⟨_, e, hsets, _⟩ := hdone
      · exact hsets
      · exact hsets
    obtain ⟨e, ⟨⟨_, hfail⟩, _⟩, _⟩ | ⟨others, db₂, ⟨_, hrest⟩, rfl, rfl⟩ := hrun
    · cases hfail
    refine ⟨⟨_, rfl⟩, fun opens hshifting hnew => ?_⟩
    have hfirst := hshifting.sets hsets (hnew member List.mem_cons_self)
    have hlater := hrest _ hfirst fun later hmem => hnew later (List.mem_cons_of_mem member hmem)
    refine hlater.closes ?_
    rintro domain object memberName ⟨⟨hopen, hnot⟩, hnone⟩
    refine .inl ⟨hopen, ?_⟩
    rintro ⟨hdomain, hobject, found, hmem, hname⟩
    obtain rfl | hmem := List.mem_cons.1 hmem
    · exact hnot ⟨hdomain, hobject, hname⟩
    · exact hnone ⟨hdomain, hobject, found, hmem, hname⟩

end Loops

section Steps

variable {table : Table S} {other : Table S'}

theorem Table.touch_rests (hother : other.Apart table) (htable : table.Timeless)
    (htimeless : other.Timeless) (domainName name : Str) (changed : Bool) :
    Tx.Evolves (table.touch domainName name changed) fun db _ db' => table.Rests other db db' := by
  refine Tx.Evolves.ite (fun _ => ((table.updateModTimestamp_rests hother domainName name).bind
    fun _ => updateDomainModTimestamp_rests htable htimeless domainName).mono ?_)
    fun _ => (Tx.Evolves.pure ()).mono ?_
  · rintro db r db'' (⟨e, ⟨hrests, _⟩, _⟩ | ⟨b, db', ⟨hrests, _⟩, _, hrests'⟩)
    · exact hrests
    · exact hrests.trans hrests'
  · rintro db r db' ⟨_, rfl⟩
    exact .refl table other db'

/-- A member that is put again keeps its state. -/
theorem Table.putAgain_rests (hother : other.Apart table) {member : Member} (admin : Option Str)
    (hstored : table.find db domainName name = some stored)
    (hmember : (stored.members.lookup member.memberName).isSome = true) :
    table.Rests other db ((table.focus domainName name).put db
      (stored.putMember table.keepsReview member admin).2) := by
  refine .put hother hstored fun memberName => ?_
  unfold Collection.putMember
  split
  · rfl
  · dsimp only
    rw [Map.lookup_insert]
    split
    · rename_i hsame
      obtain ⟨row, hrow⟩ := Option.isSome_iff_exists.1 hmember
      rw [hsame, hrow]
      rfl
    · rfl

theorem Table.insertMember_rests (hother : other.Apart table) (domainName name : Str)
    (member : Member) (admin : Option Str) :
    Tx.Evolves (table.insertMember domainName name member admin) fun db _ db' =>
      (table.disabledState db domainName name member.memberName).isSome = true →
        table.Rests other db db' := by
  have hput : Tx.Evolves (table.putMember domainName name member admin) fun db _ db' =>
      (table.disabledState db domainName name member.memberName).isSome = true →
        table.Rests other db db' := by
    refine ((Tx.Evolves.query _).bind fun known => Tx.Evolves.ite
      (R := fun db _ db' => (table.disabledState db domainName name member.memberName).isSome = true →
        table.Rests other db db')
      (fun _ => (Tx.Evolves.abort _).mono ?_)
      fun _ => (table.on_evolves domainName name _).mono ?_).mono ?_
    · rintro db r db' ⟨_, rfl⟩ _
      exact .refl table other db'
    · rintro db r db' (⟨stored, hstored, _, rfl⟩ | ⟨_, rfl⟩) hsome
      · rw [Table.state_of_find hstored, Option.isSome_map] at hsome
        exact Table.putAgain_rests hother admin hstored hsome
      · exact .refl table other db'
    · rintro db r db'' (⟨e, ⟨hfail, _⟩, _⟩ | ⟨known, db', ⟨_, rfl⟩, hrest⟩)
      · cases hfail
      · exact hrest
  have hlog : ∀ action, Tx.Evolves (table.logMember domainName name member.memberName admin action)
      fun db _ db' => table.Rests other db db' := by
    intro action
    cases action with
    | none =>
      refine (Tx.Evolves.pure true).mono ?_
      rintro db r db' ⟨_, rfl⟩
      exact .refl table other db'
    | some action =>
      exact (table.insertAuditLog_rests hother domainName name admin member.memberName action).mono
        fun _ _ _ h => h.1
  refine (hput.bind hlog).mono ?_
  rintro db r db'' (⟨e, hrests, _⟩ | ⟨action, db', hrests, hrests'⟩) hsome
  · exact hrests hsome
  · exact (hrests hsome).trans hrests'

theorem Table.insertEach_rests (hother : other.Apart table) (domainName name : Str)
    (admin : Option Str) (members : List Member) :
    Tx.Evolves (tryEach (fun member => table.insertMember domainName name member admin) members)
      fun db r db' => (∃ changed, r = .ok changed) ∧ ((∀ member ∈ members,
        (table.disabledState db domainName name member.memberName).isSome = true) →
          table.Rests other db db') := by
  induction members with
  | nil =>
    refine (Tx.Evolves.pure false).mono ?_
    rintro db r db' ⟨rfl, rfl⟩
    exact ⟨⟨false, rfl⟩, fun _ => .refl table other db'⟩
  | cons member members ih =>
    refine ((table.insertMember_rests hother domainName name member admin).quietly.bind fun done =>
      ih.bind fun others => Tx.Evolves.pure (done || others)).mono ?_
    intro db r db'' hrun
    obtain ⟨e, ⟨b, hb, _⟩, _⟩ | ⟨done, db₁, ⟨b, _, hdone⟩, hrun⟩ := hrun
    · cases hb
    have hfirst : (table.disabledState db domainName name member.memberName).isSome = true →
        table.Rests other db db₁ := by
      obtain hrests | ⟨_, e, hrests⟩ := hdone
      · exact hrests
      · exact hrests
    obtain ⟨e, ⟨⟨_, hfail⟩, _⟩, _⟩ | ⟨others, db₂, ⟨_, hrest⟩, rfl, rfl⟩ := hrun
    · cases hfail
    refine ⟨⟨_, rfl⟩, fun hmembers => ?_⟩
    have hrests := hfirst (hmembers member List.mem_cons_self)
    refine hrests.trans (hrest fun later hmem => ?_)
    rw [hrests.own]
    exact hmembers later (List.mem_cons_of_mem member hmem)

end Steps

end Athenz.ZmsServer
