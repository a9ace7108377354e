import Athenz.DbServiceOperations
import Athenz.FilterEnforcer

namespace Athenz.ZmsServer
open Lib Lib.Text Lib.Transaction
set_option autoImplicit true

section Attributes

/-- An authority that knows whether a user has an attribute. -/
def attributeAuthority (getDateAttribute : Str → Str → Option Int)
    (isAttributeSet : Str → Str → Bool) : UserAuthority where
  getDateAttribute := getDateAttribute
  isUserAuthorityFilterValid filterList memberName :=
    if ',' ∉ filterList then isAttributeSet memberName filterList
    else (splitAttributes filterList).all (isAttributeSet memberName)

/-- The user lacks an attribute of the filter; without a filter there is none to lack. -/
def lacksAttribute (isAttributeSet : Str → Str → Bool) (memberName : Str) (filter : Option Str) :
    Bool :=
  (filter.elim [] splitAttributes).any fun name => !isAttributeSet memberName name

theorem splitAttributes_of_notMem (h : ',' ∉ filter) (hne : filter ≠ []) :
    splitAttributes filter = [filter] := by
  rw [splitAttributes, List.splitOn_eq_singleton h]
  rw [List.rdropWhile_singleton, if_neg]
  rw [decide_eq_true_eq]
  exact hne

theorem isUserAuthorityFilterValid_eq (hne : filter ≠ []) :
    (attributeAuthority getDateAttribute isAttributeSet).isUserAuthorityFilterValid filter memberName =
      !lacksAttribute isAttributeSet memberName (some filter) := by
  have hlacks : lacksAttribute isAttributeSet memberName (some filter) =
      !(splitAttributes filter).all (isAttributeSet memberName) := by
    rw [List.not_all_eq_any_not]
    rfl
  rw [hlacks, Bool.not_not, attributeAuthority]
  dsimp only
  split
  · rename_i hcomma
    rw [splitAttributes_of_notMem hcomma hne, List.all_cons, List.all_nil, Bool.and_true]
  · rfl

theorem emptyToNull_ne_nil (h : emptyToNull value = some text) : text ≠ [] := by
  unfold emptyToNull at h
  exact of_decide_eq_true (Option.filter_eq_some_iff.1 h).2

theorem combineUserAuthorityFilters_ne_nil
    (h : combineUserAuthorityFilters roleFilter domainFilter = some filter) : filter ≠ [] := by
  unfold combineUserAuthorityFilters at h
  split at h
  · cases h
    exact List.append_ne_nil_of_right_ne_nil _ (List.cons_ne_nil _ _)
  · rename_i hrole _
    cases h
    exact emptyToNull_ne_nil hrole
  · exact emptyToNull_ne_nil h

end Attributes

section Bits

theorem testBit_zero_of_even (n : Nat) : (n * 2).testBit 0 = false := by
  rw [Nat.testBit_zero, decide_eq_false_iff_not]
  omega

theorem testBit_zero_of_odd (n : Nat) : (n * 2 + 1).testBit 0 = true := by
  rw [Nat.testBit_zero, decide_eq_true_eq]
  omega

/-- The other bits are those of the half. -/
theorem testBit_of_half_eq (h : state' / 2 = state / 2) (hi : i ≠ 0) :
    Nat.testBit state' i = Nat.testBit state i := by
  obtain ⟨j, rfl⟩ := Nat.exists_eq_succ_of_ne_zero hi
  rw [Nat.succ_eq_add_one, Nat.testBit_add_one, Nat.testBit_add_one, h]

theorem enforcedState_half (config : Config) (filter : Option Str) (memberName : Str) (state : Nat) :
    enforcedState config filter memberName state / 2 = state / 2 := by
  cases filter with
  | none => rfl
  | some filter =>
    unfold enforcedState getMemberUserAuthorityState
    dsimp only [Option.elim]
    split
    · split
      · omega
      · omega
    · rfl

/-- The configuration with an authority that knows attributes. -/
def Config.withAttributes (config : Config) (getDateAttribute : Str → Str → Option Int)
    (isAttributeSet : Str → Str → Bool) : Config :=
  { config with userAuthority := some (attributeAuthority getDateAttribute isAttributeSet) }

theorem enforcedState_bit (hne : filter ≠ []) (huser : isUserDomainPrincipal config memberName = true)
    (state : Nat) :
    (enforcedState (config.withAttributes getDateAttribute isAttributeSet) (some filter) memberName
      state).testBit 0 = lacksAttribute isAttributeSet memberName (some filter) := by
  have huser' : isUserDomainPrincipal (config.withAttributes getDateAttribute isAttributeSet)
      memberName = true := huser
  have hvalid : ((config.withAttributes getDateAttribute isAttributeSet).userAuthority.any
      (·.isUserAuthorityFilterValid filter memberName)) =
        !lacksAttribute isAttributeSet memberName (some filter) :=
    isUserAuthorityFilterValid_eq hne
  unfold enforcedState getMemberUserAuthorityState
  dsimp only [Option.elim]
  rw [if_pos huser', hvalid]
  cases lacksAttribute isAttributeSet memberName (some filter) with
  | false => exact testBit_zero_of_even _
  | true => exact testBit_zero_of_odd _

end Bits

section Tracking

variable {table : Table S} {other : Table S'} {columns : AuthorityColumns S} {config : Config}

/-- The filters' bit of every user in an object that is not delegated tells whether the user lacks
an attribute of its filter, and no other bit has changed. -/
structure Table.Tracks (table : Table S) (columns : AuthorityColumns S) (config : Config)
    (isAttributeSet : Str → Str → Bool) (db db' : Database) : Prop where
  follows : ∀ domainName name stored memberName state,
    table.find db' domainName name = some stored →
    saveValue (columns.trust stored.settings) = none →
    isUserDomainPrincipal config memberName = true →
    table.disabledState db' domainName name memberName = some state →
      state.testBit 0 =
        lacksAttribute isAttributeSet memberName (table.filterOf columns db' domainName name)
  others : ∀ domainName name memberName state,
    table.disabledState db' domainName name memberName = some state →
      ∃ old, table.disabledState db domainName name memberName = some old ∧
        ∀ i, i ≠ 0 → state.testBit i = old.testBit i

/-- No user is held by a filter that is gone. -/
def Table.Released (table : Table S) (columns : AuthorityColumns S) (config : Config)
    (db : Database) : Prop :=
  ∀ domainName name stored memberName state, table.find db domainName name = some stored →
    saveValue (columns.trust stored.settings) = none →
    isUserDomainPrincipal config memberName = true →
    table.disabledState db domainName name memberName = some state →
    table.filterOf columns db domainName name = none → state.testBit 0 = false

theorem Table.filterOf_ne_nil (h : table.filterOf columns db domainName name = some filter) :
    filter ≠ [] := by
  obtain ⟨stored, _, hfilter⟩ := Option.bind_eq_some_iff.1 h
  split at hfilter
  · exact combineUserAuthorityFilters_ne_nil hfilter
  · cases hfilter

/-- Behind a run the bits follow exactly when no user has been held before it. -/
theorem Table.KeepsSettings.tracks_iff (getDateAttribute : Str → Str → Option Int)
    (h : table.KeepsSettings other db db')
    (hown : ∀ domainName name memberName, table.disabledState db' domainName name memberName =
      (table.disabledState db domainName name memberName).map
        (enforcedState (config.withAttributes getDateAttribute isAttributeSet)
          (table.filterOf columns db domainName name) memberName)) :
    table.Tracks columns config isAttributeSet db db' ↔ table.Released columns config db := by
  have hfilter := h.filterOf columns
  constructor
  · intro htracks domainName name stored memberName state hstored htrust huser hstate hnone
    have hkept := h.own domainName name
    rw [hstored, Option.map_some] at hkept
    obtain ⟨stored', hstored', hsettings⟩ := Option.map_eq_some_iff.1 hkept
    have hstate' := hown domainName name memberName
    rw [hstate, hnone, Option.map_some] at hstate'
    rw [← hsettings] at htrust
    have hbit := htracks.follows domainName name stored' memberName state hstored' htrust huser hstate'
    rw [hbit, hfilter, hnone]
    rfl
  · intro hreleased
    refine ⟨?_, ?_⟩
    · intro domainName name stored' memberName state' hstored' htrust huser hstate'
      have hkept := h.own domainName name
      rw [hstored', Option.map_some] at hkept
      obtain ⟨stored, hstored, hsettings⟩ := Option.map_eq_some_iff.1 hkept.symm
      rw [← hsettings] at htrust
      rw [hown] at hstate'
      obtain ⟨state, hstate, rfl⟩ := Option.map_eq_some_iff.1 hstate'
      rw [hfilter]
      cases hold : table.filterOf columns db domainName name with
      | none => exact hreleased domainName name stored memberName state hstored htrust huser hstate hold
      | some filter => exact enforcedState_bit (Table.filterOf_ne_nil hold) huser state
    · intro domainName name memberName state' hstate'
      rw [hown] at hstate'
      obtain ⟨state, hstate, rfl⟩ := Option.map_eq_some_iff.1 hstate'
      exact ⟨state, hstate, fun i hi => testBit_of_half_eq (enforcedState_half _ _ _ _) hi⟩

end Tracking

section Runs

/-- A complete run of the enforcer: no statement fails. -/
def enforcerRun (config : Config) (now : Int) (times : Nat → Int) (db : Database) :
    Except Failure Unit × Database :=
  let run := userAuthorityFilterEnforcer config now ⟨db, db, true, fun n => ⟨times n, none⟩⟩
  (run.1, run.2.committed)

theorem quietly_enforced {p : Op Unit} {R : Database → Database → Prop}
    (hp : Tx.Evolves p fun db r db' => r = .ok () ∧ R db db') :
    Tx.Evolves (Tx.quietly do
      p
      pure true) fun db r db' => r = .ok true ∧ R db db' := by
  refine (hp.bind fun _ => Tx.Evolves.pure true).quietly.mono ?_
  rintro db r db' ⟨b, rfl, hdone⟩
  obtain (⟨e, _, hbound⟩ | ⟨_, _, ⟨_, hstepped⟩, hok, rfl⟩) |
    ⟨_, e, ⟨e', ⟨hfail, _⟩, _⟩ | ⟨_, _, _, hbound, _⟩⟩ := hdone
  · cases hbound
  · exact ⟨hok, hstepped⟩
  · cases hfail
  · cases hbound

theorem enforcerRun_enforced {config : Config} (hauthority : config.userAuthority.isNone = false)
    (now : Int) (times : Nat → Int) (db : Database) :
    (enforcerRun config now times db).1 = .ok () ∧ ∃ db',
      roleTable.Enforced groupTable roleColumns config db db' ∧
      groupTable.Enforced roleTable groupColumns config db'
        (enforcerRun config now times db).2 := by
  have hroles := quietly_enforced (roleTable.processUserAuthorityRestrictions_enforced
    roleColumns hauthority roleTable_plain groupTable_apart roleTable_timeless
      groupTable_timeless now)
  have hgroups := quietly_enforced (groupTable.processUserAuthorityRestrictions_enforced
    groupColumns hauthority groupTable_plain roleTable_apart groupTable_timeless
      roleTable_timeless now)
  have hquiet : Tx.Quiet (⟨db, db, true, fun n => ⟨times n, none⟩⟩ : Connection Database Failure) :=
    ⟨rfl, rfl, fun _ => rfl⟩
  have hrun := (hroles.bind fun _ => hgroups.bind fun _ => Tx.Evolves.pure ()) _ hquiet
  obtain ⟨_, ⟨e, ⟨hfail, _⟩, _⟩ | ⟨_, db', ⟨_, hrole⟩, hrest⟩⟩ := hrun
  · cases hfail
  obtain ⟨e, ⟨hfail, _⟩, _⟩ | ⟨_, db'', ⟨_, hgroup⟩, hok, hsame⟩ := hrest
  · cases hfail
  · refine ⟨hok, db', hrole, ?_⟩
    rw [← hsame] at hgroup
    exact hgroup

variable [Collation] [CaseRules]

/-- The requests that set filters or members. -/
inductive FilterRequest where
  | putRole (ctx : Context) (domainName roleName : Str) (role : Role)
  | putMembership (ctx : Context) (domainName roleName : Str) (member : Member)
  | putMembershipDecision (ctx : Context) (domainName roleName : Str) (member : Member)
  | putRoleMeta (ctx : Context) (now : Int) (domainName roleName : Str) (request : RoleMeta)
  | putGroup (ctx : Context) (domainName groupName : Str) (group : Group)
  | putGroupMembership (ctx : Context) (domainName groupName : Str) (auditEnabled : Option Bool)
      (member : Member)
  | putGroupMeta (ctx : Context) (now : Int) (domainName groupName : Str) (request : GroupMeta)
  | putDomainMeta (ctx : Context) (now : Int) (domainName : Str) (request : DomainMeta)
      (systemAttribute : Option SystemAttribute) (deleteAllowed : Bool)

/-- The store behind a request; the meta requests for roles and domains work on what they have read
before. -/
def FilterRequest.run (config : Config) (request : FilterRequest) (events : Nat → Event Failure)
    (db : Database) : Database :=
  match request with
  | putRole ctx domainName roleName role =>
    (executePutRole config ctx domainName roleName role db events).2
  | putMembership ctx domainName roleName member =>
    (executePutMembership config ctx domainName roleName member db events).2
  | putMembershipDecision ctx domainName roleName member =>
    (executePutMembershipDecision config ctx domainName roleName member db events).2
  | putRoleMeta ctx now domainName roleName request =>
    (roleTable.find db domainName roleName).elim db fun stored =>
      (executePutRoleMeta config ctx now domainName roleName (saveRole domainName roleName stored)
        request db events).2
  | putGroup ctx domainName groupName group =>
    (executePutGroup config ctx domainName groupName group db events).2
  | putGroupMembership ctx domainName groupName auditEnabled member =>
    (executeAutoCommit config
      (putGroupMembershipBody config ctx domainName groupName auditEnabled member) db events).2
  | putGroupMeta ctx now domainName groupName request =>
    (executePutGroupMeta config ctx now domainName groupName request db events).2
  | putDomainMeta ctx now domainName request systemAttribute deleteAllowed =>
    (db.domains.lookup domainName).elim db fun row =>
      (executePutDomainMeta config ctx now (saveDomainSettings domainName row) request
        systemAttribute deleteAllowed (some row) (some row) db events).2

/-- One request after the other, each with what its connections meet. -/
def runRequests (config : Config) (requests : List (FilterRequest × (Nat → Event Failure)))
    (db : Database) : Database :=
  requests.foldl (fun db request => request.1.run config request.2 db) db

end Runs

section Example

local instance filterCollation : Collation := .binary

local instance filterCaseRules : CaseRules := .ascii

/-- A store with a role of one member. -/
def readersStore : Database where
  domains := (∅ : Map Str DomainRow).insert "sports" {
    settings := Domain.settings { name := "sports" }
    modified := 0
    roles := (∅ : Map Str (Collection RoleSettings)).insert "readers" {
      settings := Role.settings { name := "sports:role.readers" }
      members := (∅ : Map Str MemberRow).insert "user.joe" ⟨none, none, true, 0⟩ } }

/-- Nobody has an attribute. -/
def strictConfig : Config := ({} : Config).withAttributes (fun _ _ => none) fun _ _ => false

/-- A filter is set for the role, and then the role is put with its member but without a filter. -/
def clearedFilter : List (FilterRequest × (Nat → Event Failure)) :=
  [(.putRoleMeta { caller := "putRoleMeta" } 0 "sports" "readers"
      { userAuthorityFilter := some "employee" }, fun n => ⟨n, none⟩),
    (.putRole { caller := "putRole" } "sports" "readers"
      { name := "sports:role.readers", roleMembers := some [{ memberName := "user.joe" }] },
      fun n => ⟨n, none⟩)]

def clearedStore : Database := runRequests strictConfig clearedFilter readersStore

def enforcedStore : Except Failure Unit × Database :=
  enforcerRun strictConfig 0 (fun n => n) clearedStore

end Example

end Athenz.ZmsServer
