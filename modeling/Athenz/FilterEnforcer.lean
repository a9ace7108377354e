import Athenz.AuthorityFilters

namespace Athenz.ZmsServer
open Lib Lib.Text Lib.Transaction Lib.Transaction.Tx
set_option autoImplicit true

section States

/-- The filter of an object and its domain; a delegated object has none. -/
def Table.filterOf (table : Table S) (columns : AuthorityColumns S) (db : Database)
    (domainName name : Str) : Option Str :=
  (table.find db domainName name).bind fun stored =>
    if saveValue (columns.trust stored.settings) = none then
      combineUserAuthorityFilters (saveValue (columns.userAuthorityFilter stored.settings))
        ((db.domains.lookup domainName).bind fun row => saveValue row.settings.userAuthorityFilter)
    else none

/-- The state that a filter gives to a member; without one there is nothing to do. -/
def enforcedState (config : Config) (filter : Option Str) (memberName : Str) (state : Nat) : Nat :=
  filter.elim state fun filter =>
    getMemberUserAuthorityState config memberName (some filter) state

theorem getMemberUserAuthorityState_idem (config : Config) (memberName : Str) (filter : Option Str)
    (state : Nat) :
    getMemberUserAuthorityState config memberName filter
        (getMemberUserAuthorityState config memberName filter state) =
      getMemberUserAuthorityState config memberName filter state := by
  unfold getMemberUserAuthorityState
  cases filter with
  | none =>
    dsimp only
    omega
  | some filter =>
    dsimp only
    split
    · split
      · omega
      · omega
    · rfl

/-- An empty filter of a domain is none. -/
theorem combineUserAuthorityFilters_column (filter : Option Str) (column : Column) :
    combineUserAuthorityFilters filter (some column.1) =
      combineUserAuthorityFilters filter (saveValue column) := by
  have hcolumn : emptyToNull (some column.1) = emptyToNull (saveValue column) := by
    unfold saveValue
    split
    · rename_i hempty
      rw [hempty]
      rfl
    · rfl
  unfold combineUserAuthorityFilters
  rw [hcolumn]

theorem saveValue_eq_none {column : Column} : saveValue column = none ↔ column.1 = [] := by
  unfold saveValue
  split
  · rename_i hempty
    exact iff_of_true rfl hempty
  · rename_i hne
    exact iff_of_false nofun hne

theorem combineUserAuthorityFilters_none :
    combineUserAuthorityFilters none none = none := rfl

end States

section Enforcement

variable {table : Table S} {other : Table S'} {columns : AuthorityColumns S} {before : Database}

theorem Table.KeepsSettings.filterOf (columns : AuthorityColumns S)
    (h : table.KeepsSettings other before db) (domainName name : Str) :
    table.filterOf columns db domainName name = table.filterOf columns before domainName name := by
  have hfilter : ((db.domains.lookup domainName).bind fun row =>
      saveValue row.settings.userAuthorityFilter) =
      (before.domains.lookup domainName).bind fun row =>
        saveValue row.settings.userAuthorityFilter := by
    have hsame := h.filter domainName
    cases hrow : db.domains.lookup domainName with
    | none =>
      rw [hrow, Option.map_none] at hsame
      rw [Option.map_eq_none_iff.1 hsame.symm]
    | some row =>
      rw [hrow, Option.map_some] at hsame
      obtain ⟨row', hrow', hcolumn⟩ := Option.map_eq_some_iff.1 hsame.symm
      rw [hrow', Option.bind_some, Option.bind_some, hcolumn]
  have hown := h.own domainName name
  unfold Table.filterOf
  rw [hfilter]
  cases hstored : table.find db domainName name with
  | none =>
    rw [hstored, Option.map_none] at hown
    rw [Option.map_eq_none_iff.1 hown.symm]
  | some stored =>
    rw [hstored, Option.map_some] at hown
    obtain ⟨stored', hstored', hsettings⟩ := Option.map_eq_some_iff.1 hown.symm
    rw [hstored', Option.bind_some, Option.bind_some, hsettings]

theorem state_of_listMembers (hstored : table.find db domainName name = some stored)
    (h : member ∈ stored.listMembers) :
    table.disabledState db domainName name member.memberName = some (member.systemDisabled.getD 0) := by
  obtain ⟨entry, hentry, rfl⟩ := List.mem_map.1 h
  rw [Table.state_of_find hstored, MemberRow.toMember, Map.mem_entries_iff.1 hentry, Option.map_some,
    getD_nullIfDefaultValue]

theorem listMembers_of_state (hstored : table.find db domainName name = some stored)
    (h : table.disabledState db domainName name memberName = some oldState) :
    ∃ member ∈ stored.listMembers, member.memberName = memberName ∧
      member.systemDisabled.getD 0 = oldState := by
  have hsome : (stored.members.lookup memberName).isSome = true := by
    rw [Table.state_of_find hstored] at h
    rw [← Option.isSome_map, h]
    rfl
  obtain ⟨member, hmem, hname⟩ := mem_listMembers.2 hsome
  refine ⟨member, hmem, hname, ?_⟩
  have hstate := state_of_listMembers hstored hmem
  rw [hname, h] at hstate
  exact (Option.some.inj hstate).symm

/-- The members that get another state, each with it. -/
theorem mem_getMembersWithUpdatedDisabledState :
    member ∈ getMembersWithUpdatedDisabledState config members filter ↔ ∃ old ∈ members,
      getMemberUserAuthorityState config old.memberName filter (old.systemDisabled.getD 0) ≠
        old.systemDisabled.getD 0 ∧
      member = { old with systemDisabled := some (getMemberUserAuthorityState config old.memberName
        filter (old.systemDisabled.getD 0)) } := by
  unfold getMembersWithUpdatedDisabledState
  rw [List.mem_map]
  constructor
  · rintro ⟨old, hmem, rfl⟩
    obtain ⟨hold, hchanged⟩ := List.mem_filter.1 hmem
    exact ⟨old, hold, of_decide_eq_true hchanged, rfl⟩
  · rintro ⟨old, hold, hchanged, rfl⟩
    exact ⟨old, List.mem_filter.2 ⟨hold, decide_eq_true hchanged⟩, rfl⟩

/-- What the enforcement is to do to the state of each member. -/
def Table.enforcedStates (table : Table S) (columns : AuthorityColumns S) (config : Config)
    (before : Database) (domainName name memberName : Str) (state : Nat) : Nat :=
  enforcedState config (table.filterOf columns before domainName name) memberName state

/-- What is open without the members of one object. -/
def Without (opens : Str → Str → Str → Prop) (domainName name domain object memberName : Str) : Prop :=
  opens domain object memberName ∧ ¬ (domain = domainName ∧ object = name)

variable {opens : Str → Str → Str → Prop} {config : Config}

theorem Table.Shifting.without (h : table.Shifting other F opens before db)
    (hfixed : ∀ memberName state, table.disabledState db domainName name memberName = some state →
      F domainName name memberName state = state) :
    table.Shifting other F (Without opens domainName name) before db := by
  refine h.closes fun domain object memberName hopen => ?_
  by_cases hsame : domain = domainName ∧ object = name
  · rw [hsame.1, hsame.2]
    exact .inr (hfixed memberName)
  · exact .inl ⟨hopen, hsame⟩

/-- The members of an object get the states that its filter gives them. -/
theorem Table.enforceFilter_shifts (columns : AuthorityColumns S) (before : Database)
    (hother : other.Apart table) (domainName name : Str) (stored : Collection S)
    (filter : Option Str) :
    Tx.Evolves (table.enforceFilter config domainName name filter stored.listMembers)
      fun db r db' => (∃ changed, r = .ok changed) ∧
        ∀ opens db₀, table.filterOf columns before domainName name = filter →
          table.find db₀ domainName name = some stored → table.Rests other db₀ db →
          table.Shifting other (table.enforcedStates columns config before) opens before db₀ →
            table.Shifting other (table.enforcedStates columns config before)
              (Without opens domainName name) before db' := by
  cases filter with
  | none =>
    refine (Tx.Evolves.pure false).mono ?_
    rintro db r db' ⟨rfl, rfl⟩
    refine ⟨⟨false, rfl⟩, fun opens db₀ hfilter _ hrests hshifting => ?_⟩
    refine (hshifting.rests hrests).without fun memberName state _ => ?_
    rw [Table.enforcedStates, hfilter]
    rfl
  | some filter =>
    refine (table.disableEach_shifts (table.enforcedStates columns config before) before hother
      domainName name (some SYS_AUTH_MONITOR) _).mono ?_
    rintro db r db' ⟨hok, hloop⟩
    refine ⟨hok, fun opens db₀ hfilter hstored hrests hshifting => ?_⟩
    have hF : ∀ memberName state, table.enforcedStates columns config before domainName name
        memberName state = getMemberUserAuthorityState config memberName (some filter) state := by
      intro memberName state
      rw [Table.enforcedStates, hfilter]
      rfl
    -- what is not in the list has its state already
    have hopened : table.Shifting other (table.enforcedStates columns config before)
        (fun domain object memberName => opens domain object memberName ∧
          (domain = domainName ∧ object = name → ∃ member ∈ getMembersWithUpdatedDisabledState config
            stored.listMembers (some filter), memberName = member.memberName)) before db₀ := by
      refine hshifting.closes fun domain object memberName hopen => ?_
      by_cases hlisted : domain = domainName ∧ object = name → ∃ member ∈
          getMembersWithUpdatedDisabledState config stored.listMembers (some filter),
            memberName = member.memberName
      · exact .inl ⟨hopen, hlisted⟩
      · rw [Classical.not_imp] at hlisted
        obtain ⟨⟨rfl, rfl⟩, hnot⟩ := hlisted
        refine .inr fun state hstate => ?_
        obtain ⟨member, hmem, rfl, rfl⟩ := listMembers_of_state hstored hstate
        rw [hF]
        by_contra hchanged
        exact hnot ⟨_, mem_getMembersWithUpdatedDisabledState.2 ⟨member, hmem, hchanged, rfl⟩, rfl⟩
    refine (hloop _ (hopened.rests hrests) ?_).closes ?_
    · intro member hmem old hold
      obtain ⟨listed, hlisted, _, rfl⟩ := mem_getMembersWithUpdatedDisabledState.1 hmem
      have hstate := state_of_listMembers hstored hlisted
      obtain ⟨before', hbefore, hcurrent⟩ := hshifting.old_or_new hstate
      dsimp only at hold
      obtain rfl : before' = old := Option.some.inj (hbefore.symm.trans hold)
      rw [hF] at hcurrent ⊢
      dsimp only [Option.getD_some]
      obtain hcurrent | hcurrent := hcurrent
      · rw [hcurrent]
      · rw [hcurrent, getMemberUserAuthorityState_idem]
    · rintro domain object memberName ⟨⟨hopen, hlisted⟩, hnot⟩
      refine .inl ⟨hopen, fun hsame => hnot ⟨hsame.1, hsame.2, hlisted hsame⟩⟩

/-- The enforcement of one object, with the filter that its domain has had. -/
def Table.Enforces (table : Table S) (other : Table S') (columns : AuthorityColumns S)
    (config : Config) (before : Database) (domainName name : Str) (column : Column)
    (db db' : Database) : Prop :=
  ∀ opens, (before.domains.lookup domainName).map (·.settings.userAuthorityFilter) = some column →
    table.KeepsSettings other before db →
    table.Shifting other (table.enforcedStates columns config before) opens before db →
      table.Shifting other (table.enforcedStates columns config before)
        (Without opens domainName name) before db'

theorem Table.KeepsSettings.filterOf_stored (columns : AuthorityColumns S)
    (h : table.KeepsSettings other before db)
    (hstored : table.find db domainName name = some stored)
    (hcolumn : (before.domains.lookup domainName).map (·.settings.userAuthorityFilter) =
      some column) :
    table.filterOf columns before domainName name =
      if saveValue (columns.trust stored.settings) = none then
        combineUserAuthorityFilters (saveValue (columns.userAuthorityFilter stored.settings))
          (some column.1)
      else none := by
  obtain ⟨row, hrow, hrowcolumn⟩ := Option.map_eq_some_iff.1 ((h.filter domainName).trans hcolumn)
  rw [← h.filterOf columns, Table.filterOf, hstored, Option.bind_some, hrow, Option.bind_some, hrowcolumn,
    combineUserAuthorityFilters_column]

theorem Table.enforceExpiration_rests (hother : other.Apart table) (now : Int)
    (domainName name : Str) (userAuthorityExpiry : Option Str) (stored : Collection S) :
    Tx.Evolves (table.enforceExpiration config now domainName name userAuthorityExpiry
      stored.listMembers) fun db r db' => (∃ changed, r = .ok changed) ∧
        (table.find db domainName name = some stored → table.Rests other db db') := by
  cases userAuthorityExpiry with
  | none =>
    refine (Tx.Evolves.pure false).mono ?_
    rintro db r db' ⟨rfl, rfl⟩
    exact ⟨⟨false, rfl⟩, fun _ => .refl table other db'⟩
  | some expiry =>
    refine (table.insertEach_rests hother domainName name _ _).mono ?_
    rintro db r db' ⟨hok, hrests⟩
    refine ⟨hok, fun hstored => hrests fun member hmem => ?_⟩
    obtain ⟨listed, hlisted, rfl⟩ := List.mem_map.1 hmem
    have hname : (expiredMember config now expiry listed).memberName = listed.memberName := by
      unfold expiredMember
      split
      · rfl
      · rfl
    rw [hname, state_of_listMembers hstored (List.mem_filter.1 hlisted).1]
    rfl

theorem Table.enforceMembers_enforces (columns : AuthorityColumns S) (config : Config)
    (before : Database) (hother : other.Apart table) (htable : table.Timeless)
    (htimeless : other.Timeless) (now : Int) (domainName name : Str) (column : Column)
    (stored : Collection S) :
    Tx.Evolves (table.enforceMembers columns config now domainName name (some column.1) stored)
      fun db _ db' => table.find db domainName name = some stored →
        table.Enforces other columns config before domainName name column db db' := by
  refine Tx.Evolves.ite (fun htrust =>
    ((table.enforceExpiration_rests hother now domainName name _ stored).bind fun expiryUpdated =>
      (table.enforceFilter_shifts columns before hother domainName name stored _).bind fun filterUpdated => table.touch_rests hother htable htimeless domainName name
          (expiryUpdated || filterUpdated)).mono ?_)
    fun htrust => (Tx.Evolves.pure ()).mono ?_
  · intro db r db' hrun hstored opens hcolumn hkeeps hshifting
    have hfilter := hkeeps.filterOf_stored columns hstored hcolumn
    rw [if_pos htrust] at hfilter
    obtain ⟨e, ⟨⟨_, hfail⟩, _⟩, _⟩ | ⟨expiryUpdated, db₁, ⟨_, hexpired⟩, hrun⟩ := hrun
    · cases hfail
    obtain ⟨e, ⟨⟨_, hfail⟩, _⟩, _⟩ | ⟨filterUpdated, db₂, ⟨_, hfiltered⟩, htouched⟩ := hrun
    · cases hfail
    exact (hfiltered opens db hfilter hstored (hexpired hstored) hshifting).rests htouched
  · rintro db r db' ⟨_, rfl⟩ hstored opens hcolumn hkeeps hshifting
    have hfilter := hkeeps.filterOf_stored columns hstored hcolumn
    rw [if_neg htrust] at hfilter
    refine hshifting.without fun memberName state _ => ?_
    rw [Table.enforcedStates, hfilter]
    rfl

theorem Table.enforce_enforces (columns : AuthorityColumns S) (config : Config) (before : Database)
    (hother : other.Apart table) (htable : table.Timeless) (htimeless : other.Timeless) (now : Int)
    (domainName name : Str) (column : Column) :
    Tx.Evolves (table.enforce columns config now domainName name (some column.1)) fun db _ db' =>
      table.Enforces other columns config before domainName name column db db' := by
  have hfound : ∀ found : Option (Collection S), Tx.Evolves (found.elim (pure ())
      (table.enforceMembers columns config now domainName name (some column.1)))
        fun db _ db' => table.find db domainName name = found →
          table.Enforces other columns config before domainName name column db db' := by
    intro found
    cases found with
    | none =>
      refine (Tx.Evolves.pure ()).mono ?_
      rintro db r db' ⟨_, rfl⟩ hnone opens _ _ hshifting
      refine hshifting.without fun memberName state hstate => ?_
      obtain ⟨stored, hstored⟩ := Table.find_of_state hstate
      rw [hnone] at hstored
      cases hstored
    | some stored =>
      exact table.enforceMembers_enforces columns config before hother htable htimeless now
        domainName name column stored
  refine ((Tx.Evolves.query _).bind hfound).mono ?_
  rintro db r db'' (⟨e, ⟨hfail, _⟩, _⟩ | ⟨found, db', ⟨hread, rfl⟩, hrun⟩)
  · cases hfail
  · exact hrun (Except.ok.inj hread).symm

/-- Each object of the list in its turn. -/
theorem Table.enforceEach_shifts (columns : AuthorityColumns S) (config : Config)
    (before : Database) (hplain : table.Plain) (hother : other.Apart table)
    (htable : table.Timeless) (htimeless : other.Timeless) (now : Int)
    (objects : List (Str × Str × Column)) :
    Tx.Evolves (table.enforceEach columns config now objects) fun db r db' => r = .ok () ∧
      ∀ opens, (∀ object ∈ objects, (before.domains.lookup object.1).map
        (·.settings.userAuthorityFilter) = some object.2.2) →
      table.KeepsSettings other before db →
      table.Shifting other (table.enforcedStates columns config before) opens before db →
        table.KeepsSettings other before db' ∧
        table.Shifting other (table.enforcedStates columns config before)
          (fun domain name memberName => opens domain name memberName ∧
            ∀ object ∈ objects, ¬ (domain = object.1 ∧ name = object.2.1)) before db' := by
  induction objects with
  | nil =>
    refine (Tx.Evolves.pure ()).mono ?_
    rintro db r db' ⟨rfl, rfl⟩
    refine ⟨rfl, fun opens _ hkeeps hshifting => ⟨hkeeps, hshifting.closes fun _ _ _ hopen => ?_⟩⟩
    exact .inl ⟨hopen, fun _ hmem => absurd hmem List.not_mem_nil⟩
  | cons object objects ih =>
    have hstep := (table.enforce_enforces columns config before hother htable htimeless now object.1 object.2.1 object.2.2).and_preserves
        (table.enforce_keeps hplain hother htable htimeless columns config now object.1 object.2.1
          (some object.2.2.1) before)
    refine ((hstep.bind fun _ => Tx.Evolves.pure true).quietly.bind fun _ => ih).mono ?_
    intro db r db'' hrun
    obtain ⟨e, ⟨b, hb, _⟩, _⟩ | ⟨_, db₁, ⟨_, _, hdone⟩, rfl, hrest⟩ := hrun
    · cases hb
    refine ⟨rfl, fun opens hcolumns hkeeps hshifting => ?_⟩
    have hfirst : table.Enforces other columns config before object.1 object.2.1 object.2.2 db db₁ ∧
        (table.KeepsSettings other before db → table.KeepsSettings other before db₁) := by
      obtain (⟨e, _, hbound⟩ | ⟨_, _, hstepped, _, rfl⟩) |
        ⟨_, e, ⟨e', hstepped, _⟩ | ⟨_, _, _, hbound, _⟩⟩ := hdone
      · cases hbound
      · exact hstepped
      · exact hstepped
      · cases hbound
    obtain ⟨hkeeps', hshifting'⟩ := hrest _ (fun later hmem =>
      hcolumns later (List.mem_cons_of_mem object hmem)) (hfirst.2 hkeeps)
        (hfirst.1 opens (hcolumns object List.mem_cons_self) hkeeps hshifting)
    refine ⟨hkeeps', hshifting'.closes ?_⟩
    rintro domain name memberName ⟨⟨hopen, hnot⟩, hlater⟩
    exact .inl ⟨hopen, List.forall_mem_cons.2 ⟨hnot, hlater⟩⟩

end Enforcement

section Runs

variable {table : Table S} {other : Table S'} {columns : AuthorityColumns S} {db : Database}

theorem Table.mem_listWithRestrictions :
    object ∈ table.listWithRestrictions columns db ↔ ∃ row stored,
      db.domains.lookup object.1 = some row ∧
      table.find db object.1 object.2.1 = some stored ∧
      ((columns.userAuthorityFilter stored.settings).1 ≠ [] ∨
        (columns.userAuthorityExpiration stored.settings).1 ≠ [] ∨
        row.settings.userAuthorityFilter.1 ≠ []) ∧
      row.settings.userAuthorityFilter = object.2.2 := by
  unfold Table.listWithRestrictions
  simp only [List.mem_flatMap, List.mem_map, List.mem_filter]
  constructor
  · rintro ⟨domain, hdomain, entry, ⟨hentry, hrestricted⟩, rfl⟩
    have hrow := Map.mem_entries_iff.1 hdomain
    have hstored := Map.mem_entries_iff.1 hentry
    refine ⟨domain.2, entry.2, hrow, ?_, of_decide_eq_true hrestricted, rfl⟩
    rw [Table.find, hrow, Option.bind_some, hstored]
  · rintro ⟨row, stored, hrow, hstored, hrestricted, hcolumn⟩
    rw [Table.find, hrow, Option.bind_some] at hstored
    refine ⟨⟨object.1, row⟩, Map.mem_entries_iff.2 hrow, ⟨object.2.1, stored⟩,
      ⟨Map.mem_entries_iff.2 hstored, decide_eq_true hrestricted⟩, ?_⟩
    exact congrArg (fun column => (object.1, object.2.1, column)) hcolumn

/-- What is not listed has no filter. -/
theorem Table.filterOf_unlisted (hstored : table.find db domainName name = some stored)
    (h : ∀ object ∈ table.listWithRestrictions columns db,
      ¬ (domainName = object.1 ∧ name = object.2.1)) :
    table.filterOf columns db domainName name = none := by
  obtain ⟨row, hrow, _⟩ := Option.bind_eq_some_iff.1 hstored
  have hfree : ¬ ((columns.userAuthorityFilter stored.settings).1 ≠ [] ∨
      (columns.userAuthorityExpiration stored.settings).1 ≠ [] ∨
      row.settings.userAuthorityFilter.1 ≠ []) := fun hrestricted =>
    h (domainName, name, row.settings.userAuthorityFilter)
      (Table.mem_listWithRestrictions.2 ⟨row, stored, hrow, hstored, hrestricted, rfl⟩) ⟨rfl, rfl⟩
  rw [not_or, not_or, not_not, not_not, not_not] at hfree
  rw [Table.filterOf, hstored, Option.bind_some, hrow, Option.bind_some,
    saveValue_eq_none.2 hfree.1, saveValue_eq_none.2 hfree.2.2, combineUserAuthorityFilters_none,
    ite_self]

/-- Behind a run every member has the state that its filter gives it, and nothing else has changed
about states and settings. -/
structure Table.Enforced (table : Table S) (other : Table S') (columns : AuthorityColumns S)
    (config : Config) (db db' : Database) : Prop where
  keeps : table.KeepsSettings other db db'
  own : ∀ domainName name memberName, table.disabledState db' domainName name memberName =
    (table.disabledState db domainName name memberName).map
      (enforcedState config (table.filterOf columns db domainName name) memberName)
  beside : ∀ domainName name memberName, other.disabledState db' domainName name memberName =
    other.disabledState db domainName name memberName

theorem Table.processUserAuthorityRestrictions_enforced (columns : AuthorityColumns S)
    {config : Config} (hauthority : config.userAuthority.isNone = false) (hplain : table.Plain)
    (hother : other.Apart table) (htable : table.Timeless) (htimeless : other.Timeless) (now : Int) :
    Tx.Evolves (table.processUserAuthorityRestrictions columns config now) fun db r db' =>
      r = .ok () ∧ table.Enforced other columns config db db' := by
  unfold Table.processUserAuthorityRestrictions
  rw [hauthority]
  refine ((Tx.Evolves.query _).bind fun objects => Tx.Evolves.of_start fun before =>
    table.enforceEach_shifts columns config before hplain hother htable
      htimeless now objects).mono ?_
  rintro db r db'' (⟨e, ⟨hfail, _⟩, _⟩ | ⟨objects, db, ⟨hread, rfl⟩, rfl, hrun⟩)
  · cases hfail
  cases hread
  obtain ⟨hkeeps, hshifting⟩ := hrun (fun _ _ _ => True) (fun object hmem => by
      obtain ⟨row, _, hrow, _, _, hcolumn⟩ := Table.mem_listWithRestrictions.1 hmem
      rw [hrow, Option.map_some, hcolumn])
    (.refl table other _) (.start table other _ _)
  refine ⟨rfl, hkeeps, fun domainName name memberName => ?_, hshifting.beside⟩
  obtain hmoved | ⟨hkept, _, hunlisted⟩ := hshifting.own domainName name memberName
  · exact hmoved
  · rw [hkept]
    cases hstate : table.disabledState db domainName name memberName with
    | none => rfl
    | some state =>
      obtain ⟨stored, hstored⟩ := Table.find_of_state hstate
      rw [Option.map_some, Table.filterOf_unlisted hstored hunlisted]
      rfl

end Runs

end Athenz.ZmsServer
