import Athenz.DomainMetaRun

namespace Athenz.ZmsServer
open Lib Lib.Text Lib.Transaction
set_option autoImplicit true

section Days

/-- The own days of a role for its members of a type. -/
def RoleSettings.expiryDays (settings : RoleSettings) : PrincipalType → Int
  | .user => settings.memberExpiryDays
  | .service => settings.serviceExpiryDays
  | .group => settings.groupExpiryDays

def Domain.expiryDays (domain : Domain) : PrincipalType → Option Int
  | .user => domain.memberExpiryDays
  | .service => domain.serviceExpiryDays
  | .group => domain.groupExpiryDays

/-- The new number of days is less than the old one, which may be missing. -/
def Reduces (old new : Option Int) (days : Int) : Prop :=
  new = some days ∧ 0 < days ∧ ∀ oldDays, old = some oldDays → 0 < oldDays → days < oldDays

theorem isNumOfDaysReduced_iff :
    isNumOfDaysReduced old new = true ↔ ∃ days, Reduces old new days := by
  unfold isNumOfDaysReduced Reduces
  cases new with
  | none => simp only [Option.any_none, Bool.false_eq_true, reduceCtorEq, false_and, exists_false]
  | some days =>
    simp only [Option.any_some, Bool.and_eq_true, decide_eq_true_eq, Option.all_eq_true,
      Bool.or_eq_true, Option.some.injEq, exists_eq_left']
    refine and_congr_right fun _ => forall_congr' fun oldDays => ?_
    refine ⟨fun h ho hpos => ?_, fun h ho => ?_⟩
    · have := h ho
      omega
    · have := h ho
      omega

theorem dueLimit_eq_some :
    dueLimit now old new = some limit ↔
      ∃ days, Reduces old new days ∧ limit = now + days * 86400000 := by
  unfold dueLimit
  constructor
  · intro h
    split at h
    · rename_i hreduced
      obtain ⟨days, hdays⟩ := isNumOfDaysReduced_iff.1 hreduced
      rw [hdays.1] at h
      cases h
      exact ⟨days, hdays, rfl⟩
    · cases h
  · rintro ⟨days, hdays, rfl⟩
    rw [if_pos (isNumOfDaysReduced_iff.2 ⟨days, hdays⟩), hdays.1]
    rfl

/-- The limit of the members of a type. -/
def DueLimits.expiry (limits : DueLimits) : PrincipalType → Option Int
  | .user => limits.userExpiry
  | .service => limits.serviceExpiry
  | .group => limits.groupExpiry

def domainDueLimits (now : Int) (domain updated : Domain) : DueLimits where
  userExpiry := dueLimit now domain.memberExpiryDays updated.memberExpiryDays
  serviceExpiry := dueLimit now domain.serviceExpiryDays updated.serviceExpiryDays
  groupExpiry := dueLimit now domain.groupExpiryDays updated.groupExpiryDays

theorem expiry_domainDueLimits (now : Int) (domain updated : Domain) (type : PrincipalType) :
    (domainDueLimits now domain updated).expiry type =
      dueLimit now (domain.expiryDays type) (updated.expiryDays type) := by
  cases type with
  | user => rfl
  | group => rfl
  | service => rfl

theorem limitDueDate_some (limit : Int) (current : Option Int) :
    ∃ date, limitDueDate (some limit) current = some date ∧ date ≤ limit := by
  unfold limitDueDate
  dsimp only
  split
  · exact ⟨limit, rfl, Int.le_refl limit⟩
  · rename_i h
    cases current with
    | none => exact absurd rfl h
    | some date =>
      rw [Option.all_some, decide_eq_true_eq] at h
      exact ⟨date, rfl, by omega⟩

/-- A due date is never moved to a later one. -/
theorem limitDueDate_le (limit : Option Int) (date : Int) :
    ∃ date', limitDueDate limit (some date) = some date' ∧ date' ≤ date := by
  cases limit with
  | none => exact ⟨date, rfl, Int.le_refl date⟩
  | some limit =>
    unfold limitDueDate
    dsimp only
    split
    · rename_i h
      rw [Option.all_some, decide_eq_true_eq] at h
      exact ⟨limit, rfl, by omega⟩
    · exact ⟨date, rfl, Int.le_refl date⟩

/-- Limits of the expiration alone. -/
structure DueLimits.OnlyExpiry (limits : DueLimits) : Prop where
  userReview : limits.userReview = none
  serviceReview : limits.serviceReview = none
  groupReview : limits.groupReview = none
  userAuthorityExpiry : limits.userAuthorityExpiry = none

theorem domainDueLimits_onlyExpiry (now : Int) (domain updated : Domain) :
    (domainDueLimits now domain updated).OnlyExpiry := ⟨rfl, rfl, rfl, rfl⟩

theorem updateDueDates_of_onlyExpiry {limits : DueLimits} (h : limits.OnlyExpiry)
    (config : Config) (now : Int) (member : Member) :
    updateDueDates config now limits member = { member with
      expiration := limitDueDate (limits.expiry (principalType config member.memberName))
        member.expiration } := by
  unfold updateDueDates
  cases principalType config member.memberName with
  | user =>
    dsimp only
    rw [h.userAuthorityExpiry, h.userReview]
    cases config.userAuthority with
    | none => rfl
    | some authority => rfl
  | group =>
    dsimp only
    rw [h.groupReview]
    rfl
  | service =>
    dsimp only
    rw [h.serviceReview]
    rfl

end Days

section Reach

/-- Only the dates of members are moved that are later than their limit. -/
theorem mem_dueWrites {limits : DueLimits} (honly : limits.OnlyExpiry) (config : Config) (now : Int)
    {p : Collection S → Prop} [DecidablePred p] {objects : Map Str (Collection S)} :
    (name, member) ∈ dueWrites config now limits
        (fun stored => if p stored then stored.listMembers else []) objects.entries ↔
      ∃ stored row, objects.lookup name = some stored ∧ p stored ∧
        stored.members.lookup member.memberName = some row ∧
        limitDueDate (limits.expiry (principalType config member.memberName)) row.expiration ≠
          row.expiration ∧
        member = { MemberRow.toMember ⟨member.memberName, row⟩ with
          expiration := limitDueDate (limits.expiry (principalType config member.memberName))
            row.expiration } := by
  unfold dueWrites getMembersWithUpdatedDueDates
  rw [List.mem_flatMap]
  constructor
  · rintro ⟨⟨name', stored⟩, hobject, hmem⟩
    obtain ⟨member', hmem, heq⟩ := List.mem_map.1 hmem
    cases heq
    obtain ⟨listed, hfiltered, rfl⟩ := List.mem_map.1 hmem
    obtain ⟨hlisted, hchanged⟩ := List.mem_filter.1 hfiltered
    rw [decide_eq_true_eq] at hchanged
    dsimp only at hlisted
    split at hlisted
    · rename_i hp
      obtain ⟨⟨memberName, row⟩, hrow, rfl⟩ := List.mem_map.1 hlisted
      rw [updateDueDates_of_onlyExpiry honly] at hchanged ⊢
      refine ⟨stored, row, Map.mem_entries_iff.1 hobject, hp, Map.mem_entries_iff.1 hrow, ?_, rfl⟩
      intro hsame
      apply hchanged
      rw [show (MemberRow.toMember ⟨memberName, row⟩).expiration = row.expiration from rfl]
      rw [show limitDueDate (limits.expiry (principalType config
        (MemberRow.toMember ⟨memberName, row⟩).memberName)) row.expiration = row.expiration from hsame]
      rfl
    · cases hlisted
  · rintro ⟨stored, row, hobject, hp, hrow, hchanged, hmember⟩
    refine ⟨⟨name, stored⟩, Map.mem_entries_iff.2 hobject, List.mem_map.2 ⟨member, ?_, rfl⟩⟩
    refine List.mem_map.2 ⟨MemberRow.toMember ⟨member.memberName, row⟩,
      List.mem_filter.2 ⟨?_, ?_⟩, ?_⟩
    · dsimp only
      rw [if_pos hp]
      exact List.mem_map.2 ⟨_, Map.mem_entries_iff.2 hrow, rfl⟩
    · rw [decide_eq_true_eq, updateDueDates_of_onlyExpiry honly]
      intro hsame
      exact hchanged (congrArg Member.expiration hsame)
    · rw [updateDueDates_of_onlyExpiry honly]
      exact hmember.symm

/-- What a pass over the objects as they are stored makes of the expirations. -/
theorem Table.Writes.expiration_dueWrites {table : Table S} {limits : DueLimits}
    (honly : limits.OnlyExpiry) {config : Config} {p : Collection S → Prop} [DecidablePred p]
    {objects : Map Str (Collection S)}
    (h : table.Writes domainName (dueWrites config now limits
      (fun stored => if p stored then stored.listMembers else []) objects.entries) db db')
    (hobjects : ∀ name, table.find db domainName name = objects.lookup name)
    (hstored : table.find db domainName name = some stored)
    (hrow : stored.members.lookup memberName = some row) :
    table.expiration domainName db' name memberName = some
      (if p stored ∧ validatePrincipalDomain db memberName = true then
        limitDueDate (limits.expiry (principalType config memberName)) row.expiration
      else row.expiration) := by
  have hbefore : table.expiration domainName db name memberName = some row.expiration := by
    rw [Table.expiration, hstored, Option.bind_some, hrow]
    rfl
  have hwritable : table.Writable domainName db name memberName ↔
      validatePrincipalDomain db memberName = true := by
    rw [Table.Writable, hstored]
    exact and_iff_right rfl
  have hwrite : ∀ write ∈ dueWrites config now limits
        (fun stored => if p stored then stored.listMembers else []) objects.entries,
      write.1 = name → write.2.memberName = memberName → p stored ∧
        write.2.expiration =
          limitDueDate (limits.expiry (principalType config memberName)) row.expiration := by
    rintro ⟨_, member⟩ hmem rfl rfl
    obtain ⟨stored', row', hlookup, hp, hrow', _, hmember⟩ := (mem_dueWrites honly config now).1 hmem
    cases hlookup.symm.trans ((hobjects _).symm.trans hstored)
    cases hrow'.symm.trans hrow
    exact ⟨hp, congrArg Member.expiration hmember⟩
  by_cases hexists : ∃ write ∈ dueWrites config now limits
      (fun stored => if p stored then stored.listMembers else []) objects.entries,
      write.1 = name ∧ write.2.memberName = memberName
  · obtain ⟨write, hmem, hname, hmember⟩ := hexists
    have hp := (hwrite write hmem hname hmember).1
    by_cases hknown : validatePrincipalDomain db memberName = true
    · rw [if_pos ⟨hp, hknown⟩]
      exact h.written name memberName _ (fun write hmem hname hmember =>
        (hwrite write hmem hname hmember).2) ⟨write, hmem, hname, hmember⟩ (hwritable.2 hknown)
    · rw [if_neg fun h => hknown h.2, ← hbefore]
      exact h.unwritten name memberName fun _ hw => hknown (hwritable.1 hw)
  · have hkept := h.unwritten name memberName fun hagain => absurd hagain hexists
    rw [hkept, hbefore]
    split
    · rename_i hopen
      by_contra hchanged
      refine hexists ⟨(name, { MemberRow.toMember ⟨memberName, row⟩ with
        expiration := limitDueDate (limits.expiry (principalType config memberName))
          row.expiration }), ?_, rfl, rfl⟩
      exact (mem_dueWrites honly config now).2 ⟨stored, row, (hobjects name).symm.trans hstored,
        hopen.1, hrow, fun hsame => hchanged (congrArg some hsame.symm), rfl⟩
    · rfl

end Reach

section Run

/-- A role that follows the days of its domain: it has no own ones, and is not delegated. -/
def Collection.FollowsDomain (role : Collection RoleSettings) : Prop :=
  role.settings.memberExpiryDays = 0 ∧ role.settings.serviceExpiryDays = 0 ∧
    role.settings.groupExpiryDays = 0 ∧ role.settings.trust.1 = []

instance (role : Collection RoleSettings) : Decidable role.FollowsDomain :=
  inferInstanceAs (Decidable (_ ∧ _))

def Collection.GroupFollowsDomain (group : Collection GroupSettings) : Prop :=
  group.settings.memberExpiryDays = 0 ∧ group.settings.serviceExpiryDays = 0

instance (group : Collection GroupSettings) : Decidable group.GroupFollowsDomain :=
  inferInstanceAs (Decidable (_ ∧ _))

def roleWrites (config : Config) (now : Int) (limits : DueLimits) (row : DomainRow) :
    List (Str × Member) :=
  dueWrites config now limits
    (fun role => if role.FollowsDomain then role.listMembers else []) row.roles.entries

def groupWrites (config : Config) (now : Int) (limits : DueLimits) (row : DomainRow) :
    List (Str × Member) :=
  dueWrites config now limits
    (fun group => if group.GroupFollowsDomain then group.listMembers else []) row.groups.entries

theorem dueWrites_none (config : Config) (now : Int) (members : Collection S → List Member)
    (objects : List (Sigma fun _ : Str => Collection S)) :
    dueWrites config now {} members objects = [] := by
  have honly : DueLimits.OnlyExpiry {} := ⟨rfl, rfl, rfl, rfl⟩
  have hsame : ∀ member, updateDueDates config now {} member = member := by
    intro member
    rw [updateDueDates_of_onlyExpiry honly]
    cases principalType config member.memberName with
    | user => rfl
    | group => rfl
    | service => rfl
  refine List.flatMap_eq_nil_iff.2 fun object _ => ?_
  unfold getMembersWithUpdatedDueDates
  simp only [hsame, ne_eq, not_true_eq_false, decide_false, List.filter_false, List.map_nil]

theorem approved_of_mem {limits : DueLimits} (honly : limits.OnlyExpiry) {p : Prop} [Decidable p]
    {stored : Collection S} (h : member ∈ getMembersWithUpdatedDueDates config now limits
      (if p then stored.listMembers else [])) : member.approved ≠ some false := by
  obtain ⟨listed, hmem, rfl⟩ := List.mem_map.1 h
  have hlisted := (List.mem_filter.1 hmem).1
  rw [updateDueDates_of_onlyExpiry honly]
  split at hlisted
  · obtain ⟨entry, _, rfl⟩ := List.mem_map.1 hlisted
    exact nofun
  · cases hlisted

theorem touchDomain_passes (domainName : Str) (changed : Bool) :
    Tx.Evolves (touchDomain domainName changed) fun db _ db' =>
      roleTable.Pass groupTable domainName [] db db' := by
  refine .ite (fun _ => ?_) fun _ => (Tx.Evolves.pure true).mono fun db r db' hs => ?_
  · refine (Tx.Evolves.bind (updateDomainModTimestamp_passes roleTable_timeless
      groupTable_timeless domainName) fun _ => Tx.Evolves.pure true).mono ?_
    rintro db r db'' (⟨_, hpass, _⟩ | ⟨_, db', hpass, _, rfl⟩)
    · exact hpass
    · exact hpass
  · rw [hs.2]
    exact .refl roleTable groupTable domainName db

/-- What the passes behind an update of a domain write. -/
structure DuePass (config : Config) (now : Int) (domain updated : Domain) (row : DomainRow)
    (db db' : Database) : Prop where
  roles : roleTable.Writes domain.name
    (roleWrites config now (domainDueLimits now domain updated) row) db db'
  groups : groupTable.Writes domain.name
    (groupWrites config now (domainDueLimits now domain updated) row) db db'

theorem DuePass.before (h : roleTable.Pass groupTable domain.name [] db db')
    (h' : DuePass config now domain updated row db' db'') :
    DuePass config now domain updated row db db'' :=
  ⟨h.writes.append h'.roles, h.leaves.append h'.groups⟩

theorem DuePass.after (h : DuePass config now domain updated row db db')
    (h' : roleTable.Pass groupTable domain.name [] db' db'') :
    DuePass config now domain updated row db db'' := by
  have hroles := h.roles.append h'.writes
  have hgroups := h.groups.append h'.leaves
  rw [List.append_nil] at hroles hgroups
  exact ⟨hroles, hgroups⟩

theorem updateDomainMembersExpiration_passes (config : Config) (ctx : Context) (now : Int)
    (domain updated : Domain) (row : DomainRow) :
    Tx.Evolves (updateDomainMembersExpiration config ctx now domain updated (some row))
      fun db r db' => (∀ a, r = .ok a → DuePass config now domain updated row db db') := by
  have honly := domainDueLimits_onlyExpiry now domain updated
  unfold updateDomainMembersExpiration
  refine .ite (fun hlimits => (Tx.Evolves.pure ()).mono fun db r db' hs _ _ => ?_) fun _ => ?_
  · have hnone : domainDueLimits now domain updated = {} := hlimits
    have hroles : roleWrites config now (domainDueLimits now domain updated) row = [] := by
      rw [hnone]
      exact dueWrites_none _ _ _ _
    have hgroups : groupWrites config now (domainDueLimits now domain updated) row = [] := by
      rw [hnone]
      exact dueWrites_none _ _ _ _
    rw [hs.2]
    constructor
    · rw [hroles]
      exact .refl _ _ _
    · rw [hgroups]
      exact .refl _ _ _
  · refine (Tx.Evolves.bind (roleTable.updateAllDueDates_passes groupTable_apart config ctx now
      domain.name (domainDueLimits now domain updated)
      (fun role => if role.FollowsDomain then role.listMembers else []) row.roles.entries
      fun _ _ _ => approved_of_mem honly) fun roles =>
      Tx.Evolves.bind (groupTable.updateAllDueDates_passes roleTable_apart config ctx now
        domain.name (domainDueLimits now domain updated)
        (fun group => if group.GroupFollowsDomain then group.listMembers else []) row.groups.entries
        fun _ _ _ => approved_of_mem honly) fun groups =>
      Tx.Evolves.bind (touchDomain_passes domain.name (roles || groups)) fun _ =>
      Tx.Evolves.pure ()).mono ?_
    rintro db r db₄ (⟨_, _, rfl⟩ | ⟨_, db₁, hroles, ⟨_, _, rfl⟩ | ⟨_, db₂, hgroups, ⟨_, _, rfl⟩ |
      ⟨_, db₃, htouched, _, rfl⟩⟩⟩) a ha
    · cases ha
    · cases ha
    · cases ha
    · have hfirst := hroles _ rfl
      have hsecond := hgroups _ rfl
      have hpasses := hfirst.writes.append hsecond.leaves
      rw [List.append_nil] at hpasses
      exact DuePass.after ⟨hpasses, hfirst.leaves.append hsecond.writes⟩ htouched

theorem updateDomainMembersUserAuthorityFilter_passes [CaseRules] (config : Config) (ctx : Context)
    (domain updated : Domain) (view : Option DomainRow) :
    Tx.Evolves (updateDomainMembersUserAuthorityFilter config ctx domain updated view)
      fun db _ db' => roleTable.Pass groupTable domain.name [] db db' := by
  have hstop : Tx.Evolves (Pure.pure () : Op Unit) fun db _ db' =>
      roleTable.Pass groupTable domain.name [] db db' := by
    refine (Tx.Evolves.pure ()).mono fun db r db' hs => ?_
    rw [hs.2]
    exact .refl roleTable groupTable domain.name db
  cases view with
  | none => exact hstop
  | some row =>
    exact .ite (fun _ => updateAllDisabledStates_passes config ctx domain.name _ _) fun _ => hstop

/-- No member of an object of the domain expires later than before. -/
def Table.NotLater (table : Table S) (domainName : Str) (db db' : Database) : Prop :=
  ∀ name memberName expiration,
    table.expiration domainName db name memberName = some (some expiration) →
    ∃ expiration', table.expiration domainName db' name memberName = some (some expiration') ∧
      expiration' ≤ expiration

/-- What a reduction of days asks for: every member of a type, in a role that is not delegated and
has no own days for the type, expires in time, and no member expires later than before. -/
structure ExpiryReduced (config : Config) (now : Int) (domain updated : Domain)
    (db db' : Database) : Prop where
  reached : ∀ roleName role memberName row days,
    roleTable.find db' domain.name roleName = some role → role.settings.trust.1 = [] →
    role.members.lookup memberName = some row →
    role.settings.expiryDays (principalType config memberName) = 0 →
    Reduces (domain.expiryDays (principalType config memberName))
      (updated.expiryDays (principalType config memberName)) days →
    ∃ expiration, row.expiration = some expiration ∧ expiration ≤ now + days * 86400000
  roles : roleTable.NotLater domain.name db db'
  groups : groupTable.NotLater domain.name db db'

/-- A member that has to expire in time does so already, or its role has no own days for any type
and its domain is stored. -/
def WithinReach (config : Config) (now : Int) (domain updated : Domain) (db : Database) : Prop :=
  ∀ roleName role memberName row days,
    roleTable.find db domain.name roleName = some role → role.settings.trust.1 = [] →
    role.members.lookup memberName = some row →
    role.settings.expiryDays (principalType config memberName) = 0 →
    Reduces (domain.expiryDays (principalType config memberName))
      (updated.expiryDays (principalType config memberName)) days →
    (∃ expiration, row.expiration = some expiration ∧ expiration ≤ now + days * 86400000) ∨
      (∀ type, role.settings.expiryDays type = 0) ∧ validatePrincipalDomain db memberName = true

theorem followsDomain_iff {role : Collection RoleSettings} (h : role.settings.trust.1 = []) :
    role.FollowsDomain ↔ ∀ type, role.settings.expiryDays type = 0 := by
  constructor
  · rintro ⟨huser, hservice, hgroup, _⟩ type
    cases type with
    | user => exact huser
    | service => exact hservice
    | group => exact hgroup
  · intro hall
    exact ⟨hall .user, hall .service, hall .group, h⟩

theorem Table.Writes.notLater {table : Table S} {limits : DueLimits}
    (honly : limits.OnlyExpiry) {config : Config} {p : Collection S → Prop} [DecidablePred p]
    {objects : Map Str (Collection S)}
    (h : table.Writes domainName (dueWrites config now limits
      (fun stored => if p stored then stored.listMembers else []) objects.entries) db db')
    (hobjects : ∀ name, table.find db domainName name = objects.lookup name) :
    table.NotLater domainName db db' := by
  intro name memberName date hbefore
  obtain ⟨stored, hfind, hmember⟩ := Option.bind_eq_some_iff.1 hbefore
  obtain ⟨row, hrow, hdate⟩ := Option.map_eq_some_iff.1 hmember
  have hafter := h.expiration_dueWrites honly hobjects hfind hrow
  rw [hdate] at hafter
  rw [hafter]
  split
  · obtain ⟨date', hdate', hle⟩ :=
      limitDueDate_le (limits.expiry (principalType config memberName)) date
    exact ⟨date', congrArg some hdate', hle⟩
  · exact ⟨date, rfl, Int.le_refl date⟩

/-- Members and settings of the objects are found behind the writes as before. -/
theorem Table.Writes.find_before {table : Table S} {limits : DueLimits}
    (honly : limits.OnlyExpiry) {config : Config} {p : Collection S → Prop} [DecidablePred p]
    {objects : Map Str (Collection S)}
    (h : table.Writes domainName (dueWrites config now limits
      (fun stored => if p stored then stored.listMembers else []) objects.entries) db db')
    (hobjects : ∀ name, table.find db domainName name = objects.lookup name)
    (hfind : table.find db' domainName name = some stored')
    (hrow : stored'.members.lookup memberName = some row') :
    ∃ stored row, table.find db domainName name = some stored ∧
      stored.settings = stored'.settings ∧ stored.members.lookup memberName = some row ∧
      row'.expiration = if p stored ∧ validatePrincipalDomain db memberName = true then
        limitDueDate (limits.expiry (principalType config memberName)) row.expiration
      else row.expiration := by
  have hsettings := h.settings name
  rw [hfind] at hsettings
  obtain ⟨stored, hstored, hsame⟩ := Option.map_eq_some_iff.1 hsettings.symm
  have hafter : table.expiration domainName db' name memberName = some row'.expiration := by
    rw [Table.expiration, hfind, Option.bind_some, hrow]
    rfl
  cases hmember : stored.members.lookup memberName with
  | some row =>
    rw [h.expiration_dueWrites honly hobjects hstored hmember, Option.some.injEq] at hafter
    exact ⟨stored, row, hstored, hsame, hmember, hafter.symm⟩
  | none =>
    have hkept := h.unwritten name memberName <| by
      rintro ⟨⟨name', member⟩, hmem, hname, hwrite⟩
      cases hname
      cases hwrite
      obtain ⟨stored', row, hlookup, _, hlisted, _⟩ := (mem_dueWrites honly config now).1 hmem
      cases hlookup.symm.trans ((hobjects _).symm.trans hstored)
      rw [hmember] at hlisted
      cases hlisted
    rw [hafter, Table.expiration, hstored, Option.bind_some, hmember] at hkept
    cases hkept

theorem DuePass.expiryReduced_iff (h : DuePass config now domain updated view db db')
    (hdomain : db.domains.lookup domain.name = some row) (hroles : view.roles = row.roles)
    (hgroups : view.groups = row.groups) :
    ExpiryReduced config now domain updated db db' ↔ WithinReach config now domain updated db := by
  have honly := domainDueLimits_onlyExpiry now domain updated
  have hroleObjects : ∀ name, roleTable.find db domain.name name = view.roles.lookup name := by
    intro name
    rw [Table.find, hdomain, hroles]
    rfl
  have hgroupObjects : ∀ name, groupTable.find db domain.name name = view.groups.lookup name := by
    intro name
    rw [Table.find, hdomain, hgroups]
    rfl
  have hlimit : ∀ memberName days, Reduces (domain.expiryDays (principalType config memberName))
      (updated.expiryDays (principalType config memberName)) days →
      (domainDueLimits now domain updated).expiry (principalType config memberName) =
        some (now + days * 86400000) := by
    intro memberName days hdays
    rw [expiry_domainDueLimits]
    exact dueLimit_eq_some.2 ⟨days, hdays, rfl⟩
  constructor
  · intro hreduced roleName role memberName member days hrole htrust hmember hown hdays
    by_cases hopen : role.FollowsDomain ∧ validatePrincipalDomain db memberName = true
    · exact .inr ⟨(followsDomain_iff htrust).1 hopen.1, hopen.2⟩
    · left
      have hafter := h.roles.expiration_dueWrites honly hroleObjects hrole hmember
      rw [if_neg hopen] at hafter
      obtain ⟨role', hrole', hmembers⟩ := Option.bind_eq_some_iff.1 hafter
      obtain ⟨member', hmember', hexpiration⟩ := Option.map_eq_some_iff.1 hmembers
      have hsettings := h.roles.settings roleName
      rw [hrole', hrole, Option.map_some, Option.map_some, Option.some.injEq] at hsettings
      rw [← hexpiration]
      rw [← hsettings] at htrust hown
      exact hreduced.reached roleName role' memberName member' days hrole' htrust hmember' hown hdays
  · intro hreach
    refine ⟨?_, h.roles.notLater honly hroleObjects, h.groups.notLater honly hgroupObjects⟩
    intro roleName role' memberName member' days hrole' htrust hmember' hown hdays
    obtain ⟨role, member, hrole, hsettings, hmember, hexpiration⟩ :=
      h.roles.find_before honly hroleObjects hrole' hmember'
    rw [← hsettings] at htrust hown
    rw [hexpiration, hlimit memberName days hdays]
    split
    · exact limitDueDate_some _ _
    · rename_i hclosed
      refine (hreach roleName role memberName member days hrole htrust hmember hown
        hdays).resolve_right ?_
      rintro ⟨hall, hknown⟩
      exact hclosed ⟨(followsDomain_iff htrust).2 hall, hknown⟩

variable [Collation]

theorem putDomainMetaBody_whole (config : Config) (ctx : Context) (domain : Domain)
    (request : DomainMeta) (systemAttribute : Option SystemAttribute) (deleteAllowed : Bool) :
    Tx.Whole (putDomainMetaBody config ctx domain request systemAttribute deleteAllowed) := by
  refine (checkDomainAudit_reading config ctx domain .domain).whole_bind fun _ => ?_
  split
  · exact (Tx.Reading.raise _).whole
  · exact ((Tx.Writing.statement _).bind fun _ => (processDomainTags_writing _ _ _ _ _).bind fun _ =>
      (Tx.Writing.ensure _ _).bind fun _ => .pure _).whole

theorem putDomainMetaBody_idle (config : Config) (ctx : Context) (domain : Domain)
    (request : DomainMeta) (systemAttribute : Option SystemAttribute) (deleteAllowed : Bool) :
    Idle (putDomainMetaBody config ctx domain request systemAttribute deleteAllowed) := by
  refine (idle_of_reading (checkDomainAudit_reading config ctx domain .domain)).bind fun _ => ?_
  split
  · exact idle_of_reading (.raise _)
  · exact (updateDomain_idle _).bind fun _ => (processDomainTags_idle _ _ _ _ _).bind fun _ =>
      (idle_of_reading (.ensure _ _)).bind fun _ => .pure _

theorem putDomainMetaBody_returns (config : Config) (ctx : Context) (domain : Domain)
    (request : DomainMeta) (systemAttribute : Option SystemAttribute) (deleteAllowed : Bool) :
    Tx.Returns (putDomainMetaBody config ctx domain request systemAttribute deleteAllowed)
      fun _ updated _ => updatedDomain domain request systemAttribute deleteAllowed = .ok updated := by
  unfold putDomainMetaBody
  intro c updated c' h
  obtain ⟨_, d, _, hrest⟩ := Tx.bind_eq_ok.1 h
  cases hnext : updatedDomain domain request systemAttribute deleteAllowed with
  | error e =>
    rw [hnext] at hrest
    cases hrest
  | ok next =>
    rw [hnext] at hrest
    obtain ⟨_, d₁, _, hrest⟩ := Tx.bind_eq_ok.1 hrest
    obtain ⟨_, d₂, _, hrest⟩ := Tx.bind_eq_ok.1 hrest
    obtain ⟨_, d₃, _, hpure⟩ := Tx.bind_eq_ok.1 hrest
    cases hpure
    rfl

variable [CaseRules]

/-- An update that succeeds has passed over the members as they were stored. -/
theorem executePutDomainMeta_passes {config : Config} {ctx : Context} {domain updated : Domain}
    {request : DomainMeta} {events : Nat → Event Failure}
    (hupdated : updatedDomain domain request systemAttribute deleteAllowed = .ok updated)
    (hevents : ∀ n, (events n).fault = none)
    (h : executePutDomainMeta config ctx now domain request systemAttribute deleteAllowed (some row)
      filterView db events = (.ok (), db')) :
    DuePass config now domain updated row db db' := by
  have hthrows : Tx.Throws NotRetried (do
      let updated ← putDomainMetaBody config ctx domain request systemAttribute deleteAllowed
      Tx.commit
      updateDomainMembersExpiration config ctx now domain updated (some row)
      updateDomainMembersUserAuthorityFilter config ctx domain updated filterView) :=
    (putDomainMetaBody_throws _ _ _ _ _ _).bind fun _ => Tx.Throws.commit.bind fun _ =>
      (updateDomainMembersExpiration_throws _ _ _ _ _ _).bind fun _ =>
        updateDomainMembersUserAuthorityFilter_throws _ _ _ _ _
  rw [executePutDomainMeta, Tx.attempts_of_throws hthrows hevents] at h
  obtain ⟨c, next, c', rfl, hbody, hrest⟩ := Tx.attempt_committed
    (putDomainMetaBody_whole config ctx domain request systemAttribute deleteAllowed).atomic
    (putDomainMetaBody_throws config ctx domain request systemAttribute deleteAllowed)
    (fun next => Tx.Evolves.bind
      (updateDomainMembersExpiration_passes config ctx now domain next row) fun _ =>
      updateDomainMembersUserAuthorityFilter_passes config ctx domain next filterView) hevents
    (Prod.ext (Prod.mk.inj h).1 (Prod.ext (Prod.mk.inj h).2 rfl))
  cases (putDomainMetaBody_returns config ctx domain request systemAttribute deleteAllowed c next c'
    hbody).symm.trans hupdated
  have hsame := (putDomainMetaBody_idle config ctx domain request systemAttribute deleteAllowed c
    updated c' hbody).passes domain.name
  obtain ⟨_, _, hr⟩ | ⟨_, db₁, hpass, hfiltered⟩ := hrest
  · cases hr
  · exact ((hpass () rfl).before hsame).after hfiltered

/-- Reduced days reach every member exactly when no role has own days for another type of members
only, unless its members expire in time anyway. -/
theorem executePutDomainMeta_reduces_iff {config : Config} {ctx : Context}
    {domain updated : Domain} {request : DomainMeta} {events : Nat → Event Failure}
    {db db' : Database} {row view : DomainRow}
    (hupdated : updatedDomain domain request systemAttribute deleteAllowed = .ok updated)
    (hdomain : db.domains.lookup domain.name = some row) (hroles : view.roles = row.roles)
    (hgroups : view.groups = row.groups) (hevents : ∀ n, (events n).fault = none)
    (h : executePutDomainMeta config ctx now domain request systemAttribute deleteAllowed
      (some view) filterView db events = (.ok (), db')) :
    ExpiryReduced config now domain updated db db' ↔ WithinReach config now domain updated db :=
  (executePutDomainMeta_passes hupdated hevents h).expiryReduced_iff hdomain hroles hgroups

end Run

section Override

local instance overrideCollation : Collation := .binary

local instance overrideCaseRules : CaseRules := .ascii

def overrideCaller : Context := { caller := "putdomainmeta" }

def overrideEvents (n : Nat) : Event Failure := ⟨n, none⟩

/-- A role of a user without an expiration, with own days for services. -/
def overrideRole (serviceExpiryDays : Int) : Collection RoleSettings where
  settings := Role.settings { name := "media:role.readers", serviceExpiryDays := serviceExpiryDays }
  members := (∅ : Map Str MemberRow).insert "user.joe"
    { expiration := none, reviewReminder := none, active := true }

def overrideRow (serviceExpiryDays : Int) : DomainRow where
  settings := Domain.settings { name := "media" }
  modified := 0
  roles := (∅ : Map Str (Collection RoleSettings)).insert "readers" (overrideRole serviceExpiryDays)

def userRow : DomainRow := { settings := Domain.settings { name := "user" }, modified := 0 }

def overrideStore (serviceExpiryDays : Int) : Database where
  domains :=
    let users : Map Str DomainRow := (∅ : Map Str DomainRow).insert "user" userRow
    users.insert "media" (overrideRow serviceExpiryDays)

/-- The members of the domain shall expire within thirty days. -/
def overrideRequest : DomainMeta := { memberExpiryDays := some 30 }

def overrideDomain : Domain := saveDomainSettings "media" (overrideRow 0)

def overrideRun (serviceExpiryDays : Int) : Except Failure Unit × Database :=
  executePutDomainMeta {} overrideCaller 1000 overrideDomain overrideRequest none false
    (some (overrideRow serviceExpiryDays)) none (overrideStore serviceExpiryDays) overrideEvents

/-- The own days of a role for services keep the new days of the domain from its users. -/
theorem overriddenRole_not_reduced : (overrideRun 90).1 = .ok () ∧
    ¬ ExpiryReduced {} 1000 overrideDomain (updateDomainMetaFields overrideDomain overrideRequest)
      (overrideStore 90) (overrideRun 90).2 := by
  refine ⟨by decide +kernel, fun h => ?_⟩
  have hkept : (roleTable.find (overrideRun 90).2 "media" "readers").any (fun role =>
      role.settings.trust.1 = [] && role.settings.expiryDays .user = 0 &&
        (role.members.lookup ↑"user.joe").any fun row => row.expiration = none) = true := by
    decide +kernel
  obtain ⟨role, hrole, hkept⟩ := (Option.any_eq_true _ _).1 hkept
  rw [Bool.and_eq_true, Bool.and_eq_true, decide_eq_true_eq, decide_eq_true_eq] at hkept
  obtain ⟨row, hrow, hnone⟩ := (Option.any_eq_true _ _).1 hkept.2
  obtain ⟨date, hdate, _⟩ := h.reached "readers" role "user.joe" row 30 hrole hkept.1.1 hrow
    hkept.1.2 ⟨rfl, by decide, by decide +kernel⟩
  rw [of_decide_eq_true hnone] at hdate
  cases hdate

theorem executePutDomainMeta_reduces_thirty :
    ExpiryReduced {} 1000 overrideDomain (updateDomainMetaFields overrideDomain overrideRequest)
        (overrideStore 0) (overrideRun 0).2 ↔
      WithinReach {} 1000 overrideDomain (updateDomainMetaFields overrideDomain overrideRequest)
        (overrideStore 0) :=
  have hok : (overrideRun 0).1 = .ok () := by decide +kernel
  have hrun : overrideRun 0 = (.ok (), (overrideRun 0).2) := by rw [← hok]
  executePutDomainMeta_reduces_iff rfl rfl rfl rfl (fun _ => rfl) hrun

end Override

end Athenz.ZmsServer
