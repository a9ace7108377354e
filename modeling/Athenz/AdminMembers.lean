import Athenz.AdminAccess

namespace Athenz.ZmsServer
open Lib Lib.Text Lib.Transaction Lib.Transaction.Tx
set_option autoImplicit true

section Roles

variable [Collation] {I : Collection RoleSettings → Prop}

/-- A role of the domain may be replaced when it is not the admin role, or keeps its property. -/
theorem AdminRow.insert {stored' : Collection RoleSettings} (h : AdminRow domainName I row)
    (hI : name = ADMIN_ROLE_NAME → ∀ stored, row.roles.lookup name = some stored → I stored →
      I stored') : AdminRow domainName I { row with roles := row.roles.insert name stored' } := by
  obtain ⟨⟨stored, hstored, hholds⟩, hpolicy⟩ := h
  refine ⟨?_, hpolicy⟩
  dsimp only
  rw [Map.lookup_insert]
  split
  · rename_i hname
    exact ⟨stored', rfl, hI hname.symm stored (hname ▸ hstored) hholds⟩
  · exact ⟨stored, hstored, hholds⟩

theorem AdminHolds.admits {R : Collection RoleSettings → Collection RoleSettings → Prop}
    (h : name = ADMIN_ROLE_NAME → ∀ stored stored', R stored stored' → I stored → I stored') :
    roleTable.Admits (AdminHolds domainName I) otherDomain name R := by
  apply RowHolds.admits
  intro row stored stored' hstored hR hrow
  refine hrow.insert fun hname found hfound => ?_
  cases hstored.symm.trans hfound
  exact h hname stored stored' hR

theorem AdminHolds.ignores (hI : BesideClosed I) :
    roleTable.Ignores (AdminHolds domainName I) otherDomain name where
  beside := AdminHolds.admits fun _ => hI
  stamp time _ h := h.stamp adminRow_undated time

/-- Another role may be put. -/
theorem AdminHolds.takes (hI : BesideClosed I) (hname : name ≠ ADMIN_ROLE_NAME)
    (members : List Member) (admin : Option Str) :
    roleTable.Takes (AdminHolds domainName I) otherDomain name members admin where
  ignores := AdminHolds.ignores hI
  created _ := RowHolds.admitsNew fun _ _ hrow => hrow.insert fun h => absurd h hname
  updated _ := AdminHolds.admits fun h => absurd h hname
  joins _ _ := AdminHolds.admits fun h => absurd h hname
  loses _ := AdminHolds.admits fun h => absurd h hname

theorem deleteRoleBody_adminHolds (config : Config) (ctx : Context)
    (hname : name ≠ ADMIN_ROLE_NAME) :
    Preserves (AdminHolds domainName I) (deleteRoleBody config ctx otherDomain name) := by
  refine ((checkDomainAuditEnabled_reading _ _ _ _).preserves _).bind fun _ =>
    Preserves.bind ?_ fun _ => .ensure _ _
  apply onDomain_rowHolds
  intro row a row' hrun hrow
  cases hrun
  obtain ⟨stored, hstored, hholds⟩ := hrow.role
  refine ⟨⟨stored, ?_, hholds⟩, hrow.policy⟩
  rw [← hstored]
  exact AList.lookup_erase_ne fun h => hname h.symm

theorem putOtherRoleBody_adminHolds [CaseRules] {role : Role} {ctx : Context} (config : Config)
    (hI : BesideClosed I) (hrole : role.name = roleResourceName otherDomain name)
    (hname : name ≠ ADMIN_ROLE_NAME) :
    Preserves (AdminHolds domainName I) (putRoleBody config ctx otherDomain name role) :=
  putRoleBody_preserves hrole config fun _ _ => .inr (AdminHolds.takes hI hname _ _)

end Roles

section Members

/-- The role has a member and is not delegated. -/
structure HasMember (memberName : Str) (stored : Collection RoleSettings) : Prop where
  undelegated : stored.settings.trust.1 = []
  present : (stored.members.lookup memberName).isSome

theorem hasMember_beside (memberName : Str) : BesideClosed (HasMember memberName) := by
  rintro stored stored' ⟨hsettings, hmembers, _⟩ ⟨htrust, hmember⟩
  rw [← hsettings] at htrust
  rw [← hmembers] at hmember
  exact ⟨htrust, hmember⟩

theorem HasMember.joins {stored stored' : Collection RoleSettings} (h : HasMember memberName stored)
    (hjoins : roleTable.Joins member admin stored stored') : HasMember memberName stored' := by
  have hjoined := Joined.putMember roleTable.keepsReview member admin stored
  rw [← show stored' = _ from hjoins] at hjoined
  refine ⟨?_, hjoined.stays memberName h.present⟩
  rw [hjoined.settings]
  exact h.undelegated

theorem HasMember.loses {stored stored' : Collection RoleSettings} (h : HasMember memberName stored)
    (hother : memberName ≠ lostName) (hloses : Collection.Loses lostName stored stored') :
    HasMember memberName stored' := by
  obtain rfl : stored' = _ := hloses
  refine ⟨h.undelegated, ?_⟩
  dsimp only
  rw [AList.lookup_erase_ne hother]
  exact h.present

theorem HasMember.approves {stored stored' : Collection RoleSettings}
    (h : HasMember memberName stored) (happroves : roleTable.Approves member stored stored') :
    HasMember memberName stored' := by
  obtain rfl := happroves.2
  refine ⟨h.undelegated, ?_⟩
  unfold Collection.approve
  rw [Map.lookup_insert]
  split
  · rfl
  · exact h.present

theorem HasMember.decides {stored stored' : Collection RoleSettings}
    (h : HasMember memberName stored) (hdecides : Collection.Decides decidedName stored stored') :
    HasMember memberName stored' := by
  obtain rfl : stored' = _ := hdecides
  exact ⟨h.undelegated, h.present⟩

variable [Collation]

theorem insertMember_hasMember (member : Member) (admin : Option Str) :
    Preserves (AdminHolds domainName (HasMember memberName))
      (roleTable.insertMember otherDomain name member admin) :=
  (AdminHolds.ignores (hasMember_beside memberName)).insertMember
    (AdminHolds.admits fun _ _ _ hjoins h => h.joins hjoins)

theorem deleteMember_hasMember (admin : Option Str)
    (hother : name = ADMIN_ROLE_NAME → memberName ≠ lostName) :
    Preserves (AdminHolds domainName (HasMember memberName))
      (roleTable.deleteMember otherDomain name lostName admin) :=
  (AdminHolds.ignores (hasMember_beside memberName)).deleteMember
    (AdminHolds.admits fun hname _ _ hloses h => h.loses (hother hname) hloses)

theorem putMembershipBody_hasMember (config : Config) (ctx : Context) (member : Member) :
    Preserves (AdminHolds domainName (HasMember memberName))
      (putMembershipBody config ctx otherDomain name member) :=
  putMembershipBody_preserves config (AdminHolds.ignores (hasMember_beside memberName))
    (AdminHolds.admits fun _ _ _ hjoins h => h.joins hjoins)

theorem putMembershipDecisionBody_hasMember (config : Config) (ctx : Context) (member : Member) :
    Preserves (AdminHolds domainName (HasMember memberName))
      (putMembershipDecisionBody config ctx otherDomain name member) :=
  putMembershipDecisionBody_preserves config (AdminHolds.ignores (hasMember_beside memberName))
    (fun _ => AdminHolds.admits fun _ _ _ happroves h => h.approves happroves)
    (AdminHolds.admits fun _ _ _ hdecides h => h.decides hdecides)

theorem deleteMembershipBody_hasMember (config : Config) (ctx : Context)
    (hother : name = ADMIN_ROLE_NAME → memberName ≠ lostName) :
    Preserves (AdminHolds domainName (HasMember memberName))
      (deleteMembershipBody config ctx otherDomain name lostName) :=
  (AdminHolds.ignores (hasMember_beside memberName)).removalBody config ctx .role
    (deleteMember_hasMember ctx.principal hother) _

end Members

section Reviews

/-- A review does not remove the member. -/
def LeavesMember (role : Role) (memberName : Str) : Prop :=
  ((role.roleMembers.getD []).find? (·.memberName = memberName)).all (·.active ≠ some false)

theorem leaves_of_applied {config : Config} {originalRole role : Role}
    {expiryDueDays reminderDueDays : MemberDueDays} {member : Member}
    (hmem : member ∈ applyMembershipChanges config originalRole role expiryDueDays reminderDueDays)
    (hactive : member.active = some false) (hleaves : LeavesMember role memberName) :
    memberName ≠ member.memberName := by
  rintro rfl
  obtain ⟨original, _, happlied⟩ := List.mem_filterMap.1 hmem
  obtain ⟨incoming, hfound, rfl⟩ := Option.map_eq_some_iff.1 happlied
  unfold LeavesMember at hleaves
  dsimp only at hleaves hactive
  rw [hfound, Option.all_some, decide_eq_true_eq] at hleaves
  exact hleaves hactive

theorem forEach_preserves {K : Database → Prop} {step : α → Op Unit}
    (h : ∀ a ∈ items, Preserves K (step a)) : Preserves K (forEach step items) := by
  induction items with
  | nil => exact .pure ()
  | cons a items ih =>
    exact (h a List.mem_cons_self).bind fun _ => ih fun b hb => h b (List.mem_cons_of_mem a hb)

variable [Collation]

theorem putRoleReviewBody_hasMember (config : Config) (ctx : Context) {role : Role}
    (expiryDueDays reminderDueDays : MemberDueDays)
    (hleaves : name = ADMIN_ROLE_NAME → LeavesMember role memberName) :
    Preserves (AdminHolds domainName (HasMember memberName))
      (putRoleReviewBody config ctx otherDomain name role expiryDueDays reminderDueDays) := by
  have hignores : roleTable.Ignores (AdminHolds domainName (HasMember memberName)) otherDomain
      name := AdminHolds.ignores (hasMember_beside memberName)
  refine ((checkDomainAuditEnabled_reading _ _ _ _).preserves _).bind fun _ =>
    (Preserves.query _).bind fun found => ?_
  cases found with
  | none => exact .raise _
  | some originalRole =>
    have hreviewed : Preserves (AdminHolds domainName (HasMember memberName))
        (do let _ ← updateRoleReviewTimestamp otherDomain name) :=
      hignores.updateModTimestamp.bind fun _ => .pure ()
    refine (Preserves.permit _ _).bind fun _ => Preserves.bind ?_ fun _ =>
      .ite (fun _ => (Preserves.pure false).bind fun _ => hreviewed)
        fun _ => hignores.updateModTimestamp.bind fun _ => hreviewed
    refine forEach_preserves fun member hmem => ?_
    unfold reviewMember
    split
    · rename_i hactive
      exact (deleteMember_hasMember ctx.principal fun hname =>
        leaves_of_applied hmem hactive (hleaves hname)).bind fun _ => .ensure _ _
    · exact (insertMember_hasMember member ctx.principal).bind fun _ => .ensure _ _

end Reviews

section Puts

theorem Table.processTags_alters [Collation] (table : Table S) (domainName name : Str) (limit : Nat)
    (tags originalTags : Option Tags) :
    table.Alters domainName name (processTags (table.insertTags limit name domainName)
      (table.deleteTags name domainName) tags (some originalTags))
      fun stored stored' => stored'.settings = stored.settings ∧
        stored'.members = stored.members := by
  unfold processTags
  split
  · exact .pure fun _ => ⟨rfl, rfl⟩
  · intro c c' h stored hstored
    have hmaintains : Maintains
        (table.Holds domainName name fun kept => kept.settings = stored.settings ∧
          kept.members = stored.members)
        (processUpdateTags (table.insertTags limit name domainName)
          (table.deleteTags name domainName) tags originalTags) :=
      Table.processUpdateTags_maintains (fun _ _ h => h) limit tags originalTags
    exact hmaintains.returns c true c' h ⟨stored, hstored, rfl, rfl⟩

variable [CaseRules]

/-- A member that is stored is among those that are put. -/
def Overlaps (members : List Member) (stored : Collection S) : Prop :=
  ∃ member ∈ members, ∃ name, (stored.members.lookup name).isSome ∧
    equalsIgnoreCase name member.memberName = true

/-- The members that are put replace the stored ones; those with the same name stay. -/
structure Replaced (members : List Member) (stored stored' : Collection S) : Prop where
  settings : stored'.settings = stored.settings
  overlaps : Overlaps members stored ∨ (∃ member ∈ members, member.approved ≠ some false) →
    Overlaps members stored'

theorem Left.replaced {original : List Member} {members : Option (List Member)}
    (horiginal : original = stored.listMembers)
    (hleft : Left (removeMembers original members) stored stored')
    (hjoined : Joined (removeMembers (members.getD []) (some original)) stored' stored'') :
    Replaced (members.getD []) stored stored'' := by
  have hstays : ∀ member ∈ members.getD [], ∀ name, (stored.members.lookup name).isSome →
      equalsIgnoreCase name member.memberName = true → (stored''.members.lookup name).isSome := by
    intro member hmem name hname hsame
    apply hjoined.stays
    rw [hleft.kept name]
    · exact hname
    · rintro other hother rfl
      have hgone := (List.mem_filter.1 hother).2
      rw [Bool.not_eq_true', Bool.eq_false_iff] at hgone
      exact hgone (List.any_eq_true.2 ⟨member, hmem, hsame⟩)
  refine ⟨hjoined.settings.trans hleft.settings, ?_⟩
  rintro (⟨member, hmem, name, hname, hsame⟩ | ⟨member, hmem, happroved⟩)
  · exact ⟨member, hmem, name, hstays member hmem name hname hsame, hsame⟩
  · by_cases hold : (original.any fun other =>
        equalsIgnoreCase member.memberName other.memberName) = true
    · obtain ⟨other, hother, hsame⟩ := List.any_eq_true.1 hold
      rw [horiginal] at hother
      have hother := mem_listMembers.1 ⟨other, hother, rfl⟩
      have hsame := equalsIgnoreCase_comm hsame
      exact ⟨member, hmem, other.memberName, hstays member hmem _ hother hsame, hsame⟩
    · refine ⟨member, hmem, member.memberName, hjoined.joined member ?_ happroved,
        equalsIgnoreCase_refl _⟩
      refine List.mem_filter.2 ⟨hmem, ?_⟩
      rw [Bool.not_eq_true', Bool.eq_false_iff]
      exact hold

theorem Table.processUpdateMembers_replaces (table : Table S) (domainName name : Str)
    (original members : Option (List Member)) (admin : Option Str) :
    table.Alters domainName name
      (table.processUpdateMembers original members false domainName name admin)
      fun stored stored' => original.getD [] = stored.listMembers →
        Replaced (members.getD []) stored stored' := by
  rw [Table.processUpdateMembers]
  exact (table.deleteMembers_left domainName name _ admin).both
    (table.insertMembers_alters domainName name _ admin) fun stored stored' stored'' hleft hjoined
      horiginal => hleft.replaced horiginal hjoined

/-- A role that is stored without a trust and put again. -/
structure Overwritten (role : Role) (stored stored' : Collection RoleSettings) : Prop where
  trust : stored'.settings.trust = processInsertValue role.trust
  overlaps : Overlaps (role.roleMembers.getD []) stored ∨
      (∃ member ∈ role.roleMembers.getD [], member.approved ≠ some false) →
    Overlaps (role.roleMembers.getD []) stored'

theorem processRole_overwrites [Collation] (config : Config) {role : Role} (domainName roleName : Str)
    (hname : role.name = roleResourceName domainName roleName) (admin : Option Str)
    (stored : Collection RoleSettings) :
    Tx.Accepts (processRole config (some (saveRole domainName roleName stored)) domainName roleName
      role admin false)
      fun db db' => roleTable.find db domainName roleName = some stored →
        stored.settings.trust.1 = [] → ∃ stored',
          roleTable.find db' domainName roleName = some stored' ∧ Overwritten role stored stored' := by
  unfold processRole
  dsimp only
  rw [updateRole_eq (show { role with
    auditEnabled := (saveRole domainName roleName stored).auditEnabled }.name = _ from hname)]
  generalize hsettings : Role.settings { role with
    auditEnabled := (saveRole domainName roleName stored).auditEnabled } = settings
  have hrow : roleTable.Alters domainName roleName
      (roleTable.updateRow domainName roleName settings)
      fun row row' => row' = { row with settings := settings } :=
    roleTable.on_alters _ fun _ => rfl
  refine (Tx.Accepts.both hrow (Tx.Accepts.both
    (roleTable.processUpdateMembers_replaces domainName roleName
      (saveRole domainName roleName stored).roleMembers role.roleMembers admin)
    (roleTable.processTags_alters domainName roleName config.roleTagsLimit role.tags _))).mono ?_
  rintro db db' ⟨db₁, h₁, db₂, h₂, h₃⟩ hstored htrust
  obtain ⟨stored₁, hstored₁, rfl⟩ := h₁ stored hstored
  obtain ⟨stored₂, hstored₂, hreplaced⟩ := h₂ _ hstored₁
  obtain ⟨stored₃, hstored₃, hkept, hmembers⟩ := h₃ _ hstored₂
  have hvisible : (saveRole domainName roleName stored).roleMembers = some stored.listMembers :=
    if_pos (if_pos htrust)
  rw [hvisible] at hreplaced
  have hreplaced := hreplaced rfl
  refine ⟨stored₃, hstored₃, ?_, fun hputs => ?_⟩
  · rw [hkept, hreplaced.settings, ← hsettings]
    rfl
  · have hoverlaps := hreplaced.overlaps hputs
    unfold Overlaps at hoverlaps ⊢
    rw [hmembers]
    exact hoverlaps

end Puts

section AdminPuts

theorem refused_of_enabled {stored : Collection RoleSettings}
    (h : stored.settings.auditEnabled = true ∨ stored.settings.reviewEnabled = true) :
    (!(some (saveRole domainName roleName stored)).any fun original =>
      original.auditEnabled = some true || original.reviewEnabled = some true) = false := by
  rw [Bool.not_eq_false', Option.any_some, saveRole, retrieveRole, Bool.or_eq_true,
    decide_eq_true_eq, decide_eq_true_eq]
  dsimp only
  rcases h with haudit | hreview
  · rw [haudit]
    exact .inl rfl
  · rw [hreview]
    exact .inr rfl

variable {I : Collection RoleSettings → Prop}

theorem adminHolds_iff [Collation] : AdminHolds domainName I db ↔
    roleTable.Holds domainName ADMIN_ROLE_NAME I db ∧ ∃ policy,
      db.policyRow domainName ADMIN_POLICY_NAME none = some policy ∧
        ∃ assertion ∈ policy.assertions, Grants domainName assertion := by
  constructor
  · rintro ⟨row, hrow, ⟨stored, hstored, hI⟩, policy, hpolicy, hgrants⟩
    refine ⟨⟨stored, ?_, hI⟩, policy, (policyRow_eq hrow).trans hpolicy, hgrants⟩
    unfold Table.find
    rw [hrow]
    exact hstored
  · rintro ⟨⟨stored, hstored, hI⟩, policy, hpolicy, hgrants⟩
    obtain ⟨row, hrow, hfound⟩ := Option.bind_eq_some_iff.1 hpolicy
    unfold Table.find at hstored
    rw [hrow] at hstored
    exact ⟨row, hrow, ⟨stored, hstored, hI⟩, policy, hfound, hgrants⟩

variable [CaseRules]

/-- A put of the admin role is refused, or leaves it with a member and without a trust. -/
def KeepsAdmin (role : Role) (stored : Collection RoleSettings) : Prop :=
  stored.settings.auditEnabled = true ∨ stored.settings.reviewEnabled = true ∨
    (processInsertValue role.trust).1 = [] ∧ (Overlaps (role.roleMembers.getD []) stored ∨
      ∃ member ∈ role.roleMembers.getD [], member.approved ≠ some false)

/-- The admin role before and behind a put that keeps it. -/
structure Putting (role : Role) (stored : Collection RoleSettings) : Prop where
  member : ∃ memberName, HasMember memberName stored
  keeps : KeepsAdmin role stored

theorem Overwritten.putting {stored stored' : Collection RoleSettings}
    (h : Overwritten role stored stored') (htrust : (processInsertValue role.trust).1 = [])
    (hputs : Overlaps (role.roleMembers.getD []) stored ∨
      ∃ member ∈ role.roleMembers.getD [], member.approved ≠ some false) : Putting role stored' := by
  have hoverlaps := h.overlaps hputs
  refine ⟨?_, .inr (.inr ⟨htrust, .inl hoverlaps⟩)⟩
  obtain ⟨_, _, memberName, hmember, _⟩ := hoverlaps
  refine ⟨memberName, ?_, hmember⟩
  rw [h.trust]
  exact htrust

theorem putAdminRoleBody_returns [Collation] (config : Config) (ctx : Context) {role : Role}
    (hrole : role.name = roleResourceName domainName ADMIN_ROLE_NAME) :
    Returns (putRoleBody config ctx domainName ADMIN_ROLE_NAME role) fun db _ db' =>
      AdminHolds domainName (Putting role) db → AdminHolds domainName (Putting role) db' := by
  refine (checkDomainAuditEnabled_reading _ _ _ _).returns_bind fun _ =>
    (checkRoleQuota_reading _ _ _).returns_bind fun _ => ?_
  rw [getRole_eq]
  refine (Returns.query_bind (T := fun before db _ db' => before = db →
    AdminHolds domainName (Putting role) db → AdminHolds domainName (Putting role) db')
    fun before => ?_).mono fun _ _ _ h => h rfl
  intro c _ c' h hbefore hdb
  obtain ⟨⟨stored, hstored, hputting⟩, policy, hpolicy, hgrants⟩ := adminHolds_iff.1 hdb
  rw [hbefore, hstored, Option.map_some] at h
  obtain ⟨_, d, hpermit, h⟩ := Tx.bind_eq_ok.1 h
  obtain ⟨hfree, hd⟩ := Returns.permit _ _ _ _ _ hpermit
  obtain ⟨done, d', hrun, hensure⟩ := Tx.bind_eq_ok.1 h
  obtain ⟨rfl, hd'⟩ := Returns.ensure _ _ _ _ _ hensure
  have hleft := processRole_leaves (roleTable_hidden_policyRow domainName ADMIN_ROLE_NAME
    ADMIN_POLICY_NAME) hrole config _ ctx.principal false _ _ _ hrun
  have hoverwritten := processRole_overwrites config domainName ADMIN_ROLE_NAME hrole ctx.principal
    stored _ _ hrun (by rw [hd]; exact hstored)
  obtain ⟨_, hmember⟩ := hputting.member
  obtain ⟨stored', hstored', hoverwritten⟩ := hoverwritten hmember.undelegated
  refine adminHolds_iff.2 ⟨⟨stored', ?_, ?_⟩, policy, ?_, hgrants⟩
  · rw [hd']
    exact hstored'
  · rcases hputting.keeps with haudit | hreview | ⟨htrust, hputs⟩
    · exact absurd hfree (by rw [refused_of_enabled (.inl haudit)]; exact Bool.false_ne_true)
    · exact absurd hfree (by rw [refused_of_enabled (.inr hreview)]; exact Bool.false_ne_true)
    · exact hoverwritten.putting htrust hputs
  · rw [hd', ← hpolicy, ← hd]
    exact hleft

end AdminPuts

end Athenz.ZmsServer
