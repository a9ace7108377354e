import Athenz.DbServiceWhole
import Athenz.MetaFrame
import Athenz.ObjectFrames

namespace Athenz.ZmsServer
open Lib Lib.Text Lib.Transaction
set_option autoImplicit true

section Members

variable {table : Table S}

/-- Programs that take an object from one value to another when they answer true. -/
def Table.Alters (table : Table S) (domainName name : Str) (p : Op Bool)
    (R : Collection S → Collection S → Prop) : Prop :=
  Tx.Accepts p fun db db' => ∀ stored, table.find db domainName name = some stored →
    ∃ stored', table.find db' domainName name = some stored' ∧ R stored stored'

variable {R R' R'' : Collection S → Collection S → Prop}

theorem Table.Alters.mono {p : Op Bool} (hp : table.Alters domainName name p R)
    (h : ∀ stored stored', R stored stored' → R' stored stored') :
    table.Alters domainName name p R' := by
  refine Tx.Accepts.mono hp fun db db' halters stored hstored => ?_
  obtain ⟨stored', hstored', hR⟩ := halters stored hstored
  exact ⟨stored', hstored', h stored stored' hR⟩

theorem Table.Alters.both {p q : Op Bool} (hp : table.Alters domainName name p R)
    (hq : table.Alters domainName name q R')
    (h : ∀ stored stored' stored'', R stored stored' → R' stored' stored'' → R'' stored stored'') :
    table.Alters domainName name (Tx.both p q) R'' := by
  refine (Tx.Accepts.both hp hq).mono ?_
  rintro db db'' ⟨db', hfirst, hsecond⟩ stored hstored
  obtain ⟨stored', hstored', hR⟩ := hfirst stored hstored
  obtain ⟨stored'', hstored'', hR'⟩ := hsecond stored' hstored'
  exact ⟨stored'', hstored'', h stored stored' stored'' hR hR'⟩

theorem Table.Alters.pure (h : ∀ stored, R stored stored) :
    table.Alters domainName name (Pure.pure true) R := by
  refine Tx.Accepts.pure.mono fun db db' hdb stored hstored => ?_
  rw [hdb]
  exact ⟨stored, hstored, h stored⟩

theorem Table.on_alters (g : Collection S → Bool × Collection S)
    (h : ∀ stored, R stored (g stored).2) :
    table.Alters domainName name (table.on domainName name fun stored => .ok (g stored)) R := by
  refine (table.on_returns _).toAccepts.mono ?_
  rintro db db' ⟨found, stored', hfound, hf, rfl⟩ stored hstored
  obtain rfl : stored = found := Option.some.inj (hstored.symm.trans hfound)
  obtain rfl : (g stored).2 = stored' := congrArg Prod.snd (Except.ok.inj hf)
  exact ⟨_, (table.focus domainName name).get_put hstored _, h stored⟩

/-- The members that have joined an object. -/
structure Joined (members : List Member) (stored stored' : Collection S) : Prop where
  settings : stored'.settings = stored.settings
  tags : stored'.tags = stored.tags
  kept : ∀ name, (∀ member ∈ members, member.memberName ≠ name) →
    stored'.members.lookup name = stored.members.lookup name
  stays : ∀ name, (stored.members.lookup name).isSome → (stored'.members.lookup name).isSome
  joined : ∀ member ∈ members, member.approved ≠ some false →
    (stored'.members.lookup member.memberName).isSome

theorem Joined.refl (stored : Collection S) : Joined [] stored stored where
  settings := rfl
  tags := rfl
  kept _ _ := rfl
  stays _ h := h
  joined _ h := nomatch h

theorem Joined.cons (h : Joined [member] stored stored') (h' : Joined members stored' stored'') :
    Joined (member :: members) stored stored'' where
  settings := h'.settings.trans h.settings
  tags := h'.tags.trans h.tags
  kept name hnone := by
    rw [h'.kept name fun other hmem => hnone other (List.mem_cons_of_mem member hmem)]
    exact h.kept name fun other hmem => hnone other (List.mem_singleton.1 hmem ▸ List.mem_cons_self)
  stays name hsome := h'.stays name (h.stays name hsome)
  joined other hmem happroved := by
    obtain rfl | hmem := List.mem_cons.1 hmem
    · exact h'.stays _ (h.joined other (List.mem_singleton_self other) happroved)
    · exact h'.joined other hmem happroved

theorem Joined.putMember (keepsReview : Bool) (member : Member) (admin : Option Str)
    (stored : Collection S) :
    Joined [member] stored (stored.putMember keepsReview member admin).2 := by
  rw [Collection.putMember]
  split
  · rename_i hpending
    refine ⟨rfl, rfl, fun _ _ => rfl, fun _ h => h, fun other hmem happroved => ?_⟩
    rw [List.mem_singleton.1 hmem] at happroved
    exact absurd hpending happroved
  · refine ⟨rfl, rfl, fun name hnone => ?_, fun name hsome => ?_, fun other hmem _ => ?_⟩
    · exact AList.lookup_insert_ne (hnone member (List.mem_singleton_self member)).symm
    · rw [Map.lookup_insert]
      split
      · rfl
      · exact hsome
    · rw [List.mem_singleton.1 hmem, AList.lookup_insert]
      rfl

theorem Joined.log (h : Joined members stored stored') (auditLog : List AuditEntry) :
    Joined members stored { stored' with auditLog := auditLog } :=
  ⟨h.settings, h.tags, h.kept, h.stays, h.joined⟩

theorem Table.insertMember_alters (table : Table S) (domainName name : Str) (member : Member)
    (admin : Option Str) :
    table.Alters domainName name (table.insertMember domainName name member admin)
      (Joined [member]) := by
  intro c c' h stored hstored
  obtain ⟨action, d, hput, hlog⟩ := Tx.bind_eq_ok.1 h
  obtain ⟨known, d', hquery, hput⟩ := Tx.bind_eq_ok.1 hput
  obtain ⟨_, rfl, rfl⟩ := Tx.query_eq_ok.1 hquery
  split at hput
  · cases hput
  · obtain ⟨found, stored', hfound, hf, hd⟩ := table.on_returns _ _ _ _ hput
    obtain rfl : stored = found := Option.some.inj (hstored.symm.trans hfound)
    obtain rfl : (stored.putMember table.keepsReview member admin).1 = action :=
      congrArg Prod.fst (Except.ok.inj hf)
    obtain rfl : (stored.putMember table.keepsReview member admin).2 = stored' :=
      congrArg Prod.snd (Except.ok.inj hf)
    have hjoined := Joined.putMember table.keepsReview member admin stored
    have hfind : table.find d.working domainName name =
        some (stored.putMember table.keepsReview member admin).2 := by
      rw [hd]
      exact (table.focus domainName name).get_put hstored _
    cases haction : (stored.putMember table.keepsReview member admin).1 with
    | none =>
      rw [haction] at hlog
      cases hlog
      exact ⟨_, hfind, hjoined⟩
    | some action =>
      rw [haction] at hlog
      have hlogged : table.Alters domainName name
          (table.insertAuditLog domainName name admin member.memberName action)
          fun stored stored' => ∃ auditLog, stored' = { stored with auditLog := auditLog } :=
        table.on_alters _ fun _ => ⟨_, rfl⟩
      obtain ⟨_, hfind', auditLog, rfl⟩ := hlogged d c' hlog _ hfind
      exact ⟨_, hfind', hjoined.log auditLog⟩

theorem Table.insertMembers_alters (table : Table S) (domainName name : Str) (members : List Member)
    (admin : Option Str) :
    table.Alters domainName name
      (Tx.forAll (fun member => table.insertMember domainName name member admin) members)
      (Joined members) := by
  induction members with
  | nil => exact .pure Joined.refl
  | cons member members ih =>
    exact (table.insertMember_alters domainName name member admin).both ih fun _ _ _ => Joined.cons

/-- What is left when members leave. -/
structure Left (members : List Member) (stored stored' : Collection S) : Prop where
  settings : stored'.settings = stored.settings
  kept : ∀ name, (∀ member ∈ members, member.memberName ≠ name) →
    stored'.members.lookup name = stored.members.lookup name

theorem Left.refl (stored : Collection S) : Left [] stored stored where
  settings := rfl
  kept _ _ := rfl

theorem Left.cons (h : Left [member] stored stored') (h' : Left members stored' stored'') :
    Left (member :: members) stored stored'' where
  settings := h'.settings.trans h.settings
  kept name hnone := by
    rw [h'.kept name fun other hmem => hnone other (List.mem_cons_of_mem member hmem)]
    exact h.kept name fun other hmem => hnone other (List.mem_singleton.1 hmem ▸ List.mem_cons_self)

theorem Table.deleteMember_left (table : Table S) (domainName name : Str) (member : Member)
    (admin : Option Str) :
    table.Alters domainName name (table.deleteMember domainName name member.memberName admin)
      (Left [member]) := by
  intro c c' h stored hstored
  obtain ⟨deleted, d, hdelete, hlog⟩ := Tx.bind_eq_ok.1 h
  obtain ⟨found, stored', hfound, hf, hd⟩ := table.on_returns _ _ _ _ hdelete
  obtain rfl : stored = found := Option.some.inj (hstored.symm.trans hfound)
  have hleft : Left [member] stored stored' := by
    cases hf
    refine ⟨rfl, fun name hnone => ?_⟩
    exact AList.lookup_erase_ne (hnone member (List.mem_singleton_self member)).symm
  have hfind : table.find d.working domainName name = some stored' := by
    rw [hd]
    exact (table.focus domainName name).get_put hstored _
  split at hlog
  · cases hlog
  · have hlogged : table.Alters domainName name
        (table.insertAuditLog domainName name admin member.memberName "DELETE")
        fun stored stored' => ∃ auditLog, stored' = { stored with auditLog := auditLog } :=
      table.on_alters _ fun _ => ⟨_, rfl⟩
    obtain ⟨_, hfind', auditLog, rfl⟩ := hlogged d c' hlog stored' hfind
    exact ⟨_, hfind', hleft.settings, hleft.kept⟩

theorem Table.deleteMembers_left (table : Table S) (domainName name : Str) (members : List Member)
    (admin : Option Str) :
    table.Alters domainName name
      (Tx.forAll (fun member => table.deleteMember domainName name member.memberName admin) members)
      (Left members) := by
  induction members with
  | nil => exact .pure Left.refl
  | cons member members ih =>
    exact (table.deleteMember_left domainName name member admin).both ih fun _ _ _ => Left.cons

theorem Table.insertRow_settles (table : Table S) (domainName name : Str) (settings : S) :
    Tx.Returns (table.insertRow domainName name settings) fun _ _ db' =>
      ∃ stored, table.find db' domainName name = some stored ∧ stored.settings = settings := by
  refine (onDomain_returns _).mono ?_
  rintro db a db' ⟨row, row', _, hf, rfl⟩
  split at hf
  · cases hf
  · cases hf
    refine ⟨{ settings := settings }, ?_, rfl⟩
    rw [Table.find, domainFocus]
    dsimp only
    rw [AList.lookup_insert, Option.bind_some, table.get_set, AList.lookup_insert]

end Members

section Roles

/-- The settings of a role that is provisioned: only the audit flag is the stored one. -/
def RoleSettings.reset (settings : RoleSettings) : RoleSettings :=
  { Role.settings { name := [] } with auditEnabled := settings.auditEnabled }

theorem reset_reset (settings : RoleSettings) : settings.reset.reset = settings.reset := rfl

theorem settings_provisioned (domainName roleName name : Str) (members : Option (List Member))
    (stored : Collection RoleSettings) :
    Role.settings { name := name, roleMembers := members,
                    auditEnabled := (saveRole domainName roleName stored).auditEnabled } =
      stored.settings.reset := by
  have haudit : ((saveRole domainName roleName stored).auditEnabled).getD false =
      stored.settings.auditEnabled := getD_nullIfDefaultValue stored.settings.auditEnabled false
  unfold Role.settings RoleSettings.reset
  rw [haudit]
  rfl

theorem mem_listMembers {stored : Collection S} :
    (∃ member ∈ stored.listMembers, member.memberName = name) ↔
      (stored.members.lookup name).isSome := by
  rw [Option.isSome_iff_exists]
  constructor
  · rintro ⟨member, hmem, rfl⟩
    obtain ⟨entry, hentry, rfl⟩ := List.mem_map.1 hmem
    exact ⟨entry.2, Map.mem_entries_iff.1 hentry⟩
  · rintro ⟨row, hrow⟩
    exact ⟨_, List.mem_map.2 ⟨⟨name, row⟩, Map.mem_entries_iff.2 hrow, rfl⟩, rfl⟩

variable [CaseRules]

theorem removeMembers_left (members others : List Member) :
    removeMembers (members ++ others) (some others) = removeMembers members (some others) := by
  have hnone : removeMembers others (some others) = [] := by
    refine List.filter_eq_nil_iff.2 fun member hmem => ?_
    rw [Bool.not_eq_true', Bool.not_eq_false]
    exact List.any_eq_true.2 ⟨member, hmem, equalsIgnoreCase_refl _⟩
  unfold removeMembers at hnone ⊢
  rw [List.filter_append, hnone, List.append_nil]

theorem removeMembers_right (members others : List Member) :
    removeMembers others (some (members ++ others)) = [] := by
  refine List.filter_eq_nil_iff.2 fun member hmem => ?_
  rw [Bool.not_eq_true', Bool.not_eq_false]
  exact List.any_eq_true.2 ⟨member, List.mem_append_right members hmem, equalsIgnoreCase_refl _⟩

/-- The new members of an object that keeps the ones it has. -/
structure Kept (members : List Member) (stored stored' : Collection S) : Prop where
  kept : ∀ name row, stored.members.lookup name = some row → stored'.members.lookup name = some row
  only : ∀ name, (stored'.members.lookup name).isSome →
    (stored.members.lookup name).isSome ∨ ∃ member ∈ members, member.memberName = name
  joined : ∀ member ∈ members, member.approved ≠ some false →
    ∃ name, (stored'.members.lookup name).isSome ∧ equalsIgnoreCase member.memberName name = true

theorem Joined.kept_of_new (h : Joined (removeMembers members (some stored.listMembers)) stored
    stored') : Kept members stored stored' where
  kept name row hrow := by
    rw [h.kept name, hrow]
    rintro member hmem rfl
    obtain ⟨listed, hlisted, hname⟩ := mem_listMembers.2 (Option.isSome_of_eq_some hrow)
    have hnew := (List.mem_filter.1 hmem).2
    rw [Bool.not_eq_true', Bool.eq_false_iff] at hnew
    refine hnew (List.any_eq_true.2 ⟨listed, hlisted, ?_⟩)
    rw [hname]
    exact equalsIgnoreCase_refl _
  only name hsome := by
    by_contra hnot
    rw [not_or] at hnot
    rw [h.kept name fun member hmem hname =>
      hnot.2 ⟨member, (List.mem_filter.1 hmem).1, hname⟩] at hsome
    exact hnot.1 hsome
  joined member hmem happroved := by
    by_cases hnew : (stored.listMembers.any fun other =>
        equalsIgnoreCase member.memberName other.memberName) = true
    · obtain ⟨listed, hlisted, hsame⟩ := List.any_eq_true.1 hnew
      exact ⟨listed.memberName, h.stays _ (mem_listMembers.1 ⟨listed, hlisted, rfl⟩), hsame⟩
    · refine ⟨member.memberName, h.joined member (List.mem_filter.2 ⟨hmem, ?_⟩) happroved,
        equalsIgnoreCase_refl _⟩
      rw [Bool.not_eq_true', Bool.eq_false_iff]
      exact hnew

/-- A role that is put with its own members and others loses all settings but the audit flag. -/
structure Rebuilt (members : List Member) (stored stored' : Collection RoleSettings) : Prop where
  settings : stored'.settings = stored.settings.reset
  tags : stored'.tags = stored.tags
  members : stored.settings.trust.1 = [] → Kept members stored stored'

variable [Collation]

theorem processRole_rebuilds (config : Config) (domainName roleName : Str) (members : List Member)
    (admin : Option Str) (stored : Collection RoleSettings) :
    Tx.Accepts (processRole config (some (saveRole domainName roleName stored)) domainName roleName
      { name := roleResourceName domainName roleName
        roleMembers := some (members ++ (saveRole domainName roleName stored).roleMembers.getD []) }
      admin false)
      fun db db' => roleTable.find db domainName roleName = some stored →
        ∃ stored', roleTable.find db' domainName roleName = some stored' ∧
          Rebuilt members stored stored' := by
  have hmembers : roleTable.Alters domainName roleName
      (roleTable.processUpdateMembers (saveRole domainName roleName stored).roleMembers
        (some (members ++ (saveRole domainName roleName stored).roleMembers.getD [])) false domainName
        roleName admin)
      (Joined (removeMembers members
        (some ((saveRole domainName roleName stored).roleMembers.getD [])))) := by
    rw [Table.processUpdateMembers]
    dsimp only [Option.getD_some]
    rw [removeMembers_left, removeMembers_right]
    refine Table.Alters.both (R := fun stored stored' => stored' = stored) (.pure fun _ => rfl)
      (roleTable.insertMembers_alters domainName roleName _ admin) ?_
    rintro _ _ _ rfl h
    exact h
  have hrow : roleTable.Alters domainName roleName
      (roleTable.updateRow domainName roleName stored.settings.reset)
      fun row row' => row' = { row with settings := stored.settings.reset } :=
    roleTable.on_alters _ fun _ => rfl
  have htags : roleTable.Alters domainName roleName (pure true) fun row row' => row' = row :=
    .pure fun _ => rfl
  rw [processRole, updateRole_eq rfl, settings_provisioned]
  refine (Tx.Accepts.both hrow (Tx.Accepts.both hmembers htags)).mono ?_
  rintro db db' ⟨db₁, h₁, db₂, h₂, h₃⟩ hstored
  obtain ⟨stored₁, hstored₁, rfl⟩ := h₁ stored hstored
  obtain ⟨stored₂, hstored₂, hjoined⟩ := h₂ _ hstored₁
  obtain ⟨stored₃, hstored₃, rfl⟩ := h₃ _ hstored₂
  refine ⟨stored₃, hstored₃, hjoined.settings, hjoined.tags, fun htrust => ?_⟩
  have hlisted : (saveRole domainName roleName stored).roleMembers.getD [] = stored.listMembers := by
    have hvisible : (saveRole domainName roleName stored).roleMembers = some stored.listMembers :=
      if_pos (if_pos htrust)
    rw [hvisible]
    rfl
  rw [hlisted] at hjoined
  have hkept : Kept members { stored with settings := stored.settings.reset } stored₃ :=
    Joined.kept_of_new hjoined
  exact ⟨hkept.kept, hkept.only, hkept.joined⟩

end Roles

section Policies

theorem mem_savePolicy_id (h : assertion ∈ (savePolicy domainName policy).assertions.getD []) :
    assertion.id ≠ none := by
  obtain ⟨row, _, rfl⟩ := List.mem_map.1 h
  exact nofun

/-- An assertion without an identifier is none of those that have been read. -/
theorem tenancyAssertions_eq (original : Option PolicyRow) (domainName : Str) {assertion : Assertion}
    (hid : assertion.id = none) :
    (if assertion ∈ ((original.map (savePolicy domainName)).bind (·.assertions)).getD [] then
      ((original.map (savePolicy domainName)).bind (·.assertions)).getD []
    else ((original.map (savePolicy domainName)).bind (·.assertions)).getD [] ++ [assertion]) =
      ((original.map (savePolicy domainName)).bind (·.assertions)).getD [] ++ [assertion] := by
  refine if_neg fun hmem => ?_
  cases original with
  | none => cases hmem
  | some policy => exact mem_savePolicy_id hmem hid

variable [Collation]

/-- A policy with an assertion more, unless the store takes another one for it; one that is missing
is created. -/
def Grown (policyName roleName : Str) (assertion : Assertion) (before after : Option PolicyRow) :
    Prop :=
  ∃ id, after = some (match before with
    | none => PolicyRow.added ⟨policyName, "0", true, []⟩ roleName assertion id
    | some policy =>
      if policy.blocks roleName assertion then policy else policy.added roleName assertion id)

theorem insertAssertions_singleton (domainName policyName roleName : Str) {assertion : Assertion}
    (hrole : assertion.role = domainName ++ ":role." ++ roleName) :
    Tx.Accepts (insertAssertions domainName policyName none [assertion]) fun db db' =>
      ∃ policy, db.policyRow domainName policyName none = some policy ∧ ∃ id,
        db'.policyRow domainName policyName none = some (if policy.blocks roleName assertion then
          policy else policy.added roleName assertion id) := by
  intro c c' h
  obtain ⟨done, d, hstep, hpure⟩ := Tx.bind_eq_ok.1 h
  obtain ⟨added, d', hinsert, hdone⟩ := Tx.bind_eq_ok.1 hstep
  cases hdone
  cases hpure
  obtain ⟨policy, hpolicy, hpolicy'⟩ := insertAssertion_returns policyName hrole c added _ hinsert
  exact ⟨policy, hpolicy, _, hpolicy'⟩

/-- A policy that is put with its own assertions and another one grows by that. -/
theorem processPolicy_grows (domainName policyName roleName : Str) {assertion : Assertion}
    (hrole : assertion.role = domainName ++ ":role." ++ roleName)
    (original : Option PolicyRow) :
    Tx.Accepts (processPolicy (original.map (savePolicy domainName)) domainName policyName
      { name := policyResourceName domainName policyName
        assertions := some
          (((original.map (savePolicy domainName)).bind (·.assertions)).getD [] ++ [assertion]) } false)
      fun db db' => db.policyRow domainName policyName none = original →
        Grown policyName roleName assertion original
          (db'.policyRow domainName policyName none) := by
  cases original with
  | none =>
    rw [Option.map_none, processPolicy, insertPolicy_eq rfl rfl]
    refine (Tx.Accepts.both (insertPolicyRow_returns domainName policyName "0").toAccepts
      (insertAssertions_singleton domainName policyName roleName hrole)).mono ?_
    rintro db db' ⟨db₁, hcreated, policy, hpolicy, id, hpolicy'⟩ hnone
    obtain rfl := Option.some.inj (hpolicy.symm.trans (hcreated hnone))
    exact ⟨id, hpolicy'⟩
  | some policy =>
    rw [Option.map_some, processPolicy, updatePolicy_eq rfl rfl]
    dsimp only [Option.bind_some, Option.getD_some]
    rw [policyAssertionChanges_self]
    refine (Tx.Accepts.both (onPolicy_returns sameVersion_self).toAccepts (Tx.Accepts.both
      (Tx.Accepts.pure : Tx.Accepts (if false then pure true else pure true) _)
      (insertAssertions_singleton domainName policyName roleName hrole))).mono ?_
    rintro db db' ⟨db₁, ⟨_, _, hbefore, hsame, hafter⟩, db₂, rfl, policy', hpolicy, id, hpolicy'⟩ hsome
    cases hsame
    obtain rfl := Option.some.inj (hbefore.symm.trans hsome)
    obtain rfl := Option.some.inj (hpolicy.symm.trans hafter)
    exact ⟨id, hpolicy'⟩

end Policies

section Provisioning

/-- The policy of a provisioned role. -/
def tenancyPolicyName (roleName : Str) : Str := "tenancy.".toList ++ roleName

def tenancyAssertion (rolePrefix trustedRolePrefix role tenantDomain : Str) : Assertion :=
  assumeRoleAssertion (roleResourceName tenantDomain (rolePrefix ++ role)) (trustedRolePrefix ++ role)

variable [Collation]

theorem processTenancyPolicy_leaves {view : Database → β}
    (hview : PolicyHidden tenantDomain (tenancyPolicyName (rolePrefix ++ role)) view)
    (original : Option PolicyRow) (trustedRolePrefix : Str) :
    Tx.Leaves view (processPolicy (original.map (savePolicy tenantDomain)) tenantDomain
      (tenancyPolicyName (rolePrefix ++ role))
      { name := policyResourceName tenantDomain (tenancyPolicyName (rolePrefix ++ role))
        assertions := some (((original.map (savePolicy tenantDomain)).bind (·.assertions)).getD [] ++
          [tenancyAssertion rolePrefix trustedRolePrefix role tenantDomain]) } false) :=
  processPolicy_leaves hview rfl rfl _ false

variable [CaseRules]

theorem processRole_provisions (config : Config) (domainName roleName : Str) (members : List Member)
    (admin : Option Str) (db : Database) :
    Tx.Accepts (processRole config
      ((roleTable.find db domainName roleName).map (saveRole domainName roleName)) domainName roleName
      { name := roleResourceName domainName roleName
        roleMembers := some (members ++ (((roleTable.find db domainName roleName).map
          (saveRole domainName roleName)).bind (·.roleMembers)).getD []) } admin false)
      fun before after => roleTable.find before domainName roleName =
          roleTable.find db domainName roleName → ∀ stored,
        roleTable.find db domainName roleName = some stored →
        ∃ stored', roleTable.find after domainName roleName = some stored' ∧
          Rebuilt members stored stored' := by
  cases hfind : roleTable.find db domainName roleName with
  | none => exact fun _ _ _ _ _ h => nomatch h
  | some stored =>
    refine (processRole_rebuilds config domainName roleName members admin stored).mono ?_
    intro before after h hbefore stored₁ hstored₁
    cases hstored₁
    exact h hbefore

/-- What provisioning one role does to the role and its policy. -/
theorem addAssumeRolePolicy_returns (config : Config) (ctx : Context)
    (rolePrefix trustedRolePrefix role : Str) (members : List Member) (tenantDomain : Str) :
    Tx.Returns (addAssumeRolePolicy config ctx rolePrefix trustedRolePrefix role members tenantDomain)
      fun db _ db' =>
        (∀ stored, roleTable.find db tenantDomain (rolePrefix ++ role) = some stored →
          ∃ stored', roleTable.find db' tenantDomain (rolePrefix ++ role) = some stored' ∧
            Rebuilt members stored stored') ∧
        Grown (tenancyPolicyName (rolePrefix ++ role)) (rolePrefix ++ role)
          (tenancyAssertion rolePrefix trustedRolePrefix role tenantDomain)
          (db.policyRow tenantDomain (tenancyPolicyName (rolePrefix ++ role)) none)
          (db'.policyRow tenantDomain (tenancyPolicyName (rolePrefix ++ role)) none) := by
  intro c a c' h
  unfold addAssumeRolePolicy at h
  obtain ⟨original, d₁, hread, h₁⟩ := Tx.bind_eq_ok.1 h
  rw [getRole_eq] at hread
  obtain ⟨_, rfl, rfl⟩ := Tx.query_eq_ok.1 hread
  obtain ⟨done, d₂, hrole, h₂⟩ := Tx.bind_eq_ok.1 h₁
  obtain ⟨_, d₃, hensure, h₃⟩ := Tx.bind_eq_ok.1 h₂
  obtain ⟨rfl, hd₃⟩ := Tx.Returns.ensure _ _ _ _ _ hensure
  dsimp only at h₃
  obtain ⟨originalPolicy, d₄, hread', h₄⟩ := Tx.bind_eq_ok.1 h₃
  obtain ⟨_, rfl, rfl⟩ := Tx.query_eq_ok.1 hread'
  obtain ⟨done', d₅, hpolicy, hensure'⟩ := Tx.bind_eq_ok.1 h₄
  obtain ⟨rfl, hd₅⟩ := Tx.Returns.ensure _ _ _ _ _ hensure'
  have hrebuilt := processRole_provisions config tenantDomain (rolePrefix ++ role) members
    ctx.principal c.working _ _ hrole rfl
  have hnotread : d₃.working.policyRow tenantDomain (tenancyPolicyName (rolePrefix ++ role)) none =
      c.working.policyRow tenantDomain (tenancyPolicyName (rolePrefix ++ role)) none := by
    have hleft := processRole_leaves (roleTable_hidden_policyRow tenantDomain (rolePrefix ++ role)
      (tenancyPolicyName (rolePrefix ++ role))) rfl config _ ctx.principal false _ _ _ hrole
    rw [hd₃]
    exact hleft
  rw [tenancyAssertions_eq _ _ rfl] at hpolicy
  have hgrants : (tenancyAssertion rolePrefix trustedRolePrefix role tenantDomain).role =
      tenantDomain ++ ":role." ++ (rolePrefix ++ role) := rfl
  have hgrown := processPolicy_grows tenantDomain (tenancyPolicyName (rolePrefix ++ role))
    (rolePrefix ++ role) hgrants _ _ _ hpolicy rfl
  have hfind : roleTable.find d₅.working tenantDomain (rolePrefix ++ role) =
      roleTable.find d₃.working tenantDomain (rolePrefix ++ role) := by
    have hleft := processTenancyPolicy_leaves (policyHidden_find tenantDomain _ (rolePrefix ++ role))
      _ trustedRolePrefix _ _ _ hpolicy
    exact hleft
  rw [hd₅]
  constructor
  · intro stored hstored
    rw [hfind, hd₃]
    exact hrebuilt stored hstored
  · rw [← hnotread]
    exact hgrown

theorem addAssumeRolePolicy_leaves {view : Database → β}
    (hrole : roleTable.Hidden tenantDomain (rolePrefix ++ role) view)
    (hpolicy : PolicyHidden tenantDomain (tenancyPolicyName (rolePrefix ++ role)) view)
    (config : Config) (ctx : Context) (trustedRolePrefix : Str) (members : List Member) :
    Tx.Leaves view (addAssumeRolePolicy config ctx rolePrefix trustedRolePrefix role members
      tenantDomain) := by
  unfold addAssumeRolePolicy
  refine (Tx.Leaves.query _).bind fun original => ?_
  refine (processRole_leaves hrole rfl config original ctx.principal false).bind fun done => ?_
  refine (Tx.Leaves.ensure _ _).bind fun _ => Tx.Leaves.query_bind fun db => ?_
  have hput := processTenancyPolicy_leaves hpolicy
    (db.policyRow tenantDomain (tenancyPolicyName (rolePrefix ++ role)) none) trustedRolePrefix
  rw [← tenancyAssertions_eq _ _ rfl] at hput
  exact hput.bind fun done => .ensure _ _

end Provisioning

end Athenz.ZmsServer
