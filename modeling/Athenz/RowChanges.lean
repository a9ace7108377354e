import Athenz.Atomicity
import Athenz.MemberWrites
import Athenz.ProviderRoles

namespace Athenz.ZmsServer
open Lib Lib.Text Lib.Transaction Lib.Transaction.Tx
set_option autoImplicit true

section Puts

variable {table : Table S} {other : Table S'}

theorem Table.find_put_at (h : db.domains.lookup domainName = some row) (stored : Collection S)
    (otherDomain otherName : Str) :
    table.find ((table.focus domainName name).put db stored) otherDomain otherName =
      if otherDomain = domainName ∧ otherName = name then some stored
      else table.find db otherDomain otherName := by
  rw [Table.focus_put h]
  by_cases hdomain : otherDomain = domainName
  · rw [hdomain, Table.find, domainFocus, AList.lookup_insert, Option.bind_some, table.get_set,
      Map.lookup_insert, Table.find, h]
    simp only [true_and]
    rfl
  · rw [if_neg fun hsame => hdomain hsame.1, Table.find, domainFocus,
      AList.lookup_insert_ne hdomain]
    rfl

theorem Table.find_put_eq (h : table.find db domainName name = some stored)
    (stored' : Collection S) (otherDomain otherName : Str) :
    table.find ((table.focus domainName name).put db stored') otherDomain otherName =
      if otherDomain = domainName ∧ otherName = name then some stored'
      else table.find db otherDomain otherName := by
  obtain ⟨row, hrow, _⟩ := Option.bind_eq_some_iff.1 h
  exact Table.find_put_at hrow stored' otherDomain otherName

theorem Table.find_put_beside (hother : other.Apart table)
    (h : db.domains.lookup domainName = some row) (stored : Collection S)
    (otherDomain otherName : Str) :
    other.find ((table.focus domainName name).put db stored) otherDomain otherName =
      other.find db otherDomain otherName := by
  rw [Table.focus_put h]
  by_cases hdomain : otherDomain = domainName
  · rw [hdomain, Table.find, domainFocus, AList.lookup_insert, Option.bind_some, hother, Table.find, h]
    rfl
  · rw [Table.find, domainFocus, AList.lookup_insert_ne hdomain]
    rfl

end Puts

section Changes

/-- What stands beside the settings and the members has changed, if anything. -/
structure Collection.Beside (stored stored' : Collection S) : Prop where
  settings : stored'.settings = stored.settings
  members : stored'.members = stored.members
  pending : stored'.pending = stored.pending

/-- A property of the store survives such a change of the row. -/
def Table.Admits (table : Table S) (K : Database → Prop) (domainName name : Str)
    (R : Collection S → Collection S → Prop) : Prop :=
  ∀ db stored stored', table.find db domainName name = some stored → R stored stored' → K db →
    K ((table.focus domainName name).put db stored')

/-- A property of the store survives a new row. -/
def Table.AdmitsNew (table : Table S) (K : Database → Prop) (domainName name : Str) (settings : S) :
    Prop :=
  ∀ db row, db.domains.lookup domainName = some row → table.find db domainName name = none → K db →
    K ((table.focus domainName name).put db { settings := settings })

/-- A property of the store that is not about the rest of a row and the time of a domain. -/
structure Table.Ignores (table : Table S) (K : Database → Prop) (domainName name : Str) : Prop where
  beside : table.Admits K domainName name Collection.Beside
  stamp : ∀ time db, K db → K (stampDomain domainName time db)

variable {table : Table S} {K : Database → Prop} {R : Collection S → Collection S → Prop}

theorem onDomain_preserves {f : DomainRow → Except Failure (α × DomainRow)}
    (h : ∀ db row a row', db.domains.lookup domainName = some row → f row = .ok (a, row') → K db →
      K ((domainFocus domainName).put db row')) : Preserves K (onDomain domainName f) := by
  refine .statement fun time db a db' hdb hf => ?_
  split at hf
  · cases hf
  · rename_i row hrow
    cases hrun : f row with
    | error e =>
      rw [hrun] at hf
      cases hf
    | ok result =>
      rw [hrun] at hf
      cases hf
      exact h db row result.1 result.2 hrow hrun hdb

theorem Table.on_admits {f : Collection S → Except Failure (α × Collection S)}
    (hK : table.Admits K domainName name R)
    (h : ∀ stored a stored', f stored = .ok (a, stored') → R stored stored') :
    Preserves K (table.on domainName name f) := by
  refine onDomain_preserves fun db row a row' hrow hf hdb => ?_
  unfold Table.change at hf
  split at hf
  · cases hf
  · rename_i stored hstored
    cases hrun : f stored with
    | error e =>
      rw [hrun] at hf
      cases hf
    | ok result =>
      rw [hrun] at hf
      cases hf
      have hfind : table.find db domainName name = some stored := by
        rw [Table.find, hrow]
        exact hstored
      have hput := hK db stored result.2 hfind (h stored result.1 result.2 hrun) hdb
      rw [Table.focus_put hrow] at hput
      exact hput

theorem Table.insertRow_admits {settings : S} (hK : table.AdmitsNew K domainName name settings) :
    Preserves K (table.insertRow domainName name settings) := by
  refine onDomain_preserves fun db row a row' hrow hf hdb => ?_
  split at hf
  · cases hf
  · rename_i hnone
    cases hf
    have hfind : table.find db domainName name = none := by
      rw [Table.find, hrow]
      exact hnone
    have hput := hK db row hrow hfind hdb
    rw [Table.focus_put hrow] at hput
    exact hput

/-- Changes that leave the settings and the members are ignored. -/
theorem Table.Ignores.on (hK : table.Ignores K domainName name)
    {f : Collection S → Except Failure (α × Collection S)}
    (h : ∀ stored a stored', f stored = .ok (a, stored') → stored.Beside stored') :
    Preserves K (table.on domainName name f) :=
  Table.on_admits hK.beside h

theorem Table.Ignores.insertAuditLog (hK : table.Ignores K domainName name) (admin : Option Str)
    (member action : Str) : Preserves K (table.insertAuditLog domainName name admin member action) := by
  refine hK.on fun stored a stored' h => ?_
  cases h
  exact ⟨rfl, rfl, rfl⟩

theorem Table.Ignores.updateModTimestamp (hK : table.Ignores K domainName name) :
    Preserves K (table.updateModTimestamp domainName name) := by
  refine hK.on fun stored a stored' h => ?_
  cases h
  exact ⟨rfl, rfl, rfl⟩

theorem Table.Ignores.updateDomainModTimestamp (hK : table.Ignores K domainName name) :
    Preserves K (updateDomainModTimestamp domainName) := by
  refine .statement fun time db a db' hdb h => ?_
  cases h
  exact hK.stamp time db hdb

theorem Table.Ignores.insertTags [Collation] (hK : table.Ignores K domainName name) (limit : Nat)
    (tags : Tags) : Preserves K (table.insertTags limit name domainName tags) := by
  refine hK.on fun stored a stored' h => ?_
  cases hrows : ZmsServer.insertTags table.objectType limit tags stored.tags with
  | error e =>
    rw [hrows] at h
    cases h
  | ok rows =>
    rw [hrows] at h
    cases h
    exact ⟨rfl, rfl, rfl⟩

theorem Table.Ignores.deleteTags [Collation] (hK : table.Ignores K domainName name)
    (keys : List Column) : Preserves K (table.deleteTags name domainName keys) := by
  refine hK.on fun stored a stored' h => ?_
  cases h
  exact ⟨rfl, rfl, rfl⟩

theorem Table.Ignores.processTags [Collation] (hK : table.Ignores K domainName name) (limit : Nat)
    (tags : Option Tags) (originalTags : Option (Option Tags)) :
    Preserves K (processTags (table.insertTags limit name domainName)
      (table.deleteTags name domainName) tags originalTags) := by
  refine .ite (fun _ => .pure true) fun _ => ?_
  cases originalTags with
  | none => exact hK.insertTags limit _
  | some originalTags =>
    refine .ite (fun _ => .ite (fun _ => .pure true) fun _ => hK.insertTags limit _) fun _ => ?_
    cases tags with
    | none => exact .raise _
    | some tags => exact (hK.deleteTags _).both (hK.insertTags limit _)

end Changes

section Members

variable {table : Table S} {K : Database → Prop}

theorem Table.updateRow_admits {settings : S}
    (hK : table.Admits K domainName name fun stored stored' =>
      stored' = { stored with settings := settings }) :
    Preserves K (table.updateRow domainName name settings) := by
  refine Table.on_admits hK fun stored a stored' h => ?_
  cases h
  rfl

/-- A member joins, or waits. -/
def Table.Joins (table : Table S) (member : Member) (admin : Option Str)
    (stored stored' : Collection S) : Prop :=
  stored' = (stored.putMember table.keepsReview member admin).2

/-- A member leaves. -/
def Collection.Loses (memberName : Str) (stored stored' : Collection S) : Prop :=
  stored' = { stored with members := stored.members.erase memberName }

/-- A member that waits is approved. -/
def Table.Approves (table : Table S) (member : Member) (stored stored' : Collection S) : Prop :=
  stored.pending.lookup member.memberName ≠ none ∧ stored' = stored.approve table.keepsReview member

/-- A member does not wait any more. -/
def Collection.Decides (memberName : Str) (stored stored' : Collection S) : Prop :=
  stored' = { stored with pending := stored.pending.erase memberName }

theorem Table.Ignores.insertMember (hK : table.Ignores K domainName name) {member : Member}
    (hjoins : table.Admits K domainName name (table.Joins member admin)) :
    Preserves K (table.insertMember domainName name member admin) := by
  refine Preserves.bind ?_ fun action => ?_
  · refine (Preserves.query _).bind fun known => .ite (fun _ => .abort _) fun _ => ?_
    refine Table.on_admits hjoins fun stored a stored' h => ?_
    rw [Except.ok.injEq] at h
    exact (congrArg Prod.snd h).symm
  · cases action with
    | none => exact .pure true
    | some action => exact hK.insertAuditLog admin member.memberName action

theorem Table.Ignores.insertMembers (hK : table.Ignores K domainName name) {members : List Member}
    (hjoins : ∀ member ∈ members, table.Admits K domainName name (table.Joins member admin)) :
    Preserves K (Tx.forAll (fun member => table.insertMember domainName name member admin) members) :=
  .forAll fun member hmem => hK.insertMember (hjoins member hmem)

theorem Table.Ignores.deleteMember (hK : table.Ignores K domainName name)
    (hloses : table.Admits K domainName name (Collection.Loses memberName)) :
    Preserves K (table.deleteMember domainName name memberName admin) := by
  refine Preserves.bind ?_ fun deleted => .ite (fun _ => .pure false) fun _ =>
    hK.insertAuditLog admin memberName _
  refine Table.on_admits hloses fun stored a stored' h => ?_
  cases h
  rfl

theorem Table.erasePending_preserves
    (hdecides : table.Admits K domainName name (Collection.Decides memberName)) :
    Preserves K (table.erasePending domainName name memberName) := by
  refine Table.on_admits hdecides fun stored a stored' h => ?_
  cases h
  rfl

theorem Table.Ignores.deletePendingMember (hK : table.Ignores K domainName name)
    (hdecides : table.Admits K domainName name (Collection.Decides memberName)) :
    Preserves K (table.deletePendingMember domainName name memberName admin) :=
  (Table.erasePending_preserves hdecides).bind fun _ => .ite (fun _ => .pure false) fun _ =>
    hK.insertAuditLog admin memberName _

theorem Table.Ignores.confirmMember (hK : table.Ignores K domainName name) {member : Member}
    (happroves : member.approved = some true →
      table.Admits K domainName name (table.Approves member))
    (hdecides : table.Admits K domainName name (Collection.Decides member.memberName)) :
    Preserves K (table.confirmMember domainName name member admin) := by
  refine Preserves.bind ?_ fun _ => .ite (fun _ => ?_) fun _ =>
    hK.deletePendingMember hdecides
  · by_cases happroved : member.approved = some true
    · refine Table.on_admits (happroves happroved) fun stored a stored' h => ?_
      cases hpending : stored.pending.lookup member.memberName with
      | none =>
        rw [hpending] at h
        cases h
      | some row =>
        rw [hpending] at h
        dsimp only at h
        rw [if_pos happroved] at h
        cases h
        exact ⟨by rw [hpending]; nofun, rfl⟩
    · refine hK.on fun stored a stored' h => ?_
      cases hpending : stored.pending.lookup member.memberName with
      | none =>
        rw [hpending] at h
        cases h
      | some row =>
        rw [hpending] at h
        dsimp only at h
        rw [if_neg happroved] at h
        cases h
        exact ⟨rfl, rfl, rfl⟩
  · exact (hK.insertAuditLog admin member.memberName _).both
      ((Table.erasePending_preserves hdecides).bind fun _ => .pure true)

theorem Table.Ignores.processUpdateMembers [CaseRules] (hK : table.Ignores K domainName name)
    {members : Option (List Member)}
    (hjoins : ∀ member ∈ members.getD [],
      table.Admits K domainName name (table.Joins member admin))
    (hloses : ∀ memberName, table.Admits K domainName name (Collection.Loses memberName))
    (originalMembers : Option (List Member)) (ignoreDeletes : Bool) :
    Preserves K (table.processUpdateMembers originalMembers members ignoreDeletes domainName name
      admin) := by
  refine Preserves.both (.ite (fun _ => .pure true) fun _ => .forAll fun member _ =>
    hK.deleteMember (hloses member.memberName)) (hK.insertMembers fun member hmem => ?_)
  exact hjoins member (List.mem_of_mem_filter hmem)

end Members

section Requests

variable {table : Table S} {K : Database → Prop}

/-- What a request that puts an object with its members may do to the row. -/
structure Table.Takes (table : Table S) (K : Database → Prop) (domainName name : Str)
    (members : List Member) (admin : Option Str) : Prop where
  ignores : table.Ignores K domainName name
  created : ∀ settings, table.AdmitsNew K domainName name settings
  updated : ∀ settings, table.Admits K domainName name fun stored stored' =>
    stored' = { stored with settings := settings }
  joins : ∀ member ∈ members, table.Admits K domainName name (table.Joins member admin)
  loses : ∀ memberName, table.Admits K domainName name (Collection.Loses memberName)

variable [Collation] [CaseRules]

theorem Table.Takes.processRole {role : Role}
    (hK : roleTable.Takes K domainName roleName (role.roleMembers.getD []) admin)
    (hname : role.name = roleResourceName domainName roleName) (config : Config)
    (originalRole : Option Role) (ignoreDeletes : Bool) :
    Preserves K (processRole config originalRole domainName roleName role admin ignoreDeletes) := by
  have htags := hK.ignores.processTags config.roleTagsLimit role.tags
  cases originalRole with
  | none =>
    refine Preserves.both ?_ (Preserves.both (hK.ignores.insertMembers hK.joins) (htags none))
    rw [insertRole_eq (show { role with auditEnabled := some false }.name = _ from hname)]
    exact Table.insertRow_admits (hK.created _)
  | some original =>
    refine Preserves.both ?_ (Preserves.both
      (hK.ignores.processUpdateMembers hK.joins hK.loses original.roleMembers ignoreDeletes)
      (htags (some original.tags)))
    rw [updateRole_eq (show { role with auditEnabled := original.auditEnabled }.name = _ from hname)]
    exact Table.updateRow_admits (hK.updated _)

theorem Table.Takes.processGroup {group : Group}
    (hK : groupTable.Takes K domainName groupName (group.groupMembers.getD []) admin)
    (hname : group.name = domainName ++ ":group." ++ groupName) (config : Config)
    (originalGroup : Option Group) :
    Preserves K (processGroup config originalGroup domainName groupName group admin) := by
  have htags := hK.ignores.processTags config.groupTagsLimit group.tags
  cases originalGroup with
  | none =>
    refine Preserves.both ?_ (Preserves.both (hK.ignores.insertMembers hK.joins) (htags none))
    rw [insertGroup_eq (show { group with auditEnabled := some false }.name = _ from hname)]
    exact Table.insertRow_admits (hK.created _)
  | some original =>
    refine Preserves.both ?_ (Preserves.both
      (hK.ignores.processUpdateMembers hK.joins hK.loses original.groupMembers false)
      (htags (some original.tags)))
    rw [updateGroup_eq
      (show { group with auditEnabled := original.auditEnabled }.name = _ from hname)]
    exact Table.updateRow_admits (hK.updated _)

/-- A role that is reviewed is not put. -/
theorem putRoleBody_preserves {role : Role} {ctx : Context}
    (hname : role.name = roleResourceName domainName roleName) (config : Config)
    (hK : ∀ db, K db → (∃ stored, roleTable.find db domainName roleName = some stored ∧
        stored.settings.reviewEnabled = true) ∨
      roleTable.Takes K domainName roleName (role.roleMembers.getD []) ctx.principal) :
    Preserves K (putRoleBody config ctx domainName roleName role) := by
  refine ((checkDomainAuditEnabled_reading _ _ _ _).preserves K).bind fun _ =>
    ((checkRoleQuota_reading _ _ _).preserves K).bind fun _ => Preserves.query_bind fun db hdb => ?_
  refine Preserves.permit_bind fun hfree => ?_
  rcases hK db hdb with ⟨stored, hstored, hreviewed⟩ | htakes
  · rw [hstored, Option.map_some, Option.any_some, retrieveRole, hreviewed] at hfree
    simp only [nullIfDefaultValue, Bool.true_eq_false, ↓reduceIte, decide_true, Bool.or_true,
      Bool.not_true, Bool.false_eq_true] at hfree
  · exact (htakes.processRole hname config _ false).bind fun _ => .ensure _ _

/-- A group that is reviewed is not put. -/
theorem putGroupBody_preserves {group : Group} {ctx : Context}
    (hname : group.name = domainName ++ ":group." ++ groupName) (config : Config)
    (hK : ∀ db, K db → (∃ stored, groupTable.find db domainName groupName = some stored ∧
        stored.settings.reviewEnabled = true) ∨
      groupTable.Takes K domainName groupName (group.groupMembers.getD []) ctx.principal) :
    Preserves K (putGroupBody config ctx domainName groupName group) := by
  refine ((checkDomainAuditEnabled_reading _ _ _ _).preserves K).bind fun _ =>
    ((checkGroupQuota_reading _ _ _).preserves K).bind fun _ => Preserves.query_bind fun db hdb => ?_
  refine Preserves.permit_bind fun hfree => ?_
  rcases hK db hdb with ⟨stored, hstored, hreviewed⟩ | htakes
  · rw [hstored, Option.map_some, Option.any_some, retrieveGroup, hreviewed] at hfree
    simp only [nullIfDefaultValue, Bool.true_eq_false, ↓reduceIte, decide_true, Bool.or_true,
      Bool.not_true, Bool.false_eq_true] at hfree
  · exact (htakes.processGroup hname config _).bind fun _ => .ensure _ _

end Requests

section Watched

variable {table : Table S} {I : Collection S → Prop} {R : Collection S → Collection S → Prop}

/-- The property of a row is not about what stands beside the settings and the members. -/
def BesideClosed (I : Collection S → Prop) : Prop :=
  ∀ stored stored', stored.Beside stored' → I stored → I stored'

/-- A property of one row survives the changes of this row that it allows, and all others. -/
theorem Table.Holds.admits
    (h : otherDomain = domainName → other = name → ∀ stored stored', R stored stored' → I stored →
      I stored') : table.Admits (table.Holds domainName name I) otherDomain other R := by
  intro db stored stored' hstored hR hdb
  rcases hdb with ⟨found, hfound, hI⟩
  by_cases hsame : domainName = otherDomain ∧ name = other
  · rcases hsame with ⟨rfl, rfl⟩
    rw [hstored, Option.some.injEq] at hfound
    rw [← hfound] at hI
    have hget := (table.focus domainName name).get_put hstored stored'
    exact ⟨stored', hget, h rfl rfl stored stored' hR hI⟩
  · have hkept : table.find ((table.focus otherDomain other).put db stored') domainName name =
        some found := by
      rw [Table.find_put_eq hstored, if_neg hsame]
      exact hfound
    exact ⟨found, hkept, hI⟩

theorem Table.Holds.admitsNew (settings : S) :
    table.AdmitsNew (table.Holds domainName name I) otherDomain other settings := by
  intro db row hrow hnone hdb
  rcases hdb with ⟨found, hfound, hI⟩
  have hother : ¬ (domainName = otherDomain ∧ name = other) := by
    rintro ⟨rfl, rfl⟩
    rw [hnone] at hfound
    cases hfound
  have hkept : table.find ((table.focus otherDomain other).put db { settings := settings })
      domainName name = some found := by
    rw [Table.find_put_at hrow, if_neg hother]
    exact hfound
  exact ⟨found, hkept, hI⟩

theorem BesideClosed.ignores (hI : BesideClosed I) (htimeless : table.Timeless) :
    table.Ignores (table.Holds domainName name I) otherDomain other where
  beside := Table.Holds.admits fun _ _ => hI
  stamp time _ h := h.stamp htimeless otherDomain time

/-- Another object may be put. -/
theorem BesideClosed.takes (hI : BesideClosed I) (htimeless : table.Timeless)
    (hother : ¬ (otherDomain = domainName ∧ other = name)) (members : List Member)
    (admin : Option Str) :
    table.Takes (table.Holds domainName name I) otherDomain other members admin where
  ignores := hI.ignores htimeless
  created := Table.Holds.admitsNew
  updated _ := Table.Holds.admits fun hdomain hname => absurd ⟨hdomain, hname⟩ hother
  joins _ _ := Table.Holds.admits fun hdomain hname => absurd ⟨hdomain, hname⟩ hother
  loses _ := Table.Holds.admits fun hdomain hname => absurd ⟨hdomain, hname⟩ hother

end Watched

section Memberships

variable {table : Table S} {K : Database → Prop}

theorem putMembershipBody_preserves (config : Config) {ctx : Context} {roleMember : Member}
    (hK : roleTable.Ignores K domainName roleName)
    (hjoins : roleTable.Admits K domainName roleName (roleTable.Joins roleMember ctx.principal)) :
    Preserves K (putMembershipBody config ctx domainName roleName roleMember) :=
  ((checkMembership_reading _ _ _ _).preserves K).bind fun _ =>
    (hK.insertMember hjoins).bind fun _ => (Preserves.ensure _ _).bind fun _ =>
      hK.updateModTimestamp.bind fun _ => hK.updateDomainModTimestamp

theorem putGroupMembershipBody_preserves (config : Config) {ctx : Context}
    (auditEnabled : Option Bool) {groupMember : Member}
    (hK : groupTable.Ignores K domainName groupName)
    (hjoins : groupTable.Admits K domainName groupName (groupTable.Joins groupMember ctx.principal)) :
    Preserves K (putGroupMembershipBody config ctx domainName groupName auditEnabled groupMember) :=
  ((checkDomainAuditEnabled_reading _ _ _ _).preserves K).bind fun _ =>
    ((checkObjectAuditEnabled_reading _ _ _ _).preserves K).bind fun _ =>
      ((checkGroupMembershipQuota_reading _ _ _).preserves K).bind fun _ =>
        (hK.insertMember hjoins).bind fun _ => (Preserves.ensure _ _).bind fun _ =>
          hK.updateModTimestamp.bind fun _ => hK.updateDomainModTimestamp

theorem putMembershipDecisionBody_preserves (config : Config) {ctx : Context} {roleMember : Member}
    (hK : roleTable.Ignores K domainName roleName)
    (happroves : roleMember.approved = some true →
      roleTable.Admits K domainName roleName (roleTable.Approves roleMember))
    (hdecides : roleTable.Admits K domainName roleName
      (Collection.Decides roleMember.memberName)) :
    Preserves K (putMembershipDecisionBody config ctx domainName roleName roleMember) := by
  refine (Preserves.query _).bind fun found => ?_
  cases found with
  | none => exact .abort _
  | some stored =>
    exact ((checkObjectAuditEnabled_reading _ _ _ _).preserves K).bind fun _ =>
      (hK.confirmMember happroves hdecides).bind fun _ => (Preserves.ensure _ _).bind fun _ =>
        hK.updateModTimestamp.bind fun _ => .pure ()

theorem putGroupMembershipDecisionBody_preserves (config : Config) {ctx : Context}
    (auditEnabled : Option Bool) {groupMember : Member}
    (hK : groupTable.Ignores K domainName groupName)
    (happroves : groupMember.approved = some true →
      groupTable.Admits K domainName groupName (groupTable.Approves groupMember))
    (hdecides : groupTable.Admits K domainName groupName
      (Collection.Decides groupMember.memberName)) :
    Preserves K
      (putGroupMembershipDecisionBody config ctx domainName groupName auditEnabled groupMember) :=
  ((checkObjectAuditEnabled_reading _ _ _ _).preserves K).bind fun _ =>
    (hK.confirmMember happroves hdecides).bind fun _ => (Preserves.ensure _ _).bind fun _ =>
      hK.updateModTimestamp.bind fun _ => .pure ()

theorem Table.Ignores.removalBody (hK : table.Ignores K domainName name) (config : Config)
    (ctx : Context) (objectType : AuditType) {remove : Op Bool} (hremove : Preserves K remove)
    (failure : Failure) :
    Preserves K (table.removalBody config ctx objectType domainName name remove failure) :=
  ((checkDomainAuditEnabled_reading _ _ _ _).preserves K).bind fun _ =>
    hremove.bind fun _ => (Preserves.ensure _ _).bind fun _ =>
      hK.updateModTimestamp.bind fun _ => hK.updateDomainModTimestamp

end Memberships

end Athenz.ZmsServer
