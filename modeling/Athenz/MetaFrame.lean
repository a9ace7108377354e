import Athenz.DbServiceMeta
import Athenz.DbServiceWhole
import Athenz.StoreSpec

namespace Athenz.ZmsServer
open Lib Lib.Text Lib.Transaction Tx
set_option autoImplicit true

section Rows

/-- A role as it is read. -/
def saveRole (domainName roleName : Str) (stored : Collection RoleSettings) : Role :=
  let role := retrieveRole domainName roleName stored.settings
  { role with
    roleMembers := if role.trust = none then some stored.listMembers else none
    tags := tagsOf stored.tags }

/-- A group as it is read. -/
def saveGroup (domainName groupName : Str) (stored : Collection GroupSettings) : Group :=
  { retrieveGroup domainName groupName stored.settings with
    groupMembers := some stored.listMembers
    tags := tagsOf stored.tags }

theorem getRole_eq [Collation] (domainName roleName : Str) : getRole domainName roleName =
    Tx.query fun db => (roleTable.find db domainName roleName).map (saveRole domainName roleName) :=
  rfl

theorem getGroup_eq [Collation] (domainName groupName : Str) : getGroup domainName groupName =
    Tx.query fun db =>
      (groupTable.find db domainName groupName).map (saveGroup domainName groupName) :=
  rfl

/-- A system update of a role loses the two user authority attributes. -/
def RoleSettings.systemUpdated (settings : RoleSettings) (auditEnabled : Bool) : RoleSettings :=
  { settings with
    auditEnabled := auditEnabled
    userAuthorityFilter := processInsertValue none
    userAuthorityExpiration := processInsertValue none }

def GroupSettings.systemUpdated (settings : GroupSettings) (auditEnabled : Bool) : GroupSettings :=
  { settings with auditEnabled := auditEnabled }

theorem systemUpdated_frame_iff (settings : RoleSettings) (auditEnabled : Bool) :
    settings.systemUpdated auditEnabled = { settings with auditEnabled := auditEnabled } ↔
      settings.userAuthorityFilter.1 = [] ∧ settings.userAuthorityExpiration.1 = [] := by
  have hempty : ∀ column : Column, processInsertValue none = column ↔ column.1 = [] := by
    intro column
    exact ⟨fun h => h ▸ rfl, fun h => Subtype.ext h.symm⟩
  rw [← hempty, ← hempty]
  constructor
  · intro h
    exact ⟨congrArg RoleSettings.userAuthorityFilter h,
      congrArg RoleSettings.userAuthorityExpiration h⟩
  · rintro ⟨hfilter, hexpiration⟩
    unfold RoleSettings.systemUpdated
    rw [← hfilter, ← hexpiration]

theorem settings_copyForSystemMeta (domainName roleName : Str) (stored : Collection RoleSettings)
    (auditEnabled : Option Bool) :
    Role.settings { copyForSystemMeta (saveRole domainName roleName stored) with
      auditEnabled := auditEnabled } =
      stored.settings.systemUpdated (auditEnabled.getD false) := by
  unfold copyForSystemMeta saveRole retrieveRole Role.settings RoleSettings.systemUpdated
  dsimp only
  simp only [getD_nullIfDefaultValue, processInsertValue_saveValue]

theorem settings_copyGroup (domainName groupName : Str) (stored : Collection GroupSettings)
    (auditEnabled : Option Bool) :
    Group.settings { copyGroup (saveGroup domainName groupName stored) with
      auditEnabled := auditEnabled } =
      stored.settings.systemUpdated (auditEnabled.getD false) := by
  unfold copyGroup saveGroup retrieveGroup Group.settings GroupSettings.systemUpdated
  dsimp only
  simp only [getD_nullIfDefaultValue, processInsertValue_saveValue]

/-- The attributes of the request, and those of the row where the request has none. -/
def RoleMeta.apply (request : RoleMeta) (settings : RoleSettings) : RoleSettings where
  trust := settings.trust
  auditEnabled := settings.auditEnabled
  selfServe := request.selfServe.getD settings.selfServe
  memberExpiryDays := request.memberExpiryDays.getD settings.memberExpiryDays
  tokenExpiryMins := request.tokenExpiryMins.getD settings.tokenExpiryMins
  certExpiryMins := request.certExpiryMins.getD settings.certExpiryMins
  signAlgorithm := request.signAlgorithm.elim settings.signAlgorithm (processInsertValue ·)
  serviceExpiryDays := request.serviceExpiryDays.getD settings.serviceExpiryDays
  memberReviewDays := request.memberReviewDays.getD settings.memberReviewDays
  serviceReviewDays := request.serviceReviewDays.getD settings.serviceReviewDays
  groupReviewDays := request.groupReviewDays.getD settings.groupReviewDays
  reviewEnabled := request.reviewEnabled.getD settings.reviewEnabled
  notifyRoles := request.notifyRoles.elim settings.notifyRoles (processInsertValue ·)
  userAuthorityFilter :=
    request.userAuthorityFilter.elim settings.userAuthorityFilter (processInsertValue ·)
  userAuthorityExpiration :=
    request.userAuthorityExpiration.elim settings.userAuthorityExpiration (processInsertValue ·)
  groupExpiryDays := request.groupExpiryDays.getD settings.groupExpiryDays

theorem getD_or_nullIfDefaultValue [DecidableEq α] (requested : Option α) (value defaultValue : α) :
    (requested.or (nullIfDefaultValue value defaultValue)).getD defaultValue =
      requested.getD value := by
  cases requested with
  | none => exact getD_nullIfDefaultValue value defaultValue
  | some requested => rfl

theorem processInsertValue_or_saveValue (requested : Option Str) (value : Column) :
    processInsertValue (requested.or (saveValue value)) =
      requested.elim value (processInsertValue ·) := by
  cases requested with
  | none => exact processInsertValue_saveValue value
  | some requested => rfl

theorem settings_updateRoleMetaFields (domainName roleName : Str) (stored : Collection RoleSettings)
    (request : RoleMeta) :
    (updateRoleMetaFields (copyRole (saveRole domainName roleName stored)) request).settings =
      request.apply stored.settings := by
  unfold updateRoleMetaFields copyRole copyForSystemMeta saveRole retrieveRole Role.settings
    RoleMeta.apply
  dsimp only
  simp only [getD_or_nullIfDefaultValue, processInsertValue_or_saveValue, getD_nullIfDefaultValue,
    processInsertValue_saveValue]

end Rows

section Rewrites

/-- A row is read and written back, with its settings changed. -/
def Table.rewrite (table : Table S) (domainName name : Str) (prepare : Collection S → Op Bool)
    (update : S → S) : Op Unit := do
  match ← Tx.query fun db => table.find db domainName name with
  | none => Tx.raise .nullPointer
  | some stored => do
    let _ ← prepare stored
    let _ ← table.updateRow domainName name (update stored.settings)

variable {table : Table S} {update : S → S} {prepare : Collection S → Op Bool}

theorem Table.rewrite_preserves {before : Collection S} (hidem : ∀ s, update (update s) = update s)
    (hprepare : ∀ stored, Reading (prepare stored)) :
    Preserves (table.Holds domainName name fun stored => stored = before ∨
      stored = { before with settings := update before.settings })
      (table.rewrite domainName name prepare update) := by
  refine Preserves.query_bind fun db ⟨stored, hfind, hstored⟩ => ?_
  rw [hfind]
  refine ((hprepare stored).preserves _).bind fun _ =>
    (Table.updateRow_maintains fun found hfound => ?_).preserves.bind fun _ => .pure ()
  have hsettings : update stored.settings = update before.settings := by
    obtain rfl | rfl := hstored
    · rfl
    · exact hidem _
  rw [hsettings]
  right
  obtain rfl | rfl := hfound
  · rfl
  · rfl

theorem Table.rewrite_returns {before : Collection S} (hidem : ∀ s, update (update s) = update s)
    (hprepare : ∀ stored, Reading (prepare stored)) :
    Returns (table.rewrite domainName name prepare update) fun db _ db' =>
      table.Holds domainName name (fun stored => stored = before ∨
        stored = { before with settings := update before.settings }) db →
      table.Holds domainName name
        (fun stored => stored = { before with settings := update before.settings }) db' := by
  refine (Returns.query_bind (T := fun db db₁ _ db' => db₁ = db →
    table.Holds domainName name (fun stored => stored = before ∨
        stored = { before with settings := update before.settings }) db →
      table.Holds domainName name
        (fun stored => stored = { before with settings := update before.settings }) db') ?_).mono
    fun _ _ _ h => h rfl
  intro db
  cases hfind : table.find db domainName name with
  | none => exact (Returns.raise _).mono fun _ _ _ h => h.elim
  | some stored =>
    refine (hprepare stored).returns_bind fun _ =>
      (((table.updateRow_returns _).bind fun _ => .pure ()).mono ?_)
    rintro db₁ _ db' ⟨_, _, ⟨found, hfound, rfl⟩, _, rfl⟩ rfl ⟨stored₁, hstored₁, hcase⟩
    cases hfind.symm.trans hfound
    cases hfind.symm.trans hstored₁
    refine ⟨_, (table.focus domainName name).get_put hfind _, ?_⟩
    obtain rfl | rfl := hcase
    · rfl
    · exact congrArg (fun s => { before with settings := s }) (hidem _)

/-- A run that succeeds has changed the settings and nothing else of the row. -/
theorem Table.execute_rewrite {config : Config} {checks : Op Unit} (update : S → S)
    (htable : table.Timeless)
    (hidem : ∀ s, update (update s) = update s) (hchecks : Reading checks)
    (hprepare : ∀ stored, Reading (prepare stored))
    (hbefore : table.find db domainName name = some before)
    (h : execute config domainName (checks >>= fun _ =>
      table.rewrite domainName name prepare update) db events = (.ok (), db')) :
    table.find db' domainName name = some { before with settings := update before.settings } := by
  have hstamp : ∀ {I : Collection S → Prop} time db, table.Holds domainName name I db →
      table.Holds domainName name I (stampDomain domainName time db) :=
    fun time db hdb => hdb.stamp htable domainName time
  have hdone := attempts_establishes
    (((hchecks.preserves _).bind fun _ => Table.rewrite_preserves hidem hprepare).saved hstamp)
    (Establishes.saved (hchecks.returns_bind fun _ => Table.rewrite_returns hidem hprepare) hstamp)
    ⟨before, hbefore, .inl rfl⟩ h
  obtain ⟨stored, hstored, rfl⟩ := hdone
  exact hstored

end Rewrites

section SystemMeta

theorem checkDomainAudit_reading (config : Config) (ctx : Context) (domain : Domain)
    (objectType : AuditType) : Reading (checkDomainAudit config ctx domain objectType) :=
  .ite (auditReferenceCheck_reading _ _ _) (.pure ())

theorem checkGroupMemberAudit_reading (config : Config) (memberName : Str) :
    Reading (checkGroupMemberAudit config memberName) := by
  unfold checkGroupMemberAudit
  split
  · refine (Reading.query _).bind fun group => ?_
    cases group with
    | none => exact .raise _
    | some group => exact (Reading.permit _ _).bind fun _ => .pure true
  · exact .pure true

theorem checkGroupMembersAudit_reading (config : Config) (auditEnabled : Option Bool) (role : Role) :
    Reading (checkGroupMembersAudit config auditEnabled role) :=
  .ite (.forAll (fun _ => checkGroupMemberAudit_reading _ _) _) (.pure true)

theorem checkSystemMeta_reading (config : Config) (ctx : Context) (domainName : Str)
    (objectType : AuditType) (message : Str) :
    Reading (checkSystemMeta config ctx domainName objectType message) := by
  refine (Reading.query _).bind fun domain => ?_
  cases domain with
  | none => exact .abort _
  | some domain => exact (checkDomainAudit_reading _ _ _ _).bind fun _ => .permit _ _

variable [Collation]

theorem putRoleSystemMetaBody_eq (config : Config) (ctx : Context) (domainName roleName : Str)
    (auditEnabled : Option Bool) :
    putRoleSystemMetaBody config ctx domainName roleName auditEnabled =
      checkSystemMeta config ctx domainName .role (ctx.caller ++
        ": auditEnabled flag not set for domain: ".toList ++ domainName ++
        " to add it on the role: ".toList ++ roleName) >>= fun _ =>
      roleTable.rewrite domainName roleName
        (fun stored => checkGroupMembersAudit config auditEnabled
          (saveRole domainName roleName stored))
        (·.systemUpdated (auditEnabled.getD false)) := by
  unfold putRoleSystemMetaBody
  refine congrArg _ (funext fun _ => ?_)
  rw [getRole_eq, query_map_bind]
  refine congrArg _ (funext fun found => ?_)
  cases found with
  | none => rfl
  | some stored =>
    dsimp only [Option.map_some]
    rw [updateRole_eq rfl, settings_copyForSystemMeta]

theorem putGroupSystemMetaBody_eq (config : Config) (ctx : Context) (domainName groupName : Str)
    (auditEnabled : Option Bool) :
    putGroupSystemMetaBody config ctx domainName groupName auditEnabled =
      checkSystemMeta config ctx domainName .group ("auditEnabled flag not set for domain: ".toList ++
        domainName ++ " to add it on the group: ".toList ++ groupName) >>= fun _ =>
      groupTable.rewrite domainName groupName (fun _ => pure true)
        (·.systemUpdated (auditEnabled.getD false)) := by
  unfold putGroupSystemMetaBody
  refine congrArg _ (funext fun _ => ?_)
  rw [getGroup_eq, query_map_bind]
  refine congrArg _ (funext fun found => ?_)
  cases found with
  | none => rfl
  | some stored =>
    dsimp only [Option.map_some]
    rw [updateGroup_eq rfl, settings_copyGroup]
    rfl

theorem executePutRoleSystemMeta_row {config : Config}
    (hbefore : roleTable.find db domainName roleName = some before)
    (h : executePutRoleSystemMeta config ctx domainName roleName auditEnabled db events =
      (.ok (), db')) :
    roleTable.find db' domainName roleName = some { before with
      settings := before.settings.systemUpdated (auditEnabled.getD false) } := by
  unfold executePutRoleSystemMeta at h
  rw [putRoleSystemMetaBody_eq] at h
  exact Table.execute_rewrite (fun settings : RoleSettings => settings.systemUpdated _)
    roleTable_timeless (fun _ => rfl) (checkSystemMeta_reading _ _ _ _ _)
    (fun _ => checkGroupMembersAudit_reading _ _ _) hbefore h

theorem executePutGroupSystemMeta_row {config : Config}
    (hbefore : groupTable.find db domainName groupName = some before)
    (h : executePutGroupSystemMeta config ctx domainName groupName auditEnabled db events =
      (.ok (), db')) :
    groupTable.find db' domainName groupName = some { before with
      settings := before.settings.systemUpdated (auditEnabled.getD false) } := by
  unfold executePutGroupSystemMeta at h
  rw [putGroupSystemMetaBody_eq] at h
  exact Table.execute_rewrite (fun settings : GroupSettings => settings.systemUpdated _)
    groupTable_timeless (fun _ => rfl) (checkSystemMeta_reading _ _ _ _ _)
    (fun _ => .pure true) hbefore h

end SystemMeta

section Members

/-- A property of the settings and the tags of a row. -/
def RowOnly (I : Collection S → Prop) : Prop :=
  ∀ stored stored', stored'.settings = stored.settings → stored'.tags = stored.tags →
    I stored → I stored'

variable {table : Table S} {I : Collection S → Prop}

theorem RowOnly.on (hI : RowOnly I) {f : Collection S → Except Failure (α × Collection S)}
    (h : ∀ stored a stored', f stored = .ok (a, stored') →
      stored'.settings = stored.settings ∧ stored'.tags = stored.tags) :
    Preserves (table.Holds domainName name I) (table.on domainName name f) :=
  (Table.on_maintains fun stored a stored' hstored hf =>
    hI stored stored' (h stored a stored' hf).1 (h stored a stored' hf).2 hstored).preserves

theorem RowOnly.insertAuditLog (hI : RowOnly I) (admin : Option Str) (member action : Str) :
    Preserves (table.Holds domainName name I)
      (table.insertAuditLog domainName name admin member action) := by
  refine hI.on fun stored a stored' h => ?_
  cases h
  exact ⟨rfl, rfl⟩

theorem putMember_row (keepsReview : Bool) (member : Member) (admin : Option Str)
    (stored : Collection S) :
    (stored.putMember keepsReview member admin).2.settings = stored.settings ∧
      (stored.putMember keepsReview member admin).2.tags = stored.tags := by
  unfold Collection.putMember
  split
  · exact ⟨rfl, rfl⟩
  · exact ⟨rfl, rfl⟩

theorem RowOnly.insertMember (hI : RowOnly I) (member : Member) (admin : Option Str) :
    Preserves (table.Holds domainName name I)
      (table.insertMember domainName name member admin) := by
  refine Preserves.bind ?_ fun action => ?_
  · refine (Preserves.query _).bind fun known => .ite (fun _ => .abort _) fun _ => ?_
    refine hI.on fun stored a stored' h => ?_
    rw [Except.ok.injEq] at h
    have hrow : stored' = (stored.putMember table.keepsReview member admin).2 := (congrArg Prod.snd h).symm
    rw [hrow]
    exact putMember_row table.keepsReview member admin stored
  · cases action with
    | none => exact .pure true
    | some action => exact hI.insertAuditLog _ _ _

theorem RowOnly.updateMemberDisabledState (hI : RowOnly I) (memberName : Str) (admin : Option Str)
    (disabledState : Nat) : Preserves (table.Holds domainName name I)
      (table.updateMemberDisabledState domainName name memberName admin disabledState) := by
  refine Preserves.bind ?_ fun updated => .ite (fun _ => .pure false) fun _ =>
    hI.insertAuditLog _ _ _
  refine hI.on fun stored a stored' h => ?_
  split at h
  · cases h
    exact ⟨rfl, rfl⟩
  · cases h
    exact ⟨rfl, rfl⟩

theorem tryEach_preserves {K : Database → Prop} {step : Member → Op Bool}
    (h : ∀ member, Preserves K (step member)) (members : List Member) :
    Preserves K (tryEach step members) := by
  induction members with
  | nil => exact .pure false
  | cons member members ih =>
    exact (h member).quietly.bind fun _ => ih.bind fun _ => .pure _

theorem RowOnly.touch (hI : RowOnly I) (htable : table.Timeless) (changed : Bool) :
    Preserves (table.Holds domainName name I) (table.touch domainName name changed) := by
  refine .ite (fun _ => ?_) fun _ => .pure ()
  refine (hI.on fun stored a stored' h => ?_).bind fun _ =>
    updateDomainModTimestamp_preserves htable domainName
  cases h
  exact ⟨rfl, rfl⟩

theorem RowOnly.updateMembersDueDates (hI : RowOnly I) (htable : table.Timeless) (config : Config)
    (ctx : Context) (now : Int) (limits : DueLimits) (members : List Member) :
    Preserves (table.Holds domainName name I)
      (table.updateMembersDueDates config ctx now domainName name limits members) :=
  .ite (fun _ => .pure ()) fun _ =>
    (tryEach_preserves (fun _ => hI.insertMember _ _) _).bind fun _ => hI.touch htable _

theorem RowOnly.updateMembersSystemDisabledState (hI : RowOnly I) (htable : table.Timeless)
    (config : Config) (ctx : Context) (filter : Option Str) (members : List Member) :
    Preserves (table.Holds domainName name I)
      (table.updateMembersSystemDisabledState config ctx domainName name filter members) :=
  (Preserves.query _).bind fun _ =>
    (tryEach_preserves (fun _ => hI.updateMemberDisabledState _ _ _) _).bind fun _ =>
      hI.touch htable _

end Members

section TagUpdates

theorem tagChanges_self (tags : Tags) : tagChanges tags tags = ([], ∅) := by
  have hsame : ∀ entry ∈ tags.entries, ¬ decide (tags.lookup entry.1 ≠ some entry.2) = true := by
    intro entry hentry hne
    exact of_decide_eq_true hne (Map.mem_entries_iff.1 hentry)
  have hnone : (tags.filter fun key values => tags.lookup key ≠ some values) = ∅ :=
    AList.ext (List.filter_eq_nil_iff.2 hsame)
  unfold tagChanges
  rw [hnone]
  rfl

variable [Collation] {table : Table S} {I : Collection S → Prop}

theorem Table.insertTags_maintains {limit : Nat} {tags : Tags}
    (hI : ∀ stored rows, I stored → ZmsServer.insertTags table.objectType limit tags stored.tags =
      .ok rows → I { stored with tags := rows }) :
    Maintains (table.Holds domainName name I) (table.insertTags limit name domainName tags) := by
  refine Table.on_maintains fun stored a stored' hstored h => ?_
  cases hrows : ZmsServer.insertTags table.objectType limit tags stored.tags with
  | error e =>
    rw [hrows] at h
    cases h
  | ok rows =>
    rw [hrows] at h
    cases h
    exact hI stored rows hstored hrows

theorem insertTags_empty (h : ZmsServer.insertTags objectType limit ∅ stored = .ok rows) :
    rows = stored := by
  unfold ZmsServer.insertTags at h
  split at h
  · cases h
  · exact (Except.ok.inj h).symm

/-- Tags that are compared with themselves stay. -/
theorem Table.processUpdateTags_self (limit : Nat) (tags : Option Tags) :
    Maintains (table.Holds domainName name I) (processUpdateTags
      (table.insertTags limit name domainName) (table.deleteTags name domainName) tags tags) := by
  refine .ite (fun hempty => ?_) fun hsome => ?_
  · rw [if_pos hempty]
    exact .pure true
  · cases tags with
    | none => exact absurd rfl hsome
    | some tags =>
      dsimp only [Option.getD_some]
      rw [tagChanges_self]
      refine Maintains.both (Table.on_maintains fun stored a stored' hI h => ?_)
        (Table.insertTags_maintains fun stored rows hI h => ?_)
      · cases h
        exact hI
      · rw [insertTags_empty h]
        exact hI

theorem Table.processUpdateTags_maintains
    (hI : ∀ stored tags, I stored → I { stored with tags := tags })
    (limit : Nat) (tags originalTags : Option Tags) :
    Maintains (table.Holds domainName name I) (processUpdateTags
      (table.insertTags limit name domainName) (table.deleteTags name domainName) tags
      originalTags) := by
  have hinsert : ∀ tags, Maintains (table.Holds domainName name I)
      (table.insertTags limit name domainName tags) :=
    fun tags => Table.insertTags_maintains fun stored rows hstored _ => hI stored rows hstored
  have hdelete : ∀ keys, Maintains (table.Holds domainName name I)
      (table.deleteTags name domainName keys) := by
    refine fun keys => Table.on_maintains fun stored a stored' hstored h => ?_
    cases h
    exact hI _ _ hstored
  refine .ite (fun _ => .ite (fun _ => .pure true) fun _ => hinsert _) fun _ => ?_
  cases tags with
  | none => exact .raise _
  | some tags => exact (hdelete _).both (hinsert _)

end TagUpdates

section RoleMetadata

/-- The request has no attribute that reaches the members. -/
structure RoleMeta.LeavesMembers (request : RoleMeta) : Prop where
  memberExpiryDays : request.memberExpiryDays = none
  serviceExpiryDays : request.serviceExpiryDays = none
  groupExpiryDays : request.groupExpiryDays = none
  memberReviewDays : request.memberReviewDays = none
  serviceReviewDays : request.serviceReviewDays = none
  groupReviewDays : request.groupReviewDays = none
  userAuthorityFilter : request.userAuthorityFilter = none
  userAuthorityExpiration : request.userAuthorityExpiration = none

/-- What a request leaves of a row besides the settings. -/
structure RoleMeta.Leaves (request : RoleMeta) (before after : Collection RoleSettings) : Prop where
  tags : request.tags = none → after.tags = before.tags
  members : request.LeavesMembers → after.members = before.members ∧
    after.pending = before.pending ∧ after.auditLog = before.auditLog

theorem RoleMeta.Leaves.refl (request : RoleMeta) (before : Collection RoleSettings) :
    request.Leaves before before := ⟨fun _ => rfl, fun _ => ⟨rfl, rfl, rfl⟩⟩

theorem isNumOfDaysReduced_self (days : Option Int) : isNumOfDaysReduced days days = false := by
  cases days with
  | none => rfl
  | some days =>
    unfold isNumOfDaysReduced
    simp only [Option.any_some, Option.all_some, Bool.and_eq_false_imp, decide_eq_true_eq,
      Bool.or_eq_false_iff, decide_eq_false_iff_not]
    omega

theorem dueLimit_self (now : Int) (days : Option Int) : dueLimit now days days = none := by
  rw [dueLimit, isNumOfDaysReduced_self]
  rfl

variable [CaseRules]

theorem isUserAuthorityExpiryChanged_self (config : Config) (value : Option Str) :
    isUserAuthorityExpiryChanged config value value = false := by
  unfold isUserAuthorityExpiryChanged
  cases emptyToNull value with
  | none => rw [Option.any_none, Bool.and_false]
  | some value => rw [Option.any_some, Option.all_some, equalsIgnoreCase_refl, Bool.not_true,
      Bool.and_false]

theorem isUserAuthorityFilterChanged_self (config : Config) (value : Option Str) :
    isUserAuthorityFilterChanged config value value = false := by
  unfold isUserAuthorityFilterChanged
  cases emptyToNull value with
  | none => rw [Bool.and_false]
  | some value => dsimp only; rw [equalsIgnoreCase_refl, Bool.not_true, Bool.and_false]

theorem roleDueLimits_leavesMembers {request : RoleMeta} (h : request.LeavesMembers)
    (config : Config) (now : Int) (role : Role) :
    roleDueLimits config now role (updateRoleMetaFields (copyRole role) request) = {} := by
  unfold roleDueLimits updateRoleMetaFields copyRole copyForSystemMeta
  dsimp only
  simp only [h.memberExpiryDays, h.serviceExpiryDays, h.groupExpiryDays, h.memberReviewDays,
    h.serviceReviewDays, h.groupReviewDays, h.userAuthorityExpiration, Option.none_or, dueLimit_self,
    isUserAuthorityExpiryChanged_self, Bool.false_eq_true, if_false]

theorem updateRoleMembersDueDates_leaves {request : RoleMeta} (h : request.LeavesMembers)
    (config : Config) (ctx : Context) (now : Int) (domainName roleName : Str) (role : Role) :
    updateRoleMembersDueDates config ctx now domainName roleName role
      (updateRoleMetaFields (copyRole role) request) = pure () := by
  unfold updateRoleMembersDueDates Table.updateMembersDueDates
  rw [roleDueLimits_leavesMembers h, if_pos rfl, ite_self]

theorem updateRoleMembersSystemDisabledState_leaves {request : RoleMeta} (h : request.LeavesMembers)
    (config : Config) (ctx : Context) (domainName roleName : Str) (role : Role) :
    updateRoleMembersSystemDisabledState config ctx domainName roleName role
      (updateRoleMetaFields (copyRole role) request) = pure () := by
  unfold updateRoleMembersSystemDisabledState
  have hfilter : (updateRoleMetaFields (copyRole role) request).userAuthorityFilter =
      role.userAuthorityFilter := by
    unfold updateRoleMetaFields copyRole
    dsimp only
    rw [h.userAuthorityFilter, Option.none_or]
  rw [hfilter, isUserAuthorityFilterChanged_self]
  simp only [Bool.false_eq_true, if_false, ite_self]

end RoleMetadata

section RoleMetaBody

variable [Collation]

/-- The tag update of a request keeps what the request leaves. -/
theorem processRoleMetaTags_maintains (P : RoleSettings → Prop) (config : Config)
    (domainName roleName : Str) (before : Collection RoleSettings) (request : RoleMeta) :
    Maintains (roleTable.Holds domainName roleName fun stored =>
        P stored.settings ∧ request.Leaves before stored)
      (processUpdateTags (roleTable.insertTags config.roleTagsLimit roleName domainName)
        (roleTable.deleteTags roleName domainName)
        (updateRoleMetaFields (copyRole (saveRole domainName roleName before)) request).tags
        (saveRole domainName roleName before).tags) := by
  cases htags : request.tags with
  | none =>
    have hsame : (updateRoleMetaFields (copyRole (saveRole domainName roleName before))
        request).tags = (saveRole domainName roleName before).tags := by
      unfold updateRoleMetaFields copyRole
      dsimp only
      rw [htags, Option.none_or]
    rw [hsame]
    exact Table.processUpdateTags_self _ _
  | some tags =>
    refine Table.processUpdateTags_maintains ?_ _ _ _
    rintro stored rows ⟨hsettings, hleaves⟩
    exact ⟨hsettings, fun h => absurd (htags.symm.trans h) nofun, hleaves.members⟩

theorem putRoleMetaBody_eq (config : Config) (ctx : Context) (domainName roleName : Str)
    (before : Collection RoleSettings) (request : RoleMeta) :
    putRoleMetaBody config ctx domainName roleName (saveRole domainName roleName before) request =
      checkObjectAuditEnabled config ctx (saveRole domainName roleName before).auditEnabled
        (saveRole domainName roleName before).name >>= fun _ =>
      roleTable.updateRow domainName roleName (request.apply before.settings) >>= fun _ =>
      processUpdateTags (roleTable.insertTags config.roleTagsLimit roleName domainName)
        (roleTable.deleteTags roleName domainName)
        (updateRoleMetaFields (copyRole (saveRole domainName roleName before)) request).tags
        (saveRole domainName roleName before).tags >>= fun _ => pure () := by
  unfold putRoleMetaBody
  dsimp only
  rw [updateRole_eq rfl, settings_updateRoleMetaFields]

/-- The row while a request is worked on. -/
def RoleMeta.Underway (request : RoleMeta) (before stored : Collection RoleSettings) : Prop :=
  (stored.settings = before.settings ∨ stored.settings = request.apply before.settings) ∧
    request.Leaves before stored

/-- The row behind a request. -/
def RoleMeta.Done (request : RoleMeta) (before stored : Collection RoleSettings) : Prop :=
  stored.settings = request.apply before.settings ∧ request.Leaves before stored

theorem putRoleMetaBody_preserves (config : Config) (ctx : Context) (domainName roleName : Str)
    (before : Collection RoleSettings) (request : RoleMeta) :
    Preserves (roleTable.Holds domainName roleName (request.Underway before))
      (putRoleMetaBody config ctx domainName roleName (saveRole domainName roleName before)
        request) := by
  rw [putRoleMetaBody_eq]
  refine ((checkObjectAuditEnabled_reading _ _ _ _).preserves _).bind fun _ =>
    (Table.updateRow_maintains ?_).preserves.bind fun _ =>
      (processRoleMetaTags_maintains (fun settings => settings = before.settings ∨
        settings = request.apply before.settings) _ _ _ _ _).preserves.bind fun _ => .pure ()
  intro stored h
  exact ⟨.inr rfl, h.2.tags, h.2.members⟩

theorem putRoleMetaBody_returns (config : Config) (ctx : Context) (domainName roleName : Str)
    (before : Collection RoleSettings) (request : RoleMeta) :
    Returns (putRoleMetaBody config ctx domainName roleName (saveRole domainName roleName before)
      request) fun db _ db' =>
        roleTable.Holds domainName roleName (request.Underway before) db →
        roleTable.Holds domainName roleName (request.Done before) db' := by
  rw [putRoleMetaBody_eq]
  refine (checkObjectAuditEnabled_reading _ _ _ _).returns_bind fun _ =>
    ((Table.updateRow_returns _ _).bind fun _ =>
      (processRoleMetaTags_maintains (· = request.apply before.settings) _ _ _ _ _).returns.bind
        fun _ => .pure ()).mono ?_
  rintro db _ db' ⟨_, _, ⟨stored, hfind, rfl⟩, _, db₂, htags, _, rfl⟩ ⟨stored₁, hfind₁, hunderway⟩
  cases hfind.symm.trans hfind₁
  exact htags ⟨_, (roleTable.focus domainName roleName).get_put hfind _, rfl, hunderway.2.tags,
    hunderway.2.members⟩

end RoleMetaBody

section RoleMetaRun

variable [CaseRules]

/-- The updates of the members behind a request. -/
def updateRoleMembers (config : Config) (ctx : Context) (now : Int) (domainName roleName : Str)
    (originalRole : Role) (request : RoleMeta) : Op Unit := do
  let updatedRole := updateRoleMetaFields (copyRole originalRole) request
  updateRoleMembersDueDates config ctx now domainName roleName originalRole updatedRole
  updateRoleMembersSystemDisabledState config ctx domainName roleName originalRole updatedRole

theorem updateRoleMembers_preserves (P : RoleSettings → Prop) (config : Config) (ctx : Context)
    (now : Int) (domainName roleName : Str) (originalRole : Role)
    (before : Collection RoleSettings) (request : RoleMeta) :
    Preserves (roleTable.Holds domainName roleName fun stored =>
        P stored.settings ∧ request.Leaves before stored)
      (updateRoleMembers config ctx now domainName roleName originalRole request) := by
  by_cases hmembers : request.LeavesMembers
  · unfold updateRoleMembers
    dsimp only
    rw [updateRoleMembersDueDates_leaves hmembers, updateRoleMembersSystemDisabledState_leaves
      hmembers]
    exact .bind (.pure ()) fun _ => .pure ()
  · have hI : RowOnly fun stored : Collection RoleSettings =>
        P stored.settings ∧ request.Leaves before stored := by
      rintro stored stored' hsettings htags ⟨hP, hleaves⟩
      exact ⟨hsettings ▸ hP, fun h => htags.trans (hleaves.tags h), fun h => absurd h hmembers⟩
    refine Preserves.bind (.ite (fun _ => .pure ()) fun _ =>
      hI.updateMembersDueDates roleTable_timeless _ _ _ _ _) fun _ =>
      .ite (fun _ => .pure ()) fun _ => .ite (fun _ =>
        hI.updateMembersSystemDisabledState roleTable_timeless _ _ _ _) fun _ => .pure ()

variable [Collation]

/-- A request that succeeds has changed the attributes it names, and left the others. -/
theorem executePutRoleMeta_row {config : Config}
    (hbefore : roleTable.find db domainName roleName = some before)
    (h : executePutRoleMeta config ctx now domainName roleName (saveRole domainName roleName before)
      request db events = (.ok (), db')) :
    roleTable.Holds domainName roleName (request.Done before) db' := by
  have hstamp : ∀ {I : Collection RoleSettings → Prop} time db,
      roleTable.Holds domainName roleName I db →
        roleTable.Holds domainName roleName I (stampDomain domainName time db) :=
    fun time db hdb => hdb.stamp roleTable_timeless domainName time
  have hmembers (P : RoleSettings → Prop) := updateRoleMembers_preserves P config ctx now domainName
    roleName (saveRole domainName roleName before) before request
  have hunderway := hmembers fun settings =>
    settings = before.settings ∨ settings = request.apply before.settings
  have hdone := hmembers fun settings => settings = request.apply before.settings
  exact attempts_establishes (I := roleTable.Holds domainName roleName (request.Underway before))
    (((putRoleMetaBody_preserves _ _ _ _ _ _).saved hstamp).bind fun _ => hunderway)
    ((Establishes.saved (putRoleMetaBody_returns _ _ _ _ _ _) hstamp).bind fun _ => hdone)
    ⟨before, hbefore, .inl rfl, .refl _ _⟩ h

/-- The audit update of a role leaves its other attributes if the role has no user authority
attribute; the audit update of a group and the update of a role leave what they do not name. -/
theorem metaUpdates_frame (config : Config) (ctx : Context) (domainName name : Str)
    (db : Database) (events : Nat → Event Failure) :
    (∀ before auditEnabled db', roleTable.find db domainName name = some before →
      executePutRoleSystemMeta config ctx domainName name auditEnabled db events = (.ok (), db') →
      (roleTable.find db' domainName name = some { before with
          settings := { before.settings with auditEnabled := auditEnabled.getD false } } ↔
        before.settings.userAuthorityFilter.1 = [] ∧
          before.settings.userAuthorityExpiration.1 = [])) ∧
    (∀ before auditEnabled db', groupTable.find db domainName name = some before →
      executePutGroupSystemMeta config ctx domainName name auditEnabled db events = (.ok (), db') →
      groupTable.find db' domainName name = some { before with
        settings := { before.settings with auditEnabled := auditEnabled.getD false } }) ∧
    (∀ before now request db', roleTable.find db domainName name = some before →
      executePutRoleMeta config ctx now domainName name (saveRole domainName name before) request db
        events = (.ok (), db') →
      ∃ after, roleTable.find db' domainName name = some after ∧
        after.settings = request.apply before.settings ∧ request.Leaves before after) := by
  refine ⟨fun before auditEnabled db' hbefore h => ?_, fun before auditEnabled db' hbefore h =>
    executePutGroupSystemMeta_row hbefore h, fun before now request db' hbefore h =>
    executePutRoleMeta_row hbefore h⟩
  rw [executePutRoleSystemMeta_row hbefore h, ← systemUpdated_frame_iff]
  constructor
  · intro hrow
    exact congrArg Collection.settings (Option.some.inj hrow)
  · intro hsettings
    rw [hsettings]

end RoleMetaRun

section AuditRuns

local instance auditCollation : Collation := .binary
local instance auditCaseRules : CaseRules := .ascii

def auditCaller : Context := { caller := "putrolesystemmeta" }

def auditEvents (n : Nat) : Event Failure := ⟨n, none⟩

def auditedRole (filter : Str) : Collection RoleSettings where
  settings := Role.settings { name := [], userAuthorityFilter := some filter }

def auditedGroup : Collection GroupSettings where
  settings := Group.settings { name := [] }

/-- An audited domain with a role and a group. -/
def auditedStore (filter : Str) : Database where
  domains := (∅ : Map Str DomainRow).insert "media" {
    settings := Domain.settings { name := "media", auditEnabled := some true }
    modified := 0
    roles := (∅ : Map Str (Collection RoleSettings)).insert "readers" (auditedRole filter)
    groups := (∅ : Map Str (Collection GroupSettings)).insert "readers" auditedGroup }

def roleAuditRun (filter : Str) : Except Failure Unit × Database :=
  executePutRoleSystemMeta {} auditCaller "media" "readers" (some true) (auditedStore filter)
    auditEvents

/-- The audit update of a role with a user authority filter drops the filter. -/
theorem auditedRole_loses_filter : (roleAuditRun "employee").1 = .ok () ∧
    ¬ roleTable.find (roleAuditRun "employee").2 "media" "readers" = some { auditedRole "employee" with
      settings := { (auditedRole "employee").settings with auditEnabled := true } } := by
  refine ⟨by decide +kernel, fun h => ?_⟩
  have hfilter : (roleTable.find (roleAuditRun "employee").2 "media" "readers").map
      (·.settings.userAuthorityFilter.1) = some [] := by decide +kernel
  rw [h] at hfilter
  revert hfilter
  decide

def groupAuditRun : Except Failure Unit × Database :=
  executePutGroupSystemMeta {} auditCaller "media" "readers" (some true) (auditedStore "")
    auditEvents

def roleMetaRun : Except Failure Unit × Database :=
  executePutRoleMeta {} auditCaller 0 "media" "readers" (saveRole "media" "readers" (auditedRole ""))
    { memberExpiryDays := some 30 } (auditedStore "") auditEvents

theorem metaUpdates_frame_runs :
    (roleTable.find (roleAuditRun "").2 "media" "readers" = some { auditedRole "" with
        settings := { (auditedRole "").settings with auditEnabled := true } } ↔
      (auditedRole "").settings.userAuthorityFilter.1 = [] ∧
        (auditedRole "").settings.userAuthorityExpiration.1 = []) ∧
    groupTable.find groupAuditRun.2 "media" "readers" = some { auditedGroup with
      settings := { auditedGroup.settings with auditEnabled := true } } ∧
    ∃ after, roleTable.find roleMetaRun.2 "media" "readers" = some after ∧
      after.settings = RoleMeta.apply { memberExpiryDays := some 30 } (auditedRole "").settings ∧
      RoleMeta.Leaves { memberExpiryDays := some 30 } (auditedRole "") after :=
  have hframe := metaUpdates_frame {} auditCaller "media" "readers" (auditedStore "") auditEvents
  ⟨hframe.1 (auditedRole "") (some true) _ rfl (Prod.ext (by decide +kernel) rfl),
    hframe.2.1 auditedGroup (some true) _ rfl (Prod.ext (by decide +kernel) rfl),
    hframe.2.2 (auditedRole "") 0 _ _ rfl (Prod.ext (by decide +kernel) rfl)⟩

end AuditRuns

end Athenz.ZmsServer
