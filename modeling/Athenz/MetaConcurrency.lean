import Athenz.Lib.Attempts
import Athenz.Lib.StaleWrites
import Athenz.DomainExpiry
import Athenz.MetaFrame
import Athenz.RowChanges

namespace Athenz.ZmsServer
open Lib Lib.Text Lib.Transaction Lib.Transaction.Tx Lib.StaleWrites
set_option autoImplicit true

section RoleParts

/-- No attribute is in both requests. -/
structure RoleMeta.Apart (request other : RoleMeta) : Prop where
  selfServe : request.selfServe = none ∨ other.selfServe = none
  memberExpiryDays : request.memberExpiryDays = none ∨ other.memberExpiryDays = none
  tokenExpiryMins : request.tokenExpiryMins = none ∨ other.tokenExpiryMins = none
  certExpiryMins : request.certExpiryMins = none ∨ other.certExpiryMins = none
  signAlgorithm : request.signAlgorithm = none ∨ other.signAlgorithm = none
  serviceExpiryDays : request.serviceExpiryDays = none ∨ other.serviceExpiryDays = none
  memberReviewDays : request.memberReviewDays = none ∨ other.memberReviewDays = none
  serviceReviewDays : request.serviceReviewDays = none ∨ other.serviceReviewDays = none
  groupReviewDays : request.groupReviewDays = none ∨ other.groupReviewDays = none
  reviewEnabled : request.reviewEnabled = none ∨ other.reviewEnabled = none
  notifyRoles : request.notifyRoles = none ∨ other.notifyRoles = none
  userAuthorityFilter : request.userAuthorityFilter = none ∨ other.userAuthorityFilter = none
  userAuthorityExpiration :
    request.userAuthorityExpiration = none ∨ other.userAuthorityExpiration = none
  groupExpiryDays : request.groupExpiryDays = none ∨ other.groupExpiryDays = none

theorem elim_again (requested : Option α) (column : α → β) (value : β) :
    requested.elim (requested.elim value column) column = requested.elim value column := by
  cases requested with
  | none => rfl
  | some requested => rfl

theorem elim_apart {requested other : Option α} {column : α → β} {value : β}
    (h : requested = none ∨ other = none) :
    requested.elim (other.elim value column) column = other.elim value column ↔
      requested.elim value column = value := by
  rcases h with rfl | rfl
  · exact ⟨fun _ => rfl, fun _ => rfl⟩
  · exact Iff.rfl

theorem getD_apart {requested other : Option α} {value : α} (h : requested = none ∨ other = none) :
    requested.getD (other.getD value) = other.getD value ↔ requested.getD value = value := by
  rcases h with rfl | rfl
  · exact ⟨fun _ => rfl, fun _ => rfl⟩
  · exact Iff.rfl

theorem RoleMeta.apply_again (request : RoleMeta) (settings : RoleSettings) :
    request.apply (request.apply settings) = request.apply settings := by
  have hgetD : ∀ {α : Type} (requested : Option α) (value : α),
      requested.getD (requested.getD value) = requested.getD value := by
    intro α requested value
    cases requested with
    | none => rfl
    | some requested => rfl
  unfold RoleMeta.apply
  simp only [hgetD, elim_again]

/-- A request leaves the attributes that the other one is about. -/
theorem RoleMeta.Apart.spares {request other : RoleMeta} (h : request.Apart other) :
    Spares other.apply request.apply := by
  rintro ⟨⟩
  unfold RoleMeta.apply
  simp only [RoleSettings.mk.injEq, getD_apart h.selfServe, getD_apart h.memberExpiryDays,
    getD_apart h.tokenExpiryMins, getD_apart h.certExpiryMins, elim_apart h.signAlgorithm,
    getD_apart h.serviceExpiryDays, getD_apart h.memberReviewDays, getD_apart h.serviceReviewDays,
    getD_apart h.groupReviewDays, getD_apart h.reviewEnabled, elim_apart h.notifyRoles,
    elim_apart h.userAuthorityFilter, elim_apart h.userAuthorityExpiration,
    getD_apart h.groupExpiryDays]

end RoleParts

section RoleWrites

variable [Collation]

theorem processRoleMetaTags_settings (P : RoleSettings → Prop) (limit : Nat)
    (domainName roleName : Str) (tags originalTags : Option Tags) :
    Maintains (roleTable.Holds domainName roleName fun stored => P stored.settings)
      (processUpdateTags (roleTable.insertTags limit roleName domainName)
        (roleTable.deleteTags roleName domainName) tags originalTags) :=
  Table.processUpdateTags_maintains (fun _ _ h => h) limit tags originalTags

/-- The settings behind an update are those of the copy with the attributes of the request,
whatever has been stored in between. -/
theorem putRoleMetaBody_overwrites (config : Config) (ctx : Context) (domainName roleName : Str)
    (copy : Collection RoleSettings) (request : RoleMeta) :
    Returns (putRoleMetaBody config ctx domainName roleName (saveRole domainName roleName copy)
      request) fun _ _ db' => roleTable.Holds domainName roleName
        (fun stored => stored.settings = request.apply copy.settings) db' := by
  rw [putRoleMetaBody_eq]
  refine (checkObjectAuditEnabled_reading _ _ _ _).returns_bind fun _ =>
    ((Table.updateRow_returns _ _).bind fun _ =>
      (processRoleMetaTags_settings (· = request.apply copy.settings) _ _ _ _ _).returns.bind
        fun _ => .pure ()).mono ?_
  rintro db _ db' ⟨_, _, ⟨stored, hfind, rfl⟩, _, db₂, htags, _, rfl⟩
  exact htags ⟨_, (roleTable.focus domainName roleName).get_put hfind _, rfl⟩

variable [CaseRules]

omit [Collation] in
theorem updateRoleMembers_settings (P : RoleSettings → Prop) (config : Config) (ctx : Context)
    (now : Int) (domainName roleName : Str) (originalRole : Role) (request : RoleMeta) :
    Preserves (roleTable.Holds domainName roleName fun stored => P stored.settings)
      (updateRoleMembers config ctx now domainName roleName originalRole request) := by
  have hI : RowOnly fun stored : Collection RoleSettings => P stored.settings := by
    intro stored stored' hsettings _ h
    rw [hsettings]
    exact h
  exact Preserves.bind (.ite (fun _ => .pure ()) fun _ =>
    hI.updateMembersDueDates roleTable_timeless _ _ _ _ _) fun _ =>
    .ite (fun _ => .pure ()) fun _ => .ite (fun _ =>
      hI.updateMembersSystemDisabledState roleTable_timeless _ _ _ _) fun _ => .pure ()

theorem executePutRoleMeta_overwrites {config : Config}
    (h : executePutRoleMeta config ctx now domainName roleName (saveRole domainName roleName copy)
      request db events = (.ok (), db')) :
    roleTable.Holds domainName roleName
      (fun stored => stored.settings = request.apply copy.settings) db' := by
  refine attempts_establishes (I := fun _ => True) (fun _ _ _ => ⟨trivial, trivial⟩)
    ((Establishes.saved (I := fun _ => True) ((putRoleMetaBody_overwrites config ctx domainName
      roleName copy request).mono fun _ _ _ hdone _ => hdone) ?_).bind fun _ =>
        updateRoleMembers_settings (· = request.apply copy.settings) config ctx now domainName
          roleName (saveRole domainName roleName copy) request) trivial h
  exact fun time db hdb => hdb.stamp roleTable_timeless domainName time

/-- An update of a role: who asks, when and for what. -/
structure RoleUpdate where
  ctx : Context
  now : Int
  request : RoleMeta

/-- A run of an update that succeeds, with what its connections meet. -/
def RoleUpdate.Writes (config : Config) (domainName roleName : Str) (update : RoleUpdate)
    (copy : Collection RoleSettings) (db db' : Database) : Prop :=
  ∃ events, executePutRoleMeta config update.ctx update.now domainName roleName
    (saveRole domainName roleName copy) update.request db events = (.ok (), db')

def roleSettingsOf (domainName roleName : Str) (db : Database) : Option RoleSettings :=
  (roleTable.find db domainName roleName).map (·.settings)

/-- Updates of a role in any order of their reads and writes, among other changes of the store that
leave its settings. -/
abbrev RoleUpdateRuns {ι : Type} [DecidableEq ι] (config : Config) (domainName roleName : Str)
    (updates : ι → RoleUpdate) (db : Database) : List (Access ι) → Database →
      (ι → Option (Collection RoleSettings)) → Prop :=
  Runs (roleTable.find · domainName roleName) (roleSettingsOf domainName roleName)
    (fun i => (updates i).Writes config domainName roleName) db

end RoleWrites

section DomainParts

/-- The columns of a domain that an update writes. -/
structure DomainColumns where
  description : Option Column := none
  org : Option Column := none
  enabled : Option Bool := none
  auditEnabled : Option Bool := none
  account : Option Column := none
  ypmId : Option Int := none
  applicationId : Option Column := none
  certDnsDomain : Option Column := none
  memberExpiryDays : Option Int := none
  tokenExpiryMins : Option Int := none
  serviceCertExpiryMins : Option Int := none
  roleCertExpiryMins : Option Int := none
  signAlgorithm : Option Column := none
  serviceExpiryDays : Option Int := none
  userAuthorityFilter : Option Column := none
  groupExpiryDays : Option Int := none
  azureSubscription : Option Column := none
  businessService : Option Column := none

def DomainColumns.write (columns : DomainColumns) (settings : DomainSettings) : DomainSettings where
  description := columns.description.getD settings.description
  org := columns.org.getD settings.org
  uuid := settings.uuid
  enabled := columns.enabled.getD settings.enabled
  auditEnabled := columns.auditEnabled.getD settings.auditEnabled
  account := columns.account.getD settings.account
  ypmId := columns.ypmId.getD settings.ypmId
  applicationId := columns.applicationId.getD settings.applicationId
  certDnsDomain := columns.certDnsDomain.getD settings.certDnsDomain
  memberExpiryDays := columns.memberExpiryDays.getD settings.memberExpiryDays
  tokenExpiryMins := columns.tokenExpiryMins.getD settings.tokenExpiryMins
  serviceCertExpiryMins := columns.serviceCertExpiryMins.getD settings.serviceCertExpiryMins
  roleCertExpiryMins := columns.roleCertExpiryMins.getD settings.roleCertExpiryMins
  signAlgorithm := columns.signAlgorithm.getD settings.signAlgorithm
  serviceExpiryDays := columns.serviceExpiryDays.getD settings.serviceExpiryDays
  userAuthorityFilter := columns.userAuthorityFilter.getD settings.userAuthorityFilter
  groupExpiryDays := columns.groupExpiryDays.getD settings.groupExpiryDays
  azureSubscription := columns.azureSubscription.getD settings.azureSubscription
  businessService := columns.businessService.getD settings.businessService

/-- The columns that a request for a domain writes; without a system attribute the description and
the application are always among them. -/
def domainColumns (request : DomainMeta) : Option SystemAttribute → DomainColumns
  | none => {
      applicationId := some (processInsertValue request.applicationId)
      description := some (processInsertValue request.description)
      memberExpiryDays := request.memberExpiryDays
      serviceExpiryDays := request.serviceExpiryDays
      groupExpiryDays := request.groupExpiryDays
      roleCertExpiryMins := request.roleCertExpiryMins
      serviceCertExpiryMins := request.serviceCertExpiryMins
      tokenExpiryMins := request.tokenExpiryMins
      signAlgorithm := request.signAlgorithm.map fun value => processInsertValue (some value)
      businessService := request.businessService.map fun value => processInsertValue (some value) }
  | some .account => { account := some (processInsertValue request.account) }
  | some .azureSubscription =>
    { azureSubscription := some (processInsertValue request.azureSubscription) }
  | some .productId => { ypmId := some (request.ypmId.getD 0) }
  | some .certDnsDomain => { certDnsDomain := some (processInsertValue request.certDnsDomain) }
  | some .org => { org := some (processInsertValue request.org) }
  | some .auditEnabled => { auditEnabled := some (request.auditEnabled.getD false) }
  | some .userAuthorityFilter =>
    { userAuthorityFilter := some (processInsertValue request.userAuthorityFilter) }
  | some .enabled => { enabled := some (request.enabled.getD true) }
  | some .businessService => { businessService := some (processInsertValue request.businessService) }
  | some (.unknown _) => {}

/-- No column is written by both. -/
structure DomainColumns.Apart (columns other : DomainColumns) : Prop where
  description : columns.description = none ∨ other.description = none
  org : columns.org = none ∨ other.org = none
  enabled : columns.enabled = none ∨ other.enabled = none
  auditEnabled : columns.auditEnabled = none ∨ other.auditEnabled = none
  account : columns.account = none ∨ other.account = none
  ypmId : columns.ypmId = none ∨ other.ypmId = none
  applicationId : columns.applicationId = none ∨ other.applicationId = none
  certDnsDomain : columns.certDnsDomain = none ∨ other.certDnsDomain = none
  memberExpiryDays : columns.memberExpiryDays = none ∨ other.memberExpiryDays = none
  tokenExpiryMins : columns.tokenExpiryMins = none ∨ other.tokenExpiryMins = none
  serviceCertExpiryMins : columns.serviceCertExpiryMins = none ∨ other.serviceCertExpiryMins = none
  roleCertExpiryMins : columns.roleCertExpiryMins = none ∨ other.roleCertExpiryMins = none
  signAlgorithm : columns.signAlgorithm = none ∨ other.signAlgorithm = none
  serviceExpiryDays : columns.serviceExpiryDays = none ∨ other.serviceExpiryDays = none
  userAuthorityFilter : columns.userAuthorityFilter = none ∨ other.userAuthorityFilter = none
  groupExpiryDays : columns.groupExpiryDays = none ∨ other.groupExpiryDays = none
  azureSubscription : columns.azureSubscription = none ∨ other.azureSubscription = none
  businessService : columns.businessService = none ∨ other.businessService = none

theorem getD_again (requested : Option α) (value : α) :
    requested.getD (requested.getD value) = requested.getD value := by
  cases requested with
  | none => rfl
  | some requested => rfl

theorem DomainColumns.write_again (columns : DomainColumns) (settings : DomainSettings) :
    columns.write (columns.write settings) = columns.write settings := by
  unfold DomainColumns.write
  simp only [getD_again]

theorem DomainColumns.Apart.spares {columns other : DomainColumns} (h : columns.Apart other) :
    Spares other.write columns.write := by
  rintro ⟨⟩
  unfold DomainColumns.write
  simp only [DomainSettings.mk.injEq, getD_apart h.description, getD_apart h.org,
    getD_apart h.enabled, getD_apart h.auditEnabled, getD_apart h.account, getD_apart h.ypmId,
    getD_apart h.applicationId, getD_apart h.certDnsDomain, getD_apart h.memberExpiryDays,
    getD_apart h.tokenExpiryMins, getD_apart h.serviceCertExpiryMins,
    getD_apart h.roleCertExpiryMins, getD_apart h.signAlgorithm, getD_apart h.serviceExpiryDays,
    getD_apart h.userAuthorityFilter, getD_apart h.groupExpiryDays,
    getD_apart h.azureSubscription, getD_apart h.businessService]

theorem resetAttribute_eq_ok [DecidableEq α] {empty : α}
    (h : resetAttribute deleteAllowed empty oldValue newValue domain = .ok updated) :
    updated = domain := by
  unfold resetAttribute at h
  split at h
  · exact (Except.ok.inj h).symm
  · cases h

theorem settings_saveDomainSettings (domainName : Str) (row : DomainRow) :
    (saveDomainSettings domainName row).settings = row.settings := by
  unfold Domain.settings saveDomainSettings
  simp only [processInsertValue_saveValue, Option.getD_some, getD_nullIfDefaultValue]

/-- The domain as a request asks for it has the columns of the request, and else the stored ones. -/
theorem settings_updatedDomain (h : updatedDomain (saveDomainSettings domainName row) request
      systemAttribute deleteAllowed = .ok updated) :
    updated.name = domainName ∧
      updated.settings = (domainColumns request systemAttribute).write row.settings := by
  have hcolumn : ∀ (requested : Option Str) (column : Column),
      processInsertValue (requested.or (saveValue column)) =
        (requested.map fun value => processInsertValue (some value)).getD column := by
    intro requested column
    cases requested with
    | none => exact processInsertValue_saveValue column
    | some value => rfl
  rw [← settings_saveDomainSettings domainName row]
  cases systemAttribute with
  | none =>
    cases h
    refine ⟨rfl, ?_⟩
    rw [settings_saveDomainSettings]
    unfold Domain.settings updateDomainMetaFields saveDomainSettings domainColumns DomainColumns.write
    dsimp only
    simp only [hcolumn, processInsertValue_saveValue, getD_or_nullIfDefaultValue, Option.getD_some,
      Option.getD_none]
  | some name =>
    cases name with
    | account | azureSubscription | productId | certDnsDomain | org =>
      cases resetAttribute_eq_ok h
      exact ⟨rfl, rfl⟩
    | auditEnabled | userAuthorityFilter | enabled | businessService =>
      cases h
      exact ⟨rfl, rfl⟩
    | unknown name => cases h

end DomainParts

section DomainWrites

/-- The domain is stored, with a property of its settings. -/
def DomainHolds (domainName : Str) (P : DomainSettings → Prop) (db : Database) : Prop :=
  ∃ row, db.domains.lookup domainName = some row ∧ P row.settings

/-- A table whose rows are beside the settings of a domain. -/
def Table.BesideSettings (table : Table S) : Prop :=
  ∀ m row, (table.set m row).settings = row.settings

variable {table : Table S} {P : DomainSettings → Prop}

theorem DomainHolds.stamp (h : DomainHolds domainName P db) (otherDomain : Str) (time : Int) :
    DomainHolds domainName P (stampDomain otherDomain time db) := by
  obtain ⟨row, hrow, hP⟩ := h
  rw [DomainHolds, lookup_stampDomain, hrow, Option.map_some]
  refine ⟨_, rfl, ?_⟩
  split
  · exact hP
  · exact hP

theorem DomainHolds.admits (htable : table.BesideSettings) (otherDomain name : Str) :
    table.Admits (DomainHolds domainName P) otherDomain name fun _ _ => True := by
  rintro db stored stored' hfind _ ⟨row, hrow, hP⟩
  obtain ⟨found, hfound, hput⟩ := Table.lookup_put hfind stored'
  rw [DomainHolds, hput, Map.lookup_insert]
  split
  · rename_i hsame
    rw [hsame] at hrow
    cases hrow.symm.trans hfound
    refine ⟨_, rfl, ?_⟩
    rw [htable]
    exact hP
  · exact ⟨row, hrow, hP⟩

theorem DomainHolds.on (htable : table.BesideSettings) (otherDomain name : Str)
    (f : Collection S → Except Failure (α × Collection S)) :
    Preserves (DomainHolds domainName P) (table.on otherDomain name f) :=
  Table.on_admits (DomainHolds.admits htable otherDomain name) fun _ _ _ _ => trivial

theorem DomainHolds.insertMember (htable : table.BesideSettings) (otherDomain name : Str)
    (member : Member) (admin : Option Str) :
    Preserves (DomainHolds domainName P) (table.insertMember otherDomain name member admin) := by
  refine Preserves.bind ((Preserves.query _).bind fun known => .ite (fun _ => .abort _) fun _ =>
    DomainHolds.on htable otherDomain name _) fun action => ?_
  cases action with
  | none => exact .pure true
  | some action => exact DomainHolds.on htable otherDomain name _

theorem DomainHolds.updateMemberDisabledState (htable : table.BesideSettings)
    (otherDomain name memberName : Str) (admin : Option Str) (disabledState : Nat) :
    Preserves (DomainHolds domainName P)
      (table.updateMemberDisabledState otherDomain name memberName admin disabledState) :=
  (DomainHolds.on htable otherDomain name _).bind fun _ => .ite (fun _ => .pure false) fun _ =>
    DomainHolds.on htable otherDomain name _

theorem DomainHolds.updateDomainModTimestamp (otherDomain : Str) :
    Maintains (DomainHolds domainName P) (updateDomainModTimestamp otherDomain) := by
  refine .statement fun time db _ db' hdb h => ?_
  cases h
  exact hdb.stamp otherDomain time

theorem DomainHolds.touchDomain (otherDomain : Str) (changed : Bool) :
    Maintains (DomainHolds domainName P) (touchDomain otherDomain changed) :=
  .ite (fun _ => (DomainHolds.updateDomainModTimestamp otherDomain).bind fun _ => .pure true)
    fun _ => .pure true

theorem DomainHolds.onDomain (otherDomain : Str)
    {f : DomainRow → Except Failure (α × DomainRow)}
    (h : ∀ row a row', f row = .ok (a, row') → row'.settings = row.settings) :
    Maintains (DomainHolds domainName P) (onDomain otherDomain f) := by
  refine .statement fun time db a db' ⟨row, hrow, hP⟩ hf => ?_
  cases hfound : db.domains.lookup otherDomain with
  | none =>
    rw [hfound] at hf
    cases hf
  | some found =>
    rw [hfound] at hf
    obtain ⟨result, hrun, hf⟩ := Lib.Result.bind_eq_ok.1 hf
    cases hf
    rw [DomainHolds, Map.lookup_insert]
    split
    · rename_i hsame
      rw [hsame] at hrow
      cases hrow.symm.trans hfound
      refine ⟨_, rfl, ?_⟩
      rw [h row result.1 result.2 hrun]
      exact hP
    · exact ⟨row, hrow, hP⟩

theorem DomainHolds.touch (htable : table.BesideSettings) (otherDomain name : Str)
    (changed : Bool) :
    Preserves (DomainHolds domainName P) (table.touch otherDomain name changed) :=
  .ite (fun _ => (DomainHolds.on htable otherDomain name _).bind fun _ =>
    (DomainHolds.updateDomainModTimestamp otherDomain).preserves) fun _ => .pure ()

theorem DomainHolds.updateAllDueDates (htable : table.BesideSettings) (config : Config)
    (ctx : Context) (now : Int) (otherDomain : Str) (limits : DueLimits)
    (members : Collection S → List Member) (objects : List (Sigma fun _ : Str => Collection S)) :
    Preserves (DomainHolds domainName P)
      (table.updateAllDueDates config ctx now otherDomain limits members objects) := by
  induction objects with
  | nil => exact .pure false
  | cons object objects ih =>
    refine (tryEach_preserves (fun member => DomainHolds.insertMember htable otherDomain object.1
      member _) _).bind fun changed => .ite (fun _ => ?_) fun _ => ?_
    · exact (DomainHolds.on htable otherDomain object.1 _).bind fun _ => ih.bind fun _ => .pure _
    · exact Preserves.bind (.pure false) fun _ => ih.bind fun _ => .pure _

theorem roleTable_besideSettings : roleTable.BesideSettings := fun _ _ => rfl

theorem groupTable_besideSettings : groupTable.BesideSettings := fun _ _ => rfl

theorem DomainHolds.updateDomainMembersExpiration (config : Config) (ctx : Context) (now : Int)
    (domain updated : Domain) (view : Option DomainRow) :
    Preserves (DomainHolds domainName P)
      (updateDomainMembersExpiration config ctx now domain updated view) := by
  cases view with
  | none => exact .pure ()
  | some row =>
    exact .ite (fun _ => .pure ()) fun _ => (DomainHolds.updateAllDueDates roleTable_besideSettings
      config ctx now domain.name _ _ _).bind fun _ =>
      (DomainHolds.updateAllDueDates groupTable_besideSettings config ctx now domain.name _ _
        _).bind fun _ => (DomainHolds.touchDomain domain.name _).preserves.bind
          fun _ => .pure ()

theorem DomainHolds.updateAllDisabledStates (config : Config) (ctx : Context) (otherDomain : Str)
    (domainFilter : Option Str) (roles : List (Sigma fun _ : Str => Collection RoleSettings)) :
    Preserves (DomainHolds domainName P)
      (updateAllDisabledStates config ctx otherDomain domainFilter roles) := by
  induction roles with
  | nil => exact .pure ()
  | cons role roles ih =>
    exact (tryEach_preserves (fun member => DomainHolds.updateMemberDisabledState
      roleTable_besideSettings otherDomain role.1 member.memberName _ _) _).bind fun _ =>
        (DomainHolds.touch roleTable_besideSettings otherDomain role.1 _).bind fun _ => ih

theorem DomainHolds.updateDomainMembersUserAuthorityFilter [CaseRules] (config : Config)
    (ctx : Context) (domain updated : Domain) (view : Option DomainRow) :
    Preserves (DomainHolds domainName P)
      (updateDomainMembersUserAuthorityFilter config ctx domain updated view) := by
  cases view with
  | none => exact .pure ()
  | some row =>
    exact .ite (fun _ => DomainHolds.updateAllDisabledStates config ctx domain.name _ _) fun _ =>
      .pure ()

variable [Collation]

theorem DomainHolds.insertDomainTags (limit : Nat) (otherDomain : Str) (tags : Tags) :
    Maintains (DomainHolds domainName P) (insertDomainTags limit otherDomain tags) := by
  refine DomainHolds.onDomain otherDomain fun row a row' hf => ?_
  obtain ⟨_, _, hf⟩ := Lib.Result.bind_eq_ok.1 hf
  cases hf
  rfl

theorem DomainHolds.deleteDomainTags (otherDomain : Str) (keys : List Column) :
    Maintains (DomainHolds domainName P) (deleteDomainTags otherDomain keys) := by
  refine DomainHolds.onDomain otherDomain fun row a row' hf => ?_
  cases hf
  rfl

theorem DomainHolds.processDomainTags (config : Config) (domainTags originalTags : Option Tags)
    (otherDomain : Str) (updateDomainLastModTimestamp : Bool) :
    Maintains (DomainHolds domainName P) (processDomainTags config domainTags originalTags otherDomain
      updateDomainLastModTimestamp) := by
  unfold ZmsServer.processDomainTags
  refine .ite (fun _ => .ite (fun _ => .pure true) fun _ =>
    (DomainHolds.insertDomainTags _ _ _).both (DomainHolds.touchDomain _ _)) fun _ => ?_
  cases domainTags with
  | none => exact .pure true
  | some currentTags =>
    exact (Maintains.ite (fun _ => .pure true) fun _ => DomainHolds.deleteDomainTags _ _).both
      ((Maintains.ite (fun _ => .pure true) fun _ => DomainHolds.insertDomainTags _ _ _).both
        (DomainHolds.touchDomain _ _))

/-- A domain that is stored has the settings that are asked for behind its update. -/
theorem updateDomain_settings (domain : Domain) (P : DomainSettings → Prop) :
    Returns (updateDomain domain) fun db _ db' => DomainHolds domain.name P db →
      DomainHolds domain.name (· = domain.settings) db' := by
  refine (Returns.statement _).mono ?_
  rintro db a db' ⟨time, hf⟩ ⟨row, hrow, _⟩
  obtain ⟨_, _, hf⟩ := Lib.Result.bind_eq_ok.1 hf
  rw [hrow] at hf
  cases hf
  exact ⟨_, AList.lookup_insert _, rfl⟩

theorem putDomainMetaBody_overwrites (config : Config) (ctx : Context) (domainName : Str)
    (copy : DomainRow) (request : DomainMeta) (systemAttribute : Option SystemAttribute)
    (deleteAllowed : Bool) :
    Returns (putDomainMetaBody config ctx (saveDomainSettings domainName copy) request
      systemAttribute deleteAllowed) fun db _ db' => DomainHolds domainName (fun _ => True) db →
        DomainHolds domainName
          (· = (domainColumns request systemAttribute).write copy.settings) db' := by
  unfold putDomainMetaBody
  intro c a c' h hstored
  obtain ⟨_, d, haudit, hrest⟩ := bind_eq_ok.1 h
  rw [← (checkDomainAudit_reading _ _ _ _).keeps _ _ _ haudit] at hstored
  cases hupdated : updatedDomain (saveDomainSettings domainName copy) request systemAttribute
      deleteAllowed with
  | error e =>
    rw [hupdated] at hrest
    cases hrest
  | ok updated =>
    rw [hupdated] at hrest
    obtain ⟨rfl, hsettings⟩ := settings_updatedDomain hupdated
    rw [← hsettings]
    obtain ⟨_, d₁, hupdate, hrest⟩ := bind_eq_ok.1 hrest
    obtain ⟨_, d₂, htags, hrest⟩ := bind_eq_ok.1 hrest
    obtain ⟨_, d₃, hensure, hpure⟩ := bind_eq_ok.1 hrest
    cases hpure
    rw [(Reading.ensure _ _).keeps _ _ _ hensure]
    exact (DomainHolds.processDomainTags config request.tags _ _ true).returns _ _ _ htags
      (updateDomain_settings _ _ _ _ _ hupdate hstored)

theorem putDomainMetaBody_stored (config : Config) (ctx : Context) (domainName : Str)
    (copy : DomainRow) (request : DomainMeta) (systemAttribute : Option SystemAttribute)
    (deleteAllowed : Bool) :
    Preserves (DomainHolds domainName fun _ => True) (putDomainMetaBody config ctx
      (saveDomainSettings domainName copy) request systemAttribute deleteAllowed) := by
  refine ((checkDomainAudit_reading _ _ _ _).preserves _).bind fun _ => ?_
  cases hupdated : updatedDomain (saveDomainSettings domainName copy) request systemAttribute
      deleteAllowed with
  | error e => exact .raise e
  | ok updated =>
    obtain ⟨rfl, _⟩ := settings_updatedDomain hupdated
    refine Preserves.bind ?_ fun _ => (DomainHolds.processDomainTags config request.tags _ _
      true).preserves.bind fun _ => (Preserves.ensure _ _).bind fun _ => .pure updated
    refine .statement fun time db _ db' ⟨row, hrow, _⟩ hf => ?_
    obtain ⟨_, _, hf⟩ := Lib.Result.bind_eq_ok.1 hf
    rw [hrow] at hf
    cases hf
    exact ⟨_, AList.lookup_insert _, trivial⟩

variable [CaseRules]

theorem executePutDomainMeta_overwrites {config : Config}
    (hstored : (db.domains.lookup domainName).isSome)
    (h : executePutDomainMeta config ctx now (saveDomainSettings domainName copy) request
      systemAttribute deleteAllowed expirationView filterView db events = (.ok (), db')) :
    DomainHolds domainName (· = (domainColumns request systemAttribute).write copy.settings) db' := by
  have hmembers (P : DomainSettings → Prop) (updated : Domain) :
      Preserves (DomainHolds domainName P) (do
        updateDomainMembersExpiration config ctx now (saveDomainSettings domainName copy) updated
          expirationView
        updateDomainMembersUserAuthorityFilter config ctx (saveDomainSettings domainName copy)
          updated filterView) :=
    (DomainHolds.updateDomainMembersExpiration _ _ _ _ _ _).bind fun _ =>
      DomainHolds.updateDomainMembersUserAuthorityFilter _ _ _ _ _
  obtain ⟨row, hrow⟩ := Option.isSome_iff_exists.1 hstored
  exact attempts_committed_establishes (I := DomainHolds domainName fun _ => True)
    (putDomainMetaBody_whole config ctx _ request systemAttribute deleteAllowed).atomic
    ((putDomainMetaBody_stored _ _ _ _ _ _ _).bind fun updated => Preserves.commit.bind fun _ =>
      hmembers (fun _ => True) updated)
    (putDomainMetaBody_overwrites _ _ _ _ _ _ _) (fun updated => hmembers _ updated)
    ⟨row, hrow, trivial⟩ h

/-- An update of a domain: who asks, when, for what, and for which system attribute. -/
structure DomainUpdate where
  ctx : Context
  now : Int
  request : DomainMeta
  systemAttribute : Option SystemAttribute := none
  deleteAllowed : Bool := false

def DomainUpdate.columns (update : DomainUpdate) : DomainColumns :=
  domainColumns update.request update.systemAttribute

/-- A run of an update that succeeds, with what its connections and the cache of domains show. -/
def DomainUpdate.Writes (config : Config) (domainName : Str) (update : DomainUpdate)
    (copy : DomainRow) (db db' : Database) : Prop :=
  ∃ expirationView filterView events, executePutDomainMeta config update.ctx update.now
    (saveDomainSettings domainName copy) update.request update.systemAttribute
    update.deleteAllowed expirationView filterView db events = (.ok (), db')

def domainSettingsOf (domainName : Str) (db : Database) : Option DomainSettings :=
  (db.domains.lookup domainName).map (·.settings)

/-- Updates of a domain in any order of their reads and writes, among other changes of the store
that leave its settings. -/
abbrev DomainUpdateRuns {ι : Type} [DecidableEq ι] (config : Config) (domainName : Str)
    (updates : ι → DomainUpdate) (db : Database) : List (Access ι) → Database →
      (ι → Option DomainRow) → Prop :=
  Runs (·.domains.lookup domainName) (domainSettingsOf domainName)
    (fun i => (updates i).Writes config domainName) db

end DomainWrites

section Example

local instance concurrentCollation : Collation := .binary

local instance concurrentCaseRules : CaseRules := .ascii

def concurrentRole : Collection RoleSettings where
  settings := Role.settings { name := [] }

def concurrentRow : DomainRow where
  settings := Domain.settings { name := "media" }
  modified := 0
  roles := (∅ : Map Str (Collection RoleSettings)).insert "readers" concurrentRole

def concurrentStore : Database where
  domains := (∅ : Map Str DomainRow).insert "media" concurrentRow

def concurrentEvents (n : Nat) : Event Failure := ⟨n, none⟩

/-- Two updates that have read the role or the domain before either one has written it. -/
def overlap : List (Access Bool) := [.read false, .read true, .write false, .write true]

example : lineage overlap = [true] := by decide

def roleExpiries : Bool → RoleUpdate
  | false => ⟨{ caller := "putrolemeta" }, 0, { memberExpiryDays := some 30 }⟩
  | true => ⟨{ caller := "putrolemeta" }, 0, { tokenExpiryMins := some 10 }⟩

def expiryRun (i : Bool) (db : Database) : Except Failure Unit × Database :=
  executePutRoleMeta {} (roleExpiries i).ctx (roleExpiries i).now "media" "readers"
    (saveRole "media" "readers" concurrentRole) (roleExpiries i).request db concurrentEvents

theorem roleExpiries_apart (i j : Bool) (h : i ≠ j) :
    (roleExpiries i).request.Apart (roleExpiries j).request := by
  cases i with
  | false =>
    cases j with
    | false => exact absurd rfl h
    | true => constructor <;> first | exact .inl rfl | exact .inr rfl
  | true =>
    cases j with
    | false => constructor <;> first | exact .inl rfl | exact .inr rfl
    | true => exact absurd rfl h

theorem expiryRuns_succeed : (expiryRun false concurrentStore).1 = .ok () ∧
    (expiryRun true (expiryRun false concurrentStore).2).1 = .ok () :=
  ⟨by decide +kernel, by decide +kernel⟩

def roleCopies : Bool → Option (Collection RoleSettings) :=
  Function.update (Function.update (fun _ => none) false (some concurrentRole)) true
    (some concurrentRole)

theorem roleExpiries_overlap : RoleUpdateRuns {} "media" "readers" roleExpiries concurrentStore
    overlap (expiryRun true (expiryRun false concurrentStore).2).2 roleCopies := by
  have hnone : RoleUpdateRuns {} "media" "readers" roleExpiries concurrentStore [] concurrentStore
      fun _ => none := .nil
  have hread := Runs.read hnone (i := false) (r := concurrentRole) rfl
  have hboth := Runs.read hread (i := true) (r := concurrentRole) rfl
  have hfirst := Runs.write hboth (i := false) (r := concurrentRole) rfl
    ⟨concurrentEvents, Prod.ext expiryRuns_succeed.1 rfl⟩
  exact Runs.write hfirst (i := true) (r := concurrentRole) rfl
    ⟨concurrentEvents, Prod.ext expiryRuns_succeed.2 rfl⟩

/-- The account, and the rest of the settings. -/
def domainUpdates : Bool → DomainUpdate
  | false => {
      ctx := { caller := "putdomainsystemmeta" }
      now := 0
      request := { account := some "1234" }
      systemAttribute := some .account }
  | true => {
      ctx := { caller := "putdomainmeta" }
      now := 0
      request := { description := some "news", memberExpiryDays := some 30 } }

def domainUpdateRun (i : Bool) (db : Database) : Except Failure Unit × Database :=
  executePutDomainMeta {} (domainUpdates i).ctx (domainUpdates i).now
    (saveDomainSettings "media" concurrentRow) (domainUpdates i).request
    (domainUpdates i).systemAttribute (domainUpdates i).deleteAllowed none none db concurrentEvents

theorem domainUpdates_apart (i j : Bool) (h : i ≠ j) :
    (domainUpdates i).columns.Apart (domainUpdates j).columns := by
  cases i with
  | false =>
    cases j with
    | false => exact absurd rfl h
    | true => constructor <;> first | exact .inl rfl | exact .inr rfl
  | true =>
    cases j with
    | false => constructor <;> first | exact .inl rfl | exact .inr rfl
    | true => exact absurd rfl h

theorem domainUpdateRuns_succeed : (domainUpdateRun false concurrentStore).1 = .ok () ∧
    (domainUpdateRun true (domainUpdateRun false concurrentStore).2).1 = .ok () :=
  ⟨by decide +kernel, by decide +kernel⟩

def domainCopies : Bool → Option DomainRow :=
  Function.update (Function.update (fun _ => none) false (some concurrentRow)) true
    (some concurrentRow)

theorem domainUpdates_overlap : DomainUpdateRuns {} "media" domainUpdates concurrentStore
    overlap (domainUpdateRun true (domainUpdateRun false concurrentStore).2).2 domainCopies := by
  have hnone : DomainUpdateRuns {} "media" domainUpdates concurrentStore [] concurrentStore
      fun _ => none := .nil
  have hread := Runs.read hnone (i := false) (r := concurrentRow) rfl
  have hboth := Runs.read hread (i := true) (r := concurrentRow) rfl
  have hfirst := Runs.write hboth (i := false) (r := concurrentRow) rfl
    ⟨none, none, concurrentEvents, Prod.ext domainUpdateRuns_succeed.1 rfl⟩
  exact Runs.write hfirst (i := true) (r := concurrentRow) rfl
    ⟨none, none, concurrentEvents, Prod.ext domainUpdateRuns_succeed.2 rfl⟩

end Example

end Athenz.ZmsServer
