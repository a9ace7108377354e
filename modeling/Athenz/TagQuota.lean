import Athenz.Lib.Attempts
import Athenz.MemberReplacement

namespace Athenz.ZmsServer
open Lib Lib.Text Lib.Transaction
set_option autoImplicit true

section Limits

/-- A failure for another reason than the number of tags. -/
def NotTagQuota (e : Failure) : Prop :=
  ∀ objectType limit current added, e ≠ .tagQuota objectType limit current added

theorem notTagQuota_resource (code : Nat) (message : Str) : NotTagQuota (.resource code message) :=
  fun _ _ _ _ => Failure.noConfusion

theorem notTagQuota_quotaLimit (what : Str) (limit actual : Nat) :
    NotTagQuota (.quotaLimit what limit actual) :=
  fun _ _ _ _ => Failure.noConfusion

/-- A program that keeps to the number of tags, unless a statement meets such a failure. -/
abbrev Fits (pre : Database → Prop) (p : Op α) (post : α → Database → Prop) : Prop :=
  Tx.Triple NotTagQuota NotTagQuota pre p post

theorem fits_bind {p : Op α} {f : α → Op β} {pre : Database → Prop} {post : β → Database → Prop}
    (mid : α → Database → Prop) (hp : Fits pre p mid) (hf : ∀ a, Fits (mid a) (f a) post) :
    Fits pre (p >>= f) post :=
  Tx.Triple.bind hp hf

theorem fits_statement {f : Int → Database → Except Failure (α × Database)}
    {pre : Database → Prop} {post : α → Database → Prop}
    (hok : ∀ time db a db', pre db → f time db = .ok (a, db') → post a db')
    (herror : ∀ time db e, pre db → f time db = .error e → NotTagQuota e) :
    Fits pre (Tx.statement f) post := by
  refine .statement (fun _ h => h) fun time db hpre => ?_
  split
  · rename_i a db' hf
    exact hok time db a db' hpre hf
  · rename_i e hf
    exact herror time db e hpre hf

theorem fits_readDomain {f : DomainRow → Except Failure α} {pre : Database → Prop}
    (h : ∀ row e, f row = .error e → NotTagQuota e) :
    Fits pre (readDomain domainName f) fun _ db => pre db := by
  refine fits_statement (fun time db a db' hpre hf => ?_) fun time db e hpre hf => ?_
  · split at hf
    · cases hf
    · rename_i row hrow
      obtain ⟨a', hrun, hpure⟩ := Result.bind_eq_ok.1 hf
      cases hpure
      exact hpre
  · split at hf
    · cases hf
      exact notTagQuota_resource _ _
    · rename_i row hrow
      cases hrun : f row with
      | error e' =>
        rw [hrun] at hf
        cases hf
        exact h row _ hrun
      | ok a =>
        rw [hrun] at hf
        cases hf

theorem fits_onDomain {f : DomainRow → Except Failure (α × DomainRow)} {pre : Database → Prop}
    {post : α → Database → Prop}
    (hok : ∀ db row a row', pre db → db.domains.lookup domainName = some row →
      f row = .ok (a, row') → post a ((domainFocus domainName).put db row'))
    (herror : ∀ db row e, pre db → db.domains.lookup domainName = some row → f row = .error e →
      NotTagQuota e) :
    Fits pre (onDomain domainName f) post := by
  refine fits_statement (fun time db a db' hpre hf => ?_) fun time db e hpre hf => ?_
  · split at hf
    · cases hf
    · rename_i row hrow
      obtain ⟨result, hrun, hpure⟩ := Result.bind_eq_ok.1 hf
      cases hpure
      exact hok db row _ _ hpre hrow hrun
  · split at hf
    · cases hf
      exact notTagQuota_resource _ _
    · rename_i row hrow
      cases hrun : f row with
      | error e' =>
        rw [hrun] at hf
        cases hf
        exact herror db row _ hpre hrow hrun
      | ok a =>
        rw [hrun] at hf
        cases hf

end Limits

section Tables

variable {table : Table S}

/-- The tags of the object, if it is stored. -/
def Table.HasRows (table : Table S) (domainName name : Str) (rows : List TagRow) (db : Database) :
    Prop :=
  ∀ stored, table.find db domainName name = some stored → stored.tags = rows

theorem Table.on_fits {f : Collection S → Except Failure (α × Collection S)}
    (hok : ∀ stored a stored', stored.tags = rows → f stored = .ok (a, stored') →
      stored'.tags = rows')
    (herror : ∀ stored e, stored.tags = rows → f stored = .error e → NotTagQuota e) :
    Fits (table.HasRows domainName name rows) (table.on domainName name f)
      fun _ => table.HasRows domainName name rows' := by
  refine fits_onDomain (fun db row a row' hpre hrow hf => ?_) fun db row e hpre hrow hf => ?_
  · unfold Table.change at hf
    split at hf
    · cases hf
    · rename_i stored hstored
      obtain ⟨result, hrun, hpure⟩ := Result.bind_eq_ok.1 hf
      cases hpure
      have hfind : table.find db domainName name = some stored := by
        rw [Table.find, hrow]
        exact hstored
      intro found hfound
      rw [← Table.focus_put hrow, Table.find_put_at hrow, if_pos ⟨rfl, rfl⟩] at hfound
      cases hfound
      exact hok stored _ _ (hpre stored hfind) hrun
  · unfold Table.change at hf
    split at hf
    · cases hf
      exact notTagQuota_resource _ _
    · rename_i stored hstored
      have hfind : table.find db domainName name = some stored := by
        rw [Table.find, hrow]
        exact hstored
      cases hrun : f stored with
      | error e' =>
        rw [hrun] at hf
        cases hf
        exact herror stored _ (hpre stored hfind) hrun
      | ok result =>
        rw [hrun] at hf
        cases hf

theorem Table.insertRow_fits (table : Table S) (domainName name : Str) (settings : S) :
    Fits (fun _ => True) (table.insertRow domainName name settings)
      fun _ => table.HasRows domainName name [] := by
  refine fits_onDomain (fun db row a row' _ hrow hf => ?_) fun db row e _ hrow hf => ?_
  · split at hf
    · cases hf
    · cases hf
      intro found hfound
      rw [← Table.focus_put hrow, Table.find_put_at hrow, if_pos ⟨rfl, rfl⟩] at hfound
      cases hfound
      rfl
  · split at hf
    · cases hf
      exact notTagQuota_resource _ _
    · cases hf

variable {rows : List TagRow}

/-- A statement that always answers and leaves the tags. -/
theorem Table.on_fits_beside {f : Collection S → α × Collection S}
    (h : ∀ stored, (f stored).2.tags = stored.tags) :
    Fits (table.HasRows domainName name rows) (table.on domainName name fun stored => .ok (f stored))
      fun _ => table.HasRows domainName name rows := by
  refine Table.on_fits (fun stored a stored' htags hf => ?_) fun stored e _ hf => ?_
  · have hrow : stored' = (f stored).2 := (congrArg Prod.snd (Except.ok.inj hf)).symm
    rw [hrow, h]
    exact htags
  · cases hf

theorem Table.insertMember_fits (table : Table S) (domainName name : Str) (member : Member)
    (admin : Option Str) : Fits (table.HasRows domainName name rows)
      (table.insertMember domainName name member admin) fun _ => table.HasRows domainName name rows := by
  refine fits_bind (fun _ => table.HasRows domainName name rows) ?_ fun action => ?_
  · refine fits_bind (fun _ => table.HasRows domainName name rows)
      (.query (fun _ h => h) fun _ h => h) fun known => .ite (fun _ => .abort ?_) fun _ => ?_
    · exact notTagQuota_resource _ _
    · exact Table.on_fits_beside fun stored => (putMember_row table.keepsReview member admin stored).2
  · cases action with
    | none => exact .pure fun _ h => h
    | some action => exact Table.on_fits_beside fun _ => rfl

theorem Table.deleteMember_fits (table : Table S) (domainName name memberName : Str)
    (admin : Option Str) : Fits (table.HasRows domainName name rows)
      (table.deleteMember domainName name memberName admin)
      fun _ => table.HasRows domainName name rows :=
  Tx.Triple.bind (Table.on_fits_beside fun _ => rfl) fun _ =>
    .ite (fun _ => .pure fun _ h => h) fun _ => Table.on_fits_beside fun _ => rfl

end Tables

section Tags

variable {table : Table S} {rows : List TagRow} [Collation]

/-- Tags that fit into the limit beside the rows are refused for duplicates only. -/
theorem insertTags_fits (hfits : rows.length + (tagPairs tags).length ≤ limit)
    (h : ZmsServer.insertTags objectType limit tags rows = .error e) : NotTagQuota e := by
  have hloop : ∀ added rows : List TagRow, (added.foldlM
      (fun rows row =>
        if rows.any fun stored => sameText stored.key.1 row.key.1 &&
            sameText stored.value.1 row.value.1 then Except.error duplicateEntry
        else Except.ok (rows ++ [row])) rows) = Except.error e → NotTagQuota e := by
    intro added
    induction added with
    | nil => exact fun rows h => nomatch h
    | cons row added ih =>
      intro rows h
      rw [List.foldlM_cons] at h
      by_cases hany : rows.any (fun stored => sameText stored.key.1 row.key.1 &&
          sameText stored.value.1 row.value.1) = true
      · rw [if_pos hany] at h
        cases h
        exact notTagQuota_resource _ _
      · rw [if_neg hany] at h
        exact ih _ h
  unfold ZmsServer.insertTags at h
  rw [if_neg (Nat.not_lt.2 hfits)] at h
  exact hloop _ _ h

theorem Table.insertTags_fits (hfits : rows.length + (tagPairs tags).length ≤ limit) :
    Fits (table.HasRows domainName name rows) (table.insertTags limit name domainName tags)
      fun _ _ => True := by
  suffices h : Fits (table.HasRows domainName name rows)
      (table.insertTags limit name domainName tags)
      fun _ => table.HasRows domainName name (rows ++ tagPairs tags) from
    h.mono (fun _ h => h) fun _ _ _ => trivial
  refine Table.on_fits (fun stored a stored' htags hf => ?_) fun stored e htags hf => ?_
  · obtain ⟨rows', hinsert, hpure⟩ := Result.bind_eq_ok.1 hf
    cases hpure
    rw [htags] at hinsert
    exact insertTags_eq_ok hinsert
  · cases hinsert : ZmsServer.insertTags table.objectType limit tags stored.tags with
    | error e' =>
      rw [hinsert] at hf
      cases hf
      rw [htags] at hinsert
      exact ZmsServer.insertTags_fits hfits hinsert
    | ok rows' =>
      rw [hinsert] at hf
      cases hf

theorem Table.deleteTags_fits (keys : List Column) :
    Fits (table.HasRows domainName name rows) (table.deleteTags name domainName keys)
      fun _ => table.HasRows domainName name (keptRows keys rows) := by
  refine Table.on_fits (fun stored a stored' htags hf => ?_) fun stored e _ hf => nomatch hf
  cases hf
  exact (deleteTags_rows keys stored.tags).trans (congrArg (keptRows keys) htags)

/-- The rows that stay and the new ones are never more than the tags that are asked for. -/
theorem Table.processTags_fits (table : Table S) (domainName name : Str) (tags : Option Tags)
    (original : Option (List TagRow)) (hfits : (tagPairs (tags.getD ∅)).length ≤ limit) :
    Fits (table.HasRows domainName name (original.getD []))
      (processTags (table.insertTags limit name domainName) (table.deleteTags name domainName) tags
        (original.map tagsOf)) fun _ _ => True := by
  have hnew : ([] : List TagRow).length + (tagPairs (tags.getD ∅)).length ≤ limit := by
    rw [List.length_nil, Nat.zero_add]
    exact hfits
  refine .ite (fun _ => .pure fun _ _ => trivial) fun hsome => ?_
  cases original with
  | none => exact Table.insertTags_fits hnew
  | some rows =>
    refine .ite (fun hempty => ?_) fun _ => ?_
    · rw [if_neg hsome, (isEmptyTags_tagsOf rows).1 hempty]
      exact Table.insertTags_fits hnew
    · cases tags with
      | none => exact absurd rfl hsome
      | some tags =>
        have hreplaced := (length_replaceTags_le tags rows).trans hfits
        rw [replaceTags, List.length_append] at hreplaced
        exact Tx.Triple.bind (Table.deleteTags_fits _) fun _ =>
          .ite (fun _ => Table.insertTags_fits hreplaced) fun _ => .pure fun _ _ => trivial

end Tags

section Checks

variable {pre : Database → Prop}

theorem auditReferenceCheck_fits (config : Config) (ctx : Context) (objectName : Str) :
    Fits pre (auditReferenceCheck config ctx objectName) fun _ => pre :=
  Tx.Triple.bind ((Tx.Triple.ensure _ (notTagQuota_resource _ _)).mono (fun _ h => h)
    fun _ _ h => h.2) fun _ => (Tx.Triple.ensure _ (notTagQuota_resource _ _)).mono (fun _ h => h)
      fun _ _ h => h.2

theorem checkDomainAuditEnabled_fits (config : Config) (ctx : Context) (domainName : Str)
    (objectType : AuditType) :
    Fits pre (checkDomainAuditEnabled config ctx domainName objectType) fun _ => pre := by
  refine .ite (fun _ => ?_) fun _ => .pure fun _ h => h
  refine fits_bind (fun _ => pre) (.query (fun _ h => h) fun _ h => h) fun domain => ?_
  cases domain with
  | none => exact .abort (notTagQuota_resource _ _)
  | some domain =>
    exact .ite (fun _ => auditReferenceCheck_fits _ _ _) fun _ => .pure fun _ h => h

theorem checkQuota_fits (what : Str) (limit actual : Nat) :
    Fits pre (checkQuota what limit actual) fun _ => pre :=
  (Tx.Triple.permit _ fun _ => notTagQuota_quotaLimit _ _ _).mono (fun _ h => h) fun _ _ h => h.2

theorem getDomainQuota_fits (config : Config) (domainName : Str) :
    Fits pre (getDomainQuota config domainName) fun _ => pre :=
  Tx.Triple.bind (fits_readDomain fun _ _ h => nomatch h) fun _ => .pure fun _ h => h

theorem checkRoleQuota_fits (config : Config) (domainName : Str) (role : Role) :
    Fits pre (checkRoleQuota config domainName role) fun _ => pre :=
  .ite (fun _ => Tx.Triple.bind (getDomainQuota_fits _ _) fun _ =>
    Tx.Triple.bind (checkQuota_fits _ _ _) fun _ =>
      Tx.Triple.bind (fits_readDomain fun _ _ h => nomatch h) fun _ => checkQuota_fits _ _ _)
    fun _ => .pure fun _ h => h

theorem checkGroupQuota_fits (config : Config) (domainName : Str) (group : Group) :
    Fits pre (checkGroupQuota config domainName group) fun _ => pre :=
  .ite (fun _ => Tx.Triple.bind (getDomainQuota_fits _ _) fun _ =>
    Tx.Triple.bind (checkQuota_fits _ _ _) fun _ =>
      Tx.Triple.bind (fits_readDomain fun _ _ h => nomatch h) fun _ => checkQuota_fits _ _ _)
    fun _ => .pure fun _ h => h

end Checks

section Bodies

theorem both_fits {pre mid post : Database → Prop} {p q : Op Bool} (hp : Fits pre p fun _ => mid)
    (hq : Fits mid q fun _ => post) (hstop : ∀ db, mid db → post db) :
    Fits pre (p.both q) fun _ => post :=
  Tx.Triple.bind hp fun _ => .ite (fun _ => hq) fun _ => .pure hstop

theorem forAll_fits {pre : Database → Prop} {step : α → Op Bool} (h : ∀ a, Fits pre (step a) fun _ => pre)
    (items : List α) : Fits pre (Tx.forAll step items) fun _ => pre := by
  induction items with
  | nil => exact .pure fun _ h => h
  | cons a items ih => exact both_fits (h a) ih fun _ h => h

variable [Collation] {tags : Option Tags}

theorem Table.create_fits (table : Table S) (domainName name : Str) (settings : S)
    (members : List Member) (admin : Option Str) (hfits : (tagPairs (tags.getD ∅)).length ≤ limit) :
    Fits (fun _ => True) ((table.insertRow domainName name settings).both
      ((Tx.forAll (fun member => table.insertMember domainName name member admin) members).both
        (processTags (table.insertTags limit name domainName) (table.deleteTags name domainName) tags
          none))) fun _ _ => True :=
  both_fits (table.insertRow_fits domainName name settings)
    (both_fits (forAll_fits (fun member => table.insertMember_fits domainName name member admin)
      members) (table.processTags_fits domainName name tags none hfits) fun _ _ => trivial)
    fun _ _ => trivial

variable [CaseRules]

theorem Table.update_fits (table : Table S) (domainName name : Str) (settings : S)
    (original members : Option (List Member)) (admin : Option Str) (rows : List TagRow)
    (hfits : (tagPairs (tags.getD ∅)).length ≤ limit) :
    Fits (table.HasRows domainName name rows) ((table.updateRow domainName name settings).both
      ((table.processUpdateMembers original members false domainName name admin).both
        (processTags (table.insertTags limit name domainName) (table.deleteTags name domainName) tags
          (some (tagsOf rows))))) fun _ _ => True := by
  have hdelete : ∀ gone : List Member, Fits (table.HasRows domainName name rows)
      (Tx.forAll (fun member => table.deleteMember domainName name member.memberName admin) gone)
      fun _ => table.HasRows domainName name rows := fun gone =>
    forAll_fits (fun member : Member => table.deleteMember_fits domainName name member.memberName
      admin) gone
  have hinsert : ∀ new : List Member, Fits (table.HasRows domainName name rows)
      (Tx.forAll (fun member => table.insertMember domainName name member admin) new)
      fun _ => table.HasRows domainName name rows := fun new =>
    forAll_fits (fun member => table.insertMember_fits domainName name member admin) new
  have hmembers : Fits (table.HasRows domainName name rows)
      (table.processUpdateMembers original members false domainName name admin)
      fun _ => table.HasRows domainName name rows :=
    both_fits (hdelete _) (hinsert _) fun _ h => h
  have hsettings : Fits (table.HasRows domainName name rows)
      (table.updateRow domainName name settings) fun _ => table.HasRows domainName name rows :=
    Table.on_fits_beside fun _ => rfl
  exact both_fits hsettings (both_fits hmembers
    (table.processTags_fits domainName name tags (some rows) hfits) fun _ _ => trivial)
    fun _ _ => trivial

theorem processRole_fits (config : Config) {role : Role}
    (hname : role.name = roleResourceName domainName roleName) (admin : Option Str)
    (original : Option (Collection RoleSettings))
    (hfits : (tagPairs (role.tags.getD ∅)).length ≤ config.roleTagsLimit) :
    Fits (fun db => roleTable.find db domainName roleName = original)
      (processRole config (original.map (saveRole domainName roleName)) domainName roleName role admin
        false) fun _ _ => True := by
  cases original with
  | none =>
    unfold processRole
    rw [insertRole_eq (show { role with auditEnabled := some false }.name = _ from hname)]
    exact (roleTable.create_fits domainName roleName _ _ admin hfits).mono (fun _ _ => trivial)
      fun _ _ h => h
  | some stored =>
    unfold processRole
    dsimp only [Option.map_some]
    rw [updateRole_eq (show { role with
      auditEnabled := (saveRole domainName roleName stored).auditEnabled }.name = _ from hname)]
    refine (roleTable.update_fits domainName roleName _ _ _ admin stored.tags hfits).mono
      (fun db hfind found hfound => ?_) fun _ _ h => h
    cases hfound.symm.trans hfind
    rfl

theorem processGroup_fits (config : Config) {group : Group}
    (hname : group.name = domainName ++ ":group." ++ groupName) (admin : Option Str)
    (original : Option (Collection GroupSettings))
    (hfits : (tagPairs (group.tags.getD ∅)).length ≤ config.groupTagsLimit) :
    Fits (fun db => groupTable.find db domainName groupName = original)
      (processGroup config (original.map (saveGroup domainName groupName)) domainName groupName group
        admin) fun _ _ => True := by
  cases original with
  | none =>
    unfold processGroup
    rw [insertGroup_eq (show { group with auditEnabled := some false }.name = _ from hname)]
    exact (groupTable.create_fits domainName groupName _ _ admin hfits).mono (fun _ _ => trivial)
      fun _ _ h => h
  | some stored =>
    unfold processGroup
    dsimp only [Option.map_some]
    rw [updateGroup_eq (show { group with
      auditEnabled := (saveGroup domainName groupName stored).auditEnabled }.name = _ from hname)]
    refine (groupTable.update_fits domainName groupName _ _ _ admin stored.tags hfits).mono
      (fun db hfind found hfound => ?_) fun _ _ h => h
    cases hfound.symm.trans hfind
    rfl

theorem putRoleBody_fits (config : Config) (ctx : Context) {role : Role}
    (hname : role.name = roleResourceName domainName roleName)
    (hfits : (tagPairs (role.tags.getD ∅)).length ≤ config.roleTagsLimit) :
    Fits (fun _ => True) (putRoleBody config ctx domainName roleName role) fun _ _ => True := by
  refine Tx.Triple.bind (checkDomainAuditEnabled_fits _ _ _ _) fun _ =>
    Tx.Triple.bind (checkRoleQuota_fits _ _ _) fun _ => fits_bind
      (fun original db => original =
        (roleTable.find db domainName roleName).map (saveRole domainName roleName))
      (.query (fun _ h => h) fun _ _ => rfl) fun original => ?_
  refine Tx.Triple.bind ((Tx.Triple.permit _ fun _ => notTagQuota_resource _ _).mono
    (fun _ h => h) fun _ _ h => h.2) fun _ => ?_
  refine fits_bind (fun _ _ => True) (fun c hevents horiginal => ?_) fun done =>
    (Tx.Triple.ensure done (notTagQuota_resource _ _)).mono (fun _ h => h) fun _ _ _ => trivial
  rw [horiginal]
  exact processRole_fits config hname ctx.principal _ hfits c hevents rfl

theorem putGroupBody_fits (config : Config) (ctx : Context) {group : Group}
    (hname : group.name = domainName ++ ":group." ++ groupName)
    (hfits : (tagPairs (group.tags.getD ∅)).length ≤ config.groupTagsLimit) :
    Fits (fun _ => True) (putGroupBody config ctx domainName groupName group) fun _ _ => True := by
  refine Tx.Triple.bind (checkDomainAuditEnabled_fits _ _ _ _) fun _ =>
    Tx.Triple.bind (checkGroupQuota_fits _ _ _) fun _ => fits_bind
      (fun original db => original =
        (groupTable.find db domainName groupName).map (saveGroup domainName groupName))
      (.query (fun _ h => h) fun _ _ => rfl) fun original => ?_
  refine Tx.Triple.bind ((Tx.Triple.permit _ fun _ => notTagQuota_resource _ _).mono
    (fun _ h => h) fun _ _ h => h.2) fun _ => ?_
  refine fits_bind (fun _ _ => True) (fun c hevents horiginal => ?_) fun done =>
    (Tx.Triple.ensure done (notTagQuota_resource _ _)).mono (fun _ h => h) fun _ _ _ => trivial
  rw [horiginal]
  exact processGroup_fits config hname ctx.principal _ hfits c hevents rfl

/-- Whatever is stored and whatever fails, the put of a role or a group whose tags number within
the limit is never refused for their number. -/
theorem puts_spare_tagQuota (config : Config) (ctx : Context) (domainName name : Str)
    (db : Database) {events : Nat → Event Failure}
    (hevents : ∀ n e applied, (events n).fault = some (e, applied) → NotTagQuota e) :
    (∀ role : Role, role.name = roleResourceName domainName name →
      (tagPairs (role.tags.getD ∅)).length ≤ config.roleTagsLimit →
      ∀ e db', executePutRole config ctx domainName name role db events = (.error e, db') →
        NotTagQuota e) ∧
    (∀ group : Group, group.name = domainName ++ ":group." ++ name →
      (tagPairs (group.tags.getD ∅)).length ≤ config.groupTagsLimit →
      ∀ e db', executePutGroup config ctx domainName name group db events = (.error e, db') →
        NotTagQuota e) :=
  ⟨fun _ hname hfits _ _ h => Tx.attempts_error (fun _ h => h)
      (.saved (fun _ h => h) (putRoleBody_fits config ctx hname hfits)) hevents h,
    fun _ hname hfits _ _ h => Tx.attempts_error (fun _ h => h)
      (.saved (fun _ h => h) (putGroupBody_fits config ctx hname hfits)) hevents h⟩

end Bodies

section Example

local instance quotaCollation : Collation := .binary

local instance quotaCaseRules : CaseRules := .ascii

def oneTag : Config := { roleTagsLimit := 1, groupTagsLimit := 1 }

theorem teamEvents_spare (n : Nat) (e : Failure) (applied : Bool)
    (h : (teamEvents n).fault = some (e, applied)) : NotTagQuota e := by
  cases h

theorem teamPuts_spare :
    (∀ e db', executePutRole oneTag teamCaller "media" "readers" teamRole teamStore teamEvents =
      (.error e, db') → NotTagQuota e) ∧
    (∀ e db', executePutGroup oneTag teamCaller "media" "readers" teamGroup teamStore teamEvents =
      (.error e, db') → NotTagQuota e) :=
  ⟨(puts_spare_tagQuota oneTag teamCaller "media" "readers" teamStore
      teamEvents_spare).1 teamRole rfl (by decide),
    (puts_spare_tagQuota oneTag teamCaller "media" "readers" teamStore
      teamEvents_spare).2 teamGroup rfl (by decide)⟩

end Example

end Athenz.ZmsServer
