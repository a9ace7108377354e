import Athenz.Lib.Result
import Athenz.MemberWrites
import Athenz.MetaFrame

namespace Athenz.ZmsServer
open Lib Lib.Result Lib.Text Lib.Transaction
set_option autoImplicit true

section Transactions

/-- The roles and the groups of every domain are the same. -/
def SameObjects (db db' : Database) : Prop :=
  ∀ name, (db'.domains.lookup name).map (fun row => (row.roles, row.groups)) =
    (db.domains.lookup name).map fun row => (row.roles, row.groups)

theorem SameObjects.refl (db : Database) : SameObjects db db := fun _ => rfl

theorem SameObjects.trans (h : SameObjects db db') (h' : SameObjects db' db'') :
    SameObjects db db'' :=
  fun name => (h' name).trans (h name)

theorem SameObjects.find (h : SameObjects db db') (domainName name : Str) :
    roleTable.find db' domainName name = roleTable.find db domainName name ∧
      groupTable.find db' domainName name = groupTable.find db domainName name := by
  have hroles := congrArg (Option.bind · fun objects => objects.1.lookup name) (h domainName)
  have hgroups := congrArg (Option.bind · fun objects => objects.2.lookup name) (h domainName)
  rw [Option.bind_map, Option.bind_map] at hroles hgroups
  exact ⟨hroles, hgroups⟩

theorem SameObjects.passes (h : SameObjects db db') (domainName : Str) :
    roleTable.Pass groupTable domainName [] db db' := by
  have hdomains : ∀ name, (db'.domains.lookup name).isSome = (db.domains.lookup name).isSome := by
    intro name
    have hsome := congrArg Option.isSome (h name)
    rw [Option.isSome_map, Option.isSome_map] at hsome
    exact hsome
  have hwrites : ∀ {S : Type} {table : Table S},
      (∀ name, table.find db' domainName name = table.find db domainName name) →
        table.Writes domainName [] db db' := by
    intro S table hfind
    refine ⟨hdomains, fun name => ?_, ?_, fun name memberName _ => ?_⟩
    · rw [hfind]
    · rintro _ _ _ _ ⟨_, hmem, _⟩
      cases hmem
    · rw [Table.expiration, hfind]
      rfl
  exact ⟨hwrites fun name => (h.find domainName name).1,
    hwrites fun name => (h.find domainName name).2⟩

theorem SameObjects.insert (h : db.domains.lookup domainName = some row)
    (hdb : db'.domains = db.domains.insert domainName row')
    (hroles : row'.roles = row.roles) (hgroups : row'.groups = row.groups) :
    SameObjects db db' := by
  intro name
  rw [hdb, Map.lookup_insert]
  split
  · rename_i hsame
    rw [hsame, h, Option.map_some, Option.map_some, hroles, hgroups]
  · rfl

/-- Programs that leave the roles and the groups. -/
def Idle (p : Op α) : Prop := Tx.Returns p fun db _ db' => SameObjects db db'

theorem Idle.bind {p : Op α} {f : α → Op β} (hp : Idle p) (hf : ∀ a, Idle (f a)) :
    Idle (p >>= f) := by
  refine (Tx.Returns.bind hp hf).mono ?_
  rintro db b db'' ⟨_, db', hfirst, hsecond⟩
  exact hfirst.trans hsecond

theorem idle_of_reading {p : Op α} (hp : Tx.Reading p) : Idle p := by
  intro c a c' h
  rw [hp.keeps c a c' h]
  exact .refl _

theorem Idle.pure (a : α) : Idle (Pure.pure a) := idle_of_reading (.pure a)

theorem Idle.ite {b : Prop} [Decidable b] {p q : Op α} (hp : Idle p) (hq : Idle q) :
    Idle (if b then p else q) :=
  Tx.Returns.ite (fun _ => hp) fun _ => hq

theorem Idle.both {p q : Op Bool} (hp : Idle p) (hq : Idle q) : Idle (Tx.both p q) :=
  hp.bind fun _ => .ite hq (.pure false)

theorem onDomain_idle {f : DomainRow → Except Failure (α × DomainRow)}
    (h : ∀ row a row', f row = .ok (a, row') → row'.roles = row.roles ∧ row'.groups = row.groups) :
    Idle (onDomain domainName f) := by
  refine (onDomain_returns f).mono ?_
  rintro db a db' ⟨row, row', hrow, hf, rfl⟩
  obtain ⟨hroles, hgroups⟩ := h row a row' hf
  exact .insert hrow rfl hroles hgroups

theorem touchDomain_idle (domainName : Str) (changed : Bool) : Idle (touchDomain domainName changed) := by
  refine .ite (Idle.bind ?_ fun _ => .pure true) (.pure true)
  refine (Tx.Returns.statement _).mono ?_
  rintro db a db' ⟨time, hf⟩
  cases hf
  intro name
  rw [lookup_stampDomain, Option.map_map]
  refine congrArg (Option.map · _) (funext fun row => ?_)
  dsimp only [Function.comp_apply]
  split
  · rfl
  · rfl

variable [Collation]

theorem updateDomain_idle (domain : Domain) : Idle (updateDomain domain) := by
  refine (Tx.Returns.statement _).mono ?_
  rintro db a db' ⟨time, hf⟩
  obtain ⟨_, _, hf⟩ := bind_eq_ok.1 hf
  cases hrow : db.domains.lookup domain.name with
  | none =>
    rw [hrow] at hf
    cases hf
    exact .refl _
  | some row =>
    rw [hrow] at hf
    cases hf
    exact .insert hrow rfl rfl rfl

theorem insertDomainTags_idle (limit : Nat) (domainName : Str) (tags : Tags) :
    Idle (insertDomainTags limit domainName tags) := by
  refine onDomain_idle fun row a row' hf => ?_
  obtain ⟨_, _, hf⟩ := bind_eq_ok.1 hf
  cases hf
  exact ⟨rfl, rfl⟩

theorem deleteDomainTags_idle (domainName : Str) (keys : List Column) :
    Idle (deleteDomainTags domainName keys) := by
  refine onDomain_idle fun row a row' hf => ?_
  cases hf
  exact ⟨rfl, rfl⟩

theorem processDomainTags_idle (config : Config) (domainTags originalTags : Option Tags)
    (domainName : Str) (updateDomainLastModTimestamp : Bool) :
    Idle (processDomainTags config domainTags originalTags domainName
      updateDomainLastModTimestamp) := by
  unfold processDomainTags
  refine .ite (.ite (.pure true) ((insertDomainTags_idle _ _ _).both (touchDomain_idle _ _))) ?_
  cases domainTags with
  | none => exact .pure true
  | some currentTags =>
    exact (Idle.ite (.pure true) (deleteDomainTags_idle _ _)).both
      ((Idle.ite (.pure true) (insertDomainTags_idle _ _ _)).both (touchDomain_idle _ _))

end Transactions

section Failures

/-- Failures behind which an operation is not tried again. -/
def NotRetried (e : Failure) : Prop := shouldRetryOperation e = false

theorem notRetried_notFound (objectType objectName : Str) :
    NotRetried (notFoundError objectType objectName) := rfl

theorem notRetried_request (message : Str) : NotRetried (requestError message) := rfl

theorem notRetried_internal (message : Str) : NotRetried (internalServerError message) := rfl

theorem onDomain_throws {f : DomainRow → Except Failure (α × DomainRow)}
    (h : ∀ row e, f row = .error e → NotRetried e) : Tx.Throws NotRetried (onDomain domainName f) := by
  refine .statement fun time db e hf => ?_
  split at hf
  · cases hf
    exact notRetried_notFound _ _
  · rename_i row hrow
    cases hrun : f row with
    | error e' =>
      rw [hrun] at hf
      cases hf
      exact h row e hrun
    | ok result =>
      rw [hrun] at hf
      cases hf

theorem Table.on_throws (table : Table S) (domainName name : Str)
    {f : Collection S → Except Failure (α × Collection S)}
    (h : ∀ stored e, f stored = .error e → NotRetried e) :
    Tx.Throws NotRetried (table.on domainName name f) := by
  refine onDomain_throws fun row e hf => ?_
  unfold Table.change at hf
  split at hf
  · cases hf
    exact notRetried_notFound _ _
  · rename_i stored hstored
    cases hrun : f stored with
    | error e' =>
      rw [hrun] at hf
      cases hf
      exact h stored e hrun
    | ok result =>
      rw [hrun] at hf
      cases hf

theorem Table.updateModTimestamp_throws (table : Table S) (domainName name : Str) :
    Tx.Throws NotRetried (table.updateModTimestamp domainName name) :=
  table.on_throws domainName name fun _ _ h => nomatch h

theorem Table.insertAuditLog_throws (table : Table S) (domainName name : Str) (admin : Option Str)
    (member action : Str) :
    Tx.Throws NotRetried (table.insertAuditLog domainName name admin member action) :=
  table.on_throws domainName name fun _ _ h => nomatch h

theorem Table.insertMember_throws (table : Table S) (domainName name : Str) (member : Member)
    (admin : Option Str) : Tx.Throws NotRetried (table.insertMember domainName name member admin) := by
  refine Tx.Throws.bind ((Tx.Throws.query _).bind fun known => ?_) fun action => ?_
  · exact .ite (fun _ => .abort (notRetried_notFound _ _)) fun _ =>
      table.on_throws domainName name fun _ _ h => nomatch h
  · cases action with
    | none => exact .pure true
    | some action => exact table.insertAuditLog_throws domainName name admin member.memberName action

theorem Table.updateMemberDisabledState_throws (table : Table S) (domainName name memberName : Str)
    (admin : Option Str) (disabledState : Nat) : Tx.Throws NotRetried
      (table.updateMemberDisabledState domainName name memberName admin disabledState) := by
  refine Tx.Throws.bind (table.on_throws domainName name fun stored e h => ?_) fun updated =>
    .ite (fun _ => .pure false) fun _ => table.insertAuditLog_throws domainName name admin _ _
  split at h
  · cases h
  · cases h

theorem tryEach_throws {step : Member → Op Bool}
    (h : ∀ member, Tx.Throws NotRetried (step member)) (members : List Member) :
    Tx.Throws NotRetried (tryEach step members) := by
  induction members with
  | nil => exact .pure false
  | cons member members ih => exact (h member).quietly.bind fun _ => ih.bind fun _ => .pure _

theorem updateDomainModTimestamp_throws (domainName : Str) :
    Tx.Throws NotRetried (updateDomainModTimestamp domainName) :=
  .statement fun _ _ _ h => nomatch h

theorem touchDomain_throws (domainName : Str) (changed : Bool) :
    Tx.Throws NotRetried (touchDomain domainName changed) :=
  .ite (fun _ => (updateDomainModTimestamp_throws domainName).bind fun _ => .pure true)
    fun _ => .pure true

theorem Table.touch_throws (table : Table S) (domainName name : Str) (changed : Bool) :
    Tx.Throws NotRetried (table.touch domainName name changed) :=
  .ite (fun _ => (table.updateModTimestamp_throws domainName name).bind fun _ =>
    updateDomainModTimestamp_throws domainName) fun _ => .pure ()

theorem Table.updateAllDueDates_throws (table : Table S) (config : Config) (ctx : Context)
    (now : Int) (domainName : Str) (limits : DueLimits) (members : Collection S → List Member)
    (objects : List (Sigma fun _ : Str => Collection S)) : Tx.Throws NotRetried
      (table.updateAllDueDates config ctx now domainName limits members objects) := by
  induction objects with
  | nil => exact .pure false
  | cons object objects ih =>
    rw [Table.updateAllDueDates_cons]
    refine (tryEach_throws (fun member => table.insertMember_throws domainName _ member _) _).bind
      fun changed => Tx.Throws.bind ?_ fun _ => ih.bind fun _ => .pure _
    exact .ite (fun _ => table.updateModTimestamp_throws domainName _) fun _ => .pure false

theorem updateDomainMembersExpiration_throws (config : Config) (ctx : Context) (now : Int)
    (domain updated : Domain) (view : Option DomainRow) : Tx.Throws NotRetried
      (updateDomainMembersExpiration config ctx now domain updated view) := by
  cases view with
  | none => exact .pure ()
  | some row =>
    exact .ite (fun _ => .pure ()) fun _ => (roleTable.updateAllDueDates_throws _ _ _ _ _ _ _).bind
      fun _ => (groupTable.updateAllDueDates_throws _ _ _ _ _ _ _).bind fun _ =>
        (touchDomain_throws _ _).bind fun _ => .pure ()

theorem updateAllDisabledStates_throws (config : Config) (ctx : Context) (domainName : Str)
    (domainFilter : Option Str) (roles : List (Sigma fun _ : Str => Collection RoleSettings)) :
    Tx.Throws NotRetried (updateAllDisabledStates config ctx domainName domainFilter roles) := by
  induction roles with
  | nil => exact .pure ()
  | cons role roles ih =>
    exact (tryEach_throws (fun member => roleTable.updateMemberDisabledState_throws _ _ _ _ _) _).bind
      fun _ => (roleTable.touch_throws _ _ _).bind fun _ => ih

theorem updateDomainMembersUserAuthorityFilter_throws [CaseRules] (config : Config) (ctx : Context)
    (domain updated : Domain) (view : Option DomainRow) : Tx.Throws NotRetried
      (updateDomainMembersUserAuthorityFilter config ctx domain updated view) := by
  cases view with
  | none => exact .pure ()
  | some row => exact .ite (fun _ => updateAllDisabledStates_throws _ _ _ _ _) fun _ => .pure ()

theorem updatedDomain_error (h : updatedDomain domain request systemAttribute deleteAllowed =
    .error e) : NotRetried e := by
  have hreset : ∀ {α : Type} [DecidableEq α] {empty : α} {oldValue newValue : Option α}
      {updated : Domain}, resetAttribute deleteAllowed empty oldValue newValue updated = .error e →
        NotRetried e := by
    intro α _ empty oldValue newValue updated h
    unfold resetAttribute at h
    split at h
    · cases h
    · cases h
      rfl
  cases systemAttribute with
  | none => cases h
  | some name =>
    cases name with
    | account => exact hreset h
    | azureSubscription => exact hreset h
    | productId => exact hreset h
    | certDnsDomain => exact hreset h
    | org => exact hreset h
    | auditEnabled => cases h
    | userAuthorityFilter => cases h
    | enabled => cases h
    | businessService => cases h
    | unknown name =>
      cases h
      rfl

variable [Collation]

theorem insertTags_notRetried {tags : Tags}
    (h : ZmsServer.insertTags objectType limit tags rows = .error e) : NotRetried e := by
  have hloop : ∀ added rows : List TagRow, (added.foldlM
      (fun rows row =>
        if rows.any fun stored => sameText stored.key.1 row.key.1 &&
            sameText stored.value.1 row.value.1 then .error duplicateEntry
        else .ok (rows ++ [row])) rows : Except Failure (List TagRow)) = .error e →
          NotRetried e := by
    intro added
    induction added with
    | nil => exact nofun
    | cons row added ih =>
      intro rows hrun
      rw [List.foldlM_cons] at hrun
      split at hrun
      · cases hrun
        rfl
      · exact ih _ hrun
  unfold ZmsServer.insertTags at h
  split at h
  · cases h
    rfl
  · exact hloop _ _ h

theorem insertDomainTags_throws (limit : Nat) (domainName : Str) (tags : Tags) :
    Tx.Throws NotRetried (insertDomainTags limit domainName tags) := by
  refine onDomain_throws fun row e hf => ?_
  cases hinsert : insertTags "domain" limit tags row.tags with
  | ok rows =>
    rw [hinsert] at hf
    cases hf
  | error e' =>
    rw [hinsert] at hf
    cases hf
    exact insertTags_notRetried hinsert

theorem deleteDomainTags_throws (domainName : Str) (keys : List Column) :
    Tx.Throws NotRetried (deleteDomainTags domainName keys) :=
  onDomain_throws fun _ _ h => nomatch h

theorem processDomainTags_throws (config : Config) (domainTags originalTags : Option Tags)
    (domainName : Str) (updateDomainLastModTimestamp : Bool) : Tx.Throws NotRetried
      (processDomainTags config domainTags originalTags domainName updateDomainLastModTimestamp) := by
  unfold processDomainTags
  refine .ite (fun _ => .ite (fun _ => .pure true) fun _ =>
    (insertDomainTags_throws _ _ _).both (touchDomain_throws _ _)) fun _ => ?_
  cases domainTags with
  | none => exact .pure true
  | some currentTags =>
    exact (Tx.Throws.ite (fun _ => .pure true) fun _ => deleteDomainTags_throws _ _).both
      ((Tx.Throws.ite (fun _ => .pure true) fun _ => insertDomainTags_throws _ _ _).both
        (touchDomain_throws _ _))

theorem verifyUniqueness_throws {domain : Domain}
    (h : verifyUniqueness db domain = .error e) : NotRetried e := by
  unfold verifyUniqueness verifyDomainAccountUniqueness verifyDomainSubscriptionUniqueness
    verifyDomainProductIdUniqueness at h
  split at h
  · cases h
    rfl
  split at h
  · cases h
    rfl
  split at h
  · cases h
    rfl
  · cases h

theorem updateDomain_throws (domain : Domain) : Tx.Throws NotRetried (updateDomain domain) := by
  refine .statement fun time db e hf => ?_
  cases hunique : verifyUniqueness db domain with
  | error e' =>
    rw [hunique] at hf
    cases hf
    exact verifyUniqueness_throws hunique
  | ok _ =>
    rw [hunique] at hf
    cases hrow : db.domains.lookup domain.name with
    | none =>
      rw [hrow] at hf
      cases hf
    | some row =>
      rw [hrow] at hf
      cases hf

theorem putDomainMetaBody_throws (config : Config) (ctx : Context) (domain : Domain)
    (request : DomainMeta) (systemAttribute : Option SystemAttribute) (deleteAllowed : Bool) :
    Tx.Throws NotRetried
      (putDomainMetaBody config ctx domain request systemAttribute deleteAllowed) := by
  unfold putDomainMetaBody
  refine Tx.Throws.bind (.ite (fun _ => ?_) fun _ => .pure ()) fun _ => ?_
  · exact (Tx.Throws.ensure _ (notRetried_request _)).bind fun _ =>
      .ensure _ (notRetried_request _)
  · split
    · rename_i e he
      exact .raise (updatedDomain_error he)
    · exact (updateDomain_throws _).bind fun _ => (processDomainTags_throws _ _ _ _ _).bind
        fun _ => (Tx.Throws.ensure _ (notRetried_internal _)).bind fun _ => .pure _

end Failures

end Athenz.ZmsServer
