import Athenz.PolicyStore
import Athenz.RowChanges
import Athenz.TagChanges

namespace Athenz.ZmsServer
open Lib Lib.Text Lib.Transaction
set_option autoImplicit true

section Rows

/-- When a membership ends and when it is reviewed, as far as the table keeps it. -/
def Table.dates (table : Table S) (member : Member) : Option Int × Option Int :=
  (member.expiration, if table.keepsReview then member.reviewReminder else none)

/-- The dates of the members that a request approves. -/
def Table.requested (table : Table S) (members : List Member) (name : Str) :
    Option (Option Int × Option Int) :=
  (members.find? fun member => member.memberName = name && member.approved ≠ some false).map
    table.dates

/-- The dates of the stored members. -/
def Table.enrolled (table : Table S) (stored : Collection S) (name : Str) :
    Option (Option Int × Option Int) :=
  (stored.members.lookup name).map fun row =>
    (row.expiration, if table.keepsReview then row.reviewReminder else none)

def Collection.logged (admin : Option Str) (memberName : Str) (action : Option Str)
    (stored : Collection S) : Collection S :=
  match action with
  | none => stored
  | some action => { stored with
      auditLog := stored.auditLog ++ [⟨processInsertValue admin, memberName, action⟩] }

/-- The row behind the insertion or update of a member. -/
def Table.join (table : Table S) (admin : Option Str) (member : Member) (stored : Collection S) :
    Collection S :=
  (stored.putMember table.keepsReview member admin).2.logged admin member.memberName
    (stored.putMember table.keepsReview member admin).1

/-- The row behind the deletion of a member. -/
def Collection.leave (admin : Option Str) (member : Member) (stored : Collection S) :
    Collection S :=
  { stored with members := stored.members.erase member.memberName }.logged admin member.memberName
    (some "DELETE")

theorem isSome_requested {table : Table S} : (table.requested members name).isSome ↔
    ∃ member ∈ members, member.memberName = name ∧ member.approved ≠ some false := by
  unfold Table.requested
  rw [Option.isSome_map, List.find?_isSome]
  simp only [Bool.and_eq_true, decide_eq_true_eq]

theorem requested_eq_some {table : Table S} (hdistinct : (members.map (·.memberName)).Nodup) :
    table.requested members name = some dates ↔
      ∃ member ∈ members, member.memberName = name ∧ member.approved ≠ some false ∧
        table.dates member = dates := by
  have hfound : ∀ member ∈ members, member.memberName = name → member.approved ≠ some false →
      table.requested members name = some (table.dates member) := by
    intro member hmem hname happroved
    unfold Table.requested
    cases hfind : members.find? fun member =>
        member.memberName = name && member.approved ≠ some false with
    | none =>
      have hnot := List.find?_eq_none.1 hfind member hmem
      simp only [hname, happroved, decide_true, ne_eq, not_false_eq_true, Bool.and_self,
        not_true_eq_false] at hnot
    | some other =>
      have hother := List.find?_some hfind
      simp only [Bool.and_eq_true, decide_eq_true_eq] at hother
      have hsame := List.inj_on_of_nodup_map hdistinct (List.mem_of_find?_eq_some hfind) hmem
        (hother.1.trans hname.symm)
      rw [hsame, Option.map_some]
  constructor
  · intro h
    obtain ⟨member, hmem, hname, happroved⟩ := isSome_requested.1 (Option.isSome_iff_exists.2 ⟨_, h⟩)
    have hdates := hfound member hmem hname happroved
    rw [h, Option.some.injEq] at hdates
    exact ⟨member, hmem, hname, happroved, hdates.symm⟩
  · rintro ⟨member, hmem, hname, happroved, rfl⟩
    exact hfound member hmem hname happroved

theorem enrolled_join (table : Table S) (admin : Option Str) (member : Member)
    (stored : Collection S) (name : Str) :
    table.enrolled (table.join admin member stored) name =
      if member.memberName = name ∧ member.approved ≠ some false then some (table.dates member)
      else table.enrolled stored name := by
  unfold Table.join Collection.putMember
  by_cases happroved : member.approved = some false
  · rw [if_pos happroved, if_neg fun h => h.2 happroved]
    rfl
  · rw [if_neg happroved, Collection.logged, Table.enrolled]
    dsimp only
    rw [Map.lookup_insert]
    by_cases hname : name = member.memberName
    · rw [if_pos hname, if_pos ⟨hname.symm, happroved⟩, Option.map_some]
      unfold memberRow Table.dates
      dsimp only
      split
      · rfl
      · rfl
    · rw [if_neg hname, if_neg fun h => hname h.1.symm]
      rfl

theorem enrolled_leave (table : Table S) (admin : Option Str) (member : Member)
    (stored : Collection S) (name : Str) :
    table.enrolled (stored.leave admin member) name =
      if name = member.memberName then none else table.enrolled stored name := by
  unfold Collection.leave Collection.logged Table.enrolled
  dsimp only
  rw [Map.lookup_erase]
  by_cases hname : name = member.memberName
  · rw [if_pos hname, if_pos hname, Option.map_none]
  · rw [if_neg hname, if_neg hname]

theorem enrolled_foldl_join (table : Table S) (admin : Option Str)
    (hdistinct : (members.map (·.memberName)).Nodup) (stored : Collection S) (name : Str) :
    table.enrolled (members.foldl (fun stored member => table.join admin member stored) stored) name =
      (table.requested members name).or (table.enrolled stored name) := by
  induction members generalizing stored with
  | nil => rfl
  | cons member members ih =>
    rw [List.map_cons, List.nodup_cons] at hdistinct
    rw [List.foldl_cons, ih hdistinct.2, enrolled_join]
    unfold Table.requested
    rw [List.find?_cons]
    by_cases hjoins : member.memberName = name ∧ member.approved ≠ some false
    · have hnone : (members.find? fun member =>
          member.memberName = name && member.approved ≠ some false) = none := by
        refine List.find?_eq_none.2 fun other hother h => hdistinct.1 ?_
        simp only [Bool.and_eq_true, decide_eq_true_eq] at h
        rw [hjoins.1, ← h.1]
        exact List.mem_map_of_mem hother
      rw [hnone, if_pos hjoins]
      simp only [hjoins.1, hjoins.2, decide_true, ne_eq, not_false_eq_true, Bool.and_self,
        Option.map_none, Option.none_or, Option.map_some, Option.some_or]
    · have hfalse : (member.memberName = name && member.approved ≠ some false) = false := by
        rw [Bool.eq_false_iff, ne_eq, Bool.and_eq_true, decide_eq_true_eq, decide_eq_true_eq]
        exact hjoins
      rw [hfalse, if_neg hjoins]

theorem enrolled_foldl_leave (table : Table S) (admin : Option Str) (members : List Member)
    (stored : Collection S) (name : Str) :
    table.enrolled (members.foldl (fun stored member => stored.leave admin member) stored) name =
      if name ∈ members.map (·.memberName) then none else table.enrolled stored name := by
  induction members generalizing stored with
  | nil => rfl
  | cons member members ih =>
    rw [List.foldl_cons, ih, enrolled_leave, List.map_cons]
    by_cases hrest : name ∈ members.map (·.memberName)
    · rw [if_pos hrest, if_pos (List.mem_cons_of_mem _ hrest)]
    · simp only [hrest, if_false, List.mem_cons, or_false]

end Rows

section Replacement

variable [CaseRules]

/-- The members that are put replace the listed ones; those of the same name are left alone. -/
def Table.putMembers (table : Table S) (listed members : List Member) (admin : Option Str)
    (stored : Collection S) : Collection S :=
  (removeMembers members (some listed)).foldl (fun stored member => table.join admin member stored)
    ((removeMembers listed (some members)).foldl (fun stored member => stored.leave admin member)
      stored)

theorem mem_removeMembers : member ∈ removeMembers original (some remove) ↔
    member ∈ original ∧ ∀ other ∈ remove,
      equalsIgnoreCase member.memberName other.memberName = false := by
  unfold removeMembers
  rw [List.mem_filter, Option.getD_some, Bool.not_eq_true', List.any_eq_false]
  simp only [Bool.not_eq_true]

/-- The list is that of the stored members. -/
structure Table.Lists (table : Table S) (stored : Collection S) (listed : List Member) : Prop where
  dates : ∀ member ∈ listed, table.enrolled stored member.memberName = some (table.dates member)
  all : listed = [] ∨ ∀ name, (table.enrolled stored name).isSome →
    ∃ member ∈ listed, member.memberName = name

theorem nodup_removeMembers {members : List Member} (h : (members.map (·.memberName)).Nodup)
    (remove : Option (List Member)) : ((removeMembers members remove).map (·.memberName)).Nodup :=
  h.sublist (List.filter_sublist.map _)

theorem enrolled_putMembers (table : Table S) (listed : List Member) (admin : Option Str)
    (hdistinct : (members.map (·.memberName)).Nodup) (stored : Collection S) (name : Str) :
    table.enrolled (table.putMembers listed members admin stored) name =
      (table.requested (removeMembers members (some listed)) name).or
        (if name ∈ (removeMembers listed (some members)).map (·.memberName) then none
          else table.enrolled stored name) := by
  rw [Table.putMembers, enrolled_foldl_join table admin (nodup_removeMembers hdistinct _),
    enrolled_foldl_leave]

/-- A listed member that the request names keeps its row. -/
theorem enrolled_putMembers_named {table : Table S} (hlists : table.Lists stored listed)
    (admin : Option Str) (hdistinct : (members.map (·.memberName)).Nodup) (hitem : item ∈ listed)
    (hmember : member ∈ members)
    (hsame : equalsIgnoreCase item.memberName member.memberName = true) :
    table.enrolled (table.putMembers listed members admin stored) item.memberName =
      some (table.dates item) := by
  have hnew : table.requested (removeMembers members (some listed)) item.memberName = none := by
    rw [← Option.not_isSome_iff_eq_none, isSome_requested]
    rintro ⟨other, hother, hname, _⟩
    have hapart := (mem_removeMembers.1 hother).2 item hitem
    rw [hname, equalsIgnoreCase_refl] at hapart
    cases hapart
  have hgone : item.memberName ∉ (removeMembers listed (some members)).map (·.memberName) := by
    intro hgone
    obtain ⟨other, hother, hname⟩ := List.mem_map.1 hgone
    have hapart := (mem_removeMembers.1 hother).2 member hmember
    rw [hname, hsame] at hapart
    cases hapart
  rw [enrolled_putMembers table listed admin hdistinct, hnew, if_neg hgone, Option.none_or]
  exact hlists.dates item hitem

/-- A listed member that the request does not name is gone. -/
theorem enrolled_putMembers_unnamed {table : Table S} (admin : Option Str)
    (hdistinct : (members.map (·.memberName)).Nodup) (stored : Collection S)
    (hitem : item ∈ listed)
    (hnone : ∀ member ∈ members, equalsIgnoreCase item.memberName member.memberName = false) :
    table.enrolled (table.putMembers listed members admin stored) item.memberName = none := by
  have hnew : table.requested (removeMembers members (some listed)) item.memberName = none := by
    rw [← Option.not_isSome_iff_eq_none, isSome_requested]
    rintro ⟨other, hother, hname, _⟩
    have hapart := hnone other (mem_removeMembers.1 hother).1
    rw [hname, equalsIgnoreCase_refl] at hapart
    cases hapart
  have hgone : item.memberName ∈ (removeMembers listed (some members)).map (·.memberName) :=
    List.mem_map_of_mem (mem_removeMembers.2 ⟨hitem, hnone⟩)
  rw [enrolled_putMembers table listed admin hdistinct, hnew, if_pos hgone, Option.none_or]

theorem enrolled_putMembers_unlisted {table : Table S} (admin : Option Str)
    (hdistinct : (members.map (·.memberName)).Nodup) (stored : Collection S)
    (hunlisted : ∀ item ∈ listed, item.memberName ≠ name) :
    table.enrolled (table.putMembers listed members admin stored) name =
      (table.requested (removeMembers members (some listed)) name).or
        (table.enrolled stored name) := by
  have hgone : name ∉ (removeMembers listed (some members)).map (·.memberName) := by
    intro hgone
    obtain ⟨other, hother, hname⟩ := List.mem_map.1 hgone
    exact hunlisted other (mem_removeMembers.1 hother).1 hname
  rw [enrolled_putMembers table listed admin hdistinct, if_neg hgone]

/-- Every stored member is listed. -/
def Table.ListsAll (table : Table S) (stored : Collection S) (listed : List Member) : Prop :=
  ∀ name, (table.enrolled stored name).isSome → ∃ item ∈ listed, item.memberName = name

/-- A stored member that the request names in any case stays as it is, and a member of the request
joins when no stored one has its name. -/
def Table.Merges (table : Table S) (members : List Member)
    (before after : Str → Option (Option Int × Option Int)) : Prop :=
  ∀ name dates, after name = some dates ↔
    (before name = some dates ∧
      ∃ member ∈ members, equalsIgnoreCase name member.memberName = true) ∨
    (table.requested members name = some dates ∧
      ∀ other, (before other).isSome → equalsIgnoreCase other name = false)

theorem putMembers_merges {table : Table S} (hlists : table.Lists stored listed)
    (hall : table.ListsAll stored listed) (admin : Option Str)
    (hdistinct : (members.map (·.memberName)).Nodup) :
    table.Merges members (table.enrolled stored)
      (table.enrolled (table.putMembers listed members admin stored)) := by
  intro name dates
  by_cases hlisted : ∃ item ∈ listed, item.memberName = name
  · obtain ⟨item, hitem, rfl⟩ := hlisted
    have hstored := hlists.dates item hitem
    have hnever : ¬ ∀ other, (table.enrolled stored other).isSome →
        equalsIgnoreCase other item.memberName = false := by
      intro hnone
      have hfalse := hnone item.memberName (Option.isSome_iff_exists.2 ⟨_, hstored⟩)
      rw [equalsIgnoreCase_refl] at hfalse
      cases hfalse
    by_cases hnamed : ∃ member ∈ members, equalsIgnoreCase item.memberName member.memberName = true
    · obtain ⟨member, hmember, hsame⟩ := hnamed
      rw [enrolled_putMembers_named hlists admin hdistinct hitem hmember hsame, hstored]
      exact ⟨fun h => .inl ⟨h, member, hmember, hsame⟩,
        fun h => h.elim And.left fun hnew => absurd hnew.2 hnever⟩
    · have hnone : ∀ member ∈ members,
          equalsIgnoreCase item.memberName member.memberName = false :=
        fun member hmember => Bool.eq_false_iff.2 fun hsame => hnamed ⟨member, hmember, hsame⟩
      rw [enrolled_putMembers_unnamed admin hdistinct stored hitem hnone]
      exact ⟨fun h => (nomatch h), fun h => h.elim (fun hkept => absurd hkept.2 hnamed)
        fun hnew => absurd hnew.2 hnever⟩
  · have hunlisted : ∀ item ∈ listed, item.memberName ≠ name :=
      fun item hitem hname => hlisted ⟨item, hitem, hname⟩
    have hstored : table.enrolled stored name = none := by
      rw [← Option.not_isSome_iff_eq_none]
      exact fun hsome => hlisted (hall name hsome)
    rw [enrolled_putMembers_unlisted admin hdistinct stored hunlisted, hstored, Option.or_none,
      requested_eq_some (nodup_removeMembers hdistinct _), requested_eq_some hdistinct]
    simp only [reduceCtorEq, false_and, false_or]
    constructor
    · rintro ⟨member, hmember, rfl, hrest⟩
      obtain ⟨hmember, hnew⟩ := mem_removeMembers.1 hmember
      refine ⟨⟨member, hmember, rfl, hrest⟩, fun other hother => ?_⟩
      obtain ⟨item, hitem, rfl⟩ := hall other hother
      rw [Bool.eq_false_iff]
      intro hsame
      have hfalse := hnew item hitem
      rw [equalsIgnoreCase_comm hsame] at hfalse
      cases hfalse
    · rintro ⟨⟨member, hmember, rfl, hrest⟩, hnone⟩
      refine ⟨member, mem_removeMembers.2 ⟨hmember, fun item hitem => ?_⟩, rfl, hrest⟩
      rw [Bool.eq_false_iff]
      intro hsame
      have hfalse := hnone item.memberName (Option.isSome_iff_exists.2 ⟨_, hlists.dates item hitem⟩)
      rw [equalsIgnoreCase_comm hsame] at hfalse
      cases hfalse

/-- What has been merged once stays as it is when it is merged again. -/
theorem Table.Merges.trans {table : Table S} (hdistinct : (members.map (·.memberName)).Nodup)
    (h : table.Merges members first second) (h' : table.Merges members second third) :
    table.Merges members first third := by
  intro name dates
  rw [h']
  constructor
  · rintro (⟨hsecond, hnamed⟩ | ⟨hrequested, hnone⟩)
    · exact ((h name dates).1 hsecond).imp (fun hkept => hkept) id
    · obtain ⟨member, hmember, rfl, happroved, hdates⟩ := (requested_eq_some hdistinct).1 hrequested
      have hfirst : ∀ other, (first other).isSome → equalsIgnoreCase other member.memberName = false := by
        intro other hother
        rw [Bool.eq_false_iff]
        intro hsame
        obtain ⟨kept, hkept⟩ := Option.isSome_iff_exists.1 hother
        have hthere := (h other kept).2 (.inl ⟨hkept, member, hmember, hsame⟩)
        have hfalse := hnone other (Option.isSome_iff_exists.2 ⟨_, hthere⟩)
        rw [hsame] at hfalse
        cases hfalse
      exact .inr ⟨hrequested, hfirst⟩
  · rintro (⟨hfirst, hnamed⟩ | ⟨hrequested, hnone⟩)
    · exact .inl ⟨(h name dates).2 (.inl ⟨hfirst, hnamed⟩), hnamed⟩
    · refine .inl ⟨(h name dates).2 (.inr ⟨hrequested, hnone⟩), ?_⟩
      obtain ⟨member, hmember, rfl, _⟩ := (requested_eq_some hdistinct).1 hrequested
      exact ⟨member, hmember, equalsIgnoreCase_refl _⟩

theorem putMembers_keeps (table : Table S) (listed members : List Member) (admin : Option Str)
    (stored : Collection S) :
    (table.putMembers listed members admin stored).settings = stored.settings ∧
      (table.putMembers listed members admin stored).tags = stored.tags := by
  have hleave : ∀ (gone : List Member) (stored : Collection S),
      (gone.foldl (fun stored member => stored.leave admin member) stored).settings =
        stored.settings ∧
      (gone.foldl (fun stored member => stored.leave admin member) stored).tags = stored.tags := by
    intro gone
    induction gone with
    | nil => exact fun _ => ⟨rfl, rfl⟩
    | cons member gone ih => exact fun stored => ih _
  have hjoin : ∀ (new : List Member) (stored : Collection S),
      (new.foldl (fun stored member => table.join admin member stored) stored).settings =
        stored.settings ∧
      (new.foldl (fun stored member => table.join admin member stored) stored).tags =
        stored.tags := by
    intro new
    induction new with
    | nil => exact fun _ => ⟨rfl, rfl⟩
    | cons member new ih =>
      intro stored
      have hstep : (table.join admin member stored).settings = stored.settings ∧
          (table.join admin member stored).tags = stored.tags := by
        rw [Table.join, Collection.putMember]
        split
        · exact ⟨rfl, rfl⟩
        · exact ⟨rfl, rfl⟩
      rw [List.foldl_cons]
      exact ⟨(ih _).1.trans hstep.1, (ih _).2.trans hstep.2⟩
  exact ⟨(hjoin _ _).1.trans (hleave _ _).1, (hjoin _ _).2.trans (hleave _ _).2⟩

theorem putMembers_tags (table : Table S) (listed members : List Member) (admin : Option Str)
    (stored : Collection S) : (table.putMembers listed members admin stored).tags = stored.tags :=
  (putMembers_keeps table listed members admin stored).2

/-- A member that is not approved waits behind the put. -/
theorem pending_putMembers (table : Table S) (listed : List Member) (admin : Option Str)
    (hdistinct : (members.map (·.memberName)).Nodup) (stored : Collection S) (hmember : member ∈ members)
    (hnew : ∀ item ∈ listed, equalsIgnoreCase member.memberName item.memberName = false)
    (happroved : member.approved = some false) :
    (table.putMembers listed members admin stored).pending.lookup member.memberName =
      some (pendingRow table.keepsReview member admin) := by
  have hloop : ∀ (new : List Member) (stored : Collection S), (new.map (·.memberName)).Nodup →
      (member ∈ new ∨ member.memberName ∉ new.map (·.memberName) ∧
        stored.pending.lookup member.memberName = some (pendingRow table.keepsReview member admin)) →
      (new.foldl (fun stored member => table.join admin member stored) stored).pending.lookup
        member.memberName = some (pendingRow table.keepsReview member admin) := by
    intro new
    induction new with
    | nil => exact fun stored _ h => h.elim (fun hmem => nomatch hmem) And.right
    | cons other new ih =>
      intro stored hnodup h
      rw [List.map_cons, List.nodup_cons] at hnodup
      refine ih _ hnodup.2 ?_
      rcases h with hmem | ⟨habsent, hpending⟩
      · obtain rfl | hmem := List.mem_cons.1 hmem
        · refine .inr ⟨hnodup.1, ?_⟩
          dsimp only
          rw [Table.join, Collection.putMember, if_pos happroved]
          exact AList.lookup_insert _
        · exact .inl hmem
      · rw [List.map_cons, List.mem_cons, not_or] at habsent
        refine .inr ⟨habsent.2, ?_⟩
        dsimp only
        rw [← hpending, Table.join, Collection.putMember]
        split
        · exact AList.lookup_insert_ne habsent.1
        · rfl
  exact hloop _ _ (nodup_removeMembers hdistinct _) (.inl (mem_removeMembers.2 ⟨hmember, hnew⟩))

end Replacement

section Statements

variable {table : Table S}

theorem Table.logMember_accepts (table : Table S) (domainName name memberName : Str)
    (admin action : Option Str) :
    (table.focus domainName name).Accepts (table.logMember domainName name memberName admin action)
      fun stored stored' => stored' = stored.logged admin memberName action := by
  cases action with
  | none => exact Focus.Accepts.pure
  | some action =>
    refine Table.on_accepts fun stored stored' h => ?_
    cases h
    rfl

theorem Table.insertMember_accepts (table : Table S) (domainName name : Str) (member : Member)
    (admin : Option Str) :
    (table.focus domainName name).Accepts (table.insertMember domainName name member admin)
      fun stored stored' => stored' = table.join admin member stored := by
  intro c c' h stored hstored
  obtain ⟨action, d, hput, hlog⟩ := Tx.bind_eq_ok.1 h
  obtain ⟨known, d', hquery, hput⟩ := Tx.bind_eq_ok.1 hput
  obtain ⟨_, rfl, rfl⟩ := Tx.query_eq_ok.1 hquery
  split at hput
  · cases hput
  · obtain ⟨found, stored', hfound, hf, hd⟩ := table.on_returns _ _ _ _ hput
    cases hstored.symm.trans hfound
    rw [Except.ok.injEq] at hf
    have hreach : (table.focus domainName name).Reaches c.working stored' d.working := .inl hd
    obtain ⟨_, rfl, hlogged⟩ := table.logMember_accepts domainName name member.memberName admin
      action d c' hlog stored' (hreach.get hstored)
    refine ⟨_, ?_, hreach.trans hstored hlogged⟩
    dsimp only
    rw [Table.join, hf]

theorem Table.deleteMember_accepts (table : Table S) (domainName name : Str) (member : Member)
    (admin : Option Str) :
    (table.focus domainName name).Accepts
      (table.deleteMember domainName name member.memberName admin)
      fun stored stored' => stored' = stored.leave admin member := by
  intro c c' h stored hstored
  obtain ⟨deleted, d, hdelete, hlog⟩ := Tx.bind_eq_ok.1 h
  obtain ⟨found, stored', hfound, hf, hd⟩ := table.on_returns _ _ _ _ hdelete
  cases hstored.symm.trans hfound
  rw [Except.ok.injEq, Prod.mk.injEq] at hf
  have hreach : (table.focus domainName name).Reaches c.working stored' d.working := .inl hd
  split at hlog
  · cases hlog
  · obtain ⟨_, rfl, hlogged⟩ := table.logMember_accepts domainName name member.memberName admin
      (some "DELETE") d c' hlog stored' (hreach.get hstored)
    refine ⟨_, ?_, hreach.trans hstored hlogged⟩
    dsimp only
    rw [Collection.leave, hf.2]

variable [CaseRules]

theorem Table.processUpdateMembers_accepts (table : Table S) (domainName name : Str)
    (original members : Option (List Member)) (admin : Option Str) :
    (table.focus domainName name).Accepts
      (table.processUpdateMembers original members false domainName name admin)
      fun stored stored' =>
        stored' = table.putMembers (original.getD []) (members.getD []) admin stored := by
  unfold Table.processUpdateMembers
  refine ((Focus.Accepts.forAll fun member _ => table.deleteMember_accepts domainName name member
    admin).both (Focus.Accepts.forAll fun member _ => table.insertMember_accepts domainName name
      member admin)).mono ?_
  rintro stored stored' ⟨_, rfl, rfl⟩
  rfl

theorem Table.insertMembers_accepts (table : Table S) (domainName name : Str)
    (members : List Member) (admin : Option Str) :
    (table.focus domainName name).Accepts
      (Tx.forAll (fun member => table.insertMember domainName name member admin) members)
      fun stored stored' => stored' = table.putMembers [] members admin stored := by
  refine (Focus.Accepts.forAll fun member _ => table.insertMember_accepts domainName name member
    admin).mono fun stored stored' h => ?_
  have hall : removeMembers members (some []) = members := List.filter_eq_self.2 fun _ _ => rfl
  rw [Table.putMembers, hall]
  exact h

end Statements

section Puts

/-- A request that puts an object: its settings and the list of members, both by what is stored. -/
structure PutRequest (S : Type) where
  settings : Option (Collection S) → S
  listing : Collection S → List Member
  members : List Member
  tags : Option Tags
  admin : Option Str

def PutRequest.listed (request : PutRequest S) (original : Option (Collection S)) : List Member :=
  (original.map request.listing).getD []

/-- The row that the members and the tags of a request are put to. -/
def PutRequest.row (request : PutRequest S) (original : Option (Collection S)) : Collection S :=
  { original.getD { settings := request.settings original } with
    settings := request.settings original }

variable [Collation] [CaseRules]

/-- The row behind a request. -/
def PutRequest.apply (request : PutRequest S) (table : Table S) (original : Option (Collection S)) :
    Collection S :=
  { table.putMembers (request.listed original) request.members request.admin (request.row original)
    with tags := putTags request.tags (request.row original).tags }

/-- The list of members that is read of a role; that of a delegated role is empty. -/
def listedMembers (stored : Collection RoleSettings) : List Member :=
  if saveValue stored.settings.trust = none then stored.listMembers else []

def Role.putRequest (role : Role) (admin : Option Str) : PutRequest RoleSettings where
  settings original := { role.settings with
    auditEnabled := (original.map fun stored => stored.settings.auditEnabled).getD false }
  listing := listedMembers
  members := role.roleMembers.getD []
  tags := role.tags
  admin := admin

def Group.putRequest (group : Group) (admin : Option Str) : PutRequest GroupSettings where
  settings original := { group.settings with
    auditEnabled := (original.map fun stored => stored.settings.auditEnabled).getD false }
  listing := Collection.listMembers
  members := group.groupMembers.getD []
  tags := group.tags
  admin := admin

/-- What the processing of a request has made of the row. -/
def PutRequest.Made (request : PutRequest S) (table : Table S) (domainName name : Str)
    (db db' : Database) : Prop :=
  db' = (table.focus domainName name).put db
    (request.apply table (table.find db domainName name)) ∧
  table.find db' domainName name = some (request.apply table (table.find db domainName name))

theorem PutRequest.made_of_reaches {request : PutRequest S} {table : Table S}
    (hput : db₁ = (table.focus domainName name).put db stored)
    (hstored : table.find db₁ domainName name = some stored)
    (hreach : (table.focus domainName name).Reaches db₁
      (request.apply table (table.find db domainName name)) db') :
    request.Made table domainName name db db' := by
  have hfind := hreach.get hstored
  refine ⟨?_, hfind⟩
  obtain rfl | ⟨rfl, hsame⟩ := hreach
  · rw [hput, (table.focus domainName name).put_put]
  · have heq := hstored.symm.trans hsame
    rw [Option.some.injEq] at heq
    rw [hput, ← heq]

theorem PutRequest.create_makes (request : PutRequest S) (table : Table S)
    (domainName name : Str) (limit : Nat) :
    Tx.Accepts ((table.insertRow domainName name (request.settings none)).both
      ((Tx.forAll (fun member => table.insertMember domainName name member request.admin)
        request.members).both (processTags (table.insertTags limit name domainName)
          (table.deleteTags name domainName) request.tags none)))
      fun db db' => table.find db domainName name = none →
        request.Made table domainName name db db' := by
  have htags := table.processTags_accepts domainName name limit request.tags none
  refine (Tx.Accepts.both (onDomain_returns _).toAccepts (Tx.Accepts.both
    (table.insertMembers_accepts domainName name request.members request.admin) htags)).mono ?_
  rintro db db' ⟨db₁, ⟨row, row', hrow, hf, rfl⟩, db₂, hmembers, htags⟩ hnone
  split at hf
  · cases hf
  · cases hf
    have hput : (table.focus domainName name).put db { settings := request.settings none } = _ :=
      Table.focus_put hrow _
    rw [← hput] at hmembers
    have hfind : table.find ((table.focus domainName name).put db
        { settings := request.settings none }) domainName name =
          some { settings := request.settings none } :=
      (Table.find_put_at hrow _ domainName name).trans (if_pos ⟨rfl, rfl⟩)
    obtain ⟨_, rfl, hreach⟩ := hmembers _ hfind
    obtain ⟨_, hmade, hreach'⟩ := htags _ (hreach.get hfind)
    have hdone := hmade (putMembers_tags _ _ _ _ _)
    rw [putMembers_tags] at hdone
    refine PutRequest.made_of_reaches rfl hfind ?_
    rw [hnone]
    rw [hdone] at hreach'
    exact hreach.trans hfind hreach'

theorem PutRequest.update_makes (request : PutRequest S) (table : Table S)
    (domainName name : Str) (limit : Nat) (stored : Collection S)
    {original members : Option (List Member)}
    (horiginal : original.getD [] = request.listed (some stored))
    (hmembers : members.getD [] = request.members) :
    Tx.Accepts ((table.updateRow domainName name (request.settings (some stored))).both
      ((table.processUpdateMembers original members false domainName name request.admin).both
        (processTags (table.insertTags limit name domainName) (table.deleteTags name domainName)
          request.tags (some (tagsOf stored.tags)))))
      fun db db' => table.find db domainName name = some stored →
        request.Made table domainName name db db' := by
  have htags := table.processTags_accepts domainName name limit request.tags (some stored.tags)
  refine (Tx.Accepts.both (table.updateRow_returns _).toAccepts (Tx.Accepts.both
    (table.processUpdateMembers_accepts domainName name original members request.admin)
    htags)).mono ?_
  rintro db db' ⟨db₁, ⟨found, hfound, rfl⟩, db₂, hput, htags⟩ hstored
  cases hfound.symm.trans hstored
  have hfind := (table.focus domainName name).get_put hfound
    { stored with settings := request.settings (some stored) }
  obtain ⟨_, rfl, hreach⟩ := hput _ hfind
  obtain ⟨_, hmade, hreach'⟩ := htags _ (hreach.get hfind)
  have hdone := hmade (putMembers_tags _ _ _ _ _)
  rw [putMembers_tags] at hdone
  refine PutRequest.made_of_reaches rfl hfind ?_
  rw [hstored]
  rw [hdone] at hreach'
  rw [horiginal, hmembers] at hreach hreach'
  exact hreach.trans hfind hreach'

theorem processRole_makes (config : Config) {role : Role}
    (hname : role.name = roleResourceName domainName roleName) (admin : Option Str)
    (original : Option (Collection RoleSettings)) :
    Tx.Accepts (processRole config (original.map (saveRole domainName roleName)) domainName roleName
      role admin false) fun db db' => roleTable.find db domainName roleName = original →
        (role.putRequest admin).Made roleTable domainName roleName db db' := by
  cases original with
  | none =>
    unfold processRole
    rw [insertRole_eq (show { role with auditEnabled := some false }.name = _ from hname)]
    exact (role.putRequest admin).create_makes roleTable domainName roleName config.roleTagsLimit
  | some stored =>
    unfold processRole
    dsimp only [Option.map_some]
    rw [updateRole_eq (show { role with
      auditEnabled := (saveRole domainName roleName stored).auditEnabled }.name = _ from hname)]
    have hsettings : Role.settings { role with
        auditEnabled := (saveRole domainName roleName stored).auditEnabled } =
        (role.putRequest admin).settings (some stored) := by
      unfold Role.putRequest Role.settings
      dsimp only [Option.map_some, Option.getD_some]
      rw [show ((saveRole domainName roleName stored).auditEnabled).getD false =
        stored.settings.auditEnabled from getD_nullIfDefaultValue _ _]
    have hlisted : (saveRole domainName roleName stored).roleMembers.getD [] =
        (role.putRequest admin).listed (some stored) := by
      unfold PutRequest.listed Role.putRequest listedMembers saveRole retrieveRole
      dsimp only [Option.map_some, Option.getD_some]
      split
      · rfl
      · rfl
    rw [hsettings]
    exact (role.putRequest admin).update_makes roleTable domainName roleName config.roleTagsLimit
      stored hlisted rfl

theorem processGroup_makes (config : Config) {group : Group}
    (hname : group.name = domainName ++ ":group." ++ groupName) (admin : Option Str)
    (original : Option (Collection GroupSettings)) :
    Tx.Accepts (processGroup config (original.map (saveGroup domainName groupName)) domainName
      groupName group admin) fun db db' => groupTable.find db domainName groupName = original →
        (group.putRequest admin).Made groupTable domainName groupName db db' := by
  cases original with
  | none =>
    unfold processGroup
    rw [insertGroup_eq (show { group with auditEnabled := some false }.name = _ from hname)]
    exact (group.putRequest admin).create_makes groupTable domainName groupName
      config.groupTagsLimit
  | some stored =>
    unfold processGroup
    dsimp only [Option.map_some]
    rw [updateGroup_eq (show { group with
      auditEnabled := (saveGroup domainName groupName stored).auditEnabled }.name = _ from hname)]
    have hsettings : Group.settings { group with
        auditEnabled := (saveGroup domainName groupName stored).auditEnabled } =
        (group.putRequest admin).settings (some stored) := by
      unfold Group.putRequest Group.settings
      dsimp only [Option.map_some, Option.getD_some]
      rw [show ((saveGroup domainName groupName stored).auditEnabled).getD false =
        stored.settings.auditEnabled from getD_nullIfDefaultValue _ _]
    rw [hsettings]
    exact (group.putRequest admin).update_makes groupTable domainName groupName
      config.groupTagsLimit stored rfl rfl

theorem putRoleBody_makes (config : Config) (ctx : Context) {role : Role}
    (hname : role.name = roleResourceName domainName roleName) :
    Tx.Returns (putRoleBody config ctx domainName roleName role) fun db _ db' =>
      (role.putRequest ctx.principal).Made roleTable domainName roleName db db' := by
  refine (checkDomainAuditEnabled_reading _ _ _ _).returns_bind fun _ =>
    (checkRoleQuota_reading _ _ _).returns_bind fun _ => ?_
  rw [getRole_eq]
  refine (Tx.Returns.query_bind (T := fun found db _ db' =>
    roleTable.find db domainName roleName = roleTable.find found domainName roleName →
      (role.putRequest ctx.principal).Made roleTable domainName roleName db db')
    fun found => ?_).mono fun db _ db' h => h rfl
  exact (Tx.Reading.permit _ _).returns_bind fun _ => (processRole_makes config hname ctx.principal
    (roleTable.find found domainName roleName)).ensure_bind _

theorem putGroupBody_makes (config : Config) (ctx : Context) {group : Group}
    (hname : group.name = domainName ++ ":group." ++ groupName) :
    Tx.Returns (putGroupBody config ctx domainName groupName group) fun db _ db' =>
      (group.putRequest ctx.principal).Made groupTable domainName groupName db db' := by
  refine (checkDomainAuditEnabled_reading _ _ _ _).returns_bind fun _ =>
    (checkGroupQuota_reading _ _ _).returns_bind fun _ => ?_
  rw [getGroup_eq]
  refine (Tx.Returns.query_bind (T := fun found db _ db' =>
    groupTable.find db domainName groupName = groupTable.find found domainName groupName →
      (group.putRequest ctx.principal).Made groupTable domainName groupName db db')
    fun found => ?_).mono fun db _ db' h => h rfl
  exact (Tx.Reading.permit _ _).returns_bind fun _ => (processGroup_makes config hname ctx.principal
    (groupTable.find found domainName groupName)).ensure_bind _

end Puts

section Repetition

variable {table : Table S}

/-- Rows that differ in the order of the pending members at most. -/
structure Collection.Same (stored stored' : Collection S) : Prop where
  settings : stored'.settings = stored.settings
  members : stored'.members = stored.members
  auditLog : stored'.auditLog = stored.auditLog
  tags : stored'.tags = stored.tags
  pending : ∀ name, stored'.pending.lookup name = stored.pending.lookup name

theorem Collection.Same.refl (stored : Collection S) : stored.Same stored :=
  ⟨rfl, rfl, rfl, rfl, fun _ => rfl⟩

theorem Collection.Same.trans {stored stored' stored'' : Collection S} (h : stored.Same stored')
    (h' : stored'.Same stored'') : stored.Same stored'' where
  settings := h'.settings.trans h.settings
  members := h'.members.trans h.members
  auditLog := h'.auditLog.trans h.auditLog
  tags := h'.tags.trans h.tags
  pending name := (h'.pending name).trans (h.pending name)

theorem join_waiting {stored : Collection S} (happroved : member.approved = some false)
    (hpending : stored.pending.lookup member.memberName =
      some (pendingRow table.keepsReview member admin)) :
    stored.Same (table.join admin member stored) := by
  rw [Table.join, Collection.putMember, if_pos happroved]
  refine ⟨rfl, rfl, rfl, rfl, fun name => ?_⟩
  refine (Map.lookup_insert _ _ _ _).trans ?_
  split
  · rename_i hname
    rw [hname, hpending]
  · rfl

variable [Collation] [CaseRules]

/-- A row that a request leaves as it is. -/
structure PutRequest.Rests (request : PutRequest S) (table : Table S) (stored : Collection S) :
    Prop where
  settings : request.settings (some stored) = stored.settings
  remaining : ∀ item ∈ request.listing stored, ∃ member ∈ request.members,
    equalsIgnoreCase item.memberName member.memberName = true
  waiting : ∀ member ∈ request.members, (∀ item ∈ request.listing stored,
    equalsIgnoreCase member.memberName item.memberName = false) →
      member.approved = some false ∧ stored.pending.lookup member.memberName =
        some (pendingRow table.keepsReview member request.admin)
  tags : putTags request.tags stored.tags = stored.tags

theorem PutRequest.Rests.apply {request : PutRequest S} (h : request.Rests table stored) :
    stored.Same (request.apply table (some stored)) := by
  have hgone : removeMembers (request.listing stored) (some request.members) = [] := by
    refine List.eq_nil_iff_forall_not_mem.2 fun item hitem => ?_
    obtain ⟨hlisted, hapart⟩ := mem_removeMembers.1 hitem
    obtain ⟨member, hmember, hsame⟩ := h.remaining item hlisted
    rw [hapart member hmember] at hsame
    cases hsame
  have hnew : ∀ (new : List Member) (row : Collection S),
      (∀ member ∈ new, member.approved = some false ∧ stored.pending.lookup member.memberName =
        some (pendingRow table.keepsReview member request.admin)) → stored.Same row →
      stored.Same (new.foldl (fun row member => table.join request.admin member row) row) := by
    intro new
    induction new with
    | nil => exact fun _ _ hrow => hrow
    | cons member new ih =>
      intro row hwaiting hrow
      obtain ⟨happroved, hpending⟩ := hwaiting member List.mem_cons_self
      refine ih _ (fun other hother => hwaiting other (List.mem_cons_of_mem member hother)) ?_
      exact hrow.trans (join_waiting happroved ((hrow.pending _).trans hpending))
  have hrow : request.row (some stored) = stored := by
    rw [PutRequest.row, h.settings]
    rfl
  have hput := hnew (removeMembers request.members (some (request.listing stored))) stored
    (fun member hmember => h.waiting member (mem_removeMembers.1 hmember).1
      (mem_removeMembers.1 hmember).2) (.refl stored)
  rw [PutRequest.apply, hrow, h.tags, Table.putMembers,
    show request.listed (some stored) = request.listing stored from rfl, hgone]
  exact ⟨hput.settings, hput.members, hput.auditLog, rfl, hput.pending⟩

/-- The settings and the list of a row say nothing about its pending members. -/
structure PutRequest.Steady (request : PutRequest S) (table : Table S) : Prop where
  settings : ∀ original row, row.settings = request.settings original →
    request.settings (some row) = request.settings original
  same : ∀ row row', row.Same row' → request.settings (some row') = request.settings (some row) ∧
    request.listing row' = request.listing row
  lists : ∀ row, table.Lists row (request.listing row)

theorem PutRequest.Rests.same {request : PutRequest S} (hsteady : request.Steady table)
    (h : request.Rests table stored) (hsame : stored.Same stored') :
    request.Rests table stored' := by
  obtain ⟨hsettings, hlisting⟩ := hsteady.same stored stored' hsame
  refine ⟨?_, ?_, ?_, ?_⟩
  · rw [hsettings, hsame.settings]
    exact h.settings
  · rw [hlisting]
    exact h.remaining
  · rw [hlisting]
    intro member hmember hapart
    rw [hsame.pending]
    exact h.waiting member hmember hapart
  · rw [hsame.tags]
    exact h.tags

/-- The tags of a request do not go with each other. -/
def PutRequest.KeepsTags (request : PutRequest S) (rows : List TagRow) : Prop :=
  isEmptyTags request.tags = true ∨ TagsApart (request.tags.getD ∅) rows

omit [CaseRules] in
theorem putTags_again {request : PutRequest S} (h : request.KeepsTags rows) :
    putTags request.tags (putTags request.tags rows) = putTags request.tags rows := by
  unfold putTags
  split
  · rfl
  · rename_i hsome
    exact replaceTags_again (h.resolve_left hsome)

omit [CaseRules] in
theorem keepsTags_putTags {request : PutRequest S} (h : request.KeepsTags rows) :
    request.KeepsTags (putTags request.tags rows) := by
  obtain hempty | hapart := h
  · exact .inl hempty
  · unfold putTags
    split
    · exact .inr hapart
    · exact .inr (tagsApart_replaceTags hapart)

theorem PutRequest.rests_apply {request : PutRequest S} (hsteady : request.Steady table)
    (hdistinct : (request.members.map (·.memberName)).Nodup) {original : Option (Collection S)}
    (hlists : table.Lists (request.row original) (request.listed original))
    (hall : table.ListsAll (request.row original) (request.listed original))
    (hall' : table.ListsAll (request.apply table original)
      (request.listing (request.apply table original)))
    (htags : request.KeepsTags (request.row original).tags) :
    request.Rests table (request.apply table original) := by
  have henrolled : ∀ name, table.enrolled (request.apply table original) name =
      table.enrolled (table.putMembers (request.listed original) request.members request.admin
        (request.row original)) name := fun _ => rfl
  have hstays : ∀ item ∈ request.listed original, ∀ member ∈ request.members,
      equalsIgnoreCase item.memberName member.memberName = true →
      ∃ item' ∈ request.listing (request.apply table original),
        item'.memberName = item.memberName := by
    intro item hitem member hmember hsame
    refine hall' item.memberName ?_
    rw [henrolled, enrolled_putMembers_named hlists request.admin hdistinct hitem hmember hsame]
    rfl
  refine ⟨?_, fun item hitem => ?_, fun member hmember hnone => ?_, putTags_again htags⟩
  · have hrow : (request.apply table original).settings = request.settings original :=
      (putMembers_keeps _ _ _ _ _).1
    rw [hsteady.settings original _ hrow, hrow]
  · have hthere := (hsteady.lists _).dates item hitem
    rw [henrolled] at hthere
    by_contra hnone
    have hapart : ∀ member ∈ request.members,
        equalsIgnoreCase item.memberName member.memberName = false :=
      fun member hmember => Bool.eq_false_iff.2 fun hsame => hnone ⟨member, hmember, hsame⟩
    by_cases hlisted : ∃ other ∈ request.listed original, other.memberName = item.memberName
    · obtain ⟨other, hother, hname⟩ := hlisted
      rw [← hname] at hapart hthere
      rw [enrolled_putMembers_unnamed request.admin hdistinct _ hother hapart] at hthere
      cases hthere
    · have hunlisted : ∀ other ∈ request.listed original, other.memberName ≠ item.memberName :=
        fun other hother hname => hlisted ⟨other, hother, hname⟩
      rw [enrolled_putMembers_unlisted request.admin hdistinct _ hunlisted] at hthere
      obtain hnew | ⟨_, hstored⟩ := Option.or_eq_some_iff.1 hthere
      · obtain ⟨member, hmember, hname, _⟩ :=
          (requested_eq_some (nodup_removeMembers hdistinct _)).1 hnew
        have hfalse := hapart member (mem_removeMembers.1 hmember).1
        rw [hname, equalsIgnoreCase_refl] at hfalse
        cases hfalse
      · obtain ⟨other, hother, hname⟩ := hall _ (Option.isSome_iff_exists.2 ⟨_, hstored⟩)
        exact hunlisted other hother hname
  · have hnew : ∀ item ∈ request.listed original,
        equalsIgnoreCase member.memberName item.memberName = false := by
      intro item hitem
      rw [Bool.eq_false_iff]
      intro hsame
      obtain ⟨item', hitem', hname⟩ := hstays item hitem member hmember (equalsIgnoreCase_comm hsame)
      have hfalse := hnone item' hitem'
      rw [hname, hsame] at hfalse
      cases hfalse
    have happroved : member.approved = some false := by
      by_contra happroved
      have hrequested : (table.requested (removeMembers request.members
          (some (request.listed original))) member.memberName).isSome :=
        isSome_requested.2 ⟨member, mem_removeMembers.2 ⟨hmember, hnew⟩, rfl, happroved⟩
      have hthere : (table.enrolled (request.apply table original) member.memberName).isSome := by
        rw [henrolled, enrolled_putMembers table _ request.admin hdistinct, Option.isSome_or,
          hrequested, Bool.true_or]
      obtain ⟨item', hitem', hname⟩ := hall' _ hthere
      have hfalse := hnone item' hitem'
      rw [hname, equalsIgnoreCase_refl] at hfalse
      cases hfalse
    exact ⟨happroved, pending_putMembers table _ request.admin hdistinct _ hmember hnew happroved⟩

end Repetition

section Stores

/-- The rows of a table are the same. -/
def Table.SameRows (table : Table S) (db db' : Database) : Prop :=
  ∀ domainName name, (table.find db domainName name = none ∧ table.find db' domainName name = none) ∨
    ∃ stored stored', table.find db domainName name = some stored ∧
      table.find db' domainName name = some stored' ∧ stored.Same stored'

variable {table : Table S}

theorem Table.SameRows.of_find
    (h : ∀ domainName name, table.find db' domainName name = table.find db domainName name) :
    table.SameRows db db' := by
  intro domainName name
  cases hstored : table.find db domainName name with
  | none => exact .inl ⟨rfl, (h domainName name).trans hstored⟩
  | some stored => exact .inr ⟨stored, stored, rfl, (h domainName name).trans hstored, .refl stored⟩

theorem Table.SameRows.trans (h : table.SameRows db db') (h' : table.SameRows db' db'') :
    table.SameRows db db'' := by
  intro domainName name
  rcases h domainName name with ⟨hnone, hnone'⟩ | ⟨stored, stored', hstored, hstored', hsame⟩
  · rcases h' domainName name with ⟨_, hnone''⟩ | ⟨_, _, hsome, _⟩
    · exact .inl ⟨hnone, hnone''⟩
    · rw [hnone'] at hsome
      cases hsome
  · rcases h' domainName name with ⟨hnone, _⟩ | ⟨found, stored'', hfound, hstored'', hsame'⟩
    · rw [hstored'] at hnone
      cases hnone
    · cases hstored'.symm.trans hfound
      exact .inr ⟨stored, stored'', hstored, hstored'', hsame.trans hsame'⟩

theorem Table.SameRows.put (h : table.find db domainName name = some stored)
    (hsame : stored.Same stored') :
    table.SameRows db ((table.focus domainName name).put db stored') := by
  intro otherDomain other
  rw [Table.find_put_eq h]
  split
  · rename_i hhere
    rw [hhere.1, hhere.2, h]
    exact .inr ⟨stored, stored', rfl, rfl, hsame⟩
  · cases hfound : table.find db otherDomain other with
    | none => exact .inl ⟨rfl, rfl⟩
    | some found => exact .inr ⟨found, found, rfl, rfl, .refl found⟩

theorem Table.SameRows.find (h : table.SameRows db db')
    (hstored : table.find db domainName name = some stored) :
    ∃ stored', table.find db' domainName name = some stored' ∧ stored.Same stored' := by
  rcases h domainName name with ⟨hnone, _⟩ | ⟨found, stored', hfound, hstored', hsame⟩
  · rw [hstored] at hnone
    cases hnone
  · cases hstored.symm.trans hfound
    exact ⟨stored', hstored', hsame⟩

/-- A domain without its time, its roles and its groups. -/
def DomainRow.rest (row : DomainRow) : DomainRow :=
  { row with modified := 0, roles := ∅, groups := ∅ }

/-- Stores that differ in the times of domains and the order of rows at most. -/
structure SameStore (db db' : Database) : Prop where
  roles : roleTable.SameRows db db'
  groups : groupTable.SameRows db db'
  rest : ∀ domainName, (db'.domains.lookup domainName).map DomainRow.rest =
    (db.domains.lookup domainName).map DomainRow.rest
  nextAssertionId : db'.nextAssertionId = db.nextAssertionId

theorem SameStore.refl (db : Database) : SameStore db db :=
  ⟨.of_find fun _ _ => rfl, .of_find fun _ _ => rfl, fun _ => rfl, rfl⟩

theorem SameStore.trans (h : SameStore db db') (h' : SameStore db' db'') : SameStore db db'' :=
  ⟨h.roles.trans h'.roles, h.groups.trans h'.groups,
    fun domainName => (h'.rest domainName).trans (h.rest domainName),
    h'.nextAssertionId.trans h.nextAssertionId⟩

theorem SameStore.stamp (h : SameStore db db') (domainName : Str) (time : Int) :
    SameStore db (stampDomain domainName time db') := by
  refine h.trans ⟨.of_find (Table.find_stampDomain roleTable_timeless domainName time db'),
    .of_find (Table.find_stampDomain groupTable_timeless domainName time db'), fun other => ?_,
    nextAssertionId_stampDomain domainName time db'⟩
  rw [lookup_stampDomain, Option.map_map]
  congr 1
  funext row
  simp only [Function.comp_apply]
  split
  · rfl
  · rfl

theorem rest_put (hset : ∀ m row, (table.set m row).rest = row.rest)
    (h : table.find db domainName name = some stored) (stored' : Collection S) (other : Str) :
    (((table.focus domainName name).put db stored').domains.lookup other).map DomainRow.rest =
      (db.domains.lookup other).map DomainRow.rest := by
  obtain ⟨row, hrow, hput⟩ := Table.lookup_put h stored'
  rw [hput, Map.lookup_insert]
  split
  · rename_i hsame
    rw [hsame, hrow, Option.map_some, Option.map_some, hset]
  · rfl

theorem nextAssertionId_put (h : table.find db domainName name = some stored)
    (stored' : Collection S) :
    ((table.focus domainName name).put db stored').nextAssertionId = db.nextAssertionId := by
  obtain ⟨row, hrow, _⟩ := Option.bind_eq_some_iff.1 h
  rw [Table.focus_put hrow]
  rfl

theorem SameStore.put_role (h : roleTable.find db domainName roleName = some stored)
    (hsame : stored.Same stored') :
    SameStore db ((roleTable.focus domainName roleName).put db stored') := by
  obtain ⟨row, hrow, _⟩ := Option.bind_eq_some_iff.1 h
  exact ⟨.put h hsame, .of_find fun otherDomain other =>
    Table.find_put_beside groupTable_apart hrow stored' otherDomain other,
    rest_put (fun _ _ => rfl) h stored', nextAssertionId_put h stored'⟩

theorem SameStore.put_group (h : groupTable.find db domainName groupName = some stored)
    (hsame : stored.Same stored') :
    SameStore db ((groupTable.focus domainName groupName).put db stored') := by
  obtain ⟨row, hrow, _⟩ := Option.bind_eq_some_iff.1 h
  exact ⟨.of_find fun otherDomain other =>
    Table.find_put_beside roleTable_apart hrow stored' otherDomain other, .put h hsame,
    rest_put (fun _ _ => rfl) h stored', nextAssertionId_put h stored'⟩

end Stores

section Runs

variable [Collation] [CaseRules] {table : Table S} {request : PutRequest S} {body : Op Unit}

/-- The members of an object that may be missing. -/
def Table.membersOf (table : Table S) (original : Option (Collection S)) (name : Str) :
    Option (Option Int × Option Int) :=
  original.bind fun stored => table.enrolled stored name

/-- Every stored member is read. -/
def PutRequest.SeesAll (request : PutRequest S) (table : Table S)
    (original : Option (Collection S)) : Prop :=
  ∀ stored, original = some stored → table.ListsAll stored (request.listing stored)

omit [Collation] [CaseRules] in
theorem enrolled_row (request : PutRequest S) (table : Table S) (original : Option (Collection S)) :
    table.enrolled (request.row original) = table.membersOf original := by
  cases original with
  | none => rfl
  | some stored => rfl

omit [Collation] [CaseRules] in
theorem PutRequest.Steady.lists_row (hsteady : request.Steady table)
    (original : Option (Collection S)) :
    table.Lists (request.row original) (request.listed original) := by
  cases original with
  | none => exact ⟨fun _ hitem => absurd hitem List.not_mem_nil, .inl rfl⟩
  | some stored => exact ⟨(hsteady.lists stored).dates, (hsteady.lists stored).all⟩

omit [Collation] [CaseRules] in
theorem PutRequest.SeesAll.row (h : request.SeesAll table original) :
    table.ListsAll (request.row original) (request.listed original) := by
  intro name hsome
  cases original with
  | none =>
    rw [enrolled_row] at hsome
    cases hsome
  | some stored => exact h stored rfl name hsome

/-- A request that sees the members it has put. -/
def PutRequest.Closed (request : PutRequest S) (table : Table S) : Prop :=
  ∀ original, request.SeesAll table original →
    request.SeesAll table (some (request.apply table original))

theorem PutRequest.apply_merges (hsteady : request.Steady table)
    (hdistinct : (request.members.map (·.memberName)).Nodup) (hsees : request.SeesAll table original) :
    table.Merges request.members (table.membersOf original)
      (table.enrolled (request.apply table original)) := by
  have hmerged := putMembers_merges (hsteady.lists_row original) hsees.row request.admin hdistinct
  rw [enrolled_row] at hmerged
  exact hmerged

theorem PutRequest.run_merges (config : Config)
    (hbody : Tx.Returns body fun db _ db' => request.Made table domainName name db db')
    (hatomic : Tx.Atomic body) (htable : table.Timeless) (hsteady : request.Steady table)
    (hclosed : request.Closed table) (hdistinct : (request.members.map (·.memberName)).Nodup)
    (hsees : request.SeesAll table (table.find db domainName name))
    (h : execute config domainName body db events = (.ok (), db')) :
    ∃ stored, table.find db' domainName name = some stored ∧
      table.Merges request.members (table.membersOf (table.find db domainName name))
        (table.enrolled stored) := by
  have hmade : ∀ {db₁ db₂}, request.Made table domainName name db₁ db₂ →
      (request.SeesAll table (table.find db₁ domainName name) ∧
        (table.membersOf (table.find db₁ domainName name) =
            table.membersOf (table.find db domainName name) ∨
          table.Merges request.members (table.membersOf (table.find db domainName name))
            (table.membersOf (table.find db₁ domainName name)))) →
      ∃ stored, table.find db₂ domainName name = some stored ∧
        request.SeesAll table (some stored) ∧
        table.Merges request.members (table.membersOf (table.find db domainName name))
          (table.enrolled stored) := by
    rintro db₁ db₂ ⟨_, hfind⟩ ⟨hsees₁, hbefore⟩
    refine ⟨_, hfind, hclosed _ hsees₁, ?_⟩
    have hmerged := PutRequest.apply_merges hsteady hdistinct hsees₁
    rcases hbefore with hsame | hearlier
    · rw [hsame] at hmerged
      exact hmerged
    · exact hearlier.trans hdistinct hmerged
  refine Tx.attempts_saved_reaches
    (I := fun db₁ => request.SeesAll table (table.find db₁ domainName name) ∧
      (table.membersOf (table.find db₁ domainName name) =
          table.membersOf (table.find db domainName name) ∨
        table.Merges request.members (table.membersOf (table.find db domainName name))
          (table.membersOf (table.find db₁ domainName name))))
    (J := fun db₂ => ∃ stored, table.find db₂ domainName name = some stored ∧
      table.Merges request.members (table.membersOf (table.find db domainName name))
        (table.enrolled stored))
    hatomic (hbody.mono fun db₁ _ db₂ hstep hbefore => ?_) (fun time db₁ hbefore => ?_)
    (hbody.mono fun db₁ _ db₂ hstep hbefore => ?_) (fun time db₁ hafter => ?_)
    ⟨hsees, .inl rfl⟩ h
  · obtain ⟨stored, hfind, hsees₂, hmerged⟩ := hmade hstep hbefore
    rw [hfind]
    exact ⟨hsees₂, .inr hmerged⟩
  · rw [Table.find_stampDomain htable]
    exact hbefore
  · obtain ⟨stored, hfind, _, hmerged⟩ := hmade hstep hbefore
    exact ⟨stored, hfind, hmerged⟩
  · rw [Table.find_stampDomain htable]
    exact hafter

theorem PutRequest.run_rests (config : Config)
    (hbody : Tx.Returns body fun db _ db' => request.Made table domainName name db db')
    (hatomic : Tx.Atomic body) (htable : table.Timeless) (hsteady : request.Steady table)
    (hclosed : request.Closed table) (hdistinct : (request.members.map (·.memberName)).Nodup)
    (hsees : request.SeesAll table (table.find db domainName name))
    (htags : request.KeepsTags (((table.find db domainName name).map (·.tags)).getD []))
    (h : execute config domainName body db events = (.ok (), db')) :
    ∃ stored, table.find db' domainName name = some stored ∧ request.Rests table stored := by
  have hrow : ∀ original, (request.row original).tags = (original.map (·.tags)).getD [] := by
    intro original
    cases original with
    | none => rfl
    | some stored => rfl
  refine Tx.attempts_saved_reaches
    (I := fun db₁ => request.SeesAll table (table.find db₁ domainName name) ∧
      request.KeepsTags (((table.find db₁ domainName name).map (·.tags)).getD []))
    (J := fun db₂ => ∃ stored, table.find db₂ domainName name = some stored ∧
      request.Rests table stored)
    hatomic (hbody.mono ?_) (fun time db₁ hbefore => ?_) (hbody.mono ?_) (fun time db₁ hafter => ?_)
    ⟨hsees, htags⟩ h
  · rintro db₁ _ db₂ ⟨_, hfind⟩ ⟨hsees₁, htags₁⟩
    rw [hfind]
    refine ⟨hclosed _ hsees₁, ?_⟩
    rw [← hrow] at htags₁
    exact keepsTags_putTags htags₁
  · rw [Table.find_stampDomain htable]
    exact hbefore
  · rintro db₁ _ db₂ ⟨_, hfind⟩ ⟨hsees₁, htags₁⟩
    rw [← hrow] at htags₁
    exact ⟨_, hfind, PutRequest.rests_apply hsteady hdistinct (hsteady.lists_row _) hsees₁.row
      (hclosed _ hsees₁ _ rfl) htags₁⟩
  · rw [Table.find_stampDomain htable]
    exact hafter

/-- The tags of an object, none for one that is missing. -/
def Table.tagRows (table : Table S) (domainName name : Str) (db : Database) : List TagRow :=
  ((table.find db domainName name).map (·.tags)).getD []

/-- A request without tags leaves those that are stored; else the object has the tags of the request
unless the store takes the name of one that stays for the name of one that goes. -/
structure PutRequest.Tagged (request : PutRequest S) (before : List TagRow)
    (stored : Collection S) : Prop where
  kept : isEmptyTags request.tags = true → stored.tags = before
  replaced : isEmptyTags request.tags = false → TagsApart (request.tags.getD ∅) before →
    HasTags (request.tags.getD ∅) stored.tags

theorem PutRequest.run_tags (config : Config)
    (hbody : Tx.Returns body fun db _ db' => request.Made table domainName name db db')
    (hatomic : Tx.Atomic body) (htable : table.Timeless)
    (h : execute config domainName body db events = (.ok (), db')) :
    ∃ stored, table.find db' domainName name = some stored ∧
      request.Tagged (table.tagRows domainName name db) stored := by
  have hrow : ∀ db₁, (request.row (table.find db₁ domainName name)).tags =
      table.tagRows domainName name db₁ := by
    intro db₁
    unfold Table.tagRows
    cases table.find db₁ domainName name with
    | none => rfl
    | some stored => rfl
  have hmade : ∀ {db₁ db₂}, request.Made table domainName name db₁ db₂ →
      ∃ stored, table.find db₂ domainName name = some stored ∧
        stored.tags = putTags request.tags (table.tagRows domainName name db₁) :=
    fun ⟨_, hfind⟩ => ⟨_, hfind, congrArg (putTags request.tags) (hrow _)⟩
  have hstamp : ∀ time db₁, table.tagRows domainName name (stampDomain domainName time db₁) =
      table.tagRows domainName name db₁ := by
    intro time db₁
    unfold Table.tagRows
    rw [Table.find_stampDomain htable]
  refine Tx.attempts_saved_reaches
    (I := fun db₁ => (isEmptyTags request.tags = true →
        table.tagRows domainName name db₁ = table.tagRows domainName name db) ∧
      (isEmptyTags request.tags = false →
        TagsApart (request.tags.getD ∅) (table.tagRows domainName name db) →
          TagsApart (request.tags.getD ∅) (table.tagRows domainName name db₁)))
    (J := fun db₂ => ∃ stored, table.find db₂ domainName name = some stored ∧
      request.Tagged (table.tagRows domainName name db) stored)
    hatomic (hbody.mono ?_) (fun time db₁ hbefore => ?_) (hbody.mono ?_) (fun time db₁ hafter => ?_)
    ⟨fun _ => rfl, fun _ hapart => hapart⟩ h
  · rintro db₁ _ db₂ hstep ⟨hempty, hsome⟩
    obtain ⟨stored, hfind, htags⟩ := hmade hstep
    have hrows : table.tagRows domainName name db₂ =
        putTags request.tags (table.tagRows domainName name db₁) := by
      rw [← htags]
      unfold Table.tagRows
      rw [hfind]
      rfl
    rw [hrows]
    refine ⟨fun hnone => ?_, fun hany hapart => ?_⟩
    · rw [putTags, if_pos hnone]
      exact hempty hnone
    · rw [putTags, if_neg (Bool.eq_false_iff.1 hany)]
      exact tagsApart_replaceTags (hsome hany hapart)
  · rw [hstamp]
    exact hbefore
  · rintro db₁ _ db₂ hstep ⟨hempty, hsome⟩
    obtain ⟨stored, hfind, htags⟩ := hmade hstep
    refine ⟨stored, hfind, fun hnone => ?_, fun hany hapart => ?_⟩
    · rw [htags, putTags, if_pos hnone]
      exact hempty hnone
    · rw [htags, putTags, if_neg (Bool.eq_false_iff.1 hany)]
      exact (hasTags_replaceTags_iff _ _).2 (hsome hany hapart)
  · rw [Table.find_stampDomain htable]
    exact hafter

/-- A request that a row leaves as it is leaves the store as it is, whatever fails. -/
theorem PutRequest.run_again (config : Config)
    (hbody : Tx.Returns body fun db _ db' => request.Made table domainName name db db')
    (hatomic : Tx.Atomic body) (hsteady : request.Steady table)
    (hput : ∀ {db stored stored'}, table.find db domainName name = some stored →
      stored.Same stored' → SameStore db ((table.focus domainName name).put db stored'))
    (hrows : ∀ {db db'}, SameStore db db' → table.SameRows db db')
    (hstored : table.find db domainName name = some stored) (hrests : request.Rests table stored)
    (events : Nat → Event Failure) :
    SameStore db (execute config domainName body db events).2 := by
  refine Tx.attempts_saved_invariant (I := SameStore db) hatomic (hbody.mono ?_)
    (fun time db₁ h => h.stamp domainName time) (.refl db)
  rintro db₁ _ db₂ ⟨rfl, _⟩ hsame
  obtain ⟨stored₁, hstored₁, hsame₁⟩ := (hrows hsame).find hstored
  rw [hstored₁]
  exact hsame.trans (hput hstored₁ (hrests.same hsteady hsame₁).apply)

end Runs

section Requests

variable [Collation] [CaseRules]

omit [Collation] [CaseRules] in
theorem listsAll_listMembers (table : Table S) (stored : Collection S) :
    table.ListsAll stored stored.listMembers := by
  intro name hsome
  obtain ⟨row, hrow, _⟩ := Option.map_eq_some_iff.1 (Option.isSome_iff_exists.1 hsome).choose_spec
  exact ⟨MemberRow.toMember ⟨name, row⟩, List.mem_map_of_mem (AList.mem_lookup_iff.1 hrow), rfl⟩

omit [Collation] [CaseRules] in
theorem lists_listMembers (table : Table S) (stored : Collection S) :
    table.Lists stored stored.listMembers := by
  refine ⟨fun member hmember => ?_, .inr (listsAll_listMembers table stored)⟩
  obtain ⟨entry, hentry, rfl⟩ := List.mem_map.1 hmember
  have hrow : stored.members.lookup entry.1 = some entry.2 := AList.mem_lookup_iff.2 hentry
  unfold Table.enrolled
  rw [show (MemberRow.toMember entry).memberName = entry.1 from rfl, hrow]
  rfl

omit [Collation] [CaseRules] in
theorem Role.putRequest_steady (role : Role) (admin : Option Str) :
    (role.putRequest admin).Steady roleTable := by
  refine ⟨fun original row hrow => ?_, fun row row' hsame => ⟨?_, ?_⟩, fun row => ?_⟩
  · unfold Role.putRequest at hrow ⊢
    dsimp only [Option.map_some, Option.getD_some] at hrow ⊢
    rw [hrow]
  · unfold Role.putRequest
    dsimp only [Option.map_some, Option.getD_some]
    rw [hsame.settings]
  · unfold Role.putRequest listedMembers Collection.listMembers
    dsimp only
    rw [hsame.settings, hsame.members]
  · unfold Role.putRequest listedMembers
    dsimp only
    split
    · exact lists_listMembers roleTable row
    · exact ⟨fun _ hmem => absurd hmem List.not_mem_nil, .inl rfl⟩

omit [Collation] [CaseRules] in
theorem Group.putRequest_steady (group : Group) (admin : Option Str) :
    (group.putRequest admin).Steady groupTable := by
  refine ⟨fun original row hrow => ?_, fun row row' hsame => ⟨?_, ?_⟩, fun row =>
    lists_listMembers groupTable row⟩
  · unfold Group.putRequest at hrow ⊢
    dsimp only [Option.map_some, Option.getD_some] at hrow ⊢
    rw [hrow]
  · unfold Group.putRequest
    dsimp only [Option.map_some, Option.getD_some]
    rw [hsame.settings]
  · unfold Group.putRequest Collection.listMembers
    dsimp only
    rw [hsame.members]

/-- A delegated role has no members of its own. -/
def Undelegated (stored : Collection RoleSettings) : Prop :=
  saveValue stored.settings.trust = none ∨ ∀ name, roleTable.enrolled stored name = none

omit [Collation] [CaseRules] in
theorem seesAll_of_undelegated {role : Role} {admin : Option Str}
    (h : ∀ stored, original = some stored → Undelegated stored) :
    (role.putRequest admin).SeesAll roleTable original := by
  rintro stored rfl
  unfold Role.putRequest listedMembers
  dsimp only
  rcases h stored rfl with htrust | hnone
  · rw [if_pos htrust]
    exact listsAll_listMembers roleTable stored
  · intro name hsome
    rw [hnone] at hsome
    cases hsome

/-- A request that names members is not one for a delegated role. -/
theorem Role.putRequest_closed {role : Role} {admin : Option Str}
    (hdistinct : ((role.roleMembers.getD []).map (·.memberName)).Nodup)
    (hstructure : saveValue (processInsertValue role.trust) = none ∨ role.roleMembers.getD [] = []) :
    (role.putRequest admin).Closed roleTable := by
  intro original hsees
  refine seesAll_of_undelegated fun stored hstored => ?_
  cases hstored
  refine hstructure.imp (fun htrust => ?_) fun hempty name => ?_
  · have hsettings : ((role.putRequest admin).apply roleTable original).settings =
        (role.putRequest admin).settings original := (putMembers_keeps _ _ _ _ _).1
    rw [hsettings]
    exact htrust
  · have hmerged := PutRequest.apply_merges (role.putRequest_steady admin) hdistinct hsees
    rw [← Option.not_isSome_iff_eq_none]
    intro hsome
    obtain ⟨dates, hthere⟩ := Option.isSome_iff_exists.1 hsome
    have hmembers : (role.putRequest admin).members = [] := hempty
    rw [hmembers] at hmerged
    rcases (hmerged name dates).1 hthere with ⟨_, member, hmember, _⟩ | ⟨hrequested, _⟩
    · cases hmember
    · cases hrequested

omit [Collation] [CaseRules] in
theorem Group.putRequest_sees (group : Group) (admin : Option Str)
    (original : Option (Collection GroupSettings)) :
    (group.putRequest admin).SeesAll groupTable original :=
  fun stored _ => listsAll_listMembers groupTable stored

theorem Group.putRequest_closed (group : Group) (admin : Option Str) :
    (group.putRequest admin).Closed groupTable :=
  fun _ _ => Group.putRequest_sees group admin _

theorem executePutGroup_members (config : Config) (ctx : Context) {group : Group}
    (hname : group.name = domainName ++ ":group." ++ groupName)
    (hdistinct : ((group.groupMembers.getD []).map (·.memberName)).Nodup)
    (h : executePutGroup config ctx domainName groupName group db events = (.ok (), db')) :
    ∃ stored, groupTable.find db' domainName groupName = some stored ∧
      groupTable.Merges (group.groupMembers.getD [])
        (groupTable.membersOf (groupTable.find db domainName groupName))
        (groupTable.enrolled stored) :=
  PutRequest.run_merges config (putGroupBody_makes config ctx hname)
    (putGroupBody_whole config ctx domainName groupName group).atomic groupTable_timeless
    (group.putRequest_steady ctx.principal) (group.putRequest_closed ctx.principal) hdistinct
    (group.putRequest_sees ctx.principal _) h

theorem executePutRole_tags (config : Config) (ctx : Context) {role : Role}
    (hname : role.name = roleResourceName domainName roleName)
    (h : executePutRole config ctx domainName roleName role db events = (.ok (), db')) :
    ∃ stored, roleTable.find db' domainName roleName = some stored ∧
      (role.putRequest ctx.principal).Tagged (roleTable.tagRows domainName roleName db) stored :=
  PutRequest.run_tags config (putRoleBody_makes config ctx hname)
    (putRoleBody_whole config ctx domainName roleName role).atomic roleTable_timeless h

theorem executePutGroup_tags (config : Config) (ctx : Context) {group : Group}
    (hname : group.name = domainName ++ ":group." ++ groupName)
    (h : executePutGroup config ctx domainName groupName group db events = (.ok (), db')) :
    ∃ stored, groupTable.find db' domainName groupName = some stored ∧
      (group.putRequest ctx.principal).Tagged (groupTable.tagRows domainName groupName db) stored :=
  PutRequest.run_tags config (putGroupBody_makes config ctx hname)
    (putGroupBody_whole config ctx domainName groupName group).atomic groupTable_timeless h

end Requests

section Example

local instance replacementCollation : Collation := .binary

local instance replacementCaseRules : CaseRules := .ascii

def teamRow (expiration : Option Int) : MemberRow where
  expiration := expiration
  reviewReminder := none
  active := true

def teamRows : Map Str MemberRow :=
  let joe : Map Str MemberRow := (∅ : Map Str MemberRow).insert "user.joe" (teamRow (some 5))
  joe.insert "user.jane" (teamRow none)

/-- The domain of the users and one with a role and a group of two members each. -/
def teamStore : Database where
  domains :=
    let users : Map Str DomainRow := (∅ : Map Str DomainRow).insert "user" {
      settings := Domain.settings { name := "user" }
      modified := 0 }
    users.insert "media" {
      settings := Domain.settings { name := "media" }
      modified := 0
      roles := (∅ : Map Str (Collection RoleSettings)).insert "readers" {
        settings := Role.settings { name := [] }
        members := teamRows }
      groups := (∅ : Map Str (Collection GroupSettings)).insert "readers" {
        settings := Group.settings { name := [] }
        members := teamRows } }

def teamCaller : Context := { caller := "put" }

def teamEvents (n : Nat) : Event Failure := ⟨n, none⟩

def teamMembers : List Member :=
  [{ memberName := "user.JOE", expiration := some 9 }, { memberName := "user.jack" }]

def teamTags : Tags := (∅ : Tags).insert (processInsertValue (some "zone")) [processInsertValue (some "east")]

def teamRole : Role :=
  { name := "media:role.readers", roleMembers := some teamMembers, tags := some teamTags }

def teamGroup : Group :=
  { name := "media:group.readers", groupMembers := some teamMembers, tags := some teamTags }

def teamRoleRun : Except Failure Unit × Database :=
  executePutRole {} teamCaller "media" "readers" teamRole teamStore teamEvents

def teamGroupRun : Except Failure Unit × Database :=
  executePutGroup {} teamCaller "media" "readers" teamGroup teamStore teamEvents

theorem teamRoleRun_eq : teamRoleRun = (.ok (), teamRoleRun.2) := by
  have hok : teamRoleRun.1 = .ok () := by decide +kernel
  rw [← hok]

theorem teamGroupRun_eq : teamGroupRun = (.ok (), teamGroupRun.2) := by
  have hok : teamGroupRun.1 = .ok () := by decide +kernel
  rw [← hok]

theorem teamStore_undelegated (stored : Collection RoleSettings)
    (h : roleTable.find teamStore "media" "readers" = some stored) : Undelegated stored := by
  cases h
  exact .inl rfl

theorem teamGroup_members :
    ∃ stored, groupTable.find teamGroupRun.2 "media" "readers" = some stored ∧
      groupTable.Merges (teamGroup.groupMembers.getD [])
        (groupTable.membersOf (groupTable.find teamStore "media" "readers"))
        (groupTable.enrolled stored) :=
  executePutGroup_members {} teamCaller rfl (by decide) teamGroupRun_eq

theorem teamRole_tags :
    ∃ stored, roleTable.find teamRoleRun.2 "media" "readers" = some stored ∧
      (teamRole.putRequest none).Tagged (roleTable.tagRows "media" "readers" teamStore) stored :=
  executePutRole_tags {} teamCaller rfl teamRoleRun_eq

theorem teamGroup_tags :
    ∃ stored, groupTable.find teamGroupRun.2 "media" "readers" = some stored ∧
      (teamGroup.putRequest none).Tagged (groupTable.tagRows "media" "readers" teamStore) stored :=
  executePutGroup_tags {} teamCaller rfl teamGroupRun_eq

end Example

end Athenz.ZmsServer
