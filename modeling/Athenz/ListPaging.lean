import Athenz.Lib.Text
import Mathlib.Data.List.Lex
import Mathlib.Order.Lattice

namespace Athenz.ZmsServer
open Lib.Text
set_option autoImplicit true

section Requests

def hasExceededListLimit (limit : Option Int) (count : Nat) : Bool :=
  match limit with
  | none => false
  | some limit => limit > 0 && count > limit

/-- The names after the first one that equals `skip`. -/
def namesAfter [DecidableEq α] (skip : α) : List α → Option (List α)
  | [] => none
  | name :: names => if skip = name then some names else namesAfter skip names

/-- The names that a request lists before its limit is applied. -/
def remaining [DecidableEq α] (skip : Option α) (names : List α) : List α :=
  match skip with
  | none => names
  | some skip => (namesAfter skip names).getD names

/-- The next name to skip, and the names that are listed. -/
def processListRequest [DecidableEq α] (limit : Option Int) (skip : Option α) (names : List α) :
    Option α × List α :=
  let names := remaining skip names
  if hasExceededListLimit limit names.length then
    let names := names.take (limit.getD 0).toNat
    (names[(limit.getD 0).toNat - 1]?, names)
  else (none, names)

/-- Requests one after another, with the name list that each of them finds: all names that are
listed, and whether the last page has been reached. -/
def listAll [DecidableEq α] (limit : Int) (skip : Option α) : List (List α) → List α × Bool
  | [] => ([], false)
  | names :: later =>
    match processListRequest (some limit) skip names with
    | (none, page) => (page, true)
    | (some next, page) =>
      (page ++ (listAll limit (some next) later).1, (listAll limit (some next) later).2)

end Requests

section Remaining

variable [DecidableEq α]

theorem namesAfter_append {skip : α} (h : skip ∉ before) :
    namesAfter skip (before ++ skip :: behind) = some behind := by
  induction before with
  | nil => exact if_pos rfl
  | cons name before ih =>
    rw [List.mem_cons, not_or] at h
    rw [List.cons_append, namesAfter, if_neg h.1, ih h.2]

theorem remaining_append {skip : α} (h : skip ∉ before) :
    remaining (some skip) (before ++ skip :: behind) = behind := by
  rw [remaining, namesAfter_append h, Option.getD_some]

/-- A page, the name that it ends with and the rest. -/
theorem processListRequest_cases {limit : Int} (hlimit : 1 ≤ limit) (skip : Option α)
    (names : List α) :
    processListRequest (some limit) skip names = (none, remaining skip names) ∨
      ∃ page next rest, remaining skip names = page ++ next :: rest ∧ rest ≠ [] ∧
        processListRequest (some limit) skip names = (some next, page ++ [next]) := by
  obtain ⟨k, rfl⟩ : ∃ k : Nat, limit = k + 1 := ⟨(limit - 1).toNat, by omega⟩
  have hnat : ((k : Int) + 1).toNat = k + 1 := by omega
  unfold processListRequest
  dsimp only [Option.getD_some]
  rw [hnat]
  generalize remaining skip names = left
  split
  · rename_i hexceeded
    rw [hasExceededListLimit, Bool.and_eq_true, decide_eq_true_eq, decide_eq_true_eq] at hexceeded
    have hlength : k + 1 < left.length := by omega
    refine .inr ⟨left.take k, left[k], left.drop (k + 1), ?_, ?_, ?_⟩
    · rw [List.getElem_cons_drop, List.take_append_drop]
    · rw [ne_eq, List.drop_eq_nil_iff]
      omega
    · rw [List.take_append_getElem (by omega), Nat.add_sub_cancel, List.getElem?_take_of_lt (by omega),
        List.getElem?_eq_getElem]
  · exact .inl rfl

end Remaining

section Whole

variable [DecidableEq α]

theorem listAll_replicate {limit : Int} (hlimit : 1 ≤ limit) {names : List α} (hnodup : names.Nodup)
    (hsplit : ∃ before, names = before ++ remaining skip names)
    (hn : (remaining skip names).length < n) :
    listAll limit skip (List.replicate n names) = (remaining skip names, true) := by
  induction n generalizing skip with
  | zero => exact absurd hn (Nat.not_lt_zero _)
  | succ n ih =>
    rw [List.replicate_succ, listAll]
    rcases processListRequest_cases hlimit skip names with hlast | ⟨page, next, rest, hrest, _, hpage⟩
    · rw [hlast]
    · rw [hpage]
      dsimp only
      obtain ⟨before, hbefore⟩ := hsplit
      rw [hrest] at hbefore hn
      have hnames : names = (before ++ page) ++ next :: rest := by
        rw [List.append_assoc]
        exact hbefore
      have hnotMem : next ∉ before ++ page := by
        rw [hnames] at hnodup
        exact fun hmem => (List.nodup_append.1 hnodup).2.2 next hmem next List.mem_cons_self rfl
      have hnext : remaining (some next) names = rest := by
        rw [hnames]
        exact remaining_append hnotMem
      have hsplit' : ∃ before, names = before ++ remaining (some next) names := by
        refine ⟨before ++ page ++ [next], ?_⟩
        rw [hnext, List.append_assoc, List.singleton_append]
        exact hnames
      have hn' : (remaining (some next) names).length < n := by
        rw [hnext]
        rw [List.length_append, List.length_cons] at hn
        omega
      rw [ih hsplit' hn', hnext, hrest, List.append_assoc, List.singleton_append]

end Whole

section Changing

variable [LinearOrder α]

/-- The name that a page ends with is still listed when the next page is asked for. -/
def NextKept (limit : Int) (skip : Option α) : List (List α) → Prop
  | [] => True
  | names :: later =>
    ∀ next ∈ (processListRequest (some limit) skip names).1,
      (∀ names' ∈ later.head?, next ∈ names') ∧ NextKept limit (some next) later

/-- The names of a sorted list behind one of them. -/
theorem remaining_sorted {names : List α} (hsorted : names.Pairwise (· < ·))
    (hskip : ∀ s ∈ skip, s ∈ names) :
    (remaining skip names).Pairwise (· < ·) ∧
      ∀ name, name ∈ remaining skip names ↔ name ∈ names ∧ ∀ s ∈ skip, s < name := by
  cases skip with
  | none => exact ⟨hsorted, fun name => ⟨fun h => ⟨h, nofun⟩, And.left⟩⟩
  | some s =>
    obtain ⟨before, behind, rfl⟩ := List.append_of_mem (hskip s rfl)
    rw [List.pairwise_append, List.pairwise_cons] at hsorted
    obtain ⟨_, ⟨hbehind, hpairwise⟩, hbefore⟩ := hsorted
    have hnotMem : s ∉ before := fun hmem =>
      lt_irrefl s (hbefore s hmem s List.mem_cons_self)
    rw [remaining_append hnotMem]
    refine ⟨hpairwise, fun name => ⟨fun hmem => ?_, ?_⟩⟩
    · refine ⟨List.mem_append_right _ (List.mem_cons_of_mem _ hmem), ?_⟩
      rintro _ ⟨⟩
      exact hbehind name hmem
    · rintro ⟨hmem, hlt⟩
      have hlt := hlt s rfl
      rcases List.mem_append.1 hmem with hmem | hmem
      · exact absurd (hbefore name hmem s List.mem_cons_self) hlt.not_gt
      · exact (List.mem_cons.1 hmem).resolve_left hlt.ne'

theorem listAll_sorted {limit : Int} (hlimit : 1 ≤ limit) {lists : List (List α)}
    (hsorted : ∀ names ∈ lists, names.Pairwise (· < ·))
    (hskip : ∀ s ∈ skip, ∀ names ∈ lists.head?, s ∈ names) (hkept : NextKept limit skip lists) :
    (listAll limit skip lists).1.Pairwise (· < ·) ∧
      (∀ s ∈ skip, ∀ name ∈ (listAll limit skip lists).1, s < name) ∧
      ((listAll limit skip lists).2 = true → ∀ name, (∀ names ∈ lists, name ∈ names) →
        (∀ s ∈ skip, s < name) → name ∈ (listAll limit skip lists).1) := by
  induction lists generalizing skip with
  | nil => exact ⟨.nil, fun _ _ _ hmem => absurd hmem List.not_mem_nil, nofun⟩
  | cons names later ih =>
    have hskip : ∀ s ∈ skip, s ∈ names := fun s hs => hskip s hs names rfl
    obtain ⟨hrest, hmem⟩ := remaining_sorted (hsorted names List.mem_cons_self) hskip
    rw [listAll]
    rcases processListRequest_cases hlimit skip names with
      hlast | ⟨page, next, rest, hsplit, _, hpage⟩
    · rw [hlast]
      exact ⟨hrest, fun s hs name hname => ((hmem name).1 hname).2 s hs,
        fun _ name hthroughout hs => (hmem name).2 ⟨hthroughout names List.mem_cons_self, hs⟩⟩
    · have hnext := hkept next (by rw [hpage]; rfl)
      obtain ⟨hpairwise, habove, hall⟩ := ih (fun names' hnames' =>
        hsorted names' (List.mem_cons_of_mem _ hnames'))
        (by rintro _ ⟨⟩; exact hnext.1) hnext.2
      have habove := habove next rfl
      rw [hpage]
      dsimp only
      rw [hsplit] at hrest hmem
      rw [List.pairwise_append, List.pairwise_cons] at hrest
      obtain ⟨hpagePairwise, ⟨hbehind, _⟩, hcross⟩ := hrest
      have hpageLt : ∀ name ∈ page, name < next := fun name hname =>
        hcross name hname next List.mem_cons_self
      have hpageLe : ∀ name ∈ page ++ [next], name ≤ next := by
        intro name hname
        rcases List.mem_append.1 hname with hname | hname
        · exact (hpageLt name hname).le
        · exact (List.mem_singleton.1 hname).le
      have hpageMem : ∀ name ∈ page ++ [next], name ∈ page ++ next :: rest := by
        intro name hname
        rcases List.mem_append.1 hname with hname | hname
        · exact List.mem_append_left _ hname
        · rw [List.mem_singleton.1 hname]
          exact List.mem_append_right _ List.mem_cons_self
      refine ⟨?_, ?_, ?_⟩
      · refine List.pairwise_append.2 ⟨?_, hpairwise, fun name hname other hother =>
          lt_of_le_of_lt (hpageLe name hname) (habove other hother)⟩
        refine List.pairwise_append.2 ⟨hpagePairwise, List.pairwise_singleton _ _, ?_⟩
        intro name hname other hother
        rw [List.mem_singleton.1 hother]
        exact hpageLt name hname
      · intro s hs name hname
        have hnextAbove := ((hmem next).1 (hpageMem next (List.mem_append_right _
          List.mem_cons_self))).2 s hs
        rcases List.mem_append.1 hname with hname | hname
        · exact ((hmem name).1 (hpageMem name hname)).2 s hs
        · exact hnextAbove.trans (habove name hname)
      · intro hfinished name hthroughout hs
        have hname := (hmem name).2 ⟨hthroughout names List.mem_cons_self, hs⟩
        rw [List.mem_append]
        rcases lt_or_ge next name with hlt | hge
        · refine .inr (hall hfinished name (fun names' hnames' =>
            hthroughout names' (List.mem_cons_of_mem _ hnames')) ?_)
          rintro _ ⟨⟩
          exact hlt
        · refine .inl ?_
          rcases List.mem_append.1 hname with hname | hname
          · exact List.mem_append_left _ hname
          · rcases List.mem_cons.1 hname with rfl | hname
            · exact List.mem_append_right _ List.mem_cons_self
            · exact absurd (hbehind name hname) hge.not_gt

/-- Over one list the pages are the list. Over sorted lists that change between the requests, but
for the name that a page ends with, the names increase and no name that stays is left out. -/
theorem paging_visits_once {limit : Int} (hlimit : 1 ≤ limit) {names : List α}
    (hnodup : names.Nodup) {lists : List (List α)}
    (hsorted : ∀ names ∈ lists, names.Pairwise (· < ·)) (hkept : NextKept limit none lists) :
    (∃ n, ∀ m, n ≤ m → listAll limit none (List.replicate m names) = (names, true)) ∧
      (listAll limit none lists).1.Pairwise (· < ·) ∧
      ((listAll limit none lists).2 = true →
        ∀ name, (∀ names ∈ lists, name ∈ names) → name ∈ (listAll limit none lists).1) := by
  have hnone : ∀ s ∈ (none : Option α), ∀ names ∈ lists.head?, s ∈ names := nofun
  obtain ⟨hpairwise, _, hall⟩ := listAll_sorted hlimit hsorted hnone hkept
  refine ⟨⟨names.length + 1, fun m hm => ?_⟩, hpairwise, fun hfinished name hthroughout =>
    hall hfinished name hthroughout nofun⟩
  exact listAll_replicate hlimit hnodup ⟨[], rfl⟩ hm

theorem paging_visits_two_pages :
    (∃ n, ∀ m, n ≤ m → listAll 2 none (List.replicate m [1, 2, 3]) = ([1, 2, 3], true)) ∧
      (listAll 2 none [[1, 2, 3, 5], [2, 4, 5]]).1.Pairwise (· < ·) ∧
      ((listAll 2 none [[1, 2, 3, 5], [2, 4, 5]]).2 = true →
        ∀ name, (∀ names ∈ [[1, 2, 3, 5], [2, 4, 5]], name ∈ names) →
          name ∈ (listAll 2 none [[1, 2, 3, 5], [2, 4, 5]]).1) :=
  paging_visits_once (by decide) (by decide) (by decide)
    (by
      rintro _ ⟨⟩
      refine ⟨by decide, ?_⟩
      rintro _ ⟨⟩)

/-- When the name that a page ends with is removed, the next request starts from the front again. -/
theorem removed_next_repeats :
    listAll 2 none [["a".toList, "b", "c", "d"], ["a", "c", "d"], ["a", "c", "d"]] =
        ((["a", "b", "a", "c", "d"] : List Str), true) ∧
      ¬ (["a", "b", "a", "c", "d"] : List Str).Nodup := by
  decide

end Changing

end Athenz.ZmsServer
