import Athenz.DbServiceOperations
import Athenz.MetaFrame

namespace Athenz.ZmsServer
open Lib Lib.Text Lib.Transaction
set_option autoImplicit true

section Rows

theorem listAt_storedTags (rows : List TagRow) (key : Column) :
    ((tagsOf rows).getD ∅).listAt key = (rows.filter fun row => row.key = key).map (·.value) := by
  unfold tagsOf
  split
  · rename_i hempty
    rw [hempty]
    rfl
  · exact (Map.listAt_foldl_appendTo rows ∅ key).trans (List.nil_append _)

theorem mem_listAt_storedTags : value ∈ ((tagsOf rows).getD ∅).listAt key ↔
    (⟨key, value⟩ : TagRow) ∈ rows := by
  rw [listAt_storedTags, List.mem_map]
  constructor
  · rintro ⟨row, hrow, rfl⟩
    obtain ⟨hmem, hkey⟩ := List.mem_filter.1 hrow
    rw [← of_decide_eq_true hkey]
    exact hmem
  · intro hmem
    exact ⟨_, List.mem_filter.2 ⟨hmem, decide_eq_true rfl⟩, rfl⟩

/-- A tag that is read has a value. -/
theorem lookup_storedTags_eq_some (h : ((tagsOf rows).getD ∅).lookup key = some values) :
    ∃ value, value ∈ values ∧ (⟨key, value⟩ : TagRow) ∈ rows := by
  have hvalues := Map.listAt_of_lookup h
  have hkey : key ∈ rows.map (·.key) := by
    unfold tagsOf at h
    split at h
    · cases h
    · have hsome := Map.isSome_lookup_foldl_appendTo.1 (Option.isSome_iff_exists.2 ⟨values, h⟩)
      exact hsome.resolve_right fun hnone => Bool.false_ne_true hnone
  obtain ⟨row, hrow, rfl⟩ := List.mem_map.1 hkey
  refine ⟨row.value, ?_, hrow⟩
  rw [← hvalues]
  exact mem_listAt_storedTags.2 hrow

theorem lookup_storedTags_of_mem (h : (⟨key, value⟩ : TagRow) ∈ rows) :
    (((tagsOf rows).getD ∅).lookup key).isSome := by
  obtain ⟨values, hvalues, _⟩ := Map.mem_listAt_iff.1 (mem_listAt_storedTags.2 h)
  exact Option.isSome_iff_exists.2 ⟨values, hvalues⟩

theorem mem_tagPairs {tags : Tags} : row ∈ tagPairs tags ↔ row.value ∈ tags.listAt row.key := by
  unfold tagPairs
  rw [List.mem_flatMap, Map.mem_listAt_iff]
  constructor
  · rintro ⟨entry, hentry, hrow⟩
    obtain ⟨value, hvalue, rfl⟩ := List.mem_map.1 hrow
    exact ⟨entry.2, Map.mem_entries_iff.1 hentry, hvalue⟩
  · rintro ⟨values, hlookup, hvalue⟩
    exact ⟨⟨row.key, values⟩, Map.mem_entries_iff.2 hlookup, List.mem_map.2 ⟨_, hvalue, rfl⟩⟩

/-- The values of a tag among the rows that a map of tags has. -/
theorem filter_tagPairs (tags : Tags) (key : Column) :
    ((tagPairs tags).filter fun row => row.key = key).map (·.value) = tags.listAt key := by
  have hloop : ∀ entries : List (Sigma fun _ : Column => List Column), entries.NodupKeys →
      ((entries.flatMap fun entry => entry.2.map fun value =>
        (⟨entry.1, value⟩ : TagRow)).filter fun row => row.key = key).map (·.value) =
      (entries.dlookup key).getD [] := by
    intro entries
    induction entries with
    | nil => exact fun _ => rfl
    | cons entry entries ih =>
      intro hnodup
      rw [List.nodupKeys_cons] at hnodup
      rw [List.flatMap_cons, List.filter_append, List.map_append, ih hnodup.2, List.filter_map]
      obtain ⟨other, values⟩ := entry
      by_cases hkey : key = other
      · subst hkey
        rw [List.dlookup_eq_none.2 hnodup.1, List.dlookup_cons_eq]
        simp only [Function.comp_def, decide_true, List.filter_true, List.map_map, List.map_id',
          Option.getD_none, List.append_nil, Option.getD_some]
      · rw [List.dlookup_cons_ne _ _ hkey]
        simp only [Function.comp_def, Ne.symm hkey, decide_false, List.filter_false, List.map_nil,
          List.nil_append]
  exact hloop tags.entries tags.nodupKeys

theorem count_rows (row : TagRow) (rows : List TagRow) :
    rows.count row = ((rows.filter fun other => other.key = row.key).map (·.value)).count row.value := by
  induction rows with
  | nil => rfl
  | cons other rows ih =>
    rw [List.count_cons, ih, List.filter_cons]
    by_cases hkey : other.key = row.key
    · rw [if_pos (decide_eq_true hkey), List.map_cons, List.count_cons]
      have hiff : other = row ↔ other.value = row.value := by
        constructor
        · exact congrArg TagRow.value
        · intro hvalue
          cases other
          cases row
          cases hkey
          cases hvalue
          rfl
      simp only [beq_iff_eq, hiff]
    · have hne : ¬ other = row := fun h => hkey (congrArg TagRow.key h)
      simp only [beq_iff_eq, hne, hkey, decide_false, Bool.false_eq_true, if_false, Nat.add_zero]

/-- The rows are the tags, whatever their order. -/
def HasTags (tags : Tags) (rows : List TagRow) : Prop :=
  ∀ key value, (⟨key, value⟩ : TagRow) ∈ rows ↔ value ∈ tags.listAt key

variable [Collation]

theorem insertTags_eq_ok (h : ZmsServer.insertTags objectType limit tags rows = .ok rows') :
    rows' = rows ++ tagPairs tags := by
  have hloop : ∀ added rows : List TagRow, (added.foldlM
      (fun rows row =>
        if rows.any fun stored => sameText stored.key.1 row.key.1 &&
            sameText stored.value.1 row.value.1 then .error duplicateEntry
        else .ok (rows ++ [row])) rows : Except Failure (List TagRow)) = .ok rows' →
      rows' = rows ++ added := by
    intro added
    induction added with
    | nil =>
      intro rows h
      cases h
      exact (List.append_nil _).symm
    | cons row added ih =>
      intro rows h
      rw [List.foldlM_cons] at h
      split at h
      · cases h
      · rw [ih _ h, List.append_assoc, List.singleton_append]
  unfold ZmsServer.insertTags at h
  split at h
  · cases h
  · exact hloop _ _ h

/-- The rows whose names the store does not take for one of the keys. -/
def keptRows (keys : List Column) (rows : List TagRow) : List TagRow :=
  rows.filter fun row => keys.all fun key => !sameText row.key.1 key.1

theorem deleteTags_rows (keys : List Column) (rows : List TagRow) :
    (deleteTags keys rows).2 = keptRows keys rows := by
  have hloop : ∀ (res : Bool) (rows : List TagRow), (keys.foldl
      (fun deleted key => (deleted.1 && deleted.2.any fun row => sameText row.key.1 key.1,
        deleted.2.filter fun row => !sameText row.key.1 key.1)) (res, rows)).2 =
          keptRows keys rows := by
    induction keys with
    | nil =>
      intro res rows
      exact (List.filter_true rows).symm
    | cons key keys ih =>
      intro res rows
      rw [List.foldl_cons, ih]
      unfold keptRows
      rw [List.filter_filter]
      simp only [List.all_cons, Bool.and_comm]
  exact hloop true rows

/-- The rows behind an update: those of the tags that stay, and the new ones. -/
def replaceTags (tags : Tags) (rows : List TagRow) : List TagRow :=
  keptRows (tagChanges ((tagsOf rows).getD ∅) tags).1 rows ++
    tagPairs (tagChanges ((tagsOf rows).getD ∅) tags).2

end Rows

section Changes

theorem mem_removedTags {tags : Tags} : key ∈ (tagChanges ((tagsOf rows).getD ∅) tags).1 ↔
    (((tagsOf rows).getD ∅).lookup key).isSome ∧
      tags.lookup key ≠ ((tagsOf rows).getD ∅).lookup key := by
  unfold tagChanges
  dsimp only
  rw [← AList.mem_keys, ← AList.lookup_isSome, Option.isSome_iff_exists]
  simp only [Map.lookup_filter, decide_eq_true_eq]
  constructor
  · rintro ⟨values, hvalues, hne⟩
    rw [hvalues]
    exact ⟨rfl, hne⟩
  · rintro ⟨hsome, hne⟩
    obtain ⟨values, hvalues⟩ := Option.isSome_iff_exists.1 hsome
    rw [hvalues] at hne
    exact ⟨values, hvalues, hne⟩

theorem listAt_addedTags (originalTags tags : Tags) (key : Column) :
    (tagChanges originalTags tags).2.listAt key =
      if originalTags.lookup key = tags.lookup key then [] else tags.listAt key := by
  have hlookup : (tagChanges originalTags tags).2.lookup key =
      if originalTags.lookup key = tags.lookup key then none else tags.lookup key := by
    apply Option.ext
    intro values
    unfold tagChanges
    dsimp only
    rw [Map.lookup_filter, decide_eq_true_eq]
    split
    · rename_i hsame
      rw [hsame]
      constructor
      · rintro ⟨hvalues, hne⟩
        exact absurd hvalues hne
      · exact fun h => nomatch h
    · rename_i hne
      constructor
      · exact And.left
      · rintro hvalues
        rw [hvalues] at hne
        exact ⟨hvalues, hne⟩
  unfold Map.listAt
  rw [hlookup]
  split
  · rfl
  · rfl

variable [Collation]

/-- No tag that stays has a name that the store takes for the name of a tag that goes. -/
def TagsApart (tags : Tags) (rows : List TagRow) : Prop :=
  ∀ row ∈ rows, tags.lookup row.key = ((tagsOf rows).getD ∅).lookup row.key →
    ∀ gone ∈ rows, tags.lookup gone.key ≠ ((tagsOf rows).getD ∅).lookup gone.key →
      sameText row.key.1 gone.key.1 = false

theorem mem_keptRows : row ∈ keptRows keys rows ↔
    row ∈ rows ∧ ∀ key ∈ keys, sameText row.key.1 key.1 = false := by
  unfold keptRows
  rw [List.mem_filter, List.all_eq_true]
  simp only [Bool.not_eq_true']

/-- An update has the tags of the request exactly when no tag that stays goes with another one. -/
theorem hasTags_replaceTags_iff (tags : Tags) (rows : List TagRow) :
    HasTags tags (replaceTags tags rows) ↔ TagsApart tags rows := by
  have hmem : ∀ key value, (⟨key, value⟩ : TagRow) ∈ replaceTags tags rows ↔
      ((⟨key, value⟩ : TagRow) ∈ rows ∧
        ∀ gone ∈ (tagChanges ((tagsOf rows).getD ∅) tags).1, sameText key.1 gone.1 = false) ∨
      value ∈ if ((tagsOf rows).getD ∅).lookup key = tags.lookup key then [] else tags.listAt key := by
    intro key value
    rw [replaceTags, List.mem_append, mem_keptRows, mem_tagPairs, listAt_addedTags]
  constructor
  · intro hhas row hrow hstays gone hgone hgoes
    have hthere : row ∈ replaceTags tags rows := by
      refine (hhas row.key row.value).2 ?_
      have hvalue := mem_listAt_storedTags.2 hrow
      unfold Map.listAt at hvalue ⊢
      rw [hstays]
      exact hvalue
    obtain ⟨_, hapart⟩ | hadded := (hmem row.key row.value).1 hthere
    · exact hapart gone.key (mem_removedTags.2 ⟨lookup_storedTags_of_mem hgone, hgoes⟩)
    · rw [if_pos hstays.symm] at hadded
      cases hadded
  · intro hapart key value
    rw [hmem]
    by_cases hsame : ((tagsOf rows).getD ∅).lookup key = tags.lookup key
    · have hlist : tags.listAt key = ((tagsOf rows).getD ∅).listAt key := by
        unfold Map.listAt
        rw [hsame]
      rw [if_pos hsame, hlist, mem_listAt_storedTags]
      simp only [List.not_mem_nil, or_false]
      refine ⟨And.left, fun hrow => ⟨hrow, fun gone hgone => ?_⟩⟩
      obtain ⟨hstored, hgoes⟩ := mem_removedTags.1 hgone
      obtain ⟨values, hvalues⟩ := Option.isSome_iff_exists.1 hstored
      obtain ⟨other, _, hother⟩ := lookup_storedTags_eq_some hvalues
      exact hapart _ hrow hsame.symm _ hother hgoes
    · rw [if_neg hsame]
      refine ⟨?_, .inr⟩
      rintro (⟨hrow, hkept⟩ | hadded)
      · have hgone := mem_removedTags.2 ⟨lookup_storedTags_of_mem hrow, Ne.symm hsame⟩
        have hother := hkept key hgone
        rw [sameText_refl] at hother
        cases hother
      · exact hadded

/-- An update never has more rows than the request has tags. -/
theorem length_replaceTags_le (tags : Tags) (rows : List TagRow) :
    (replaceTags tags rows).length ≤ (tagPairs tags).length := by
  refine List.Subperm.length_le (List.subperm_ext_iff.2 fun row _ => ?_)
  rw [replaceTags, List.count_append, count_rows row (tagPairs _), filter_tagPairs,
    count_rows row (tagPairs tags), filter_tagPairs, listAt_addedTags]
  by_cases hsame : ((tagsOf rows).getD ∅).lookup row.key = tags.lookup row.key
  · have hlist : tags.listAt row.key = ((tagsOf rows).getD ∅).listAt row.key := by
      unfold Map.listAt
      rw [hsame]
    rw [if_pos hsame, List.count_nil, Nat.add_zero, hlist, listAt_storedTags, ← count_rows]
    exact List.filter_sublist.count_le row
  · have hnone : row ∉ keptRows (tagChanges ((tagsOf rows).getD ∅) tags).1 rows := by
      intro hmem
      obtain ⟨hrow, hkept⟩ := mem_keptRows.1 hmem
      have hother := hkept row.key
        (mem_removedTags.2 ⟨lookup_storedTags_of_mem hrow, Ne.symm hsame⟩)
      rw [sameText_refl] at hother
      cases hother
    rw [if_neg hsame, List.count_eq_zero.2 hnone, Nat.zero_add]

/-- Behind an update that keeps what stays, each tag has the values of the request. -/
theorem listAt_replaceTags (h : TagsApart tags rows) (key : Column) :
    ((tagsOf (replaceTags tags rows)).getD ∅).listAt key = tags.listAt key := by
  rw [listAt_storedTags, replaceTags, List.filter_append, List.map_append, filter_tagPairs,
    listAt_addedTags]
  by_cases hsame : ((tagsOf rows).getD ∅).lookup key = tags.lookup key
  · have hlist : tags.listAt key = ((tagsOf rows).getD ∅).listAt key := by
      unfold Map.listAt
      rw [hsame]
    have hkept : (keptRows (tagChanges ((tagsOf rows).getD ∅) tags).1 rows).filter
        (fun row => row.key = key) = rows.filter fun row => row.key = key := by
      unfold keptRows
      rw [List.filter_filter]
      refine List.filter_congr fun row hrow => ?_
      by_cases hkey : row.key = key
      · have hall : ((tagChanges ((tagsOf rows).getD ∅) tags).1.all fun gone =>
            !sameText row.key.1 gone.1) = true := by
          refine List.all_eq_true.2 fun gone hgone => ?_
          obtain ⟨hstored, hgoes⟩ := mem_removedTags.1 hgone
          obtain ⟨values, hvalues⟩ := Option.isSome_iff_exists.1 hstored
          obtain ⟨other, _, hother⟩ := lookup_storedTags_eq_some hvalues
          rw [h row hrow (hkey ▸ hsame.symm) _ hother hgoes]
          rfl
        rw [hall, Bool.and_true]
      · rw [decide_eq_false hkey, Bool.false_and]
    rw [if_pos hsame, hkept, ← listAt_storedTags, hlist, List.append_nil]
  · have hnone : (keptRows (tagChanges ((tagsOf rows).getD ∅) tags).1 rows).filter
        (fun row => row.key = key) = [] := by
      refine List.filter_eq_nil_iff.2 fun row hmem hkey => ?_
      obtain ⟨hrow, hkept⟩ := mem_keptRows.1 hmem
      rw [decide_eq_true_eq] at hkey
      have hother := hkept row.key (mem_removedTags.2
        ⟨lookup_storedTags_of_mem hrow, by rw [hkey]; exact Ne.symm hsame⟩)
      rw [sameText_refl] at hother
      cases hother
    rw [if_neg hsame, hnone, List.map_nil, List.nil_append]

/-- Behind an update that keeps what stays, no tag goes any more. -/
theorem removedTags_replaceTags (h : TagsApart tags rows) :
    (tagChanges ((tagsOf (replaceTags tags rows)).getD ∅) tags).1 = [] := by
  refine List.eq_nil_iff_forall_not_mem.2 fun key hkey => ?_
  obtain ⟨hstored, hgoes⟩ := mem_removedTags.1 hkey
  obtain ⟨values, hvalues⟩ := Option.isSome_iff_exists.1 hstored
  obtain ⟨value, hvalue, _⟩ := lookup_storedTags_eq_some hvalues
  have hsame := listAt_replaceTags h key
  rw [Map.listAt_of_lookup hvalues] at hsame
  rw [hvalues] at hgoes
  cases htags : tags.lookup key with
  | none =>
    rw [Map.listAt_of_lookup_none htags] at hsame
    rw [hsame] at hvalue
    cases hvalue
  | some requested =>
    rw [Map.listAt_of_lookup htags] at hsame
    rw [htags, hsame] at hgoes
    exact hgoes rfl

theorem tagsApart_replaceTags (h : TagsApart tags rows) :
    TagsApart tags (replaceTags tags rows) := by
  intro row _ _ gone hgone hgoes
  have hnone := removedTags_replaceTags h
  have hmem : gone.key ∈ (tagChanges ((tagsOf (replaceTags tags rows)).getD ∅) tags).1 :=
    mem_removedTags.2 ⟨lookup_storedTags_of_mem hgone, hgoes⟩
  rw [hnone] at hmem
  cases hmem

/-- The same update once more leaves the rows. -/
theorem replaceTags_again (h : TagsApart tags rows) :
    replaceTags tags (replaceTags tags rows) = replaceTags tags rows := by
  generalize hrows : replaceTags tags rows = rows'
  have hlist : ∀ key, ((tagsOf rows').getD ∅).listAt key = tags.listAt key :=
    fun key => hrows ▸ listAt_replaceTags h key
  have hgone : (tagChanges ((tagsOf rows').getD ∅) tags).1 = [] :=
    hrows ▸ removedTags_replaceTags h
  have hadded : tagPairs (tagChanges ((tagsOf rows').getD ∅) tags).2 = [] := by
    refine List.eq_nil_iff_forall_not_mem.2 fun row hrow => ?_
    rw [mem_tagPairs, listAt_addedTags] at hrow
    split at hrow
    · cases hrow
    · rename_i hne
      obtain ⟨values, hvalues, _⟩ := Map.mem_listAt_iff.1 hrow
      have hsame := hlist row.key
      rw [Map.listAt_of_lookup hvalues] at hsame hrow
      cases hstored : ((tagsOf rows').getD ∅).lookup row.key with
      | none =>
        rw [Map.listAt_of_lookup_none hstored] at hsame
        rw [← hsame] at hrow
        cases hrow
      | some stored =>
        rw [Map.listAt_of_lookup hstored] at hsame
        rw [hstored, hvalues, hsame] at hne
        exact hne rfl
  rw [replaceTags, hgone, hadded, List.append_nil]
  exact List.filter_true rows'

end Changes

section Updates

theorem isEmptyTags_tagsOf (rows : List TagRow) : isEmptyTags (tagsOf rows) = true ↔ rows = [] := by
  constructor
  · intro h
    refine List.eq_nil_iff_forall_not_mem.2 fun row hrow => ?_
    have hsome := lookup_storedTags_of_mem hrow
    unfold isEmptyTags at h
    cases htags : tagsOf rows with
    | none =>
      rw [htags] at hsome
      cases hsome
    | some tags =>
      rw [htags, Option.all_some, decide_eq_true_eq] at h
      rw [htags, Option.getD_some, AList.lookup, h] at hsome
      cases hsome
  · rintro rfl
    rfl

theorem tagPairs_of_isEmptyTags {tags : Option Tags} (h : isEmptyTags tags = true) :
    tagPairs (tags.getD ∅) = [] := by
  cases tags with
  | none => rfl
  | some tags =>
    unfold isEmptyTags at h
    rw [Option.all_some, decide_eq_true_eq] at h
    rw [Option.getD_some, tagPairs, h]
    rfl

variable {table : Table S}

/-- A statement that answers true for what it does to the row. -/
theorem Table.on_accepts {f : Collection S → Except Failure (Bool × Collection S)}
    {Q : Collection S → Collection S → Prop}
    (h : ∀ stored stored', f stored = .ok (true, stored') → Q stored stored') :
    (table.focus domainName name).Accepts (table.on domainName name f) Q := by
  refine (table.on_returns f).toAccepts.mono ?_
  rintro db db' ⟨stored, stored', hstored, hf, rfl⟩ t ht
  cases hstored.symm.trans ht
  exact ⟨stored', h stored stored' hf, .put⟩

variable [Collation]

theorem replaceTags_nil (tags : Tags) : replaceTags tags [] = tagPairs tags := by
  have hall : (tagChanges ((tagsOf []).getD ∅) tags).2 = tags :=
    AList.ext (List.filter_eq_self.2 fun entry _ => rfl)
  rw [replaceTags, hall]
  exact List.nil_append _

/-- The rows behind a request that puts tags; without any it leaves those that are stored. -/
def putTags (tags : Option Tags) (rows : List TagRow) : List TagRow :=
  if isEmptyTags tags then rows else replaceTags (tags.getD ∅) rows

theorem Table.insertTags_accepts (limit : Nat) (tags : Tags) :
    (table.focus domainName name).Accepts (table.insertTags limit name domainName tags)
      fun stored stored' => stored' = { stored with tags := stored.tags ++ tagPairs tags } := by
  refine Table.on_accepts fun stored stored' h => ?_
  cases hrows : ZmsServer.insertTags table.objectType limit tags stored.tags with
  | error e =>
    rw [hrows] at h
    cases h
  | ok rows =>
    rw [hrows] at h
    cases h
    rw [insertTags_eq_ok hrows]

theorem Table.deleteTags_accepts (keys : List Column) :
    (table.focus domainName name).Accepts (table.deleteTags name domainName keys)
      fun stored stored' => stored' = { stored with tags := keptRows keys stored.tags } := by
  refine Table.on_accepts fun stored stored' h => ?_
  rw [Except.ok.injEq, Prod.mk.injEq] at h
  rw [← h.2, deleteTags_rows]

theorem Table.processUpdateTags_accepts (limit : Nat) (tags : Option Tags) (rows : List TagRow) :
    (table.focus domainName name).Accepts (processUpdateTags
      (table.insertTags limit name domainName) (table.deleteTags name domainName) tags (tagsOf rows))
      fun stored stored' => stored.tags = rows →
        stored' = { stored with tags := replaceTags (tags.getD ∅) rows } := by
  refine .ite (fun hempty => ?_) fun hsome => ?_
  · obtain rfl := (isEmptyTags_tagsOf rows).1 hempty
    refine .ite (fun hnone => ?_) fun _ => ?_
    · refine Focus.Accepts.pure.mono fun stored stored' h hrows => ?_
      rw [h, replaceTags_nil, tagPairs_of_isEmptyTags hnone, ← hrows]
    · refine (Table.insertTags_accepts limit _).mono fun stored stored' h hrows => ?_
      rw [h, replaceTags_nil, hrows, List.nil_append]
  · cases tags with
    | none => exact Tx.Accepts.raise _ |>.mono fun _ _ h => h.elim
    | some tags =>
      refine ((Table.deleteTags_accepts _).both (Table.insertTags_accepts limit _)).mono ?_
      rintro stored stored' ⟨_, rfl, rfl⟩ rfl
      rfl

theorem Table.processTags_accepts (table : Table S) (domainName name : Str) (limit : Nat) (tags : Option Tags)
    (original : Option (List TagRow)) :
    (table.focus domainName name).Accepts (processTags (table.insertTags limit name domainName)
      (table.deleteTags name domainName) tags (original.map tagsOf))
      fun stored stored' => stored.tags = original.getD [] →
        stored' = { stored with tags := putTags tags stored.tags } := by
  refine .ite (fun hempty => ?_) fun hsome => ?_
  · refine Focus.Accepts.pure.mono fun stored stored' h _ => ?_
    rw [h, putTags, if_pos hempty]
  · cases original with
    | none =>
      refine (Table.insertTags_accepts limit _).mono fun stored stored' h hrows => ?_
      rw [putTags, if_neg hsome, h, hrows, Option.getD_none, replaceTags_nil, List.nil_append]
    | some rows =>
      refine (Table.processUpdateTags_accepts limit tags rows).mono fun stored stored' h hrows => ?_
      rw [h hrows, putTags, if_neg hsome, hrows, Option.getD_some]

end Updates

end Athenz.ZmsServer
