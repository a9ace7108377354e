import Athenz.Lib.Text

namespace Lib.Fields
open Lib.Text
set_option autoImplicit true

variable {sep eq : α}

/-- A name and its value, as they are written. -/
def written (eq : α) (field : List α × List α) : List α := field.1 ++ eq :: field.2

def encode (sep eq : α) (fields : List (List α × List α)) : List α :=
  [sep].intercalate (fields.map (written eq))

/-- A text in which no separator occurs. -/
structure Plain (sep eq : α) (text : List α) : Prop where
  sep : sep ∉ text
  eq : eq ∉ text

instance [DecidableEq α] (sep eq : α) (text : List α) : Decidable (Plain sep eq text) :=
  decidable_of_iff (sep ∉ text ∧ eq ∉ text) ⟨fun h => ⟨h.1, h.2⟩, fun h => ⟨h.sep, h.eq⟩⟩

/-- A field whose name is not empty and which no separator breaks. -/
structure Clean (sep eq : α) (field : List α × List α) : Prop where
  nonempty : field.1 ≠ []
  name : Plain sep eq field.1
  value : Plain sep eq field.2

theorem Clean.notMem (h : Clean sep eq field) (hne : sep ≠ eq) : sep ∉ written eq field := by
  rw [written, List.mem_append, List.mem_cons, not_or, not_or]
  exact ⟨h.name.sep, hne, h.value.sep⟩

theorem Clean.ne_nil (h : Clean sep eq field) : written eq field ≠ [] :=
  List.append_ne_nil_of_left_ne_nil h.nonempty _

theorem written_eq_intercalate (field : List α × List α) :
    written eq field = [eq].intercalate [field.1, field.2] := by
  rw [List.intercalate_cons_of_ne_nil (List.cons_ne_nil _ _), List.intercalate_singleton, written,
    List.append_assoc, List.singleton_append]

theorem encode_cons_cons (field other : List α × List α) (fields : List (List α × List α)) :
    encode sep eq (field :: other :: fields) =
      written eq field ++ sep :: encode sep eq (other :: fields) := by
  unfold encode
  rw [List.map_cons, List.map_cons, List.intercalate_cons_of_ne_nil (List.cons_ne_nil _ _),
    List.append_assoc, List.singleton_append]

theorem encode_cons (field : List α × List α) (fields : List (List α × List α)) :
    encode sep eq (field :: fields) =
      written eq field ++ fields.flatMap fun field => sep :: written eq field := by
  induction fields generalizing field with
  | nil => rw [encode, List.map_singleton, List.intercalate_singleton, List.flatMap_nil,
      List.append_nil]
  | cons other fields ih => rw [encode_cons_cons, ih, List.flatMap_cons, List.cons_append]

theorem cons_encode {fields : List (List α × List α)} (hne : fields ≠ []) :
    sep :: encode sep eq fields = fields.flatMap fun field => sep :: written eq field := by
  obtain ⟨field, fields, rfl⟩ := List.exists_cons_of_ne_nil hne
  rw [encode_cons, List.flatMap_cons, List.cons_append]

theorem encode_append {fields : List (List α × List α)} (hne : fields ≠ [])
    (more : List (List α × List α)) :
    encode sep eq (fields ++ more) =
      encode sep eq fields ++ more.flatMap fun field => sep :: written eq field := by
  obtain ⟨field, fields, rfl⟩ := List.exists_cons_of_ne_nil hne
  rw [List.cons_append, encode_cons, encode_cons, List.flatMap_append, List.append_assoc]

/-- The beginning of a field with a name that none of the fields has does not occur. -/
theorem notInfix_encode (hne : sep ≠ eq) {fields : List (List α × List α)} (name : List α)
    (h : ∀ field ∈ fields, Clean sep eq field ∧ field.1 ≠ name) (hname : Plain sep eq name) :
    ¬ sep :: (name ++ [eq]) <:+: encode sep eq fields := by
  have hwritten : ∀ field, Clean sep eq field → ¬ sep :: (name ++ [eq]) <:+: written eq field :=
    fun field hclean hwithin => hclean.notMem hne (hwithin.subset List.mem_cons_self)
  have hpat : sep ∉ name ++ [eq] := by
    rw [List.mem_append, List.mem_singleton, not_or]
    exact ⟨hname.sep, hne⟩
  induction fields with
  | nil => exact fun hwithin => List.not_mem_nil (hwithin.subset List.mem_cons_self)
  | cons field fields ih =>
    have ih := ih fun other hother => h other (List.mem_cons_of_mem field hother)
    cases fields with
    | nil =>
      rw [encode_cons, List.flatMap_nil, List.append_nil]
      exact hwritten field (h field List.mem_cons_self).1
    | cons other fields =>
      obtain ⟨hclean, hother⟩ := h other (List.mem_cons_of_mem field List.mem_cons_self)
      rw [encode_cons_cons]
      intro hwithin
      rcases infix_append_cons hpat hwithin with hfirst | hrest
      · exact hwritten field (h field List.mem_cons_self).1 hfirst
      · rcases List.infix_cons_iff.1 hrest with hstarts | hrest
        · obtain ⟨_, rest, hrest⟩ := List.cons_prefix_cons.1 hstarts
          rw [encode_cons, written, List.append_assoc, List.append_assoc] at hrest
          exact hother (append_cons_inj_first hname.eq hclean.name.eq hrest).1.symm
        · exact ih hrest

variable [DecidableEq α]

/-- Values may hold the sign that follows the names. -/
theorem encode_injective (hne : sep ≠ eq) {fields others : List (List α × List α)}
    (hsome : fields ≠ []) (hothers : others ≠ [])
    (h : ∀ field ∈ fields, Plain sep eq field.1 ∧ sep ∉ field.2)
    (h' : ∀ field ∈ others, Plain sep eq field.1 ∧ sep ∉ field.2)
    (hencode : encode sep eq fields = encode sep eq others) : fields = others := by
  have hnotMem {field : List α × List α} (h : Plain sep eq field.1 ∧ sep ∉ field.2) :
      sep ∉ written eq field := by
    rw [written, List.mem_append, List.mem_cons, not_or, not_or]
    exact ⟨h.1.sep, hne, h.2⟩
  have hsplit {fields : List (List α × List α)} (hsome : fields ≠ [])
      (h : ∀ field ∈ fields, Plain sep eq field.1 ∧ sep ∉ field.2) :
      (encode sep eq fields).splitOn sep = fields.map (written eq) := by
    refine List.splitOn_intercalate sep (fun piece hpiece => ?_) (by rwa [ne_eq, List.map_eq_nil_iff])
    obtain ⟨field, hfield, rfl⟩ := List.mem_map.1 hpiece
    exact hnotMem (h field hfield)
  have hmap : fields.map (written eq) = others.map (written eq) := by
    rw [← hsplit hsome h, hencode, hsplit hothers h']
  clear hsome hothers hencode
  induction fields generalizing others with
  | nil => exact (List.map_eq_nil_iff.1 hmap.symm).symm
  | cons field fields ih =>
    cases others with
    | nil => cases hmap
    | cons other others =>
      rw [List.map_cons, List.map_cons, List.cons.injEq] at hmap
      have hfield := append_cons_inj_first (h field List.mem_cons_self).1.eq
        (h' other List.mem_cons_self).1.eq hmap.1
      rw [Prod.ext hfield.1 hfield.2, ih (fun field hfield => h field (List.mem_cons_of_mem _ hfield))
        (fun field hfield => h' field (List.mem_cons_of_mem _ hfield)) hmap.2]

theorem splitTrim_written (h : Clean sep eq field) (hvalue : field.2 ≠ []) :
    splitTrim eq (written eq field) = [field.1, field.2] := by
  rw [written_eq_intercalate]
  refine splitTrim_intercalate (List.cons_ne_nil _ _) fun piece hpiece => ?_
  rcases List.mem_cons.1 hpiece with rfl | hpiece
  · exact ⟨h.nonempty, h.name.eq⟩
  · rw [List.mem_singleton.1 hpiece]
    exact ⟨hvalue, h.value.eq⟩

/-- The field that a piece of a text stands for. -/
def readField (eq : α) (piece : List α) : Option (List α × List α) :=
  match splitTrim eq piece with
  | [name, value] => some (name, value)
  | _ => none

def decode (sep eq : α) (text : List α) : List (List α × List α) :=
  (splitTrim sep text).filterMap (readField eq)

theorem readField_written (h : Clean sep eq field) :
    readField eq (written eq field) = if field.2 = [] then none else some field := by
  have hmem : eq ∈ written eq field := List.mem_append_right _ List.mem_cons_self
  have hsplit : (written eq field).splitOn eq = [field.1, field.2] := by
    rw [written_eq_intercalate]
    refine List.splitOn_intercalate eq (fun piece hpiece => ?_) (List.cons_ne_nil _ _)
    rcases List.mem_cons.1 hpiece with rfl | hpiece
    · exact h.name.eq
    · rw [List.mem_singleton.1 hpiece]
      exact h.value.eq
  unfold readField
  rw [splitTrim, if_pos hmem, hsplit]
  by_cases hvalue : field.2 = []
  · have hdropped : [field.1, []].rdropWhile (fun piece => decide (piece = [])) = [field.1] := by
      rw [show [field.1, []] = [field.1] ++ [[]] from rfl, List.rdropWhile_concat,
        if_pos (decide_eq_true rfl),
        List.rdropWhile_singleton, if_neg]
      rw [decide_eq_true_eq]
      exact h.nonempty
    rw [if_pos hvalue, hvalue, hdropped]
  · rw [if_neg hvalue, show [field.1, field.2] = [field.1] ++ [field.2] from rfl,
      List.rdropWhile_concat_neg _ _ _ (by rw [decide_eq_true_eq]; exact hvalue)]
    rfl

/-- What is written is read again, apart from empty values. -/
theorem decode_written (hne : sep ≠ eq) {fields : List (List α × List α)} (hsome : fields ≠ [])
    (h : ∀ field ∈ fields, Clean sep eq field) :
    decode sep eq (encode sep eq fields) = fields.filter (·.2 ≠ []) := by
  unfold decode encode
  rw [splitTrim_intercalate]
  · rw [List.filterMap_map]
    clear hsome
    induction fields with
    | nil => rfl
    | cons field fields ih =>
      have hread := readField_written (h field List.mem_cons_self)
      have ih := ih fun other hother => h other (List.mem_cons_of_mem field hother)
      rw [List.filterMap_cons, Function.comp_apply, hread, List.filter_cons, ih]
      by_cases hvalue : field.2 = []
      · rw [if_pos hvalue, if_neg (by rw [decide_eq_true_eq]; exact fun h => h hvalue)]
      · rw [if_neg hvalue, if_pos (decide_eq_true hvalue)]
  · exact fun hnil => hsome (List.map_eq_nil_iff.1 hnil)
  · intro piece hpiece
    obtain ⟨field, hfield, rfl⟩ := List.mem_map.1 hpiece
    exact ⟨(h field hfield).ne_nil, (h field hfield).notMem hne⟩

/-- A list that does not end in an empty text is found again. -/
theorem splitTrim_joined {l : List (List α)} (hne : l ≠ []) (hlast : l.getLast hne ≠ [])
    (hl : ∀ s ∈ l, sep ∉ s) : splitTrim sep ([sep].intercalate l) = l := by
  have hsplit := List.splitOn_intercalate sep hl hne
  by_cases hmem : sep ∈ [sep].intercalate l
  · rw [splitTrim, if_pos hmem, hsplit, List.rdropWhile_eq_self_iff]
    exact fun _ hempty => hlast (of_decide_eq_true hempty)
  · rw [splitTrim_of_notMem hmem, ← List.splitOn_eq_singleton hmem, hsplit]

/-- A separator in front leaves one empty piece. -/
theorem splitTrim_cons_encode (hne : sep ≠ eq) {fields : List (List α × List α)}
    (hsome : fields ≠ []) (h : ∀ field ∈ fields, Clean sep eq field) :
    splitTrim sep (sep :: encode sep eq fields) = [] :: fields.map (written eq) := by
  have hmap : fields.map (written eq) ≠ [] := fun hnil => hsome (List.map_eq_nil_iff.1 hnil)
  have hjoined : sep :: encode sep eq fields =
      [sep].intercalate ([] :: fields.map (written eq)) := by
    rw [List.intercalate_cons_of_ne_nil hmap]
    rfl
  rw [hjoined]
  refine splitTrim_joined (List.cons_ne_nil _ _) ?_ ?_
  · rw [List.getLast_cons hmap]
    obtain ⟨field, hfield, hlast⟩ := List.mem_map.1 (List.getLast_mem hmap)
    rw [← hlast]
    exact (h field hfield).ne_nil
  · intro piece hpiece
    rcases List.mem_cons.1 hpiece with rfl | hpiece
    · exact List.not_mem_nil
    · obtain ⟨field, hfield, rfl⟩ := List.mem_map.1 hpiece
      exact (h field hfield).notMem hne

end Lib.Fields
