import Athenz.Lib.Text
import Mathlib.Data.Char
import Mathlib.Data.List.Lex
import Mathlib.Data.List.Sort

namespace Lib.Document
open Lib.Text
set_option autoImplicit true

/-- Documents of records, lists, texts, numbers of two widths and truth values. -/
inductive Node (κ : Type) where
  | struct (fields : List (κ × Node κ))
  | array (items : List (Node κ))
  | string (text : List Char)
  | integer (value : Int)
  | long (value : Int)
  | boolean (value : Bool)

def intText : Int → List Char
  | .ofNat n => Nat.toDigits 10 n
  | .negSucc n => '-' :: Nat.toDigits 10 (n + 1)

def boolText (value : Bool) : List Char := if value then "true".toList else "false".toList

/-- The texts of items with commas between them. -/
def separated : List (List Char) → List Char
  | [] => []
  | text :: texts => text ++ texts.flatMap (',' :: ·)

section Printing

variable {κ : Type} (name : κ → List Char)

/-- The text of a field of a record. -/
def fieldText (field : κ × List Char) : List Char := '"' :: name field.1 ++ '"' :: ':' :: field.2

def byName (a b : κ × α) : Prop := name a.1 ≤ name b.1

instance : DecidableRel (byName (α := α) name) := fun a b =>
  inferInstanceAs (Decidable (name a.1 ≤ name b.1))

mutual

/-- The text of a document, with the fields of records in the order of their names. -/
def print : Node κ → List Char
  | .struct fields =>
    '{' :: separated (((printFields fields).insertionSort (byName name)).map (fieldText name)) ++ ['}']
  | .array items => '[' :: separated (printItems items) ++ [']']
  | .string text => '"' :: text ++ ['"']
  | .integer value => intText value
  | .long value => intText value
  | .boolean value => boolText value

def printFields : List (κ × Node κ) → List (κ × List Char)
  | [] => []
  | (key, value) :: fields => (key, print value) :: printFields fields

def printItems : List (Node κ) → List (List Char)
  | [] => []
  | item :: items => print item :: printItems items

end

/-- What a document says: records with their fields in the order of the names, lists, texts, numbers
and truth values. -/
inductive Data (κ : Type) where
  | record (fields : List (κ × Data κ))
  | list (items : List (Data κ))
  | text (text : List Char)
  | number (value : Int)
  | truth (value : Bool)

mutual

def data : Node κ → Data κ
  | .struct fields => .record ((dataFields fields).insertionSort (byName name))
  | .array items => .list (dataItems items)
  | .string text => .text text
  | .integer value => .number value
  | .long value => .number value
  | .boolean value => .truth value

def dataFields : List (κ × Node κ) → List (κ × Data κ)
  | [] => []
  | (key, value) :: fields => (key, data value) :: dataFields fields

def dataItems : List (Node κ) → List (Data κ)
  | [] => []
  | item :: items => data item :: dataItems items

end

mutual

/-- The text of what a document says, with the fields as they stand. -/
def printData : Data κ → List Char
  | .record fields => '{' :: separated (printDataFields fields) ++ ['}']
  | .list items => '[' :: separated (printDataItems items) ++ [']']
  | .text text => '"' :: text ++ ['"']
  | .number value => intText value
  | .truth value => boolText value

def printDataFields : List (κ × Data κ) → List (List Char)
  | [] => []
  | (key, value) :: fields => fieldText name (key, printData value) :: printDataFields fields

def printDataItems : List (Data κ) → List (List Char)
  | [] => []
  | item :: items => printData item :: printDataItems items

end

theorem printDataFields_eq (fields : List (κ × Data κ)) :
    printDataFields name fields =
      (fields.map fun field => (field.1, printData name field.2)).map (fieldText name) := by
  induction fields with
  | nil => rfl
  | cons field fields ih =>
    rw [printDataFields, ih]
    rfl

mutual

theorem print_eq (node : Node κ) : print name node = printData name (data name node) := by
  cases node with
  | struct fields =>
    have hsort : ((dataFields name fields).insertionSort (byName name)).map
          (fun field => (field.1, printData name field.2)) =
        (printFields name fields).insertionSort (byName name) := by
      rw [printFields_eq fields]
      exact List.map_insertionSort _ _ _ _ fun _ _ _ _ => Iff.rfl
    rw [print, data, printData, printDataFields_eq, hsort]
  | array items => rw [print, data, printData, printItems_eq items]
  | string text => rfl
  | integer value => rfl
  | long value => rfl
  | boolean value => rfl

theorem printFields_eq (fields : List (κ × Node κ)) : printFields name fields =
    (dataFields name fields).map fun field => (field.1, printData name field.2) := by
  match fields with
  | [] => rfl
  | (key, value) :: fields =>
    rw [printFields, dataFields, List.map_cons, print_eq value, printFields_eq fields]

theorem printItems_eq (items : List (Node κ)) :
    printItems name items = printDataItems name (dataItems name items) := by
  match items with
  | [] => rfl
  | item :: items => rw [printItems, dataItems, printDataItems, print_eq item, printItems_eq items]

end

end Printing

section Cuts

/-- What may follow the text of a value: brackets that close, and the end or a comma. -/
inductive Tail : List Char → Prop where
  | nil : Tail []
  | comma (rest : List Char) : Tail (',' :: rest)
  | bracket (h : Tail rest) : Tail (']' :: rest)
  | brace (h : Tail rest) : Tail ('}' :: rest)

theorem Tail.head (h : Tail rest) (c : Char) (hc : c ∈ rest.head?) :
    c = ',' ∨ c = ']' ∨ c = '}' := by
  cases h with
  | nil => cases hc
  | comma rest => exact .inl (Option.some.inj hc).symm
  | bracket _ => exact .inr (.inl (Option.some.inj hc).symm)
  | brace _ => exact .inr (.inr (Option.some.inj hc).symm)

/-- A tail is brackets, and then the end or a comma. -/
theorem Tail.closes (h : Tail rest) : ∃ brackets after, rest = brackets ++ after ∧
    (∀ c ∈ brackets, c ≠ ',' ∧ c ≠ '"') ∧ ∀ c ∈ after.head?, c = ',' := by
  induction h with
  | nil => exact ⟨[], [], rfl, nofun, nofun⟩
  | comma rest =>
    refine ⟨[], ',' :: rest, rfl, nofun, ?_⟩
    intro c hc
    exact (Option.some.inj hc).symm
  | bracket _ ih =>
    obtain ⟨brackets, after, rfl, hbrackets, hafter⟩ := ih
    exact ⟨']' :: brackets, after, rfl, List.forall_mem_cons.2 ⟨by decide, hbrackets⟩, hafter⟩
  | brace _ ih =>
    obtain ⟨brackets, after, rfl, hbrackets, hafter⟩ := ih
    exact ⟨'}' :: brackets, after, rfl, List.forall_mem_cons.2 ⟨by decide, hbrackets⟩, hafter⟩

theorem intText_chars (value : Int) : intText value ≠ [] ∧ ∀ c ∈ intText value, c = '-' ∨ c.isDigit := by
  have hdigits : ∀ n, ∀ c ∈ Nat.toDigits 10 n, c.isDigit := fun n c hc =>
    Nat.isDigit_of_mem_toDigits (by decide) (by decide) hc
  cases value with
  | ofNat n => exact ⟨Nat.toDigits_ne_nil, fun c hc => .inr (hdigits n c hc)⟩
  | negSucc n =>
    refine ⟨List.cons_ne_nil _ _, List.forall_mem_cons.2 ⟨.inl rfl, ?_⟩⟩
    exact fun c hc => .inr (hdigits (n + 1) c hc)

theorem intText_injective (h : intText a = intText b) : a = b := by
  have hdigits : ∀ {n m : Nat}, Nat.toDigits 10 n = Nat.toDigits 10 m → n = m := by
    intro n m hnm
    rw [← Nat.ofDigitChars_ten_toDigits (n := n), hnm, Nat.ofDigitChars_ten_toDigits]
  have hminus : ∀ {n : Nat} {s : List Char}, Nat.toDigits 10 n ≠ '-' :: s := by
    intro n s hs
    have hdigit := Nat.isDigit_of_mem_toDigits (b := 10) (c := '-') (n := n) (by decide) (by decide)
      (hs ▸ List.mem_cons_self)
    exact absurd hdigit (by decide)
  cases a with
  | ofNat n =>
    cases b with
    | ofNat m => rw [hdigits h]
    | negSucc m => exact absurd h hminus
  | negSucc n =>
    cases b with
    | ofNat m => exact absurd h.symm hminus
    | negSucc m => rw [Nat.succ.inj (hdigits (List.cons.inj h).2)]

/-- A number ends where its digits end. -/
theorem intText_cut (hr : Tail r) (hr' : Tail r') (h : intText a ++ r = intText b ++ r') :
    a = b ∧ r = r' := by
  have hstop : ∀ {r : List Char}, Tail r → ∀ c ∈ r.head?, ¬ (c = '-' ∨ c.isDigit) := by
    intro r hr c hc
    obtain rfl | rfl | rfl := hr.head c hc
    · decide
    · decide
    · decide
  obtain ⟨hab, hrr⟩ := append_inj_of_head (intText_chars a).2 (intText_chars b).2 (hstop hr)
    (hstop hr') h
  exact ⟨intText_injective hab, hrr⟩

/-- A text over characters without the quote, or without the comma, ends at one place only. -/
theorem text_cut {allowed : Char → Prop} (hcut : ¬ (allowed '"' ∧ allowed ','))
    (ha : ∀ c ∈ a, allowed c) (hb : ∀ c ∈ b, allowed c) (hr : Tail r) (hr' : Tail r')
    (h : a ++ '"' :: r = b ++ '"' :: r') : a = b ∧ r = r' := by
  by_cases hquote : allowed '"'
  · have hcomma : ¬ allowed ',' := fun hcomma => hcut ⟨hquote, hcomma⟩
    obtain ⟨brackets, after, rfl, hbrackets, hafter⟩ := hr.closes
    obtain ⟨brackets', after', rfl, hbrackets', hafter'⟩ := hr'.closes
    have hbefore : ∀ {a brackets : List Char}, (∀ c ∈ a, allowed c) →
        (∀ c ∈ brackets, c ≠ ',' ∧ c ≠ '"') → ∀ c ∈ a ++ '"' :: brackets, c ≠ ',' := by
      rintro a brackets ha hbrackets c hc rfl
      obtain hc | hc := List.mem_append.1 hc
      · exact hcomma (ha _ hc)
      · obtain hc | hc := List.mem_cons.1 hc
        · exact absurd hc (by decide)
        · exact (hbrackets _ hc).1 rfl
    have hsplit : (a ++ '"' :: brackets) ++ after = (b ++ '"' :: brackets') ++ after' := by
      rw [List.append_assoc, List.append_assoc]
      exact h
    obtain ⟨htexts, rfl⟩ := append_inj_of_head (hbefore ha hbrackets) (hbefore hb hbrackets')
      (fun c hc => not_not.2 (hafter c hc)) (fun c hc => not_not.2 (hafter' c hc)) hsplit
    obtain ⟨rfl, rfl⟩ := append_cons_inj_last (fun hc => (hbrackets _ hc).2 rfl)
      (fun hc => (hbrackets' _ hc).2 rfl) htexts
    exact ⟨rfl, rfl⟩
  · exact append_cons_inj_first (fun hc => hquote (ha _ hc)) (fun hc => hquote (hb _ hc)) h

end Cuts

section Injective

variable {κ : Type} {name : κ → List Char} {allowed : Char → Prop}

mutual

/-- The texts of a document have allowed characters only. -/
def Over (allowed : Char → Prop) : Data κ → Prop
  | .record fields => OverFields allowed fields
  | .list items => OverItems allowed items
  | .text text => ∀ c ∈ text, allowed c
  | .number _ => True
  | .truth _ => True

def OverFields (allowed : Char → Prop) : List (κ × Data κ) → Prop
  | [] => True
  | (_, value) :: fields => Over allowed value ∧ OverFields allowed fields

def OverItems (allowed : Char → Prop) : List (Data κ) → Prop
  | [] => True
  | item :: items => Over allowed item ∧ OverItems allowed items

end

/-- The items behind the first one. -/
def more (texts : List (List Char)) : List Char := texts.flatMap (',' :: ·)

theorem more_cons (text : List Char) (texts : List (List Char)) (rest : List Char) :
    more (text :: texts) ++ rest = ',' :: (text ++ (more texts ++ rest)) := by
  rw [more, List.flatMap_cons, List.cons_append, List.cons_append, List.append_assoc]
  rfl

theorem separated_cons (text : List Char) (texts : List (List Char)) (rest : List Char) :
    separated (text :: texts) ++ rest = text ++ (more texts ++ rest) := List.append_assoc ..

theorem tail_more (texts : List (List Char)) (h : Tail rest) : Tail (more texts ++ rest) := by
  cases texts with
  | nil => exact h
  | cons text texts =>
    rw [more_cons]
    exact .comma _

theorem fieldText_append (key : κ) (value rest : List Char) :
    fieldText name (key, value) ++ rest = '"' :: (name key ++ '"' :: ':' :: (value ++ rest)) := by
  simp only [fieldText, List.cons_append, List.append_assoc]

/-- The kinds of values, and the kind that a first character stands for. -/
inductive Kind where
  | record | list | text | number | truth
deriving DecidableEq

def Data.kind : Data κ → Kind
  | .record _ => .record
  | .list _ => .list
  | .text _ => .text
  | .number _ => .number
  | .truth _ => .truth

def kindOf (c : Char) : Kind :=
  if c = '{' then .record else if c = '[' then .list else if c = '"' then .text
  else if c = 't' ∨ c = 'f' then .truth else .number

/-- The first character of a value tells its kind and is no separator. -/
theorem head_printData (name : κ → List Char) (d : Data κ) :
    ∃ c rest, printData name d = c :: rest ∧ kindOf c = d.kind ∧ c ≠ ']' := by
  cases d with
  | record fields => exact ⟨'{', _, rfl, rfl, by decide⟩
  | list items => exact ⟨'[', _, rfl, rfl, by decide⟩
  | text text => exact ⟨'"', _, rfl, rfl, by decide⟩
  | number value =>
    obtain ⟨hne, hchars⟩ := intText_chars value
    obtain ⟨c, rest, hc⟩ := List.exists_cons_of_ne_nil hne
    have hfirst : c = '-' ∨ c.isDigit := hchars c (hc ▸ List.mem_cons_self)
    have hother : ∀ x : Char, ¬ (x = '-' ∨ x.isDigit) → c ≠ x := by
      rintro x hx rfl
      exact hx hfirst
    refine ⟨c, rest, hc, ?_, hother ']' (by decide)⟩
    rw [kindOf, if_neg (hother _ (by decide)), if_neg (hother _ (by decide)),
      if_neg (hother _ (by decide)), if_neg]
    · rfl
    · exact not_or.2 ⟨hother _ (by decide), hother _ (by decide)⟩
  | truth value =>
    cases value with
    | true => exact ⟨'t', _, rfl, rfl, by decide⟩
    | false => exact ⟨'f', _, rfl, rfl, by decide⟩

theorem kind_eq_of_printData (h : printData name a ++ r = printData name b ++ r') :
    a.kind = b.kind := by
  obtain ⟨c, rest, hc, hkind, _⟩ := head_printData name a
  obtain ⟨c', rest', hc', hkind', _⟩ := head_printData name b
  rw [hc, hc'] at h
  rw [← hkind, ← hkind', (List.cons.inj h).1]

/-- Behind a comma the first item of a list is one of those behind the first. -/
theorem comma_separated (h : texts ≠ []) :
    ',' :: (separated texts ++ rest) = more texts ++ rest := by
  cases texts with
  | nil => exact absurd rfl h
  | cons text texts => rw [separated_cons, more_cons]

theorem printDataFields_ne_nil (h : fields ≠ []) : printDataFields name fields ≠ [] := by
  cases fields with
  | nil => exact absurd rfl h
  | cons field fields => exact List.cons_ne_nil _ _

theorem printDataItems_ne_nil (h : items ≠ []) : printDataItems name items ≠ [] := by
  cases items with
  | nil => exact absurd rfl h
  | cons item items => exact List.cons_ne_nil _ _

/-- The text of fields or items starts with a closing bracket only when there are none. -/
theorem nil_of_fields (h : '}' :: r = separated (printDataFields name fields) ++ '}' :: r') :
    fields = [] := by
  cases fields with
  | nil => rfl
  | cons field fields =>
    rw [printDataFields, separated_cons, fieldText_append] at h
    exact absurd (List.cons.inj h).1 (by decide)

theorem nil_of_items (h : ']' :: r = separated (printDataItems name items) ++ ']' :: r') :
    items = [] := by
  cases items with
  | nil => rfl
  | cons item items =>
    obtain ⟨c, rest, hc, _, hne⟩ := head_printData name item
    rw [printDataItems, separated_cons, hc] at h
    exact absurd (List.cons.inj h).1.symm hne

mutual

theorem printData_inj (hname : Function.Injective name) (hquote : ∀ key, '"' ∉ name key)
    (hcut : ¬ (allowed '"' ∧ allowed ',')) (a b : Data κ) (r r' : List Char) (ha : Over allowed a)
    (hb : Over allowed b) (hr : Tail r) (hr' : Tail r')
    (h : printData name a ++ r = printData name b ++ r') : a = b ∧ r = r' := by
  have hkind := kind_eq_of_printData h
  match a, b, hkind with
  | .record fields, .record fields', _ =>
    have hbody : separated (printDataFields name fields) ++ '}' :: r =
        separated (printDataFields name fields') ++ '}' :: r' := by
      simpa only [printData, List.cons_append, List.append_assoc, List.cons.injEq, true_and,
        List.nil_append] using h
    by_cases hfields : fields = []
    · subst hfields
      obtain rfl := nil_of_fields hbody
      exact ⟨rfl, (List.cons.inj hbody).2⟩
    · have hfields' : fields' ≠ [] := by
        rintro rfl
        exact hfields (nil_of_fields hbody.symm)
      have hmore := congrArg (',' :: ·) hbody
      rw [comma_separated (printDataFields_ne_nil hfields),
        comma_separated (printDataFields_ne_nil hfields')] at hmore
      obtain ⟨rfl, rfl⟩ := moreFields_inj hname hquote hcut fields fields' r r' ha hb hr hr' hmore
      exact ⟨rfl, rfl⟩
  | .list items, .list items', _ =>
    have hbody : separated (printDataItems name items) ++ ']' :: r =
        separated (printDataItems name items') ++ ']' :: r' := by
      simpa only [printData, List.cons_append, List.append_assoc, List.cons.injEq, true_and,
        List.nil_append] using h
    by_cases hitems : items = []
    · subst hitems
      obtain rfl := nil_of_items hbody
      exact ⟨rfl, (List.cons.inj hbody).2⟩
    · have hitems' : items' ≠ [] := by
        rintro rfl
        exact hitems (nil_of_items hbody.symm)
      have hmore := congrArg (',' :: ·) hbody
      rw [comma_separated (printDataItems_ne_nil hitems),
        comma_separated (printDataItems_ne_nil hitems')] at hmore
      obtain ⟨rfl, rfl⟩ := moreItems_inj hname hquote hcut items items' r r' ha hb hr hr' hmore
      exact ⟨rfl, rfl⟩
  | .text text, .text text', _ =>
    have hbody : text ++ '"' :: r = text' ++ '"' :: r' := by
      simpa only [printData, List.cons_append, List.append_assoc, List.cons.injEq, true_and,
        List.nil_append] using h
    obtain ⟨rfl, rfl⟩ := text_cut hcut ha hb hr hr' hbody
    exact ⟨rfl, rfl⟩
  | .number value, .number value', _ =>
    obtain ⟨rfl, rfl⟩ := intText_cut hr hr' h
    exact ⟨rfl, rfl⟩
  | .truth value, .truth value', _ =>
    cases value with
    | true =>
      cases value' with
      | true => exact ⟨rfl, List.append_cancel_left h⟩
      | false => exact absurd (List.cons.inj h).1 (by decide)
    | false =>
      cases value' with
      | true => exact absurd (List.cons.inj h).1 (by decide)
      | false => exact ⟨rfl, List.append_cancel_left h⟩

theorem moreFields_inj (hname : Function.Injective name) (hquote : ∀ key, '"' ∉ name key)
    (hcut : ¬ (allowed '"' ∧ allowed ',')) (a b : List (κ × Data κ)) (r r' : List Char)
    (ha : OverFields allowed a) (hb : OverFields allowed b) (hr : Tail r) (hr' : Tail r')
    (h : more (printDataFields name a) ++ '}' :: r = more (printDataFields name b) ++ '}' :: r') :
    a = b ∧ r = r' := by
  match a, b with
  | [], [] => exact ⟨rfl, (List.cons.inj h).2⟩
  | [], (key, value) :: fields =>
    rw [printDataFields, printDataFields, more_cons] at h
    exact absurd (List.cons.inj h).1 (by decide)
  | (key, value) :: fields, [] =>
    rw [printDataFields, printDataFields, more_cons] at h
    exact absurd (List.cons.inj h).1 (by decide)
  | (key, value) :: fields, (key', value') :: fields' =>
    rw [printDataFields, printDataFields, more_cons, more_cons, fieldText_append,
      fieldText_append] at h
    obtain ⟨hkey, htail⟩ := append_cons_inj_first (hquote key) (hquote key')
      (List.cons.inj (List.cons.inj h).2).2
    obtain ⟨rfl, hrest⟩ := printData_inj hname hquote hcut value value' _ _ ha.1 hb.1
      (tail_more _ (.brace hr)) (tail_more _ (.brace hr')) (List.cons.inj htail).2
    obtain ⟨rfl, rfl⟩ := moreFields_inj hname hquote hcut fields fields' r r' ha.2 hb.2 hr hr' hrest
    exact ⟨by rw [hname hkey], rfl⟩

theorem moreItems_inj (hname : Function.Injective name) (hquote : ∀ key, '"' ∉ name key)
    (hcut : ¬ (allowed '"' ∧ allowed ',')) (a b : List (Data κ)) (r r' : List Char)
    (ha : OverItems allowed a) (hb : OverItems allowed b) (hr : Tail r) (hr' : Tail r')
    (h : more (printDataItems name a) ++ ']' :: r = more (printDataItems name b) ++ ']' :: r') :
    a = b ∧ r = r' := by
  match a, b with
  | [], [] => exact ⟨rfl, (List.cons.inj h).2⟩
  | [], item :: items =>
    rw [printDataItems, printDataItems, more_cons] at h
    exact absurd (List.cons.inj h).1 (by decide)
  | item :: items, [] =>
    rw [printDataItems, printDataItems, more_cons] at h
    exact absurd (List.cons.inj h).1 (by decide)
  | item :: items, item' :: items' =>
    rw [printDataItems, printDataItems, more_cons, more_cons] at h
    obtain ⟨rfl, hrest⟩ := printData_inj hname hquote hcut item item' _ _ ha.1 hb.1
      (tail_more _ (.bracket hr)) (tail_more _ (.bracket hr')) (List.cons.inj h).2
    obtain ⟨rfl, rfl⟩ := moreItems_inj hname hquote hcut items items' r r' ha.2 hb.2 hr hr' hrest
    exact ⟨rfl, rfl⟩

end

/-- Documents with one text say the same when their texts lack the quote or lack the comma. -/
theorem print_injective (hname : Function.Injective name) (hquote : ∀ key, '"' ∉ name key)
    (hcut : ¬ (allowed '"' ∧ allowed ',')) {a b : Node κ} (ha : Over allowed (data name a))
    (hb : Over allowed (data name b)) (h : print name a = print name b) :
    data name a = data name b := by
  rw [print_eq, print_eq] at h
  exact (printData_inj hname hquote hcut _ _ [] [] ha hb .nil .nil (congrArg (· ++ []) h)).1

end Injective

section Present

variable {κ : Type} {name : κ → List Char}

/-- The fields of a record that have a value. -/
def present (fields : List (κ × Option (Node κ))) : List (κ × Node κ) :=
  fields.filterMap fun field => field.2.map (field.1, ·)

theorem mem_dataFields {fields : List (κ × Node κ)} :
    (key, value) ∈ dataFields name fields ↔ ∃ node, (key, node) ∈ fields ∧ data name node = value := by
  induction fields with
  | nil => simp only [dataFields, List.not_mem_nil, false_and, exists_false]
  | cons field fields ih =>
    rw [dataFields, List.mem_cons, ih]
    simp only [Prod.mk.injEq, List.mem_cons, or_and_right, exists_or]
    refine or_congr ⟨?_, ?_⟩ Iff.rfl
    · rintro ⟨rfl, rfl⟩
      exact ⟨field.2, rfl, rfl⟩
    · rintro ⟨node, rfl, rfl⟩
      exact ⟨rfl, rfl⟩

theorem mem_present {fields : List (κ × Option (Node κ))} :
    (key, node) ∈ present fields ↔ (key, some node) ∈ fields := by
  rw [present, List.mem_filterMap]
  constructor
  · rintro ⟨⟨key', value⟩, hmem, heq⟩
    obtain ⟨node', rfl, heq⟩ := Option.map_eq_some_iff.1 heq
    cases heq
    exact hmem
  · intro hmem
    exact ⟨_, hmem, rfl⟩

theorem mem_fields_of_data {fields fields' : List (κ × Option (Node κ))}
    (h : data name (.struct (present fields)) = data name (.struct (present fields')))
    (hmem : (key, some node) ∈ fields) :
    ∃ node', (key, some node') ∈ fields' ∧ data name node' = data name node := by
  rw [data, data, Data.record.injEq] at h
  have hfield : (key, data name node) ∈ dataFields name (present fields) :=
    mem_dataFields.2 ⟨node, mem_present.2 hmem, rfl⟩
  rw [← List.mem_insertionSort (byName name), h, List.mem_insertionSort] at hfield
  obtain ⟨node', hmem', hdata⟩ := mem_dataFields.1 hfield
  exact ⟨node', mem_present.1 hmem', hdata⟩

theorem eq_of_nodup_keys {l : List (κ × α)} (h : (l.map Prod.fst).Nodup) (ha : (key, a) ∈ l)
    (hb : (key, b) ∈ l) : a = b :=
  congrArg Prod.snd (List.inj_on_of_nodup_map h ha hb rfl)

/-- The value of a field is said by the record. -/
theorem data_field_eq {fields fields' : List (κ × Option (Node κ))}
    (hkeys : (fields.map Prod.fst).Nodup) (hkeys' : (fields'.map Prod.fst).Nodup)
    (h : data name (.struct (present fields)) = data name (.struct (present fields')))
    (hmem : (key, value) ∈ fields) (hmem' : (key, value') ∈ fields') :
    value.map (data name) = value'.map (data name) := by
  cases value with
  | none =>
    cases value' with
    | none => rfl
    | some node' =>
      obtain ⟨node, hnode, _⟩ := mem_fields_of_data h.symm hmem'
      exact absurd (eq_of_nodup_keys hkeys hmem hnode) (by nofun)
  | some node =>
    obtain ⟨node', hnode', hdata⟩ := mem_fields_of_data h hmem
    rw [eq_of_nodup_keys hkeys' hmem' hnode', Option.map_some, Option.map_some, hdata]

theorem dataFields_present (fields : List (κ × Option (Node κ))) :
    dataFields name (present fields) =
      ((fields.map Prod.fst).zip (fields.map fun field => field.2.map (data name))).filterMap
        fun field => field.2.map (field.1, ·) := by
  induction fields with
  | nil => rfl
  | cons field fields ih =>
    obtain ⟨key, value⟩ := field
    cases value with
    | none => exact ih
    | some node => exact congrArg ((key, data name node) :: ·) ih

/-- Records of one shape say the same exactly when their values do. -/
theorem data_present_iff {fields fields' : List (κ × Option (Node κ))}
    (hkeys : (fields.map Prod.fst).Nodup) (hsame : fields.map Prod.fst = fields'.map Prod.fst) :
    data name (.struct (present fields)) = data name (.struct (present fields')) ↔
      fields.map (fun field => field.2.map (data name)) =
        fields'.map fun field => field.2.map (data name) := by
  constructor
  · intro h
    have hlength : fields.length = fields'.length := by
      rw [← List.length_map Prod.fst, hsame, List.length_map]
    refine List.ext_getElem (by rw [List.length_map, List.length_map, hlength]) fun i hi hi' => ?_
    rw [List.length_map] at hi hi'
    rw [List.getElem_map, List.getElem_map]
    have hkey : fields'[i].1 = fields[i].1 := by
      rw [← List.getElem_map Prod.fst (h := by rwa [List.length_map]),
        ← List.getElem_map Prod.fst (h := by rwa [List.length_map])]
      simp only [hsame]
    have hmem : (fields[i].1, fields'[i].2) ∈ fields' := by
      rw [← hkey]
      exact List.getElem_mem hi'
    exact data_field_eq hkeys (hsame ▸ hkeys) h (List.getElem_mem hi) hmem
  · intro h
    rw [data, data, dataFields_present, dataFields_present, hsame, h]

end Present

end Lib.Document
