import Athenz.DbService

namespace Athenz.ZmsServer
open Lib Lib.Text
set_option autoImplicit true

section Replacing

/-- No occurrence of the pattern starts in a text that another one follows. -/
def NoneStarts (pattern text rest : Str) : Prop :=
  ∀ tail ∈ text.tails, tail ≠ [] → ¬ pattern <+: tail ++ rest

instance : Decidable (NoneStarts pattern text rest) :=
  inferInstanceAs (Decidable (∀ tail ∈ text.tails, tail ≠ [] → ¬ pattern <+: tail ++ rest))

theorem replaceFrom_skip (pattern replacement text : Str) (skip : Nat) :
    replaceFrom pattern replacement skip text = replaceFrom pattern replacement 0 (text.drop skip) := by
  induction skip generalizing text with
  | zero => rfl
  | succ skip ih =>
    cases text with
    | nil => rfl
    | cons c text => exact ih text

theorem replaceFrom_noneStarts (h : NoneStarts pattern text rest) :
    replaceFrom pattern replacement 0 (text ++ rest) =
      text ++ replaceFrom pattern replacement 0 rest := by
  induction text with
  | nil => rfl
  | cons c text ih =>
    have hfirst := h (c :: text) ((List.mem_tails _ _).2 (List.suffix_refl _)) (List.cons_ne_nil _ _)
    rw [List.cons_append] at hfirst
    rw [List.cons_append, replaceFrom, if_neg hfirst, ih, List.cons_append]
    intro tail htail hne
    exact h tail ((List.mem_tails _ _).2 (((List.mem_tails _ _).1 htail).trans (List.suffix_cons c text))) hne

theorem replaceFrom_pattern (hne : pattern ≠ []) :
    replaceFrom pattern replacement 0 (pattern ++ rest) =
      replacement ++ replaceFrom pattern replacement 0 rest := by
  cases pattern with
  | nil => exact absurd rfl hne
  | cons c pattern =>
    have hstarts : c :: pattern <+: c :: (pattern ++ rest) := List.prefix_append (c :: pattern) rest
    rw [List.cons_append, replaceFrom, if_pos hstarts, replaceFrom_skip, List.length_cons,
      Nat.add_sub_cancel, List.drop_left]

end Replacing

section Pieces

/-- The parts of a text of a template. -/
inductive Piece where
  | literal (text : Str)
  | placeholder (name : Str)

def placeholderText (name : Str) : Str := "_".toList ++ name ++ "_".toList

theorem placeholderText_ne_nil (name : Str) : placeholderText name ≠ [] := List.cons_ne_nil _ _

/-- What stands at a placeholder when some parameters have been replaced. -/
def filledAt (done : List TemplateParam) (name : Str) : Str :=
  ((done.find? (·.name = name)).map (·.value)).getD (placeholderText name)

def Piece.fill (done : List TemplateParam) : Piece → Str
  | .literal text => text
  | .placeholder name => filledAt done name

def fill (done : List TemplateParam) (pieces : List Piece) : Str := pieces.flatMap (·.fill done)

/-- The search for a parameter finds exactly the placeholders that are still open for it. -/
def HitsOwn (done : List TemplateParam) (name : Str) : List Piece → Prop
  | [] => True
  | piece :: pieces =>
    (match piece with
      | .literal text => NoneStarts (placeholderText name) text (fill done pieces)
      | .placeholder other => other = name ∧ (∀ param ∈ done, param.name ≠ name) ∨
          NoneStarts (placeholderText name) (filledAt done other) (fill done pieces) ∧
            (other = name → ∃ param ∈ done, param.name = name)) ∧
      HitsOwn done name pieces

theorem filledAt_open (h : ∀ param ∈ done, param.name ≠ name) :
    filledAt done name = placeholderText name := by
  have hnone : done.find? (fun param : TemplateParam => param.name = name) = none :=
    List.find?_eq_none.2 fun param hparam => by
      rw [decide_eq_true_eq]
      exact h param hparam
  rw [filledAt, hnone]
  rfl

theorem filledAt_append_open (h : ∀ param ∈ done, param.name ≠ param'.name) :
    filledAt (done ++ [param']) param'.name = param'.value := by
  have hnone : done.find? (fun param : TemplateParam => param.name = param'.name) = none :=
    List.find?_eq_none.2 fun param hparam => by
      rw [decide_eq_true_eq]
      exact h param hparam
  have hself : decide (param'.name = param'.name) = true := decide_eq_true rfl
  rw [filledAt, List.find?_append, hnone, Option.none_or, List.find?_cons, hself]
  rfl

theorem filledAt_append_other (h : other = param.name → ∃ p ∈ done, p.name = param.name) :
    filledAt (done ++ [param]) other = filledAt done other := by
  unfold filledAt
  rw [List.find?_append]
  cases hfound : done.find? (fun p : TemplateParam => p.name = other) with
  | some p => rfl
  | none =>
    rw [Option.none_or, List.find?_cons_of_neg, List.find?_nil]
    rw [decide_eq_true_eq]
    intro hsame
    obtain ⟨p, hp, hname⟩ := h hsame.symm
    exact List.find?_eq_none.1 hfound p hp (decide_eq_true (hname.trans hsame))

/-- The replacement of one parameter fills its placeholders. -/
theorem replaceFrom_fill (h : HitsOwn done param.name pieces) :
    replaceFrom (placeholderText param.name) param.value 0 (fill done pieces) =
      fill (done ++ [param]) pieces := by
  induction pieces with
  | nil => rfl
  | cons piece pieces ih =>
    obtain ⟨hpiece, hrest⟩ := h
    have hfill (values : List TemplateParam) :
        fill values (piece :: pieces) = piece.fill values ++ fill values pieces := rfl
    rw [hfill, hfill]
    cases piece with
    | literal text => rw [Piece.fill, replaceFrom_noneStarts hpiece, ih hrest, Piece.fill]
    | placeholder other =>
      rcases hpiece with ⟨rfl, hopen⟩ | ⟨huntouched, hdone⟩
      · rw [Piece.fill, filledAt_open hopen, replaceFrom_pattern (placeholderText_ne_nil _), ih hrest,
          Piece.fill, filledAt_append_open hopen]
      · rw [Piece.fill, replaceFrom_noneStarts huntouched, ih hrest, Piece.fill,
          filledAt_append_other hdone]

end Pieces

section Orders

/-- The parameters in the order of their replacement: the domain comes first. -/
def replacements (domainName : Str) (params : List TemplateParam) : List TemplateParam :=
  ⟨"domain".toList, domainName⟩ :: params

/-- Every search hits the placeholders of its parameter alone, in every order of the parameters, and
the filled text holds no placeholder of a parameter. -/
structure FillsCleanly (domainName : Str) (params : List TemplateParam) (pieces : List Piece) : Prop where
  hits : ∀ order, order.Perm params → ∀ done param rest,
    replacements domainName order = done ++ param :: rest → HitsOwn done param.name pieces
  clean : ∀ param ∈ replacements domainName params,
    ¬ placeholderText param.name <:+: fill (replacements domainName params) pieces

theorem foldl_replaceFrom_fill {rest : List TemplateParam}
    (h : ∀ before param after, rest = before ++ param :: after →
      HitsOwn (done ++ before) param.name pieces) :
    rest.foldl (fun text param => replaceFrom (placeholderText param.name) param.value 0 text)
      (fill done pieces) = fill (done ++ rest) pieces := by
  induction rest generalizing done with
  | nil => rw [List.foldl_nil, List.append_nil]
  | cons param rest ih =>
    have hfirst := h [] param rest rfl
    rw [List.append_nil] at hfirst
    rw [List.foldl_cons, replaceFrom_fill hfirst, ih, List.append_assoc, List.singleton_append]
    intro before next after hsplit
    have hnext := h (param :: before) next after (by rw [hsplit]; rfl)
    rwa [List.append_cons] at hnext

theorem substitute_eq_foldl (domainName : Str) (params : List TemplateParam) (text : Str) :
    substitute domainName (some params) text = (replacements domainName params).foldl
      (fun text param => replaceFrom (placeholderText param.name) param.value 0 text) text := rfl

theorem find?_eq_some_iff_of_nodup {l : List TemplateParam} (hnodup : (l.map (·.name)).Nodup) :
    l.find? (·.name = name) = some param ↔ param ∈ l ∧ param.name = name := by
  constructor
  · intro h
    have hname := List.find?_some h
    exact ⟨List.mem_of_find?_eq_some h, of_decide_eq_true hname⟩
  · rintro ⟨hmem, rfl⟩
    cases hfound : l.find? (fun p : TemplateParam => p.name = param.name) with
    | none => exact absurd (decide_eq_true rfl) (List.find?_eq_none.1 hfound param hmem)
    | some found =>
      have hname := List.find?_some hfound
      rw [List.inj_on_of_nodup_map hnodup (List.mem_of_find?_eq_some hfound) hmem
        (of_decide_eq_true hname)]

theorem filledAt_perm {order params : List TemplateParam} (h : order.Perm params)
    (hnodup : (params.map (·.name)).Nodup) (name : Str) :
    filledAt (replacements domainName order) name = filledAt (replacements domainName params) name := by
  have hfind : order.find? (·.name = name) = params.find? (·.name = name) := by
    have hnodup' : (order.map (·.name)).Nodup := (h.map (·.name)).nodup_iff.2 hnodup
    ext param
    rw [find?_eq_some_iff_of_nodup hnodup', find?_eq_some_iff_of_nodup hnodup, h.mem_iff]
  unfold filledAt replacements
  rw [List.find?_cons, List.find?_cons, hfind]

theorem fill_perm {order params : List TemplateParam} (h : order.Perm params)
    (hnodup : (params.map (·.name)).Nodup) (pieces : List Piece) :
    fill (replacements domainName order) pieces = fill (replacements domainName params) pieces := by
  unfold fill
  congr 1
  funext piece
  cases piece with
  | literal text => rfl
  | placeholder name => exact filledAt_perm h hnodup name

/-- In every order of the parameters the placeholders of a text are filled at once. -/
theorem FillsCleanly.substitute_eq (h : FillsCleanly domainName params pieces)
    (hnodup : (params.map (·.name)).Nodup) (horder : order.Perm params) :
    substitute domainName (some order) (fill [] pieces) =
      fill (replacements domainName params) pieces := by
  rw [substitute_eq_foldl, foldl_replaceFrom_fill, List.nil_append, fill_perm horder hnodup]
  intro before param after hsplit
  exact h.hits order horder before param after hsplit

end Orders

section Prefixes

theorem fill_cons (done : List TemplateParam) (piece : Piece) (pieces : List Piece) :
    fill done (piece :: pieces) = piece.fill done ++ fill done pieces := rfl

/-- A character that starts no placeholder stays in its place. -/
theorem fill_begins {separator : Char} (hsep : separator ≠ '_')
    (h : fill [] pieces = separator :: rest) (done : List TemplateParam) :
    ∃ rest', fill done pieces = separator :: rest' := by
  induction pieces with
  | nil => cases h
  | cons piece pieces ih =>
    rw [fill_cons] at h
    rw [fill_cons]
    cases piece with
    | literal text =>
      cases text with
      | nil => exact ih h
      | cons c text =>
        cases h
        exact ⟨_, rfl⟩
    | placeholder name =>
      cases h
      exact absurd rfl hsep

/-- What a text begins with, where its first placeholder is the one of the domain. -/
theorem fill_begins_domain {separator : Char} (hsep : separator ≠ '_')
    (hhits : HitsOwn [] "domain".toList pieces)
    (h : fill [] pieces = placeholderText "domain".toList ++ separator :: rest)
    (domainName : Str) (params : List TemplateParam) :
    domainName ++ [separator] <+: fill (replacements domainName params) pieces := by
  induction pieces with
  | nil => cases h
  | cons piece pieces ih =>
    obtain ⟨hpiece, hrest⟩ := hhits
    have hself {text : Str} (hne : text ≠ []) (hwhole : text ++ fill [] pieces =
        placeholderText "domain".toList ++ separator :: rest) :
        ¬ NoneStarts (placeholderText "domain".toList) text (fill [] pieces) := by
      intro huntouched
      refine huntouched text ((List.mem_tails _ _).2 (List.suffix_refl _)) hne ?_
      rw [hwhole]
      exact List.prefix_append _ _
    rw [fill_cons] at h
    rw [fill_cons]
    cases piece with
    | literal text =>
      cases text with
      | nil => exact ih hrest h
      | cons c text => exact absurd hpiece (hself (List.cons_ne_nil _ _) h)
    | placeholder name =>
      rcases hpiece with ⟨rfl, _⟩ | ⟨huntouched, _⟩
      · obtain ⟨rest', hrest'⟩ := fill_begins hsep (List.append_cancel_left h)
          (replacements domainName params)
        rw [hrest']
        exact ⟨rest', by rw [List.append_assoc]; rfl⟩
      · exact absurd huntouched (hself (placeholderText_ne_nil name) h)

theorem FillsCleanly.begins {separator : Char} (h : FillsCleanly domainName params pieces)
    (hnodup : (params.map (·.name)).Nodup) (hsep : separator ≠ '_')
    (htext : placeholderText "domain".toList ++ [separator] <+: fill [] pieces) :
    domainName ++ [separator] <+: substitute domainName (some params) (fill [] pieces) := by
  obtain ⟨rest, hrest⟩ := htext
  have hfill : fill [] pieces = placeholderText "domain".toList ++ separator :: rest := by
    rw [← hrest, List.append_assoc]
    rfl
  rw [h.substitute_eq hnodup (List.Perm.refl _)]
  exact fill_begins_domain hsep (h.hits params (List.Perm.refl _) [] _ params rfl) hfill domainName params

end Prefixes

section Templates

/-- The texts of a template in which placeholders are replaced. -/
def Template.texts (template : Template) : List Str :=
  (template.roles.getD []).flatMap (fun role =>
    role.name :: (role.roleMembers.getD []).map (·.memberName)) ++
  (template.policies.getD []).flatMap (fun policy =>
    policy.name :: (policy.assertions.getD []).flatMap fun assertion =>
      [assertion.role, assertion.resource]) ++
  (template.services.getD []).map (·.name)

/-- The names of a template begin with the placeholder of the domain. -/
structure Template.Documented (template : Template) : Prop where
  roles : ∀ role ∈ template.roles.getD [], "_domain_:".toList <+: role.name
  policies : ∀ policy ∈ template.policies.getD [], "_domain_:".toList <+: policy.name ∧
    ∀ assertion ∈ policy.assertions.getD [], "_domain_:".toList <+: assertion.role
  services : ∀ service ∈ template.services.getD [], "_domain_.".toList <+: service.name

/-- The objects of a template for a domain. -/
structure Template.StaysInDomain (template : Template) (domainName : Str)
    (params : List TemplateParam) : Prop where
  roles : ∀ role ∈ template.roles.getD [],
    domainName ++ ":".toList <+: (updateTemplateRole role domainName (some params)).name
  policies : ∀ policy ∈ template.policies.getD [],
    domainName ++ ":".toList <+: (updateTemplatePolicy policy domainName (some params)).name ∧
    ∀ assertion ∈ (updateTemplatePolicy policy domainName (some params)).assertions.getD [],
      domainName ++ ":".toList <+: assertion.role
  services : ∀ service ∈ template.services.getD [],
    domainName ++ ".".toList <+: (updateTemplateServiceIdentity service domainName (some params)).name
  clean : ∀ text ∈ template.texts, ∀ param ∈ replacements domainName params,
    ¬ placeholderText param.name <:+: substitute domainName (some params) text
  ordered : ∀ order, order.Perm params →
    (∀ role ∈ template.roles.getD [], updateTemplateRole role domainName (some order) =
      updateTemplateRole role domainName (some params)) ∧
    (∀ policy ∈ template.policies.getD [], updateTemplatePolicy policy domainName (some order) =
      updateTemplatePolicy policy domainName (some params)) ∧
    ∀ service ∈ template.services.getD [], updateTemplateServiceIdentity service domainName (some order) =
      updateTemplateServiceIdentity service domainName (some params)

/-- Every text of the template has pieces that are filled cleanly. -/
def Template.FillsCleanly (template : Template) (domainName : Str) (params : List TemplateParam) : Prop :=
  ∀ text ∈ template.texts, ∃ pieces, fill [] pieces = text ∧
    ZmsServer.FillsCleanly domainName params pieces

section Instances

variable {template : Template}

theorem mem_texts_role (hrole : role ∈ template.roles.getD [])
    (htext : text = role.name ∨ ∃ member ∈ role.roleMembers.getD [], text = member.memberName) :
    text ∈ template.texts := by
  refine List.mem_append_left _ (List.mem_append_left _ (List.mem_flatMap.2 ⟨role, hrole, ?_⟩))
  rcases htext with rfl | ⟨member, hmember, rfl⟩
  · exact List.mem_cons_self
  · exact List.mem_cons_of_mem _ (List.mem_map_of_mem hmember)

theorem mem_texts_policy (hpolicy : policy ∈ template.policies.getD [])
    (htext : text = policy.name ∨ ∃ assertion ∈ policy.assertions.getD [],
      text = assertion.role ∨ text = assertion.resource) : text ∈ template.texts := by
  refine List.mem_append_left _ (List.mem_append_right _ (List.mem_flatMap.2 ⟨policy, hpolicy, ?_⟩))
  rcases htext with rfl | ⟨assertion, hassertion, hcases⟩
  · exact List.mem_cons_self
  · refine List.mem_cons_of_mem _ (List.mem_flatMap.2 ⟨assertion, hassertion, ?_⟩)
    rcases hcases with rfl | rfl
    · exact List.mem_cons_self
    · exact List.mem_cons_of_mem _ List.mem_cons_self

theorem mem_texts_service (hservice : service ∈ template.services.getD []) :
    service.name ∈ template.texts :=
  List.mem_append_right _ (List.mem_map_of_mem hservice)

variable (hcleanly : template.FillsCleanly domainName params) (hnodup : (params.map (·.name)).Nodup)
include hcleanly hnodup

theorem Template.FillsCleanly.substitute_perm (htext : text ∈ template.texts) (horder : order.Perm params) :
    substitute domainName (some order) text = substitute domainName (some params) text := by
  obtain ⟨pieces, rfl, hpieces⟩ := hcleanly text htext
  rw [hpieces.substitute_eq hnodup horder, hpieces.substitute_eq hnodup (List.Perm.refl _)]

theorem Template.FillsCleanly.begins {separator : Char} (htext : text ∈ template.texts)
    (hsep : separator ≠ '_') (hstarts : "_domain_".toList ++ [separator] <+: text) :
    domainName ++ [separator] <+: substitute domainName (some params) text := by
  obtain ⟨pieces, rfl, hpieces⟩ := hcleanly text htext
  exact hpieces.begins hnodup hsep hstarts

theorem Template.FillsCleanly.roles_perm (hrole : role ∈ template.roles.getD [])
    (horder : order.Perm params) :
    updateTemplateRole role domainName (some order) = updateTemplateRole role domainName (some params) := by
  unfold updateTemplateRole
  rw [hcleanly.substitute_perm hnodup (mem_texts_role hrole (.inl rfl)) horder]
  congr 2
  refine List.map_congr_left fun member hmember => ?_
  rw [hcleanly.substitute_perm hnodup (mem_texts_role hrole (.inr ⟨member, hmember, rfl⟩)) horder]

theorem Template.FillsCleanly.policies_perm (hpolicy : policy ∈ template.policies.getD [])
    (horder : order.Perm params) :
    updateTemplatePolicy policy domainName (some order) =
      updateTemplatePolicy policy domainName (some params) := by
  unfold updateTemplatePolicy
  rw [hcleanly.substitute_perm hnodup (mem_texts_policy hpolicy (.inl rfl)) horder]
  congr 2
  refine List.map_congr_left fun assertion hassertion => ?_
  rw [hcleanly.substitute_perm hnodup
      (mem_texts_policy hpolicy (.inr ⟨assertion, hassertion, .inl rfl⟩)) horder,
    hcleanly.substitute_perm hnodup
      (mem_texts_policy hpolicy (.inr ⟨assertion, hassertion, .inr rfl⟩)) horder]

/-- A template whose texts are filled cleanly stays in its domain. -/
theorem template_stays_in_domain (hdocumented : template.Documented) :
    template.StaysInDomain domainName params := by
  refine ⟨fun role hrole => ?_, fun policy hpolicy => ⟨?_, ?_⟩, fun service hservice => ?_, ?_, ?_⟩
  · exact hcleanly.begins hnodup (mem_texts_role hrole (.inl rfl)) (by decide)
      (hdocumented.roles role hrole)
  · exact hcleanly.begins hnodup (mem_texts_policy hpolicy (.inl rfl)) (by decide)
      (hdocumented.policies policy hpolicy).1
  · intro assertion hassertion
    obtain ⟨source, hsource, rfl⟩ := List.mem_map.1 hassertion
    exact hcleanly.begins hnodup (mem_texts_policy hpolicy (.inr ⟨source, hsource, .inl rfl⟩))
      (by decide) ((hdocumented.policies policy hpolicy).2 source hsource)
  · exact hcleanly.begins hnodup (mem_texts_service hservice) (by decide)
      (hdocumented.services service hservice)
  · intro text htext param hparam
    obtain ⟨pieces, rfl, hpieces⟩ := hcleanly text htext
    rw [hpieces.substitute_eq hnodup (List.Perm.refl _)]
    exact hpieces.clean param hparam
  · intro order horder
    refine ⟨fun role hrole => hcleanly.roles_perm hnodup hrole horder,
      fun policy hpolicy => hcleanly.policies_perm hnodup hpolicy horder, fun service hservice => ?_⟩
    unfold updateTemplateServiceIdentity
    rw [hcleanly.substitute_perm hnodup (mem_texts_service hservice) horder]

end Instances

section Example

instance decidableHitsOwn (done : List TemplateParam) (name : Str) :
    (pieces : List Piece) → Decidable (HitsOwn done name pieces)
  | [] => isTrue trivial
  | .literal text :: pieces =>
    have : Decidable (HitsOwn done name pieces) := decidableHitsOwn done name pieces
    inferInstanceAs (Decidable (NoneStarts (placeholderText name) text (fill done pieces) ∧
      HitsOwn done name pieces))
  | .placeholder other :: pieces =>
    have : Decidable (HitsOwn done name pieces) := decidableHitsOwn done name pieces
    inferInstanceAs (Decidable ((other = name ∧ (∀ param ∈ done, param.name ≠ name) ∨
      NoneStarts (placeholderText name) (filledAt done other) (fill done pieces) ∧
        (other = name → ∃ param ∈ done, param.name = name)) ∧ HitsOwn done name pieces))

/-- A role for the administrators of an environment. -/
def adminTemplate : Template where
  roles := some [{ name := "_domain_:role.admin._env_".toList }]

def envIs (value : String) : TemplateParam := ⟨"env".toList, value.toList⟩

def trackIs (value : String) : TemplateParam := ⟨"track".toList, value.toList⟩

def adminPieces : List Piece :=
  [.placeholder "domain".toList, .literal ":role.admin.".toList, .placeholder "env".toList]

theorem adminPieces_fill : FillsCleanly "web".toList [envIs "prod"] adminPieces := by
  refine ⟨fun order horder done param rest hsplit => ?_, by decide⟩
  rw [List.perm_singleton.1 horder, replacements] at hsplit
  rcases done with _ | ⟨first, _ | ⟨second, done⟩⟩
  · cases hsplit
    decide
  · cases hsplit
    decide
  · simp only [List.cons_append, List.cons.injEq] at hsplit
    exact absurd hsplit.2.2.symm (by simp)

theorem web_admins_stay : adminTemplate.StaysInDomain "web".toList [envIs "prod"] := by
  refine template_stays_in_domain ?_ (by decide) ⟨?_, nofun, nofun⟩
  · intro text htext
    rw [List.mem_singleton.1 htext]
    exact ⟨adminPieces, rfl, adminPieces_fill⟩
  · intro role hrole
    rw [List.mem_singleton.1 hrole]
    exact List.prefix_append _ _

/-- The name of a domain that holds a placeholder is changed, and a value that is a placeholder makes
the order matter. -/
theorem placeholders_inside_values :
    ¬ adminTemplate.StaysInDomain "web_env_1".toList [envIs "prod"] ∧
      ¬ adminTemplate.StaysInDomain "web".toList [envIs "_track_", trackIs "blue"] := by
  constructor
  · intro h
    exact absurd (h.roles _ List.mem_cons_self) (by decide)
  · intro h
    have hsame := (h.ordered [trackIs "blue", envIs "_track_"] (List.Perm.swap _ _ _)).1 _
      List.mem_cons_self
    exact absurd (congrArg Role.name hsame) (by decide)

end Example

end Templates

end Athenz.ZmsServer
