import Athenz.JavaRoleToken
import Athenz.JavaPrincipalToken

namespace Athenz.Java
open Lib.Text Lib.Decimal Lib.Result Lib.Fields
set_option autoImplicit true

section Fields

/-- An empty value is as good as none. -/
def present (value : Option Str) : Option Str := value.filter fun value => value ≠ []

def optionalField (name : Str) (value : Option Str) : List (Str × Str) :=
  (present value).toList.map fun value => (name, value)

theorem appendOptional_eq (name : Str) (value : Option Str) :
    appendOptional name value =
      (optionalField name value).flatMap fun field => ';' :: written '=' field := by
  cases value with
  | none => rfl
  | some value =>
    cases value with
    | nil => rfl
    | cons c cs =>
      have hpresent : present (some (c :: cs)) = some (c :: cs) := rfl
      simp [appendOptional, optionalField, hpresent, written]

/-- A name that a field in front of the signature may have. -/
structure FieldName (name : Str) : Prop where
  nonempty : name ≠ []
  plain : Plain ';' '=' name
  unsigned : name ≠ "s".toList ∧ name ≠ "bs".toList

instance (name : Str) : Decidable (FieldName name) :=
  decidable_of_iff (name ≠ [] ∧ Plain ';' '=' name ∧ name ≠ "s".toList ∧ name ≠ "bs".toList)
    ⟨fun h => ⟨h.1, h.2.1, h.2.2⟩, fun h => ⟨h.nonempty, h.plain, h.unsigned⟩⟩

/-- A field with a value that the text keeps. -/
structure Kept (field : Str × Str) : Prop where
  name : FieldName field.1
  plain : Plain ';' '=' field.2
  nonempty : field.2 ≠ []

theorem Kept.of {name value : Str} (hname : FieldName name) (hvalue : Plain ';' '=' value)
    (hne : value ≠ []) : Kept (name, value) :=
  ⟨hname, hvalue, hne⟩

theorem Kept.clean (h : Kept field) : Clean ';' '=' field :=
  ⟨h.name.nonempty, h.name.plain, h.plain⟩

theorem kept_optionalField {name : Str} {value : Option Str} (hname : FieldName name)
    (hvalue : ∀ v ∈ value, Plain ';' '=' v) : ∀ field ∈ optionalField name value, Kept field := by
  intro field hfield
  obtain ⟨v, hv, rfl⟩ := List.mem_map.1 hfield
  obtain ⟨hmem, hne⟩ := Option.mem_filter_iff.1 (Option.mem_toList.1 hv)
  exact ⟨hname, hvalue v hmem, of_decide_eq_true hne⟩

theorem kept_showLong {name : Str} (hname : FieldName name) (n : Int) :
    Kept (name, showLong n) := by
  have hplain {c : Char} (hc : c.isDigit = false) (hminus : c ≠ '-') : c ∉ showLong n := by
    intro hmem
    rw [showLong, Int.toString_eq_repr] at hmem
    rcases isDigit_or_sign hmem with hdigit | hsign
    · rw [hc] at hdigit
      cases hdigit
    · exact hminus hsign
  refine ⟨hname, ⟨hplain (by decide) (by decide), hplain (by decide) (by decide)⟩, ?_⟩
  rw [showLong, Int.toString_eq_repr, Int.repr_eq_if]
  split
  · rw [Nat.toList_repr]
    exact Nat.toDigits_ne_nil
  · rw [String.toList_append]
    exact List.append_ne_nil_of_left_ne_nil (List.cons_ne_nil _ _) _

/-- Names that a list of the token keeps. -/
structure ListedNames (names : List Str) : Prop where
  plain : ∀ name ∈ names, Plain ';' '=' name ∧ ',' ∉ name
  last : names.getLast? ≠ some []

theorem ListedNames.found (h : ListedNames names) (hne : names ≠ []) :
    splitTrim ',' ([','].intercalate names) = names := by
  refine splitTrim_joined hne (fun hlast => h.last ?_) fun n hn => (h.plain n hn).2
  rw [List.getLast?_eq_some_getLast hne, hlast]

theorem ListedNames.kept (h : ListedNames names) (hne : names ≠ []) {name : Str}
    (hname : FieldName name) : Kept (name, [','].intercalate names) := by
  refine .of hname ⟨?_, ?_⟩ fun hempty => ?_
  · exact notMem_intercalate (by decide) fun n hn => (h.plain n hn).1.sep
  · exact notMem_intercalate (by decide) fun n hn => (h.plain n hn).1.eq
  · have hsplit := h.found hne
    rw [hempty, splitTrim_of_notMem List.not_mem_nil] at hsplit
    exact h.last (by rw [← hsplit]; rfl)

theorem decode_kept {fields : List (Str × Str)} (hne : fields ≠ [])
    (h : ∀ field ∈ fields, Kept field) : decode ';' '=' (encode ';' '=' fields) = fields := by
  rw [decode_written (by decide) hne fun field hfield => (h field hfield).clean,
    List.filter_eq_self]
  exact fun field hfield => decide_eq_true (h field hfield).nonempty

theorem indexOf_signature {fields : List (Str × Str)} (h : ∀ field ∈ fields, Kept field)
    (rest : Str) : indexOf (";s=" : Str) (encode ';' '=' fields ++ (";s=" ++ rest)) =
      some (encode ';' '=' fields).length := by
  refine indexOf_append_self (by decide) ?_ rest
  exact notInfix_encode (by decide) "s".toList (fun field hfield =>
    ⟨(h field hfield).clean, (h field hfield).name.unsigned.1⟩) (by decide)

theorem foldlM_optionalField (name : Str) (step : σ → Str × Str → Except Str σ)
    (put : Option Str → σ → σ) (hsome : ∀ s v, step s (name, v) = .ok (put (some v) s)) (hnone : ∀ s, put none s = s)
    (value : Option Str) (s : σ) :
    (optionalField name value).foldlM step s = .ok (put (present value) s) := by
  unfold optionalField
  cases present value with
  | none =>
    rw [hnone]
    rfl
  | some v =>
    rw [Option.toList_some, List.map_singleton, List.foldlM_cons, hsome]
    rfl

theorem split_signature {fields : List (Str × Str)} (h : ∀ field ∈ fields, Kept field)
    (rest : Str) :
    let text := encode ';' '=' fields ++ ";s=" ++ rest
    (indexOf (";s=" : Str) text).map text.take = some (encode ';' '=' fields) ∧
      ((indexOf (";s=" : Str) text).map fun i => text.drop (i + 3)) = some rest := by
  dsimp only
  rw [List.append_assoc, indexOf_signature h, Option.map_some, Option.map_some, List.take_left,
    ← List.drop_drop, List.drop_left]
  exact ⟨rfl, rfl⟩

/-- The text of the base 64 variant that signatures are written in. -/
def IsY64 (signature : Str) : Prop :=
  ∀ c ∈ signature, c.isAlphanum ∨ c = '.' ∨ c = '_' ∨ c = '-'

theorem IsY64.plain (h : IsY64 signature) : Plain ';' '=' signature :=
  ⟨fun hmem => absurd (h ';' hmem) (by decide), fun hmem => absurd (h '=' hmem) (by decide)⟩

end Fields

namespace RoleToken

/-- A builder none of whose values breaks the text apart. -/
structure Builder.Separable (builder : Builder) : Prop where
  version : Plain ';' '=' builder.version
  domain : Plain ';' '=' builder.domain
  roles : ListedNames builder.roles
  salt : Plain ';' '=' builder.salt ∧ builder.salt ≠ []
  keyId : Plain ';' '=' builder.keyId ∧ builder.keyId ≠ []
  principal : ∀ v ∈ builder.principal, Plain ';' '=' v
  proxyUser : ∀ v ∈ builder.proxyUser, Plain ';' '=' v
  host : ∀ v ∈ builder.host, Plain ';' '=' v
  ip : ∀ v ∈ builder.ip, Plain ';' '=' v

def Builder.fields (builder : Builder) (times : Long × Long) : List (Str × Str) :=
  [("v".toList, builder.version), ("d".toList, builder.domain),
      ("r".toList, [','].intercalate builder.roles)] ++
    (if builder.domainCompleteRoleSet then [("c".toList, "1".toList)] else []) ++
    optionalField "p" builder.principal ++ optionalField "h" builder.host ++
    optionalField "proxy" builder.proxyUser ++
    [("a".toList, builder.salt), ("t".toList, showLong times.1.1),
      ("e".toList, showLong times.2.1), ("k".toList, builder.keyId)] ++
    optionalField "i" builder.ip

theorem Builder.unsignedToken_eq (builder : Builder) (times : Long × Long) :
    builder.unsignedToken times = encode ';' '=' (builder.fields times) := by
  unfold unsignedToken fields
  simp only [appendOptional_eq, List.cons_append, List.nil_append, List.append_assoc, encode_cons,
    List.flatMap_cons, List.flatMap_append, written]
  cases builder.domainCompleteRoleSet <;> simp

theorem Builder.fields_kept {builder : Builder} (h : builder.Separable) (times : Long × Long) :
    ∀ field ∈ builder.fields times, Kept field := by
  obtain ⟨hversion, hdomain, hroles⟩ := builder.required
  have hfixed : ∀ field ∈ [("v".toList, builder.version), ("d".toList, builder.domain),
      ("r".toList, [','].intercalate builder.roles)], Kept field := by
    simp only [List.forall_mem_cons]
    exact ⟨.of (by decide) h.version hversion, .of (by decide) h.domain hdomain,
      h.roles.kept hroles (by decide), nofun⟩
  have hcomplete : ∀ field ∈ if builder.domainCompleteRoleSet then [("c".toList, "1".toList)]
      else [], Kept field := by
    split
    · exact List.forall_mem_singleton.2 ⟨by decide, by decide, by decide⟩
    · nofun
  have htimes : ∀ field ∈ [("a".toList, builder.salt), ("t".toList, showLong times.1.1),
      ("e".toList, showLong times.2.1), ("k".toList, builder.keyId)], Kept field := by
    simp only [List.forall_mem_cons]
    exact ⟨.of (by decide) h.salt.1 h.salt.2, kept_showLong (by decide) _,
      kept_showLong (by decide) _, .of (by decide) h.keyId.1 h.keyId.2, nofun⟩
  simp only [fields, List.forall_mem_append]
  exact ⟨⟨⟨⟨⟨⟨hfixed, hcomplete⟩, kept_optionalField (by decide) h.principal⟩,
    kept_optionalField (by decide) h.host⟩, kept_optionalField (by decide) h.proxyUser⟩, htimes⟩,
    kept_optionalField (by decide) h.ip⟩

theorem Builder.fields_ne_nil (builder : Builder) (times : Long × Long) :
    builder.fields times ≠ [] := by
  unfold fields
  simp

/-- The text that is sent. -/
def Builder.signedText (builder : Builder) (now : Long) (signText : Str → Str) : Str :=
  let unsignedToken := builder.unsignedToken
    (setTimeStamp builder.issueTime builder.expirationWindow now)
  unsignedToken ++ ";s=" ++ signText unsignedToken

/-- The signed token as it is read: a value that was empty is gone. -/
def Builder.readBack (builder : Builder) (now : Long) (signText : Str → Str) : RoleToken :=
  { builder.build now with
    toToken := { (builder.build now).sign signText with
      host := present builder.host
      ip := present builder.ip }
    principal := present builder.principal
    proxyUser := present builder.proxyUser }

/-- What the scan of the built text leaves. -/
def Builder.scan (builder : Builder) (times : Long × Long) (unsignedToken signature : Option Str) :
    RoleScan where
  unsignedToken := unsignedToken
  signature := signature
  version := builder.version
  domain := builder.domain
  roleNames := [','].intercalate builder.roles
  domainCompleteRoleSet := builder.domainCompleteRoleSet
  principal := present builder.principal
  host := present builder.host
  proxyUser := present builder.proxyUser
  salt := builder.salt
  timestamp := times.1.1
  expiryTime := times.2.1
  keyId := builder.keyId
  ip := present builder.ip

section Parsing

variable [DigitRules]

def assignField (scan : RoleScan) (field : Str × Str) : Except Str RoleScan :=
  match RoleKey.ofStr field.1 with
  | some key => scan.assign key field.2
  | none => .ok scan

theorem parseItems_eq (scan : RoleScan) (text : Str) :
    scan.parseItems text = (decode ';' '=' text).foldlM assignField scan := by
  unfold decode RoleScan.parseItems
  rw [List.foldlM_filterMap]
  congr
  funext scan item
  unfold RoleScan.parseItem readField
  split <;> rename_i h <;> simp only [h] <;> rfl

theorem Builder.scanned (hlawful : DigitRules.Lawful) (builder : Builder) (times : Long × Long)
    (u s : Option Str) :
    (builder.fields times).foldlM assignField { unsignedToken := u, signature := s } =
      .ok (builder.scan times u s) := by
  have htimes (s : RoleScan) : [("a".toList, builder.salt), ("t".toList, showLong times.1.1),
      ("e".toList, showLong times.2.1), ("k".toList, builder.keyId)].foldlM assignField s =
      .ok { s with
        salt := builder.salt, timestamp := times.1.1, expiryTime := times.2.1,
        keyId := builder.keyId } := by
    have ht (s : RoleScan) : assignField s ("t".toList, showLong times.1.1) =
        .ok { s with timestamp := times.1.1 } :=
      congrArg (·.map fun n => { s with timestamp := n }) (parseLong_showLong hlawful times.1)
    have he (s : RoleScan) : assignField s ("e".toList, showLong times.2.1) =
        .ok { s with expiryTime := times.2.1 } :=
      congrArg (·.map fun n => { s with expiryTime := n }) (parseLong_showLong hlawful times.2)
    simp only [List.foldlM_cons, ht, he]
    rfl
  have hprincipal (s : RoleScan) := foldlM_optionalField "p" assignField
    (fun v s => { s with principal := v.or s.principal }) (fun _ _ => rfl) (fun _ => rfl)
    builder.principal s
  have hhost (s : RoleScan) := foldlM_optionalField "h" assignField
    (fun v s => { s with host := v.or s.host }) (fun _ _ => rfl) (fun _ => rfl)
    builder.host s
  have hproxy (s : RoleScan) := foldlM_optionalField "proxy" assignField
    (fun v s => { s with proxyUser := v.or s.proxyUser }) (fun _ _ => rfl) (fun _ => rfl)
    builder.proxyUser s
  have hip (s : RoleScan) := foldlM_optionalField "i" assignField
    (fun v s => { s with ip := v.or s.ip }) (fun _ _ => rfl) (fun _ => rfl)
    builder.ip s
  have hfixed (s : RoleScan) : [("v".toList, builder.version), ("d".toList, builder.domain),
      ("r".toList, [','].intercalate builder.roles)].foldlM assignField s =
      .ok { s with
        version := builder.version, domain := builder.domain,
        roleNames := [','].intercalate builder.roles } := rfl
  have hcomplete (s : RoleScan) :
      (if builder.domainCompleteRoleSet then [("c".toList, "1".toList)] else []).foldlM
        assignField s =
      .ok { s with
        domainCompleteRoleSet := builder.domainCompleteRoleSet || s.domainCompleteRoleSet } := by
    cases builder.domainCompleteRoleSet with
    | false => rfl
    | true =>
      have hone : parseInt "1" = .ok 1 := by
        have hbounds : -2 ^ 31 ≤ (1 : Int) ∧ (1 : Int) < 2 ^ 31 := by decide
        have hparse := parseInteger_repr hlawful hbounds
        rw [parseInt, show "1".toList = (1 : Int).repr.toList from rfl, hparse]
      have hassign := congrArg (·.map fun n =>
        if n = 1 then { s with domainCompleteRoleSet := true } else s) hone
      exact congrArg (· >>= pure) hassign
  simp only [fields, List.foldlM_append, hfixed, hcomplete, hprincipal, hhost, hproxy, htimes, hip]
  dsimp only [bind, Except.bind]
  simp only [Option.or_none, Bool.or_false, scan]

theorem Builder.parsed (hlawful : DigitRules.Lawful) {builder : Builder} (h : builder.Separable)
    (signText : Str → Str) (now : Long) :
    ofSignedToken (builder.signedText now signText) = .ok (builder.readBack now signText) := by
  unfold signedText
  obtain ⟨hversion, hdomain, hroles⟩ := builder.required
  generalize htimes : setTimeStamp builder.issueTime builder.expirationWindow now = times
  have hkept := builder.fields_kept h times
  have hr : FieldName "r" := by decide
  have hjoined := (h.roles.kept hroles hr).nonempty
  have hsplit := split_signature hkept (signText (builder.unsignedToken times))
  rw [← builder.unsignedToken_eq] at hsplit
  refine ofSignedToken_ok.2 ⟨by simp, builder.scan times (some (builder.unsignedToken times))
    (some (signText (builder.unsignedToken times))), ?_, hdomain, hjoined, ?_⟩
  · rw [hsplit.1, hsplit.2, Option.getD_some, parseItems_eq, builder.unsignedToken_eq,
      decode_kept (builder.fields_ne_nil times) hkept, builder.scanned hlawful]
  · rw [scan, Option.getD_some, h.roles.found hroles, ← htimes]
    rfl

end Parsing

end RoleToken

namespace PrincipalToken

/-- A builder none of whose values breaks the text apart. -/
structure Builder.Separable (builder : Builder) : Prop where
  version : Plain ';' '=' builder.version
  domain : Plain ';' '=' builder.domain
  name : Plain ';' '=' builder.name
  salt : Plain ';' '=' builder.salt ∧ builder.salt ≠ []
  keyId : Plain ';' '=' builder.keyId ∧ builder.keyId ≠ []
  host : ∀ v ∈ builder.host, Plain ';' '=' v
  ip : ∀ v ∈ builder.ip, Plain ';' '=' v
  keyService : ∀ v ∈ builder.keyService, Plain ';' '=' v
  originalRequestor : ∀ v ∈ builder.originalRequestor, Plain ';' '=' v
  authorizedServices : ∀ services ∈ builder.authorizedServices, ListedNames services

/-- The services the text lists. -/
def Builder.listedServices (builder : Builder) : Option (List Str) :=
  builder.authorizedServices.filter fun services => services ≠ []

def Builder.fields (builder : Builder) (times : Long × Long) : List (Str × Str) :=
  [("v".toList, builder.version), ("d".toList, builder.domain), ("n".toList, builder.name)] ++
    optionalField "h" builder.host ++
    [("a".toList, builder.salt), ("t".toList, showLong times.1.1),
      ("e".toList, showLong times.2.1), ("k".toList, builder.keyId)] ++
    optionalField "z" builder.keyService ++ optionalField "o" builder.originalRequestor ++
    optionalField "i" builder.ip ++
    builder.listedServices.toList.map fun services => ("b".toList, [','].intercalate services)

theorem Builder.unsignedToken_eq (builder : Builder) (times : Long × Long) :
    builder.unsignedToken times = encode ';' '=' (builder.fields times) := by
  unfold unsignedToken fields listedServices
  cases builder.authorizedServices with
  | none => simp [appendOptional_eq, encode_cons, written]
  | some services =>
    cases services with
    | nil => simp [appendOptional_eq, encode_cons, written, Option.filter_some]
    | cons name names => simp [appendOptional_eq, encode_cons, written, Option.filter_some]

theorem Builder.fields_kept {builder : Builder} (h : builder.Separable) (times : Long × Long) :
    ∀ field ∈ builder.fields times, Kept field := by
  obtain ⟨hversion, hdomain, hname⟩ := builder.required
  have hfixed : ∀ field ∈ [("v".toList, builder.version), ("d".toList, builder.domain),
      ("n".toList, builder.name)], Kept field := by
    simp only [List.forall_mem_cons]
    exact ⟨.of (by decide) h.version hversion, .of (by decide) h.domain hdomain,
      .of (by decide) h.name hname, nofun⟩
  have htimes : ∀ field ∈ [("a".toList, builder.salt), ("t".toList, showLong times.1.1),
      ("e".toList, showLong times.2.1), ("k".toList, builder.keyId)], Kept field := by
    simp only [List.forall_mem_cons]
    exact ⟨.of (by decide) h.salt.1 h.salt.2, kept_showLong (by decide) _,
      kept_showLong (by decide) _, .of (by decide) h.keyId.1 h.keyId.2, nofun⟩
  have hservices : ∀ field ∈ builder.listedServices.toList.map fun services =>
      ("b".toList, [','].intercalate services), Kept field := by
    intro field hfield
    obtain ⟨services, hmem, rfl⟩ := List.mem_map.1 hfield
    obtain ⟨hmem, hne⟩ := Option.mem_filter_iff.1 (Option.mem_toList.1 hmem)
    exact (h.authorizedServices services hmem).kept (of_decide_eq_true hne) (by decide)
  simp only [fields, List.forall_mem_append]
  exact ⟨⟨⟨⟨⟨⟨hfixed, kept_optionalField (by decide) h.host⟩, htimes⟩,
    kept_optionalField (by decide) h.keyService⟩,
    kept_optionalField (by decide) h.originalRequestor⟩, kept_optionalField (by decide) h.ip⟩,
    hservices⟩

theorem Builder.fields_ne_nil (builder : Builder) (times : Long × Long) :
    builder.fields times ≠ [] := by
  unfold fields
  simp

/-- The text that is sent. -/
def Builder.signedText (builder : Builder) (now : Long) (signText : Str → Str) : Str :=
  let unsignedToken := builder.unsignedToken
    (setTimeStamp builder.issueTime builder.expirationWindow now)
  unsignedToken ++ ";s=" ++ signText unsignedToken

/-- The signed token as it is read: a value that was empty is gone. -/
def Builder.readBack (builder : Builder) (now : Long) (signText : Str → Str) : PrincipalToken :=
  { builder.build now with
    toToken := { (builder.build now).sign signText with
      host := present builder.host
      ip := present builder.ip }
    keyService := present builder.keyService
    originalRequestor := present builder.originalRequestor
    authorizedServices := builder.listedServices }

/-- What the scan of the built text leaves. -/
def Builder.scan (builder : Builder) (times : Long × Long) (unsignedToken signature : Option Str) :
    PrincipalToken where
  unsignedToken := unsignedToken
  signature := signature
  version := builder.version
  domain := builder.domain
  name := builder.name
  host := present builder.host
  salt := builder.salt
  timestamp := times.1.1
  expiryTime := times.2.1
  keyId := builder.keyId
  keyService := present builder.keyService
  originalRequestor := present builder.originalRequestor
  ip := present builder.ip
  authorizedServices := builder.listedServices

theorem parts_signed {fields : List (Str × Str)} (h : ∀ field ∈ fields, Kept field)
    (hsig : IsY64 signature) :
    parts (encode ';' '=' fields ++ ";s=" ++ signature) =
      some ⟨encode ';' '=' fields, signature, none⟩ := by
  have hnone : indexOf (";" : Str) signature = none :=
    indexOf_eq_none_iff.2 fun hwithin => hsig.plain.sep ((List.singleton_infix_iff _ _).1 hwithin)
  have hdrop : (encode ';' '=' fields ++ (";s=" ++ signature)).drop
      ((encode ';' '=' fields).length + 3) = signature := by
    rw [← List.drop_drop, List.drop_left]
    rfl
  rw [parts, List.append_assoc, indexOf_signature h, Option.map_some, hdrop]
  dsimp only
  rw [hnone, List.take_left]

/-- A part behind the signature is told apart by its beginning. -/
theorem parts_authorized {fields : List (Str × Str)} (h : ∀ field ∈ fields, Kept field)
    (hsig : IsY64 signature) {rest : Str} (hrest : (";bs=" : Str) <:+: ';' :: rest) :
    parts (encode ';' '=' fields ++ ";s=" ++ (signature ++ ';' :: rest)) =
      some ⟨encode ';' '=' fields, signature, some (';' :: rest)⟩ := by
  have hindex : indexOf (";" : Str) (signature ++ ';' :: rest) = some signature.length :=
    indexOf_append_self List.not_mem_nil
      (fun hwithin => hsig.plain.sep ((List.singleton_infix_iff _ _).1 hwithin)) rest
  obtain ⟨bs, hbs⟩ := Option.ne_none_iff_exists'.1 fun hnone => indexOf_eq_none_iff.1 hnone
    (hrest.trans (List.suffix_append signature _).isInfix)
  have hdrop : (encode ';' '=' fields ++ (";s=" ++ (signature ++ ';' :: rest))).drop
      ((encode ';' '=' fields).length + 3) = signature ++ ';' :: rest := by
    rw [← List.drop_drop, List.drop_left]
    rfl
  rw [parts, List.append_assoc, indexOf_signature h, Option.map_some, hdrop]
  dsimp only
  rw [hindex, hbs, List.take_left]
  dsimp only
  rw [List.take_left, List.drop_left]

/-- What an authorized service appends in front of its own signature. -/
def authorizedFields (keyId : Str) (service : Option Str) : List (Str × Str) :=
  ("bk".toList, keyId) :: service.toList.map fun name => ("bn".toList, name)

def authorizedText (keyId : Str) (service : Option Str) : Str :=
  (authorizedFields keyId service).flatMap fun field => ';' :: written '=' field

theorem authorizedFields_kept (hkey : Plain ';' '=' keyId ∧ keyId ≠ [])
    (hservice : ∀ n ∈ service, Plain ';' '=' n ∧ n ≠ []) :
    ∀ field ∈ authorizedFields keyId service, Kept field := by
  rw [authorizedFields, List.forall_mem_cons]
  refine ⟨.of (by decide) hkey.1 hkey.2, fun field hfield => ?_⟩
  obtain ⟨n, hn, rfl⟩ := List.mem_map.1 hfield
  obtain ⟨hplain, hne⟩ := hservice n (Option.mem_toList.1 hn)
  exact .of (by decide) hplain hne

theorem authorizedText_eq (keyId : Str) (service : Option Str) :
    authorizedText keyId service = ';' :: encode ';' '=' (authorizedFields keyId service) :=
  (cons_encode (List.cons_ne_nil _ _)).symm

/-- The text in front of the second signature does not look like one. -/
theorem notInfix_authorized {fields : List (Str × Str)} (hfields : ∀ field ∈ fields, Kept field)
    (hsome : fields ≠ []) (hsig : IsY64 signature)
    (hauthorized : ∀ field ∈ authorizedFields keyId service, Kept field) :
    ¬ (";bs=" : Str) <:+:
      encode ';' '=' fields ++ ";s=" ++ signature ++ authorizedText keyId service := by
  have hencode : encode ';' '=' fields ++ ";s=" ++ signature ++ authorizedText keyId service =
      encode ';' '=' (fields ++ ("s".toList, signature) :: authorizedFields keyId service) := by
    rw [encode_append hsome, List.flatMap_cons, List.append_assoc, List.append_assoc]
    rfl
  have hs : Plain ';' '=' "s".toList := by decide
  have hbs : "s".toList ≠ "bs".toList := by decide
  rw [hencode]
  refine notInfix_encode (by decide) "bs".toList (fun field hfield => ?_) (by decide)
  rcases List.mem_append.1 hfield with hfield | hfield
  · exact ⟨(hfields field hfield).clean, (hfields field hfield).name.unsigned.2⟩
  · rcases List.mem_cons.1 hfield with rfl | hfield
    · exact ⟨⟨List.cons_ne_nil _ _, hs, hsig.plain⟩, hbs⟩
    · exact ⟨(hauthorized field hfield).clean, (hauthorized field hfield).name.unsigned.2⟩

theorem parseAuthorizedService_eq (token : PrincipalToken) (signature : Str)
    (hkey : Plain ';' '=' keyId ∧ keyId ≠ [])
    (hservice : ∀ n ∈ service, Plain ';' '=' n ∧ n ≠ []) :
    token.parseAuthorizedService (authorizedText keyId service ++ (";bs=" ++ signature)) =
      { token with
        authorizedServiceKeyId := keyId
        authorizedServiceName := service.or token.authorizedServiceName
        authorizedServiceSignature := some signature } := by
  have hkept := authorizedFields_kept hkey hservice
  have hindex : indexOf (";bs=" : Str) (authorizedText keyId service ++ (";bs=" ++ signature)) =
      some (authorizedText keyId service).length := by
    have hencode : encode ';' '=' (("x".toList, []) :: authorizedFields keyId service) =
        "x=".toList ++ authorizedText keyId service := encode_cons _ _
    have hx : Clean ';' '=' ("x".toList, []) ∧ "x".toList ≠ "bs".toList := by
      exact ⟨⟨by decide, by decide, by decide⟩, by decide⟩
    have hnot : ¬ (";bs=" : Str) <:+: "x=".toList ++ authorizedText keyId service := by
      rw [← hencode]
      refine notInfix_encode (by decide) "bs".toList (fun field hfield => ?_) (by decide)
      rcases List.mem_cons.1 hfield with rfl | hfield
      · exact hx
      · exact ⟨(hkept field hfield).clean, (hkept field hfield).name.unsigned.2⟩
    exact indexOf_append_self (by decide)
      (fun hwithin => hnot (hwithin.trans (List.suffix_append _ _).isInfix)) signature
  have hsplit : splitTrim ';' (authorizedText keyId service) =
      [] :: (authorizedFields keyId service).map (written '=') := by
    rw [authorizedText_eq]
    exact splitTrim_cons_encode (by decide) (List.cons_ne_nil _ _) fun field hfield =>
      (hkept field hfield).clean
  have hitem (t : PrincipalToken) (field : Str × Str) (h : Kept field) :
      parseAuthorizedItem t (written '=' field) =
        if field.1 = "bk" then { t with authorizedServiceKeyId := field.2 }
        else if field.1 = "bn" then { t with authorizedServiceName := some field.2 }
        else t := by
    rw [parseAuthorizedItem, splitTrim_written h.clean h.nonempty]
  rw [parseAuthorizedService, hindex]
  dsimp only
  rw [List.take_left, ← List.drop_drop, List.drop_left, hsplit, List.foldl_cons, List.foldl_map]
  have hempty (t : PrincipalToken) : parseAuthorizedItem t [] = t := rfl
  have hbk := hkept _ List.mem_cons_self
  rw [hempty, authorizedFields, List.foldl_cons, hitem _ _ hbk]
  cases service with
  | none => rfl
  | some n =>
    have hbn := hkept _ (List.mem_cons_of_mem _ (List.mem_singleton_self ("bn".toList, n)))
    rw [Option.toList_some, List.map_singleton, List.foldl_cons, hitem _ _ hbn]
    rfl

section Parsing

variable [DigitRules]

def assignField (token : PrincipalToken) (field : Str × Str) : Except Str PrincipalToken :=
  match PrincipalKey.ofStr field.1 with
  | some key => token.assign key field.2
  | none => .ok token

theorem parseItems_eq (token : PrincipalToken) (text : Str) :
    token.parseItems text = (decode ';' '=' text).foldlM assignField token := by
  unfold decode parseItems
  rw [List.foldlM_filterMap]
  congr
  funext token item
  unfold parseItem readField
  split <;> rename_i h <;> simp only [h] <;> rfl

theorem Builder.scanned (hlawful : DigitRules.Lawful) {builder : Builder} (h : builder.Separable)
    (times : Long × Long) (u s : Option Str) :
    (builder.fields times).foldlM assignField { unsignedToken := u, signature := s } =
      .ok (builder.scan times u s) := by
  have hfixed (s : PrincipalToken) : [("v".toList, builder.version), ("d".toList, builder.domain),
      ("n".toList, builder.name)].foldlM assignField s =
      .ok { s with
        version := builder.version, domain := builder.domain, name := builder.name } := rfl
  have htimes (s : PrincipalToken) : [("a".toList, builder.salt), ("t".toList, showLong times.1.1),
      ("e".toList, showLong times.2.1), ("k".toList, builder.keyId)].foldlM assignField s =
      .ok { s with
        salt := builder.salt, timestamp := times.1.1, expiryTime := times.2.1,
        keyId := builder.keyId } := by
    have ht (s : PrincipalToken) : assignField s ("t".toList, showLong times.1.1) =
        .ok { s with timestamp := times.1.1 } :=
      congrArg (·.map fun n => { s with timestamp := n }) (parseLong_showLong hlawful times.1)
    have he (s : PrincipalToken) : assignField s ("e".toList, showLong times.2.1) =
        .ok { s with expiryTime := times.2.1 } :=
      congrArg (·.map fun n => { s with expiryTime := n }) (parseLong_showLong hlawful times.2)
    simp only [List.foldlM_cons, ht, he]
    rfl
  have hhost (s : PrincipalToken) := foldlM_optionalField "h" assignField
    (fun v s => { s with host := v.or s.host }) (fun _ _ => rfl) (fun _ => rfl)
    builder.host s
  have hkeyService (s : PrincipalToken) := foldlM_optionalField "z" assignField
    (fun v s => { s with keyService := v.or s.keyService }) (fun _ _ => rfl) (fun _ => rfl)
    builder.keyService s
  have hrequestor (s : PrincipalToken) := foldlM_optionalField "o" assignField
    (fun v s => { s with originalRequestor := v.or s.originalRequestor })
    (fun _ _ => rfl) (fun _ => rfl) builder.originalRequestor s
  have hip (s : PrincipalToken) := foldlM_optionalField "i" assignField
    (fun v s => { s with ip := v.or s.ip }) (fun _ _ => rfl) (fun _ => rfl)
    builder.ip s
  have hservices (s : PrincipalToken) :
      (builder.listedServices.toList.map fun services => ("b".toList, [','].intercalate services)).foldlM
        assignField s =
      .ok { s with authorizedServices := builder.listedServices.or s.authorizedServices } := by
    cases hservices : builder.listedServices with
    | none => rfl
    | some services =>
      obtain ⟨hmem, hne⟩ := Option.mem_filter_iff.1 hservices
      have hfound := (h.authorizedServices services hmem).found (of_decide_eq_true hne)
      exact congrArg (fun found => Except.ok { s with authorizedServices := some found }) hfound
  simp only [fields, List.foldlM_append, hfixed, hhost, htimes, hkeyService, hrequestor, hip,
    hservices]
  dsimp only [bind, Except.bind]
  simp only [Option.or_none, scan]

/-- What the text in front of the signature gives, whatever follows it. -/
theorem Builder.ofSignedToken_eq (hlawful : DigitRules.Lawful) {builder : Builder}
    (h : builder.Separable) (times : Long × Long) {p : Parts}
    (hparts : parts text = some p) (hunsigned : p.unsignedToken = builder.unsignedToken times) :
    let read := builder.scan times (some p.unsignedToken) (some p.signature)
    ofSignedToken text = .ok { p.authzSvcToken.elim read read.parseAuthorizedService with
      signedToken := some text } := by
  obtain ⟨hversion, hdomain, hname⟩ := builder.required
  have hparsed : parseItems
      { unsignedToken := some p.unsignedToken, signature := some p.signature } p.unsignedToken =
      .ok (builder.scan times (some p.unsignedToken) (some p.signature)) := by
    rw [parseItems_eq, hunsigned, builder.unsignedToken_eq,
      decode_kept (builder.fields_ne_nil times) (builder.fields_kept h times),
      builder.scanned hlawful h]
  obtain ⟨keyId, name, signature, hframe, _⟩ :=
    (builder.scan times (some p.unsignedToken)
      (some p.signature)).elim_parseAuthorizedService_frame p.authzSvcToken
  dsimp only
  refine ofSignedToken_ok.2 ⟨?_, builder.scan times (some p.unsignedToken) (some p.signature), ?_,
    _, ?_, ?_, ?_, rfl⟩
  · rintro rfl
    cases hparts
  · rw [hparts]
    exact hparsed
  · rw [hparts]
    rfl
  · rw [hframe]
    exact hdomain
  · rw [hframe]
    exact hname

theorem Builder.parsed (hlawful : DigitRules.Lawful) {builder : Builder} (h : builder.Separable)
    {signText : Str → Str} (hsign : ∀ text, IsY64 (signText text)) (now : Long) :
    ofSignedToken (builder.signedText now signText) = .ok (builder.readBack now signText) := by
  unfold signedText
  generalize htimes : setTimeStamp builder.issueTime builder.expirationWindow now = times
  have hparts := parts_signed (builder.fields_kept h times) (hsign (builder.unsignedToken times))
  rw [← builder.unsignedToken_eq] at hparts
  rw [builder.ofSignedToken_eq hlawful h times hparts rfl, ← htimes]
  rfl

end Parsing

/-- The service that the second signature names: one of several. -/
def namedService (services : List Str) (service : Str) : Option Str :=
  if services.length > 1 then some service else none

theorem namedService_kept {builder : Builder} (h : builder.Separable)
    (hservices : builder.authorizedServices = some services) (hmem : service ∈ services)
    (hne : service ≠ []) : ∀ n ∈ namedService services service, Plain ';' '=' n ∧ n ≠ [] := by
  intro n hn
  unfold namedService at hn
  split at hn
  · cases hn
    exact ⟨((h.authorizedServices services hservices).plain service hmem).1, hne⟩
  · cases hn

/-- What a listed service puts its signature on. -/
def Builder.tokenToSign (builder : Builder) (now : Long) (signText : Str → Str)
    (services : List Str) (service keyId : Str) : Str :=
  builder.signedText now signText ++ authorizedText keyId (namedService services service)

theorem Builder.signForAuthorizedService_eq (builder : Builder) (now : Long)
    (signText : Str → Str) (keyId : Str) (hservices : builder.authorizedServices = some services)
    (hmem : service ∈ services) :
    let tokenToSign := builder.tokenToSign now signText services service keyId
    ∃ resigned, signForAuthorizedService signText
        { builder.build now with toToken := (builder.build now).sign signText } service keyId =
        .ok resigned ∧
      resigned.signedToken = some (tokenToSign ++ ";bs=" ++ signText tokenToSign) := by
  have htext : authorizedText keyId (namedService services service) =
      ";bk=" ++ keyId ++ if services.length > 1 then ";bn=" ++ service else "" := by
    unfold namedService
    split
    · simp [authorizedText, authorizedFields, written]
    · simp [authorizedText, authorizedFields, written]
  unfold signForAuthorizedService
  simp only [build, hservices, not_true_eq_false, hmem, if_false]
  refine ⟨_, rfl, ?_⟩
  dsimp only [Token.sign, orNull, Option.getD_some, tokenToSign, signedText]
  simp only [htext, List.append_assoc]

/-- The token signed once more as it is read. -/
def Builder.resigned (builder : Builder) (now : Long) (signText : Str → Str)
    (services : List Str) (service keyId : Str) : PrincipalToken :=
  let tokenToSign := builder.tokenToSign now signText services service keyId
  { builder.readBack now signText with
    signedToken := some (tokenToSign ++ ";bs=" ++ signText tokenToSign)
    authorizedServiceName := namedService services service
    authorizedServiceKeyId := keyId
    authorizedServiceSignature := some (signText tokenToSign) }

theorem Builder.resigned_parsed [DigitRules] (hlawful : DigitRules.Lawful) {builder : Builder}
    (h : builder.Separable) {signText : Str → Str} (hsign : ∀ text, IsY64 (signText text))
    (now : Long) {service keyId : Str} (hservices : builder.authorizedServices = some services)
    (hmem : service ∈ services) (hservice : service ≠ [])
    (hkey : Plain ';' '=' keyId ∧ keyId ≠ []) :
    let tokenToSign := builder.tokenToSign now signText services service keyId
    ofSignedToken (tokenToSign ++ ";bs=" ++ signText tokenToSign) =
      .ok (builder.resigned now signText services service keyId) := by
  have hnamed := namedService_kept h hservices hmem hservice
  dsimp only
  have hparts : parts (builder.tokenToSign now signText services service keyId ++ ";bs=" ++
      signText (builder.tokenToSign now signText services service keyId)) =
      some ⟨builder.unsignedToken (setTimeStamp builder.issueTime builder.expirationWindow now),
        signText (builder.unsignedToken
          (setTimeStamp builder.issueTime builder.expirationWindow now)),
        some (authorizedText keyId (namedService services service) ++ (";bs=" ++
          signText (builder.tokenToSign now signText services service keyId)))⟩ := by
    generalize signText (builder.tokenToSign now signText services service keyId) = second
    have hwithin : (";bs=" : Str) <:+:
        authorizedText keyId (namedService services service) ++ (";bs=" ++ second) :=
      (List.prefix_append _ second).isInfix.trans (List.suffix_append _ _).isInfix
    unfold tokenToSign signedText
    rw [authorizedText_eq, List.cons_append] at hwithin ⊢
    have hparts := parts_authorized
      (builder.fields_kept h (setTimeStamp builder.issueTime builder.expirationWindow now))
      (hsign (builder.unsignedToken
        (setTimeStamp builder.issueTime builder.expirationWindow now))) hwithin
    rw [← builder.unsignedToken_eq] at hparts
    simpa only [List.append_assoc, List.cons_append] using hparts
  rw [builder.ofSignedToken_eq hlawful h _ hparts rfl, Option.elim_some,
    parseAuthorizedService_eq _ _ hkey hnamed]
  dsimp only [scan]
  rw [Option.or_none]
  rfl

theorem Builder.resigned_valid (builder : Builder) (now : Long) (signText : Str → Str)
    {service keyId : Str} (hservices : builder.authorizedServices = some services)
    (hmem : service ∈ services) :
    (builder.resigned now signText services service keyId).isValidAuthorizedServiceToken =
      .ok () := by
  have hlisted : builder.listedServices = some services := by
    rw [listedServices, hservices, Option.filter_some, if_pos]
    exact decide_eq_true (List.ne_nil_of_mem hmem)
  unfold isValidAuthorizedServiceToken resigned readBack
  dsimp only
  rw [hlisted]
  unfold namedService
  by_cases hseveral : services.length > 1
  · simp [hseveral, refuse, hmem]
  · have hone : services.length = 1 := by
      have := List.length_pos_of_mem hmem
      omega
    simp [hone, refuse]

theorem Builder.resigned_verified {builder : Builder} (h : builder.Separable)
    {signText : Str → Str} (hsign : ∀ text, IsY64 (signText text)) (now : Long)
    {service keyId : Str} (hservices : builder.authorizedServices = some services)
    (hmem : service ∈ services) (hservice : service ≠ [])
    (hkey : Plain ';' '=' keyId ∧ keyId ≠ []) (crypto : Crypto Key) (pubKey : Str) :
    let tokenToSign := builder.tokenToSign now signText services service keyId
    validateForAuthorizedService crypto (builder.resigned now signText services service keyId)
        (some pubKey) = .ok () ↔
      ∃ key, crypto.loadPublicKey pubKey = .ok key ∧
        crypto.verify tokenToSign key (signText tokenToSign) = .ok true := by
  have hnot := notInfix_authorized
    (builder.fields_kept h (setTimeStamp builder.issueTime builder.expirationWindow now))
    (builder.fields_ne_nil _) (hsign (builder.unsignedToken
      (setTimeStamp builder.issueTime builder.expirationWindow now)))
    (authorizedFields_kept hkey (namedService_kept h hservices hmem hservice))
  rw [← builder.unsignedToken_eq] at hnot
  change ¬ (";bs=" : Str) <:+: builder.tokenToSign now signText services service keyId at hnot
  have htake (tokenToSign rest : Str) (hnot : ¬ (";bs=" : Str) <:+: tokenToSign) :
      (tokenToSign ++ ";bs=" ++ rest).take
        ((indexOf (";bs=" : Str) (tokenToSign ++ ";bs=" ++ rest)).getD 0) = tokenToSign := by
    have hindex : indexOf (";bs=" : Str) (tokenToSign ++ (";bs=" ++ rest)) =
        some tokenToSign.length := indexOf_append_self (by decide) hnot rest
    rw [List.append_assoc, hindex, Option.getD_some, List.take_left]
  have htake := htake _ (signText (builder.tokenToSign now signText services service keyId)) hnot
  dsimp only
  unfold validateForAuthorizedService resigned
  dsimp only
  rw [Option.getD_some, htake]
  cases crypto.loadPublicKey pubKey with
  | error e => exact ⟨nofun, fun h => by obtain ⟨_, hload, _⟩ := h; cases hload⟩
  | ok key =>
    constructor
    · intro h
      split at h
      · exact ⟨key, rfl, ‹_›⟩
      · cases h
      · cases h
    · rintro ⟨_, hload, hverify⟩
      cases hload
      rw [show (Except.ok key >>= fun pub => crypto.verify
        (builder.tokenToSign now signText services service keyId) pub
        (signText (builder.tokenToSign now signText services service keyId))) = _ from hverify]

end PrincipalToken

/-- Signed tokens are read as they were built, and a second signature is checked on the text that
it was put on. -/
theorem signed_tokens_round_trip [DigitRules] (hlawful : DigitRules.Lawful)
    {signText : Str → Str} (hsign : ∀ text, IsY64 (signText text)) (now : Long) :
    (∀ builder : RoleToken.Builder, builder.Separable →
      ∃ text, ((builder.build now).sign signText).signedToken = some text ∧
        RoleToken.ofSignedToken text = .ok (builder.readBack now signText)) ∧
    ∀ builder : PrincipalToken.Builder, builder.Separable →
      (∃ text, ((builder.build now).sign signText).signedToken = some text ∧
        PrincipalToken.ofSignedToken text = .ok (builder.readBack now signText)) ∧
      ∀ services service keyId, builder.authorizedServices = some services → service ∈ services →
        service ≠ [] → Plain ';' '=' keyId ∧ keyId ≠ [] →
        let tokenToSign := builder.tokenToSign now signText services service keyId
        let parsed := builder.resigned now signText services service keyId
        ∃ resigned, PrincipalToken.signForAuthorizedService signText
            { builder.build now with toToken := (builder.build now).sign signText }
            service keyId = .ok resigned ∧
          resigned.signedToken = some (tokenToSign ++ ";bs=" ++ signText tokenToSign) ∧
          PrincipalToken.ofSignedToken (tokenToSign ++ ";bs=" ++ signText tokenToSign) =
            .ok parsed ∧
          parsed.isValidAuthorizedServiceToken = .ok () ∧
          ∀ (Key : Type) (crypto : Crypto Key) (pubKey : Str),
            parsed.validateForAuthorizedService crypto (some pubKey) = .ok () ↔
              ∃ key, crypto.loadPublicKey pubKey = .ok key ∧
                crypto.verify tokenToSign key (signText tokenToSign) = .ok true := by
  refine ⟨fun builder h => ⟨_, rfl, builder.parsed hlawful h signText now⟩, fun builder h =>
    ⟨⟨_, rfl, builder.parsed hlawful h hsign now⟩, ?_⟩⟩
  intro services service keyId hservices hmem hservice hkey
  obtain ⟨resigned, hresigned, hsigned⟩ :=
    builder.signForAuthorizedService_eq now signText keyId hservices hmem
  exact ⟨resigned, hresigned, hsigned,
    builder.resigned_parsed hlawful h hsign now hservices hmem hservice hkey,
    builder.resigned_valid now signText hservices hmem, fun Key crypto pubKey =>
      PrincipalToken.Builder.resigned_verified h hsign now hservices hmem hservice hkey crypto
        pubKey⟩

section Samples

local instance roundTripDigitRules : DigitRules := .ascii

def listingBuilder (services : List Str) : PrincipalToken.Builder where
  version := "S1".toList
  domain := "sports".toList
  name := "storage".toList
  salt := "a1b2".toList
  host := some "host1".toList
  ip := some []
  keyId := "v2".toList
  issueTime := .ofInt 1000
  authorizedServices := some services
  required := by decide

def sampleSignature (_ : Str) : Str := "c2ln.dGV4_dA--".toList

theorem sampleSignature_y64 (text : Str) : IsY64 (sampleSignature text) := by
  have hall : ("c2ln.dGV4_dA--" : String).toList.all
      (fun c => decide (c.isAlphanum ∨ c = '.' ∨ c = '_' ∨ c = '-')) = true := by decide +kernel
  exact fun c hmem => of_decide_eq_true (List.all_eq_true.1 hall c hmem)

theorem listingBuilder_separable :
    (listingBuilder ["sports.api".toList, "media.web".toList]).Separable where
  version := by decide
  domain := by decide
  name := by decide
  salt := by decide
  keyId := by decide
  host := by decide
  ip := by decide
  keyService := nofun
  originalRequestor := nofun
  authorizedServices := by
    intro services hservices
    cases hservices
    exact ⟨by decide, by decide⟩

theorem sample_token_round_trip :
    ∃ text, (((listingBuilder ["sports.api".toList, "media.web".toList]).build (.ofInt 0)).sign
        sampleSignature).signedToken = some text ∧
      PrincipalToken.ofSignedToken text = .ok
        ((listingBuilder ["sports.api".toList, "media.web".toList]).readBack (.ofInt 0)
          sampleSignature) :=
  ((signed_tokens_round_trip DigitRules.ascii_lawful sampleSignature_y64 (.ofInt 0)).2 _
    listingBuilder_separable).1

/-- Empty names at the end of a list are not read again. -/
theorem trailing_service_lost :
    (∀ name ∈ ["sports.api".toList, []], Plain ';' '=' name ∧ ',' ∉ name) ∧
      (PrincipalToken.ofSignedToken
        ((listingBuilder ["sports.api".toList, []]).signedText (.ofInt 0) sampleSignature)).map
        (·.authorizedServices) = .ok (some ["sports.api".toList]) := by
  decide +kernel

end Samples

end Athenz.Java
