import Athenz.NodeRoleToken
import Athenz.NodePrincipalToken
import Athenz.TokenRoundTrip
import Athenz.Lib.Integers

namespace Athenz.Tokens
open Lib.Text Lib.Number Lib.Decimal Lib.Result Lib.Fields Lib.Assign Lib.Signature
set_option autoImplicit true

section Settings

/-- What both libraries are told: the time in seconds, which a JavaScript date can hold, the
offset, a Java `int`, and the expiry settings. -/
structure Settings where
  now : Int
  allowedOffset : Int
  maxExpiry : Nat
  noExpiry : Bool
  allowNoExpiry : Bool
  time : now.natAbs ≤ 8640000000000
  offset : -2 ^ 31 ≤ allowedOffset ∧ allowedOffset < 2 ^ 31

def Settings.node (settings : Settings) : Node.Config where
  tokenMaxExpiry := .fin settings.maxExpiry
  tokenNoExpiry := settings.noExpiry

def Settings.java (settings : Settings) : Java.TokenConfig where
  maxExpiry := settings.maxExpiry
  noExpiry := settings.noExpiry

/-- Two libraries that load the same key and accept the same signatures. -/
def SameCheck (crypto : Java.Crypto Key) (scheme : Scheme Key) : Prop :=
  ∀ message key signature, crypto.verify message key signature = .ok true ↔
    scheme.verify message key signature = true

/-- A number that is the same on both sides. -/
def SameNumber (x : JsNumber) (n : Int) : Prop := x = .fin n ∧ n.natAbs < 2 ^ 52

theorem long_eq {n : Int} (h : n.natAbs < 2 ^ 62) : Java.long n = n :=
  Int.bmod_eq_of_le (by omega) (by omega)

theorem add_int {a b : Int} (h : (a + b).natAbs < 2 ^ 53) :
    add (.fin a) (.fin b) = .fin ((a + b : Int) : ℚ) := by
  have hsum := ofRat_int h
  rw [Int.cast_add] at hsum
  rw [add, hsum, Int.cast_add]

theorem sub_int {a b : Int} (h : (a - b).natAbs < 2 ^ 53) :
    sub (.fin a) (.fin b) = .fin ((a - b : Int) : ℚ) := by
  have hneg : neg (.fin b) = .fin ((-b : Int) : ℚ) := by rw [neg, Int.cast_neg]
  rw [sub, hneg, add_int h]
  rfl

theorem lt_int (a b : Int) : lt (.fin a) (.fin b) = decide (a < b) := by
  rw [lt]
  exact decide_eq_decide.2 Int.cast_lt

theorem node_maxExpiry {settings : Settings} (hmax : settings.maxExpiry ≤ 2592000) :
    settings.node.ATHENZ_TOKEN_MAX_EXPIRY = .fin ((settings.maxExpiry : Int) : ℚ) := by
  have hlt : lt 2592000 settings.node.tokenMaxExpiry = false := by
    have h := lt_int 2592000 settings.maxExpiry
    rw [decide_eq_false (by omega)] at h
    exact h
  unfold Node.Config.ATHENZ_TOKEN_MAX_EXPIRY
  rw [hlt, if_neg Bool.false_ne_true]
  rfl

end Settings

section Times

variable {settings : Settings}

/-- The time checks of both sides on the same two numbers. -/
def Fresh (settings : Settings) (timestamp expiryTime : Int) : Prop :=
  (timestamp = 0 ∨ timestamp - settings.allowedOffset ≤ settings.now) ∧
    (expiryTime = 0 ∧ settings.noExpiry = true ∧ settings.allowNoExpiry = true ∨
      settings.now ≤ expiryTime ∧
        expiryTime ≤ settings.now + settings.maxExpiry + settings.allowedOffset)

theorem java_checkTimes (hmax : settings.maxExpiry ≤ 2592000) {token : Java.Token}
    (ht : token.timestamp.natAbs < 2 ^ 52) :
    token.checkTimes settings.java settings.now settings.allowedOffset settings.allowNoExpiry =
      .ok () ↔ Fresh settings token.timestamp token.expiryTime := by
  have htime := settings.time
  have hoffset := settings.offset
  have hsub : Java.long (token.timestamp - settings.allowedOffset) =
      token.timestamp - settings.allowedOffset := long_eq (by omega)
  have hmaximum : Java.long (settings.now + settings.java.maxExpiry) =
      settings.now + settings.maxExpiry :=
    long_eq (n := settings.now + settings.maxExpiry) (by omega)
  have hlimit : Java.long (settings.now + settings.maxExpiry + settings.allowedOffset) =
      settings.now + settings.maxExpiry + settings.allowedOffset := long_eq (by omega)
  unfold Java.Token.checkTimes Fresh
  simp only [bind_eq_ok, refuse_eq_ok, exists_const, hsub, hmaximum, hlimit]
  unfold Settings.java
  cases settings.noExpiry <;> cases settings.allowNoExpiry <;> simp <;> omega

theorem node_validate (hmax : settings.maxExpiry ≤ 2592000) (scheme : Scheme Key)
    (key : Key) (token : Node.Token) (ht : SameNumber token.timestamp t) (he : SameNumber token.expiryTime e)
    (hm : token.unsignedToken = some m) (hs : token.signature = some s) (hne : m ≠ [] ∧ s ≠ []) :
    token.validate scheme settings.node (.fin settings.now) (some key)
        (.fin settings.allowedOffset) settings.allowNoExpiry = true ↔
      Fresh settings t e ∧ scheme.verify m key s = true := by
  have htime := settings.time
  have hoffset := settings.offset
  have hsub : sub (.fin t) (.fin settings.allowedOffset) =
      .fin ((t - settings.allowedOffset : Int) : ℚ) := sub_int (by have := ht.2; omega)
  have hmaximum : add (.fin settings.now) settings.node.ATHENZ_TOKEN_MAX_EXPIRY =
      .fin ((settings.now + settings.maxExpiry : Int) : ℚ) := by
    rw [node_maxExpiry hmax]
    exact add_int (by omega)
  have hlimit : add (.fin ((settings.now + settings.maxExpiry : Int) : ℚ))
      (.fin settings.allowedOffset) =
      .fin ((settings.now + settings.maxExpiry + settings.allowedOffset : Int) : ℚ) :=
    add_int (by omega)
  have hzero (n : Int) : (JsNumber.fin (n : ℚ) = 0) ↔ n = 0 := by
    rw [show (0 : JsNumber) = .fin 0 from rfl, JsNumber.fin.injEq, Int.cast_eq_zero]
  have htruthy : Node.truthy (some m) = true ∧ Node.truthy (some s) = true :=
    ⟨decide_eq_true hne.1, decide_eq_true hne.2⟩
  unfold Node.Token.validate Fresh
  rw [hm, hs, ht.1, he.1]
  dsimp only
  rw [htruthy.1, htruthy.2, hsub, hmaximum, hlimit, lt_int, lt_int, lt_int]
  simp only [ne_eq, hzero]
  unfold Settings.node
  cases settings.noExpiry <;> cases settings.allowNoExpiry <;> simp [and_assoc]

theorem java_validate (hmax : settings.maxExpiry ≤ 2592000) {crypto : Java.Crypto Key}
    (token : Java.Token) (ht : token.timestamp.natAbs < 2 ^ 52)
    (hkey : crypto.loadPublicKey text = .ok key)
    (hm : token.unsignedToken = some m) (hs : token.signature = some s) :
    token.validate crypto settings.java settings.now (some text) settings.allowedOffset
        settings.allowNoExpiry = .ok () ↔
      Fresh settings token.timestamp token.expiryTime ∧ crypto.verify m key s = .ok true := by
  rw [Java.Token.validate_ok]
  constructor
  · rintro ⟨loaded, m', s', hload, hm', hs', htimes, hverify⟩
    obtain ⟨_, htext, hloaded⟩ := Java.Token.loadKey_ok.1 hload
    cases htext
    rw [hkey, Except.ok.injEq] at hloaded
    rw [hm, Option.some.injEq] at hm'
    rw [hs, Option.some.injEq] at hs'
    subst hloaded hm' hs'
    exact ⟨(java_checkTimes hmax ht).1 htimes, hverify⟩
  · rintro ⟨htimes, hverify⟩
    exact ⟨key, m, s, Java.Token.loadKey_ok.2 ⟨text, rfl, hkey⟩, hm, hs,
      (java_checkTimes hmax ht).2 htimes, hverify⟩

end Times

section Items

/-- No piece of the text ends in an equals sign, so none of its values is cut. -/
def Uncut (text : Str) : Prop := ∀ item ∈ text.splitOn ';', ¬ ['='] <:+ item

/-- Texts that end in no equals sign are taken apart in the same way. -/
theorem decode_eq_items (h : Uncut text) : decode ';' '=' text = Node.items text := by
  have htrim : decode ';' '=' text = (text.splitOn ';').filterMap (readField '=') := by
    unfold decode splitTrim
    split
    · exact filterMap_rdropWhile_nil rfl _
    · rename_i hmem
      rw [List.splitOn_eq_singleton hmem]
  rw [htrim, Node.items]
  refine List.filterMap_congr fun item hitem => ?_
  rw [readField, splitTrim_eq_splitOn (h item hitem)]
  rcases item.splitOn '=' with _ | ⟨key, _ | ⟨value, _ | _⟩⟩ <;> rfl

variable [DigitRules]

/-- A text that both sides read as the same number. -/
def IsInteger (value : Str) : Prop :=
  ∃ n, Java.parseLong value = .ok n ∧ n.natAbs < 2 ^ 52

/-- The two times are integers. -/
def IntegerTimes (text : Str) : Prop :=
  ∀ item ∈ Node.items text, item.1 ∈ ["e".toList, "t".toList] → IsInteger item.2

theorem IsInteger.same (hdigits : AsciiDigits) (hascii : ∀ c ∈ value, c.toNat < 128)
    (h : IsInteger value) :
    ∃ n, Java.parseLong value = .ok n ∧ SameNumber (ofText value) n := by
  obtain ⟨n, hn, hlt⟩ := h
  refine ⟨n, hn, ?_, hlt⟩
  unfold Java.parseLong at hn
  split at hn
  · rename_i k hk
    cases hn
    exact ofText_integer hdigits hascii hk (by omega)
  · cases hn

end Items

section RoleTokens

variable [DigitRules]

/-- The two scans of a role token at the same place. -/
structure SameRoleScan (unsignedToken signature : Option Str) (node : Node.RoleScan)
    (java : Java.RoleScan) : Prop where
  unsignedToken : java.unsignedToken = unsignedToken
  signature : java.signature = signature
  domain : node.domain = java.domain
  roleNames : node.roleNames = java.roleNames
  expiryTime : SameNumber node.expiryTime java.expiryTime
  timestamp : SameNumber node.timestamp java.timestamp

def nodeRoleStep (scan : Node.RoleScan) (item : Str × Str) : Node.RoleScan :=
  match Node.RoleKey.ofStr item.1 with
  | some key => scan.assign key item.2
  | none => scan

/-- The key that Java knows a key of Node by. -/
def javaRoleKey : Node.RoleKey → Option Java.RoleKey
  | .salt => some .salt
  | .complete => some .complete
  | .domain => some .domain
  | .expiryTime => some .expiryTime
  | .host => some .host
  | .ip => some .ip
  | .keyId => some .keyId
  | .principal => some .principal
  | .roles => some .roles
  | .signature => none
  | .timestamp => some .timestamp
  | .proxyUser => some .proxyUser
  | .version => some .version

omit [DigitRules] in
theorem javaRoleKey_ofStr (key : Str) :
    Java.RoleKey.ofStr key = (Node.RoleKey.ofStr key).bind javaRoleKey := by
  by_cases hs : key = "s".toList
  · subst hs
    rfl
  · unfold Java.RoleKey.ofStr Node.RoleKey.ofStr
    simp only [List.lookup_cons, List.lookup_nil, beq_false_of_ne hs]
    iterate 12
      split
      · rfl
    rfl

omit [DigitRules] in
theorem scanRole_eq (text : Str) :
    Node.scanRole text = (Node.items text).foldl nodeRoleStep {} := by
  unfold Node.scanRole assignAll Node.roleItems
  rw [List.foldl_filterMap]
  congr
  funext scan item
  unfold nodeRoleStep
  cases Node.RoleKey.ofStr item.1 <;> rfl

omit [DigitRules] in
theorem roleKey_name {key : Str} (h : Node.RoleKey.ofStr key = some k) :
    (k = .expiryTime ∨ k = .timestamp → key ∈ ["e".toList, "t".toList]) ∧
      (k = .complete → key = "c") := by
  obtain ⟨before, behind, htable, _⟩ := List.lookup_eq_some_iff.1 h
  have hmem : (key, k) ∈ before ++ (key, k) :: behind :=
    List.mem_append_right before List.mem_cons_self
  rw [← htable] at hmem
  constructor
  · rintro (rfl | rfl) <;> · simp at hmem; simp [hmem]
  · rintro rfl
    simp at hmem
    simp [hmem]

/-- What a signed role text says in numbers can be read. -/
structure ReadableRole (items : List (Str × Str)) : Prop where
  times : ∀ item ∈ items, item.1 ∈ ["e".toList, "t".toList] → IsInteger item.2
  complete : ∀ item ∈ items, item.1 = "c" → ∃ n, Java.parseInt item.2 = .ok n

theorem role_step (hdigits : AsciiDigits) {item : Str × Str}
    (hascii : ∀ c ∈ item.2, c.toNat < 128)
    (htimes : item.1 ∈ ["e".toList, "t".toList] → IsInteger item.2)
    (hcomplete : item.1 = "c" → ∃ n, Java.parseInt item.2 = .ok n)
    {node : Node.RoleScan} {java : Java.RoleScan} (h : SameRoleScan u s node java) :
    ∃ java', Java.RoleToken.assignField java item = .ok java' ∧
      SameRoleScan u s (nodeRoleStep node item) java' := by
  unfold Java.RoleToken.assignField nodeRoleStep
  rw [javaRoleKey_ofStr]
  cases hkey : Node.RoleKey.ofStr item.1 with
  | none => exact ⟨java, rfl, h⟩
  | some key =>
    obtain ⟨htime, hcomp⟩ := roleKey_name hkey
    cases key with
    | expiryTime =>
      obtain ⟨n, hn, hsame⟩ := (htimes (htime (.inl rfl))).same hdigits hascii
      refine ⟨{ java with expiryTime := n }, ?_, { h with expiryTime := hsame }⟩
      exact congrArg (·.map fun n => { java with expiryTime := n }) hn
    | timestamp =>
      obtain ⟨n, hn, hsame⟩ := (htimes (htime (.inr rfl))).same hdigits hascii
      refine ⟨{ java with timestamp := n }, ?_, { h with timestamp := hsame }⟩
      exact congrArg (·.map fun n => { java with timestamp := n }) hn
    | complete =>
      obtain ⟨n, hn⟩ := hcomplete (hcomp rfl)
      have hassign := congrArg (·.map fun n =>
        if n = 1 then { java with domainCompleteRoleSet := true } else java) hn
      refine ⟨_, hassign, ?_⟩
      dsimp only
      by_cases hone : n = 1
      · rw [if_pos hone]
        exact { h with }
      · rw [if_neg hone]
        exact { h with }
    | domain => exact ⟨_, rfl, { h with domain := rfl }⟩
    | roles => exact ⟨_, rfl, { h with roleNames := rfl }⟩
    | _ => exact ⟨_, rfl, { h with }⟩

theorem role_scan (hdigits : AsciiDigits) {items : List (Str × Str)}
    (hascii : ∀ item ∈ items, ∀ c ∈ item.2, c.toNat < 128) (hread : ReadableRole items)
    {node : Node.RoleScan} {java : Java.RoleScan} (h : SameRoleScan u s node java) :
    ∃ java', items.foldlM Java.RoleToken.assignField java = .ok java' ∧
      SameRoleScan u s (items.foldl nodeRoleStep node) java' := by
  induction items generalizing node java with
  | nil => exact ⟨java, rfl, h⟩
  | cons item items ih =>
    have hitem := List.mem_cons_self (a := item) (l := items)
    have htail (other : Str × Str) (hother : other ∈ items) := List.mem_cons_of_mem item hother
    obtain ⟨next, hnext, hsame⟩ := role_step hdigits (hascii item hitem) (hread.times item hitem)
      (hread.complete item hitem) h
    obtain ⟨last, hlast, hsame⟩ := ih (fun other hother => hascii other (htail other hother))
      ⟨fun other hother => hread.times other (htail other hother),
        fun other hother => hread.complete other (htail other hother)⟩ hsame
    refine ⟨last, ?_, hsame⟩
    rw [List.foldlM_cons, hnext]
    exact hlast

/-- A role token whose signed text both sides take apart in the same way, followed by nothing
but a signature. -/
def RegularRole (t : Str) : Prop :=
  ∀ idx, indexOf ";s=" t = some idx →
    Uncut (t.take idx) ∧ ReadableRole (Node.items (t.take idx)) ∧
      t.drop (idx + 3) ≠ [] ∧ Plain ';' '=' (t.drop (idx + 3))

def NodeAcceptsRole (scheme : Scheme Key) (settings : Settings) (key : Key) (t : Str) : Prop :=
  ∃ token, Node.RoleToken.parseSignedToken t = .ok token ∧
    token.validate scheme settings.node (.fin settings.now) (some key)
      (.fin settings.allowedOffset) settings.allowNoExpiry = true

def JavaAcceptsRole (crypto : Java.Crypto Key) (settings : Settings) (pubKey t : Str) : Prop :=
  ∃ token, Java.RoleToken.ofSignedToken t = .ok token ∧
    token.validate crypto settings.java settings.now (some pubKey) settings.allowedOffset
      settings.allowNoExpiry = .ok ()

omit [DigitRules] in
theorem signed_items (hidx : indexOf (";s=" : Str) t = some idx) :
    Node.signedMessage t = some (t.take idx) ∧
      Node.trailer t = some ("s".toList ++ '=' :: t.drop (idx + 3)) := by
  constructor
  · rw [Node.signedMessage, hidx, Option.map_some]
  · obtain ⟨rest, hrest⟩ := indexOf_prefix_drop hidx
    rw [Node.trailer, hidx, Option.map_some, ← List.drop_drop, ← List.drop_drop, ← hrest]
    rfl

/-- Neither side accepts a token without a signature. -/
theorem accepted_role_signed {scheme : Scheme Key} {crypto : Java.Crypto Key}
    (h : NodeAcceptsRole scheme settings key t ∨ JavaAcceptsRole crypto settings pubKey t) :
    ∃ idx, indexOf (";s=" : Str) t = some idx := by
  cases hidx : indexOf (";s=" : Str) t with
  | some idx => exact ⟨idx, rfl⟩
  | none =>
    rcases h with ⟨token, hparse, hvalid⟩ | ⟨token, hparse, hvalid⟩
    · obtain ⟨m, _, hm, _⟩ := Node.Token.validate_signed hvalid
      rw [(Node.RoleToken.parse_ok hparse).2, Node.signedMessage, hidx] at hm
      cases hm
    · obtain ⟨_, m, _, _, hm, _⟩ := Java.Token.validate_ok.1 hvalid
      obtain ⟨_, scan, hscan, _, _, rfl⟩ := Java.RoleToken.ofSignedToken_ok.1 hparse
      rw [(Java.RoleScan.parseItems_frame hscan).1, hidx] at hm
      cases hm

/-- Both scans of a regular role token. -/
theorem role_scans (hdigits : AsciiDigits) (hascii : ∀ c ∈ t, c.toNat < 128) (h : RegularRole t)
    (hidx : indexOf (";s=" : Str) t = some idx) :
    ∃ java : Java.RoleScan,
      Java.RoleScan.parseItems
        { unsignedToken := some (t.take idx), signature := some (t.drop (idx + 3)) }
        (t.take idx) = .ok java ∧
      SameRoleScan (some (t.take idx)) (some (t.drop (idx + 3))) (Node.scanRole t) java ∧
      (Node.scanRole t).signature = some (t.drop (idx + 3)) := by
  obtain ⟨huncut, hread, hne, hplain⟩ := h idx hidx
  obtain ⟨hmessage, htrailer⟩ := signed_items hidx
  have hitems (item : Str × Str) (hitem : item ∈ Node.items (t.take idx)) (c : Char)
      (hc : c ∈ item.2) : c.toNat < 128 :=
    hascii c (List.mem_of_mem_take (Node.mem_of_items hitem hc))
  have hzero : SameNumber 0 0 := ⟨rfl, by decide⟩
  have hstart : SameRoleScan (some (t.take idx)) (some (t.drop (idx + 3))) {}
      { unsignedToken := some (t.take idx), signature := some (t.drop (idx + 3)) } :=
    ⟨rfl, rfl, rfl, rfl, hzero, hzero⟩
  obtain ⟨java, hjava, hsame⟩ := role_scan hdigits hitems hread hstart
  have hnode : Node.scanRole t =
      { (Node.items (t.take idx)).foldl nodeRoleStep {} with
        signature := some (t.drop (idx + 3)) } := by
    have htail : Node.items ("s".toList ++ '=' :: t.drop (idx + 3)) =
        [("s".toList, t.drop (idx + 3))] := by
      refine Node.items_field ?_ (by decide) hplain.eq
      rw [List.mem_append, List.mem_cons, not_or, not_or]
      exact ⟨by decide, by decide, hplain.sep⟩
    rw [scanRole_eq, Node.items_signedToken hmessage htrailer, htail, List.foldl_append,
      List.foldl_cons, List.foldl_nil]
    rfl
  refine ⟨java, ?_, ?_, ?_⟩
  · rw [Java.RoleToken.parseItems_eq, decode_eq_items huncut, hjava]
  · rw [hnode]
    exact { hsame with }
  · rw [hnode]

/-- What makes either side accept a regular role token. -/
theorem role_accepted_iff (hdigits : AsciiDigits) (hmax : settings.maxExpiry ≤ 2592000)
    {crypto : Java.Crypto Key} {scheme : Scheme Key} (hcheck : SameCheck crypto scheme)
    (hkey : crypto.loadPublicKey pubKey = .ok key) (hascii : ∀ c ∈ t, c.toNat < 128)
    (h : RegularRole t) (hidx : indexOf (";s=" : Str) t = some idx) :
    ∃ timestamp expiryTime : Int, SameNumber (Node.scanRole t).expiryTime expiryTime ∧
      let accepted := (Node.scanRole t).domain.getD [] ≠ [] ∧
        (Node.scanRole t).roleNames.getD [] ≠ [] ∧ Fresh settings timestamp expiryTime ∧
        scheme.verify (t.take idx) key (t.drop (idx + 3)) = true
      (NodeAcceptsRole scheme settings key t ↔ accepted) ∧
        (JavaAcceptsRole crypto settings pubKey t ↔ accepted) := by
  obtain ⟨java, hjava, hsame, hsignature⟩ := role_scans hdigits hascii h hidx
  have hne : t ≠ [] := by
    rintro rfl
    cases hidx
  have hmessage : (Node.scanRole t).domain.getD [] ≠ [] → t.take idx ≠ [] := by
    intro hdomain hempty
    rw [hempty] at hjava
    cases hjava
    rw [hsame.domain] at hdomain
    exact hdomain rfl
  refine ⟨java.timestamp, java.expiryTime, hsame.expiryTime, ?_, ?_⟩
  · have hvalid (hdomain : (Node.scanRole t).domain.getD [] ≠ []) :=
      node_validate hmax scheme key
        { (Node.scanRole t).toToken with
          unsignedToken := Node.signedMessage t
          signedToken := some t }
        hsame.timestamp hsame.expiryTime (signed_items hidx).1 hsignature
        ⟨hmessage hdomain, (h idx hidx).2.2.1⟩
    constructor
    · rintro ⟨token, hparse, hok⟩
      obtain ⟨_, hdomain, hroles, rfl⟩ := Node.RoleToken.parseSignedToken_ok.1 hparse
      exact ⟨hdomain, hroles, (hvalid hdomain).1 hok⟩
    · rintro ⟨hdomain, hroles, hok⟩
      exact ⟨_, Node.RoleToken.parseSignedToken_ok.2 ⟨hne, hdomain, hroles, rfl⟩,
        (hvalid hdomain).2 hok⟩
  · rw [← hcheck, hsame.domain, hsame.roleNames]
    have hparts {token : Java.RoleToken} : Java.RoleToken.ofSignedToken t = .ok token ↔
        java.domain.getD [] ≠ [] ∧ java.roleNames.getD [] ≠ [] ∧
        { java.toRoleToken with
          roles := some (splitTrim ',' (java.roleNames.getD []))
          signedToken := some t } = token := by
      rw [Java.RoleToken.ofSignedToken_ok, hidx]
      simp only [Option.map_some, Option.getD_some, hjava, Except.ok.injEq, exists_eq_left']
      exact and_iff_right hne
    have hvalid := java_validate hmax java.toToken hsame.timestamp.2 hkey
      hsame.unsignedToken hsame.signature
    constructor
    · rintro ⟨token, hparse, hok⟩
      obtain ⟨hdomain, hroles, rfl⟩ := hparts.1 hparse
      exact ⟨hdomain, hroles, hvalid.1 hok⟩
    · rintro ⟨hdomain, hroles, hok⟩
      exact ⟨_, hparts.2 ⟨hdomain, hroles, rfl⟩, hvalid.2 hok⟩

end RoleTokens

section PrincipalTokens

/-- The two scans of a principal token at the same place. -/
structure SamePrincipalScan (unsignedToken signature : Option Str) (node : Node.PrincipalToken)
    (java : Java.PrincipalToken) : Prop where
  unsignedToken : java.unsignedToken = unsignedToken
  signature : java.signature = signature
  domain : node.domain = java.domain
  name : node.name = java.name
  expiryTime : SameNumber node.expiryTime java.expiryTime
  timestamp : SameNumber node.timestamp java.timestamp

def nodePrincipalStep (token : Node.PrincipalToken) (item : Str × Str) : Node.PrincipalToken :=
  match Node.PrincipalKey.ofStr item.1 with
  | some key => token.assign key item.2
  | none => token

/-- The key that Java knows a key of Node by in front of the signature. -/
def javaPrincipalKey : Node.PrincipalKey → Option Java.PrincipalKey
  | .salt => some .salt
  | .authorizedServices => some .authorizedServices
  | .authorizedServiceKeyId => none
  | .authorizedServiceName => none
  | .authorizedServiceSignature => none
  | .domain => some .domain
  | .expiryTime => some .expiryTime
  | .host => some .host
  | .ip => some .ip
  | .keyId => some .keyId
  | .name => some .name
  | .originalRequestor => some .originalRequestor
  | .signature => none
  | .timestamp => some .timestamp
  | .version => some .version
  | .keyService => some .keyService

theorem javaPrincipalKey_ofStr (key : Str) :
    Java.PrincipalKey.ofStr key = (Node.PrincipalKey.ofStr key).bind javaPrincipalKey := by
  by_cases hextra : key ∈ ["s".toList, "bk".toList, "bn".toList, "bs".toList]
  · simp only [List.mem_cons, List.not_mem_nil, or_false] at hextra
    rcases hextra with rfl | rfl | rfl | rfl <;> rfl
  · simp only [List.mem_cons, List.not_mem_nil, or_false, not_or] at hextra
    obtain ⟨hs, hbk, hbn, hbs⟩ := hextra
    unfold Java.PrincipalKey.ofStr Node.PrincipalKey.ofStr
    simp only [List.lookup_cons, List.lookup_nil, beq_false_of_ne hs, beq_false_of_ne hbk,
      beq_false_of_ne hbn, beq_false_of_ne hbs]
    iterate 12
      split
      · rfl
    rfl

theorem scanPrincipal_eq (text : Str) :
    Node.scanPrincipal text = (Node.items text).foldl nodePrincipalStep {} := by
  unfold Node.scanPrincipal assignAll Node.principalItems
  rw [List.foldl_filterMap]
  congr
  funext token item
  unfold nodePrincipalStep
  cases Node.PrincipalKey.ofStr item.1 <;> rfl

theorem principalKey_name {key : Str} (h : Node.PrincipalKey.ofStr key = some k)
    (hk : k = .expiryTime ∨ k = .timestamp) : key ∈ ["e".toList, "t".toList] := by
  obtain ⟨before, behind, htable, _⟩ := List.lookup_eq_some_iff.1 h
  have hmem : (key, k) ∈ before ++ (key, k) :: behind :=
    List.mem_append_right before List.mem_cons_self
  rw [← htable] at hmem
  rcases hk with rfl | rfl <;> · simp at hmem; simp [hmem]

/-- What follows the signature of a principal token only concerns the authorized service. -/
def AuthorizedOnly (items : List (Str × Str)) : Prop :=
  ∀ item ∈ items, ∀ key, Node.PrincipalKey.ofStr item.1 = some key →
    key.appended = true ∧ key ≠ .signature

theorem authorized_scan {items : List (Str × Str)} (h : AuthorizedOnly items)
    (token : Node.PrincipalToken) :
    ∃ keyId name signature, items.foldl nodePrincipalStep token =
      { token with
        authorizedServiceKeyId := keyId
        authorizedServiceName := name
        authorizedServiceSignature := signature } := by
  induction items generalizing token with
  | nil => exact ⟨_, _, _, rfl⟩
  | cons item items ih =>
    obtain ⟨keyId, name, signature, hrest⟩ :=
      ih (fun other hother => h other (List.mem_cons_of_mem _ hother)) (nodePrincipalStep token item)
    refine ⟨keyId, name, signature, ?_⟩
    rw [List.foldl_cons, hrest]
    unfold nodePrincipalStep
    cases hkey : Node.PrincipalKey.ofStr item.1 with
    | none => rfl
    | some key =>
      obtain ⟨happended, hsignature⟩ := h item List.mem_cons_self key hkey
      cases key <;> first | exact absurd rfl hsignature | rfl | cases happended

variable [DigitRules]

theorem principal_step (hdigits : AsciiDigits) {item : Str × Str}
    (hascii : ∀ c ∈ item.2, c.toNat < 128)
    (htimes : item.1 ∈ ["e".toList, "t".toList] → IsInteger item.2)
    {node : Node.PrincipalToken} {java : Java.PrincipalToken}
    (h : SamePrincipalScan u s node java) :
    ∃ java', Java.PrincipalToken.assignField java item = .ok java' ∧
      SamePrincipalScan u s (nodePrincipalStep node item) java' := by
  unfold Java.PrincipalToken.assignField nodePrincipalStep
  rw [javaPrincipalKey_ofStr]
  cases hkey : Node.PrincipalKey.ofStr item.1 with
  | none => exact ⟨java, rfl, h⟩
  | some key =>
    have htime := principalKey_name hkey
    cases key with
    | expiryTime =>
      obtain ⟨n, hn, hsame⟩ := (htimes (htime (.inl rfl))).same hdigits hascii
      refine ⟨{ java with expiryTime := n }, ?_, { h with expiryTime := hsame }⟩
      exact congrArg (·.map fun n => { java with expiryTime := n }) hn
    | timestamp =>
      obtain ⟨n, hn, hsame⟩ := (htimes (htime (.inr rfl))).same hdigits hascii
      refine ⟨{ java with timestamp := n }, ?_, { h with timestamp := hsame }⟩
      exact congrArg (·.map fun n => { java with timestamp := n }) hn
    | domain => exact ⟨_, rfl, { h with domain := rfl }⟩
    | name => exact ⟨_, rfl, { h with name := rfl }⟩
    | _ => exact ⟨_, rfl, { h with }⟩

theorem principal_scan (hdigits : AsciiDigits) {items : List (Str × Str)}
    (hascii : ∀ item ∈ items, ∀ c ∈ item.2, c.toNat < 128)
    (htimes : ∀ item ∈ items, item.1 ∈ ["e".toList, "t".toList] → IsInteger item.2)
    {node : Node.PrincipalToken} {java : Java.PrincipalToken}
    (h : SamePrincipalScan u s node java) :
    ∃ java', items.foldlM Java.PrincipalToken.assignField java = .ok java' ∧
      SamePrincipalScan u s (items.foldl nodePrincipalStep node) java' := by
  induction items generalizing node java with
  | nil => exact ⟨java, rfl, h⟩
  | cons item items ih =>
    have hitem := List.mem_cons_self (a := item) (l := items)
    have htail (other : Str × Str) (hother : other ∈ items) := List.mem_cons_of_mem item hother
    obtain ⟨next, hnext, hsame⟩ :=
      principal_step hdigits (hascii item hitem) (htimes item hitem) h
    obtain ⟨last, hlast, hsame⟩ := ih (fun other hother => hascii other (htail other hother))
      (fun other hother => htimes other (htail other hother)) hsame
    refine ⟨last, ?_, hsame⟩
    rw [List.foldlM_cons, hnext]
    exact hlast

/-- A principal token whose signed text both sides take apart in the same way, followed by a
signature and at most what an authorized service appends. -/
def RegularPrincipal (t : Str) : Prop :=
  ∀ p, Java.parts t = some p →
    Uncut p.unsignedToken ∧
      (∀ item ∈ Node.items p.unsignedToken, item.1 ∈ ["e".toList, "t".toList] →
        IsInteger item.2) ∧
      p.signature ≠ [] ∧ Plain ';' '=' p.signature ∧
      ∀ rest, p.authzSvcToken = some rest → AuthorizedOnly (Node.items rest)

def NodeAcceptsPrincipal (scheme : Scheme Key) (settings : Settings) (key : Key) (t : Str) :
    Prop :=
  ∃ token, Node.PrincipalToken.parseSignedToken t = .ok token ∧
    token.validate scheme settings.node (.fin settings.now) (some key)
      (.fin settings.allowedOffset) settings.allowNoExpiry = true

def JavaAcceptsPrincipal (crypto : Java.Crypto Key) (settings : Settings) (pubKey t : Str) :
    Prop :=
  ∃ token, Java.PrincipalToken.ofSignedToken t = .ok token ∧
    token.validate crypto settings.java settings.now (some pubKey) settings.allowedOffset
      settings.allowNoExpiry = .ok ()

omit [DigitRules] in
theorem parts_message (hp : Java.parts t = some p) :
    Node.signedMessage t = some p.unsignedToken := by
  obtain ⟨idx, hidx, hparts⟩ := Option.map_eq_some_iff.1 hp
  rw [Node.signedMessage, hidx, Option.map_some]
  dsimp only at hparts
  split at hparts <;> · subst hparts; rfl

omit [DigitRules] in
/-- What Node reads behind the signed text. -/
theorem parts_trailer (hp : Java.parts t = some p) :
    Node.trailer t =
      some ("s".toList ++ '=' :: (p.signature ++ p.authzSvcToken.getD [])) := by
  obtain ⟨idx, hidx, hparts⟩ := Option.map_eq_some_iff.1 hp
  have hrest : t.drop (idx + 3) = p.signature ++ p.authzSvcToken.getD [] := by
    dsimp only at hparts
    split at hparts
    · subst hparts
      exact (List.take_append_drop _ _).symm
    · subst hparts
      exact (List.append_nil _).symm
  rw [(signed_items hidx).2, hrest]

/-- Neither side accepts a token without a signature. -/
theorem accepted_principal_signed {scheme : Scheme Key} {crypto : Java.Crypto Key}
    (h : NodeAcceptsPrincipal scheme settings key t ∨
      JavaAcceptsPrincipal crypto settings pubKey t) : ∃ p, Java.parts t = some p := by
  cases hp : Java.parts t with
  | some p => exact ⟨p, rfl⟩
  | none =>
    rcases h with ⟨token, hparse, hvalid⟩ | ⟨token, hparse, hvalid⟩
    · obtain ⟨m, _, hm, _⟩ := Node.Token.validate_signed hvalid
      rw [(Node.PrincipalToken.parse_ok hparse).2, Node.signedMessage,
        Option.map_eq_none_iff.1 hp] at hm
      cases hm
    · obtain ⟨_, m, _, _, hm, _⟩ := Java.Token.validate_ok.1 hvalid
      rw [Java.ofSignedToken_unsignedToken hparse, hp] at hm
      cases hm

/-- Both scans of a regular principal token. -/
theorem principal_scans (hdigits : AsciiDigits) (hascii : ∀ c ∈ t, c.toNat < 128)
    (h : RegularPrincipal t) (hp : Java.parts t = some p) :
    ∃ java : Java.PrincipalToken,
      Java.PrincipalToken.parseItems
        { unsignedToken := some p.unsignedToken, signature := some p.signature }
        p.unsignedToken = .ok java ∧
      SamePrincipalScan (some p.unsignedToken) (some p.signature) (Node.scanPrincipal t) java ∧
      (Node.scanPrincipal t).signature = some p.signature := by
  obtain ⟨huncut, htimes, hne, hplain, hrest⟩ := h p hp
  have hmessage := parts_message hp
  have htrailer := parts_trailer hp
  have hitems (item : Str × Str) (hitem : item ∈ Node.items p.unsignedToken) (c : Char)
      (hc : c ∈ item.2) : c.toNat < 128 := by
    obtain ⟨idx, _, htake⟩ := Option.map_eq_some_iff.1 hmessage
    have hmem := Node.mem_of_items hitem hc
    rw [← htake] at hmem
    exact hascii c (List.mem_of_mem_take hmem)
  have hzero : SameNumber 0 0 := ⟨rfl, by decide⟩
  have hstart : SamePrincipalScan (some p.unsignedToken) (some p.signature) {}
      { unsignedToken := some p.unsignedToken, signature := some p.signature } :=
    ⟨rfl, rfl, rfl, rfl, hzero, hzero⟩
  obtain ⟨java, hjava, hsame⟩ := principal_scan hdigits hitems htimes hstart
  have hnode : ∃ keyId name signature, Node.scanPrincipal t =
      { (Node.items p.unsignedToken).foldl nodePrincipalStep {} with
        signature := some p.signature
        authorizedServiceKeyId := keyId
        authorizedServiceName := name
        authorizedServiceSignature := signature } := by
    have hfield : Node.items ("s".toList ++ '=' :: p.signature) = [("s".toList, p.signature)] := by
      refine Node.items_field ?_ (by decide) hplain.eq
      rw [List.mem_append, List.mem_cons, not_or, not_or]
      exact ⟨by decide, by decide, hplain.sep⟩
    have hscan : Node.scanPrincipal t = (Node.items ("s".toList ++ '=' ::
        (p.signature ++ p.authzSvcToken.getD []))).foldl nodePrincipalStep
          ((Node.items p.unsignedToken).foldl nodePrincipalStep {}) := by
      rw [scanPrincipal_eq, Node.items_signedToken hmessage htrailer, List.foldl_append]
    rw [hscan]
    rcases (Java.parts_some hp).2 with ⟨hnone, _⟩ | ⟨r, hsome, _, _, _⟩
    · rw [hnone, Option.getD_none, List.append_nil, hfield]
      exact ⟨_, _, _, rfl⟩
    · have hitems : Node.items (';' :: r) = Node.items r := Node.items_append [] r
      have honly := hrest _ hsome
      rw [hitems] at honly
      obtain ⟨keyId, name, signature, hauthorized⟩ := authorized_scan honly
        (nodePrincipalStep ((Node.items p.unsignedToken).foldl nodePrincipalStep {})
          ("s".toList, p.signature))
      refine ⟨keyId, name, signature, ?_⟩
      rw [hsome, Option.getD_some, ← List.cons_append, ← List.append_assoc, Node.items_append,
        hfield, List.foldl_append, List.foldl_cons, List.foldl_nil, hauthorized]
      rfl
  obtain ⟨keyId, name, signature, hnode⟩ := hnode
  refine ⟨java, ?_, ?_, ?_⟩
  · rw [Java.PrincipalToken.parseItems_eq, decode_eq_items huncut, hjava]
  · rw [hnode]
    exact { hsame with }
  · rw [hnode]

/-- What makes either side accept a regular principal token. -/
theorem principal_accepted_iff (hdigits : AsciiDigits) (hmax : settings.maxExpiry ≤ 2592000)
    {crypto : Java.Crypto Key} {scheme : Scheme Key} (hcheck : SameCheck crypto scheme)
    (hkey : crypto.loadPublicKey pubKey = .ok key) (hascii : ∀ c ∈ t, c.toNat < 128)
    (h : RegularPrincipal t) (hp : Java.parts t = some p) :
    ∃ timestamp expiryTime : Int, SameNumber (Node.scanPrincipal t).expiryTime expiryTime ∧
      let accepted := (Node.scanPrincipal t).domain.getD [] ≠ [] ∧
        (Node.scanPrincipal t).name.getD [] ≠ [] ∧ Fresh settings timestamp expiryTime ∧
        scheme.verify p.unsignedToken key p.signature = true
      (NodeAcceptsPrincipal scheme settings key t ↔ accepted) ∧
        (JavaAcceptsPrincipal crypto settings pubKey t ↔ accepted) := by
  obtain ⟨java, hjava, hsame, hsignature⟩ := principal_scans hdigits hascii h hp
  have hne : t ≠ [] := by
    rintro rfl
    cases hp
  have hmessage : (Node.scanPrincipal t).domain.getD [] ≠ [] → p.unsignedToken ≠ [] := by
    intro hdomain hempty
    rw [hempty] at hjava
    cases hjava
    rw [hsame.domain] at hdomain
    exact hdomain rfl
  refine ⟨java.timestamp, java.expiryTime, hsame.expiryTime, ?_, ?_⟩
  · have hvalid (hdomain : (Node.scanPrincipal t).domain.getD [] ≠ []) :=
      node_validate hmax scheme key
        { (Node.scanPrincipal t).toToken with
          unsignedToken := Node.signedMessage t
          signedToken := some t }
        hsame.timestamp hsame.expiryTime (parts_message hp) hsignature
        ⟨hmessage hdomain, (h p hp).2.2.1⟩
    constructor
    · rintro ⟨token, hparse, hok⟩
      obtain ⟨_, hdomain, hname, rfl⟩ := Node.PrincipalToken.parseSignedToken_ok.1 hparse
      exact ⟨hdomain, hname, (hvalid hdomain).1 hok⟩
    · rintro ⟨hdomain, hname, hok⟩
      exact ⟨_, Node.PrincipalToken.parseSignedToken_ok.2 ⟨hne, hdomain, hname, rfl⟩,
        (hvalid hdomain).2 hok⟩
  · rw [← hcheck, hsame.domain, hsame.name]
    obtain ⟨keyId, name, signature, hframe, _⟩ :=
      java.elim_parseAuthorizedService_frame p.authzSvcToken
    have hparts {token : Java.PrincipalToken} : Java.PrincipalToken.ofSignedToken t = .ok token ↔
        java.domain.getD [] ≠ [] ∧ java.name.getD [] ≠ [] ∧
        { java with
          authorizedServiceKeyId := keyId
          authorizedServiceName := name
          authorizedServiceSignature := signature
          signedToken := some t } = token := by
      rw [Java.ofSignedToken_ok, hp]
      simp only [Option.map_some, Option.getD_some, Option.bind_some, hjava, Except.ok.injEq,
        exists_eq_left', hframe]
      exact and_iff_right hne
    have hvalid := java_validate hmax { java.toToken with signedToken := some t }
      hsame.timestamp.2 hkey hsame.unsignedToken hsame.signature
    constructor
    · rintro ⟨token, hparse, hok⟩
      obtain ⟨hdomain, hname, rfl⟩ := hparts.1 hparse
      exact ⟨hdomain, hname, hvalid.1 hok⟩
    · rintro ⟨hdomain, hname, hok⟩
      exact ⟨_, hparts.2 ⟨hdomain, hname, rfl⟩, hvalid.2 hok⟩

end PrincipalTokens

theorem Fresh.bounded {settings : Settings} (h : Fresh settings timestamp expiryTime)
    (hexpiry : (settings.noExpiry && settings.allowNoExpiry) = false) :
    settings.now ≤ expiryTime ∧
      expiryTime ≤ settings.now + settings.maxExpiry + settings.allowedOffset := by
  rcases h.2 with ⟨_, hno, hallow⟩ | hbounds
  · rw [hno, hallow] at hexpiry
    cases hexpiry
  · exact hbounds

/-- An expiry that the settings bound. -/
def BoundedExpiry (settings : Settings) (expiryTime : JsNumber) : Prop :=
  ∃ n : Int, expiryTime = .fin n ∧ settings.now ≤ n ∧
    n ≤ settings.now + settings.maxExpiry + settings.allowedOffset

section Samples

local instance readerDigitRules : DigitRules := .ascii

def noonSettings : Settings where
  now := 1000
  allowedOffset := 300
  maxExpiry := 2592000
  noExpiry := false
  allowNoExpiry := false
  time := by decide
  offset := by decide

def readersToken : Str := "v=Z1;d=sports;r=readers;t=900;e=2000;s=sig"

/-- A token whose expiry is no number. -/
def endlessToken : Str := "v=Z1;d=sports;r=readers;e=never;s=sig"

def readerSignatures : Scheme Nat :=
  .ofSignatures [(0, "v=Z1;d=sports;r=readers;t=900;e=2000", "sig"),
    (0, "v=Z1;d=sports;r=readers;e=never", "sig")]

def readerCrypto : Java.Crypto Nat where
  signed := readerSignatures.signed
  loadPublicKey _ := .ok 0
  verify message key signature := .ok (readerSignatures.verify message key signature)
  sound h := readerSignatures.sound (Except.ok.inj h)

theorem readerCrypto_same : SameCheck readerCrypto readerSignatures :=
  fun _ _ _ => ⟨Except.ok.inj, congrArg Except.ok⟩

theorem readersToken_regular : RegularRole readersToken := by
  intro idx hidx
  have hindex : indexOf (";s=" : Str) readersToken = some 36 := by decide +kernel
  obtain rfl := Option.some.inj (hindex.symm.trans hidx)
  have hitems : Node.items (readersToken.take 36) =
      [("v".toList, "Z1".toList), ("d".toList, "sports".toList), ("r".toList, "readers".toList),
        ("t".toList, "900".toList), ("e".toList, "2000".toList)] := by decide +kernel
  have huncut : Uncut (readersToken.take 36) := by
    unfold Uncut
    decide +kernel
  refine ⟨huncut, ?_, by decide +kernel, by decide +kernel⟩
  rw [hitems]
  constructor
  · simp only [List.forall_mem_cons]
    exact ⟨fun h => absurd h (by decide), fun h => absurd h (by decide),
      fun h => absurd h (by decide), fun _ => ⟨900, rfl, by decide⟩,
      fun _ => ⟨2000, rfl, by decide⟩, nofun⟩
  · simp only [List.forall_mem_cons]
    exact ⟨fun h => absurd h (by decide), fun h => absurd h (by decide),
      fun h => absurd h (by decide), fun h => absurd h (by decide),
      fun h => absurd h (by decide), nofun⟩

theorem readersToken_ascii : ∀ c ∈ readersToken, c.toNat < 128 := by
  have hall : readersToken.all (fun c => decide (c.toNat < 128)) = true := by decide +kernel
  exact fun c hmem => of_decide_eq_true (List.all_eq_true.1 hall c hmem)

end Samples

end Athenz.Tokens
