import Athenz.NodeToken

namespace Athenz.Node
open Lib.Text Lib.Number Lib.Assign
set_option autoImplicit true

inductive PrincipalKey where
  | salt | authorizedServices | authorizedServiceKeyId | authorizedServiceName
  | authorizedServiceSignature | domain | expiryTime | host | ip | keyId | name
  | originalRequestor | signature | timestamp | version | keyService
deriving DecidableEq

def PrincipalKey.ofStr (key : Str) : Option PrincipalKey :=
  List.lookup key [("a", .salt), ("b", .authorizedServices), ("bk", .authorizedServiceKeyId),
    ("bn", .authorizedServiceName), ("bs", .authorizedServiceSignature), ("d", .domain),
    ("e", .expiryTime), ("h", .host), ("i", .ip), ("k", .keyId), ("n", .name),
    ("o", .originalRequestor), ("s", .signature), ("t", .timestamp), ("v", .version),
    ("z", .keyService)]

structure PrincipalToken extends Token where
  name : Option Str := none
  originalRequestor : Option Str := none
  keyService : Option Str := none
  authorizedServices : Option (List Str) := none
  authorizedServiceName : Option Str := none
  authorizedServiceKeyId : Str := "0"
  authorizedServiceSignature : Option Str := none

def PrincipalToken.assign (token : PrincipalToken) (key : PrincipalKey) (value : Str) :
    PrincipalToken :=
  match key with
  | .salt => { token with salt := some value }
  | .authorizedServices => { token with authorizedServices := some (value.splitOn ',') }
  | .authorizedServiceKeyId => { token with authorizedServiceKeyId := value }
  | .authorizedServiceName => { token with authorizedServiceName := some value }
  | .authorizedServiceSignature => { token with authorizedServiceSignature := some value }
  | .domain => { token with domain := some value }
  | .expiryTime => { token with expiryTime := ofText value }
  | .host => { token with host := some value }
  | .ip => { token with ip := some value }
  | .keyId => { token with keyId := value }
  | .name => { token with name := some value }
  | .originalRequestor => { token with originalRequestor := some value }
  | .signature => { token with signature := some value }
  | .timestamp => { token with timestamp := ofText value }
  | .version => { token with version := some value }
  | .keyService => { token with keyService := some value }

def principalItems (text : Str) : List (PrincipalKey × Str) :=
  (items text).filterMap fun item => (PrincipalKey.ofStr item.1).map (·, item.2)

def scanPrincipal (text : Str) : PrincipalToken :=
  assignAll PrincipalToken.assign {} (principalItems text)

def PrincipalToken.parseSignedToken (signedToken : Str) : Except Str PrincipalToken :=
  if signedToken = [] then .error "Input String signedToken must not be empty"
  else
    let token := scanPrincipal signedToken
    if !truthy token.domain then .error "SignedToken does not contain required domain component"
    else if !truthy token.name then .error "SignedToken does not contain required name component"
    else
      .ok { token with
        unsignedToken := signedMessage signedToken
        signedToken := some signedToken }

/-- What the accessors of a principal token expose, the authorized service's own part left out. -/
structure PrincipalAttributes where
  version : Option Str
  domain : Option Str
  name : Option Str
  host : Option Str
  ip : Option Str
  salt : Option Str
  timestamp : JsNumber
  expiryTime : JsNumber
  keyId : Str
  keyService : Option Str
  originalRequestor : Option Str
  authorizedServices : Option (List Str)
deriving DecidableEq

def PrincipalToken.attributes (token : PrincipalToken) : PrincipalAttributes where
  version := token.version
  domain := token.domain
  name := token.name
  host := token.host
  ip := token.ip
  salt := token.salt
  timestamp := token.timestamp
  expiryTime := token.expiryTime
  keyId := token.keyId
  keyService := token.keyService
  originalRequestor := token.originalRequestor
  authorizedServices := token.authorizedServices

theorem PrincipalToken.parse_ok (h : parseSignedToken t = .ok token) :
    token.attributes = (scanPrincipal t).attributes ∧
      token.unsignedToken = signedMessage t := by
  unfold parseSignedToken at h
  split at h
  · cases h
  · dsimp only at h
    split at h
    · cases h
    · split at h
      · cases h
      · cases h
        exact ⟨rfl, rfl⟩

theorem PrincipalToken.parseSignedToken_ok {token : PrincipalToken} :
    parseSignedToken t = .ok token ↔ t ≠ [] ∧ (scanPrincipal t).domain.getD [] ≠ [] ∧
      (scanPrincipal t).name.getD [] ≠ [] ∧
      { scanPrincipal t with
        unsignedToken := signedMessage t
        signedToken := some t } = token := by
  unfold parseSignedToken
  rw [← truthy_iff, ← truthy_iff]
  by_cases ht : t = []
  · simp [ht]
  · cases hdomain : truthy (scanPrincipal t).domain <;>
      cases hname : truthy (scanPrincipal t).name <;> simp [ht, hdomain, hname]

section ScanPrincipal

variable (text : Str) (key : PrincipalKey)

theorem scanPrincipal_text (field : PrincipalToken → Option Str) (h0 : field {} = none)
    (h : ∀ token k v, field (PrincipalToken.assign token k v) =
      if k = key then some v else field token) :
    field (scanPrincipal text) = lastValue key (principalItems text) :=
  optional_assignAll h h0 _

theorem scanPrincipal_value (field : PrincipalToken → τ) (read : Str → τ)
    (h : ∀ token k v, field (PrincipalToken.assign token k v) =
      if k = key then read v else field token) :
    field (scanPrincipal text) =
      ((lastValue key (principalItems text)).map read).getD (field {}) :=
  field_assignAll h _ _

theorem scanPrincipal_authorizedServices :
    (scanPrincipal text).authorizedServices =
      (lastValue .authorizedServices (principalItems text)).map (·.splitOn ',') := by
  have hb := scanPrincipal_value text .authorizedServices (·.authorizedServices)
    (fun value => some (value.splitOn ',')) fun _ k _ => by cases k <;> rfl
  rw [hb]
  cases lastValue .authorizedServices (principalItems text) <;> rfl

theorem scanPrincipal_attributes :
    (scanPrincipal text).attributes =
      { version := lastValue .version (principalItems text)
        domain := lastValue .domain (principalItems text)
        name := lastValue .name (principalItems text)
        host := lastValue .host (principalItems text)
        ip := lastValue .ip (principalItems text)
        salt := lastValue .salt (principalItems text)
        timestamp := ((lastValue .timestamp (principalItems text)).map ofText).getD 0
        expiryTime := ((lastValue .expiryTime (principalItems text)).map ofText).getD 0
        keyId := (lastValue .keyId (principalItems text)).getD "0"
        keyService := lastValue .keyService (principalItems text)
        originalRequestor := lastValue .originalRequestor (principalItems text)
        authorizedServices :=
          (lastValue .authorizedServices (principalItems text)).map (·.splitOn ',') } := by
  have hv := scanPrincipal_text text .version (·.version) rfl fun _ k _ => by cases k <;> rfl
  have hd := scanPrincipal_text text .domain (·.domain) rfl fun _ k _ => by cases k <;> rfl
  have hn := scanPrincipal_text text .name (·.name) rfl fun _ k _ => by cases k <;> rfl
  have hh := scanPrincipal_text text .host (·.host) rfl fun _ k _ => by cases k <;> rfl
  have hi := scanPrincipal_text text .ip (·.ip) rfl fun _ k _ => by cases k <;> rfl
  have ha := scanPrincipal_text text .salt (·.salt) rfl fun _ k _ => by cases k <;> rfl
  have ht := scanPrincipal_value text .timestamp (·.timestamp) ofText
    fun _ k _ => by cases k <;> rfl
  have he := scanPrincipal_value text .expiryTime (·.expiryTime) ofText
    fun _ k _ => by cases k <;> rfl
  have hk := scanPrincipal_value text .keyId (·.keyId) id fun _ k _ => by cases k <;> rfl
  have hz := scanPrincipal_text text .keyService (·.keyService) rfl
    fun _ k _ => by cases k <;> rfl
  have ho := scanPrincipal_text text .originalRequestor (·.originalRequestor) rfl
    fun _ k _ => by cases k <;> rfl
  simp only [PrincipalToken.attributes, hv, hd, hn, hh, hi, ha, ht, he, hk, hz, ho,
    scanPrincipal_authorizedServices, Option.map_id_fun, id_eq]

end ScanPrincipal

/-- The keys of the authorized service's own part and of the signature. -/
def PrincipalKey.appended : PrincipalKey → Bool
  | .signature => true
  | .authorizedServiceKeyId => true
  | .authorizedServiceName => true
  | .authorizedServiceSignature => true
  | _ => false

def PrincipalKey.reading : PrincipalKey → Reading
  | .timestamp => .number
  | .expiryTime => .number
  | .keyId => .keyId
  | _ => .text

/-- Nothing behind the signature gives a listed attribute another value. -/
def PrincipalToken.TrailerHarmless (signedToken : Str) : Prop :=
  ∀ m r, signedMessage signedToken = some m → trailer signedToken = some r →
    ∀ key : PrincipalKey, key.appended = false →
      Harmless key key.reading (principalItems m) (principalItems r)

theorem scanPrincipal_attributes_eq_iff :
    (scanPrincipal t).attributes = (scanPrincipal m).attributes ↔
      ∀ key : PrincipalKey, key.appended = false →
        key.reading.read (lastValue key (principalItems t)) =
          key.reading.read (lastValue key (principalItems m)) := by
  rw [scanPrincipal_attributes, scanPrincipal_attributes, PrincipalAttributes.mk.injEq]
  constructor
  · rintro ⟨hv, hd, hn, hh, hi, ha, ht, he, hk, hz, ho, hb⟩ key hs
    have hb' := Option.map_injective (splitOn_injective ',') hb
    cases key <;> first | cases hs; done | simp only [PrincipalKey.reading, Reading.read, *]
  · intro h
    have text (key : PrincipalKey) (hs : key.appended = false) (hk : key.reading = .text) :
        lastValue key (principalItems t) = lastValue key (principalItems m) := by
      have hkey := h key hs
      rw [hk] at hkey
      exact Sum.inr.inj hkey
    refine ⟨text .version rfl rfl, text .domain rfl rfl, text .name rfl rfl, text .host rfl rfl,
      text .ip rfl rfl, text .salt rfl rfl, Sum.inl.inj (h .timestamp rfl),
      Sum.inl.inj (h .expiryTime rfl), Option.some.inj (Sum.inr.inj (h .keyId rfl)),
      text .keyService rfl rfl, text .originalRequestor rfl rfl, ?_⟩
    rw [text .authorizedServices rfl rfl]

theorem principalItems_signedToken (hm : signedMessage t = some m) (hr : trailer t = some r) :
    principalItems t = principalItems m ++ principalItems r := by
  rw [principalItems, items_signedToken hm hr, List.filterMap_append]
  rfl

/-- A parsed principal token says what its signed message says exactly when its trailer is
harmless. -/
theorem PrincipalToken.attributes_signed_iff (h : parseSignedToken t = .ok token)
    (hm : signedMessage t = some m) :
    token.attributes = (scanPrincipal m).attributes ↔ TrailerHarmless t := by
  obtain ⟨r, hr⟩ := trailer_of_signedMessage hm
  rw [(parse_ok h).1, scanPrincipal_attributes_eq_iff, principalItems_signedToken hm hr]
  simp only [← harmless_iff]
  constructor
  · intro hk m' r' hm' hr'
    rw [hm, Option.some.injEq] at hm'
    rw [hr, Option.some.injEq] at hr'
    rwa [← hm', ← hr']
  · exact fun hk => hk m r hm hr

end Athenz.Node
