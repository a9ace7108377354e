import Athenz.NodeToken

namespace Athenz.Node
open Lib.Text Lib.Number Lib.Assign
set_option autoImplicit true

inductive RoleKey where
  | salt | complete | domain | expiryTime | host | ip | keyId | principal | roles | signature
  | timestamp | proxyUser | version
deriving DecidableEq

def RoleKey.ofStr (key : Str) : Option RoleKey :=
  List.lookup key [("a", .salt), ("c", .complete), ("d", .domain), ("e", .expiryTime),
    ("h", .host), ("i", .ip), ("k", .keyId), ("p", .principal), ("r", .roles),
    ("s", .signature), ("t", .timestamp), ("proxy", .proxyUser), ("v", .version)]

structure RoleToken extends Token where
  roles : Option (List Str) := none
  principal : Option Str := none
  proxyUser : Option Str := none
  domainCompleteRoleSet : Option Bool := none

/-- The token under construction, with the local `roleNames` of the parser. -/
structure RoleScan extends RoleToken where
  roleNames : Option Str := none

def RoleScan.assign (scan : RoleScan) (key : RoleKey) (value : Str) : RoleScan :=
  match key with
  | .salt => { scan with salt := some value }
  | .complete => { scan with
      domainCompleteRoleSet :=
        if ofText value = 1 then some true else scan.domainCompleteRoleSet }
  | .domain => { scan with domain := some value }
  | .expiryTime => { scan with expiryTime := ofText value }
  | .host => { scan with host := some value }
  | .ip => { scan with ip := some value }
  | .keyId => { scan with keyId := value }
  | .principal => { scan with principal := some value }
  | .roles => { scan with roleNames := some value }
  | .signature => { scan with signature := some value }
  | .timestamp => { scan with timestamp := ofText value }
  | .proxyUser => { scan with proxyUser := some value }
  | .version => { scan with version := some value }

def roleItems (text : Str) : List (RoleKey × Str) :=
  (items text).filterMap fun item => (RoleKey.ofStr item.1).map (·, item.2)

def scanRole (text : Str) : RoleScan :=
  assignAll RoleScan.assign {} (roleItems text)

def RoleToken.parseSignedToken (signedToken : Str) : Except Str RoleToken :=
  if signedToken = [] then .error "Input String signedToken must not be empty"
  else
    let scan := scanRole signedToken
    if !truthy scan.domain then .error "SignedToken does not contain required domain component"
    else
      match scan.roleNames with
      | none => .error "SignedToken does not contain required roles component"
      | some roleNames =>
        if roleNames = [] then .error "SignedToken does not contain required roles component"
        else
          .ok { scan.toRoleToken with
            unsignedToken := signedMessage signedToken
            roles := some (roleNames.splitOn ',')
            signedToken := some signedToken }

/-- What the accessors of a role token expose. -/
structure RoleAttributes where
  version : Option Str
  domain : Option Str
  roles : Option (List Str)
  principal : Option Str
  proxyUser : Option Str
  host : Option Str
  ip : Option Str
  salt : Option Str
  timestamp : JsNumber
  expiryTime : JsNumber
  keyId : Str
deriving DecidableEq

def RoleToken.attributes (token : RoleToken) : RoleAttributes where
  version := token.version
  domain := token.domain
  roles := token.roles
  principal := token.principal
  proxyUser := token.proxyUser
  host := token.host
  ip := token.ip
  salt := token.salt
  timestamp := token.timestamp
  expiryTime := token.expiryTime
  keyId := token.keyId

/-- The attributes that parsing a text alone yields. -/
def RoleScan.attributes (scan : RoleScan) : RoleAttributes :=
  { scan.toRoleToken.attributes with roles := scan.roleNames.map (·.splitOn ',') }

theorem RoleToken.parse_ok (h : parseSignedToken t = .ok token) :
    token.attributes = (scanRole t).attributes ∧
      token.unsignedToken = signedMessage t := by
  unfold parseSignedToken at h
  split at h
  · cases h
  · dsimp only at h
    split at h
    · cases h
    · split at h
      · cases h
      · split at h
        · cases h
        · rename_i roleNames hr _
          cases h
          exact ⟨by rw [RoleScan.attributes, hr]; rfl, rfl⟩

theorem RoleToken.parseSignedToken_ok {token : RoleToken} :
    parseSignedToken t = .ok token ↔ t ≠ [] ∧ (scanRole t).domain.getD [] ≠ [] ∧
      (scanRole t).roleNames.getD [] ≠ [] ∧
      { (scanRole t).toRoleToken with
        unsignedToken := signedMessage t
        roles := some (((scanRole t).roleNames.getD []).splitOn ',')
        signedToken := some t } = token := by
  unfold parseSignedToken
  rw [← truthy_iff]
  by_cases ht : t = []
  · simp [ht]
  · cases hdomain : truthy (scanRole t).domain with
    | false => simp [ht, hdomain]
    | true =>
      cases hroles : (scanRole t).roleNames with
      | none => simp [ht, hdomain, hroles]
      | some roleNames => by_cases hempty : roleNames = [] <;> simp [ht, hdomain, hroles, hempty]

section ScanRole

variable (text : Str) (key : RoleKey)

theorem scanRole_text (field : RoleScan → Option Str) (h0 : field {} = none)
    (h : ∀ scan k v, field (RoleScan.assign scan k v) = if k = key then some v else field scan) :
    field (scanRole text) = lastValue key (roleItems text) :=
  optional_assignAll h h0 _

theorem scanRole_value (field : RoleScan → τ) (read : Str → τ)
    (h : ∀ scan k v, field (RoleScan.assign scan k v) = if k = key then read v else field scan) :
    field (scanRole text) = ((lastValue key (roleItems text)).map read).getD (field {}) :=
  field_assignAll h _ _

theorem scanRole_attributes :
    (scanRole text).attributes =
      { version := lastValue .version (roleItems text)
        domain := lastValue .domain (roleItems text)
        roles := (lastValue .roles (roleItems text)).map (·.splitOn ',')
        principal := lastValue .principal (roleItems text)
        proxyUser := lastValue .proxyUser (roleItems text)
        host := lastValue .host (roleItems text)
        ip := lastValue .ip (roleItems text)
        salt := lastValue .salt (roleItems text)
        timestamp := ((lastValue .timestamp (roleItems text)).map ofText).getD 0
        expiryTime := ((lastValue .expiryTime (roleItems text)).map ofText).getD 0
        keyId := (lastValue .keyId (roleItems text)).getD "0" } := by
  have hv := scanRole_text text .version (·.version) rfl fun _ k _ => by cases k <;> rfl
  have hd := scanRole_text text .domain (·.domain) rfl fun _ k _ => by cases k <;> rfl
  have hr := scanRole_text text .roles (·.roleNames) rfl fun _ k _ => by cases k <;> rfl
  have hp := scanRole_text text .principal (·.principal) rfl fun _ k _ => by cases k <;> rfl
  have hu := scanRole_text text .proxyUser (·.proxyUser) rfl fun _ k _ => by cases k <;> rfl
  have hh := scanRole_text text .host (·.host) rfl fun _ k _ => by cases k <;> rfl
  have hi := scanRole_text text .ip (·.ip) rfl fun _ k _ => by cases k <;> rfl
  have ha := scanRole_text text .salt (·.salt) rfl fun _ k _ => by cases k <;> rfl
  have ht := scanRole_value text .timestamp (·.timestamp) ofText fun _ k _ => by cases k <;> rfl
  have he := scanRole_value text .expiryTime (·.expiryTime) ofText fun _ k _ => by cases k <;> rfl
  have hk := scanRole_value text .keyId (·.keyId) id fun _ k _ => by cases k <;> rfl
  simp only [RoleScan.attributes, RoleToken.attributes, hv, hd, hr, hp, hu, hh, hi, ha, ht, he,
    hk, Option.map_id_fun, id_eq]

end ScanRole

def RoleKey.reading : RoleKey → Reading
  | .timestamp => .number
  | .expiryTime => .number
  | .keyId => .keyId
  | _ => .text

/-- Nothing behind the signature gives a listed attribute another value. -/
def RoleToken.TrailerHarmless (signedToken : Str) : Prop :=
  ∀ m r, signedMessage signedToken = some m → trailer signedToken = some r →
    ∀ key, key ≠ .signature → key ≠ .complete →
      Harmless key key.reading (roleItems m) (roleItems r)

theorem scanRole_attributes_eq_iff :
    (scanRole t).attributes = (scanRole m).attributes ↔
      ∀ key : RoleKey, key ≠ .signature → key ≠ .complete →
        key.reading.read (lastValue key (roleItems t)) =
          key.reading.read (lastValue key (roleItems m)) := by
  rw [scanRole_attributes, scanRole_attributes, RoleAttributes.mk.injEq]
  constructor
  · rintro ⟨hv, hd, hr, hp, hu, hh, hi, ha, ht, he, hk⟩ key hs hc
    have hr' := Option.map_injective (splitOn_injective ',') hr
    cases key <;> first | contradiction | simp only [RoleKey.reading, Reading.read, *]
  · intro h
    have text (key : RoleKey) (hs : key ≠ .signature) (hc : key ≠ .complete)
        (hk : key.reading = .text) :
        lastValue key (roleItems t) = lastValue key (roleItems m) := by
      have hkey := h key hs hc
      rw [hk] at hkey
      exact Sum.inr.inj hkey
    refine ⟨text .version ?_ ?_ rfl, text .domain ?_ ?_ rfl, ?_, text .principal ?_ ?_ rfl,
      text .proxyUser ?_ ?_ rfl, text .host ?_ ?_ rfl, text .ip ?_ ?_ rfl,
      text .salt ?_ ?_ rfl, Sum.inl.inj (h .timestamp ?_ ?_), Sum.inl.inj (h .expiryTime ?_ ?_),
      Option.some.inj (Sum.inr.inj (h .keyId ?_ ?_))⟩
    all_goals first | (intro hc; cases hc) | rw [text .roles (by decide) (by decide) rfl]

theorem roleItems_signedToken (hm : signedMessage t = some m) (hr : trailer t = some r) :
    roleItems t = roleItems m ++ roleItems r := by
  rw [roleItems, items_signedToken hm hr, List.filterMap_append]
  rfl

/-- A parsed role token says what its signed message says exactly when its trailer is harmless. -/
theorem RoleToken.attributes_signed_iff (h : parseSignedToken t = .ok token)
    (hm : signedMessage t = some m) :
    token.attributes = (scanRole m).attributes ↔ TrailerHarmless t := by
  obtain ⟨r, hr⟩ := trailer_of_signedMessage hm
  rw [(parse_ok h).1, scanRole_attributes_eq_iff, roleItems_signedToken hm hr]
  simp only [← harmless_iff]
  constructor
  · intro hk m' r' hm' hr'
    rw [hm, Option.some.injEq] at hm'
    rw [hr, Option.some.injEq] at hr'
    rwa [← hm', ← hr']
  · exact fun hk => hk m r hm hr

end Athenz.Node
