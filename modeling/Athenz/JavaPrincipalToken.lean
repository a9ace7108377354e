import Athenz.JavaToken

namespace Athenz.Java
open Lib.Text Lib.Decimal Lib.Result
set_option autoImplicit true

inductive PrincipalKey where
  | salt | authorizedServices | domain | expiryTime | host | ip | keyId | name
  | originalRequestor | timestamp | version | keyService
deriving DecidableEq

def PrincipalKey.ofStr (key : Str) : Option PrincipalKey :=
  List.lookup key [("a", .salt), ("b", .authorizedServices), ("d", .domain), ("e", .expiryTime),
    ("h", .host), ("i", .ip), ("k", .keyId), ("n", .name), ("o", .originalRequestor),
    ("t", .timestamp), ("v", .version), ("z", .keyService)]

structure PrincipalToken extends Token where
  name : Option Str := none
  originalRequestor : Option Str := none
  keyService : Option Str := none
  authorizedServices : Option (List Str) := none
  authorizedServiceName : Option Str := none
  authorizedServiceKeyId : Str := "0"
  authorizedServiceSignature : Option Str := none

/-- The text in front of the signature, the signature, and what an authorized service appended. -/
structure Parts where
  unsignedToken : Str
  signature : Str
  authzSvcToken : Option Str
deriving DecidableEq

def parts (signedToken : Str) : Option Parts :=
  (indexOf ";s=" signedToken).map fun idx =>
    let unsignedToken := signedToken.take idx
    let rest := signedToken.drop (idx + 3)
    match indexOf ";" rest, indexOf ";bs=" rest with
    | some authzIdx, some _ => ⟨unsignedToken, rest.take authzIdx, some (rest.drop authzIdx)⟩
    | _, _ => ⟨unsignedToken, rest, none⟩

namespace PrincipalToken

variable [DigitRules]

def assign (token : PrincipalToken) (key : PrincipalKey) (value : Str) :
    Except Str PrincipalToken :=
  match key with
  | .salt => .ok { token with salt := some value }
  | .authorizedServices => .ok { token with authorizedServices := some (splitTrim ',' value) }
  | .domain => .ok { token with domain := some value }
  | .expiryTime => (parseLong value).map fun n => { token with expiryTime := n }
  | .host => .ok { token with host := some value }
  | .ip => .ok { token with ip := some value }
  | .keyId => .ok { token with keyId := value }
  | .name => .ok { token with name := some value }
  | .originalRequestor => .ok { token with originalRequestor := some value }
  | .timestamp => (parseLong value).map fun n => { token with timestamp := n }
  | .version => .ok { token with version := some value }
  | .keyService => .ok { token with keyService := some value }

def parseItem (token : PrincipalToken) (item : Str) : Except Str PrincipalToken :=
  match splitTrim '=' item with
  | [key, value] =>
    match PrincipalKey.ofStr key with
    | some key => token.assign key value
    | none => .ok token
  | _ => .ok token

def parseItems (token : PrincipalToken) (text : Str) : Except Str PrincipalToken :=
  (splitTrim ';' text).foldlM parseItem token

omit [DigitRules] in
def parseAuthorizedItem (token : PrincipalToken) (item : Str) : PrincipalToken :=
  match splitTrim '=' item with
  | [key, value] =>
    if key = "bk" then { token with authorizedServiceKeyId := value }
    else if key = "bn" then { token with authorizedServiceName := some value }
    else token
  | _ => token

def parseAuthorizedService (token : PrincipalToken) (authzSvcToken : Str) : PrincipalToken :=
  match indexOf ";bs=" authzSvcToken with
  | some idx =>
    (splitTrim ';' (authzSvcToken.take idx)).foldl parseAuthorizedItem
      { token with authorizedServiceSignature := some (authzSvcToken.drop (idx + 4)) }
  | none => token

/-- The constructor on a signed token. -/
def ofSignedToken (signedToken : Str) : Except Str PrincipalToken := do
  refuse (signedToken = []) "Input String signedToken must not be empty"
  let found := parts signedToken
  let token ← parseItems
    { unsignedToken := found.map (·.unsignedToken), signature := found.map (·.signature) }
    ((found.map (·.unsignedToken)).getD signedToken)
  let token := (found.bind (·.authzSvcToken)).elim token token.parseAuthorizedService
  refuse (token.domain.getD [] = []) "SignedToken does not contain required domain component"
  refuse (token.name.getD [] = []) "SignedToken does not contain required name component"
  return { token with signedToken := some signedToken }

def validateForAuthorizedService (crypto : Crypto Key) (token : PrincipalToken)
    (pubKey : Option Str) : Except Str Unit :=
  let who : Str := "PrincipalToken:validateForAuthorizedService: token=" ++
    orNull token.unsignedToken
  match token.authorizedServiceSignature with
  | none => .error (who ++ " : missing data/signature component: public key=" ++ orNull pubKey)
  | some signature =>
    let signedToken := token.signedToken.getD []
    let unsignedAuthorizedServiceToken := signedToken.take ((indexOf ";bs=" signedToken).getD 0)
    match pubKey with
    | none => .error (who ++ " : No public key provided")
    | some pubKey =>
      match crypto.loadPublicKey pubKey >>= fun pub =>
        crypto.verify unsignedAuthorizedServiceToken pub signature with
      | .ok true => .ok ()
      | .ok false => .error (who ++ " : authentication failed: public key=" ++ pubKey)
      | .error e =>
        .error (who ++ " : authentication failed verifying signature: exc=" ++ e ++
          " : public key=" ++ pubKey)

def isValidAuthorizedServiceToken (token : PrincipalToken) : Except Str Unit :=
  let who : Str := "PrincipalToken:isValidAuthorizedServiceToken: Invalid Token=" ++
    orNull token.unsignedToken
  match token.authorizedServices, token.authorizedServiceSignature with
  | none, none => .ok ()
  | none, some _ =>
    .error (who ++ " : Authorized Service Signature available without service name")
  | some _, none => .error (who ++ " : Missing signature for specified authorized service")
  | some services, some _ =>
    match token.authorizedServiceName with
    | some name => refuse (name ∉ services)
        (who ++ " : Authorized service name=" ++ name ++ " is not listed in the service list")
    | none => refuse (services.length ≠ 1)
        (who ++ " : No service name and Authorized service list contains multiple entries")

/-- The token that a listed service signs once more; only one of several services is named. -/
def signForAuthorizedService (signText : Str → Str) (token : PrincipalToken)
    (authorizedServiceName authorizedServiceKeyId : Str) : Except Str PrincipalToken :=
  match token.authorizedServices with
  | none => .error "Authorized Service is not valid for this token"
  | some services =>
    if authorizedServiceName ∉ services then .error "Authorized Service is not valid for this token"
    else
      let several := services.length > 1
      let tokenToSign := orNull token.signedToken ++ ";bk=" ++ authorizedServiceKeyId ++
        if several then ";bn=" ++ authorizedServiceName else ""
      let signature := signText tokenToSign
      .ok { token with
        authorizedServiceKeyId := authorizedServiceKeyId
        authorizedServiceName :=
          if several then some authorizedServiceName else token.authorizedServiceName
        authorizedServiceSignature := some signature
        signedToken := some (tokenToSign ++ ";bs=" ++ signature) }

structure Builder where
  version : Str
  domain : Str
  name : Str
  salt : Str
  host : Option Str := none
  ip : Option Str := none
  keyId : Str := "0"
  expirationWindow : Long := .ofInt 3600
  issueTime : Long := .ofInt 0
  authorizedServices : Option (List Str) := none
  keyService : Option Str := none
  originalRequestor : Option Str := none
  required : version ≠ [] ∧ domain ≠ [] ∧ name ≠ []

def Builder.unsignedToken (builder : Builder) (times : Long × Long) : Str :=
  "v=" ++ builder.version ++ ";d=" ++ builder.domain ++ ";n=" ++ builder.name ++
    appendOptional "h" builder.host ++ ";a=" ++ builder.salt ++
    ";t=" ++ showLong times.1.1 ++ ";e=" ++ showLong times.2.1 ++ ";k=" ++ builder.keyId ++
    appendOptional "z" builder.keyService ++ appendOptional "o" builder.originalRequestor ++
    appendOptional "i" builder.ip ++
    match builder.authorizedServices with
    | some services => if services = [] then [] else ";b=" ++ [','].intercalate services
    | none => []

def Builder.build (builder : Builder) (now : Long) : PrincipalToken where
  version := builder.version
  domain := builder.domain
  name := builder.name
  host := builder.host
  salt := builder.salt
  keyId := builder.keyId
  ip := builder.ip
  authorizedServices := builder.authorizedServices
  keyService := builder.keyService
  originalRequestor := builder.originalRequestor
  timestamp := (setTimeStamp builder.issueTime builder.expirationWindow now).1.1
  expiryTime := (setTimeStamp builder.issueTime builder.expirationWindow now).2.1
  unsignedToken :=
    builder.unsignedToken (setTimeStamp builder.issueTime builder.expirationWindow now)

theorem parseItem_withSignature (u s : Option Str) (token : PrincipalToken) (item : Str) :
    parseItem { token with unsignedToken := u, signature := s } item =
      (parseItem token item).map fun t => { t with unsignedToken := u, signature := s } := by
  unfold parseItem
  split
  · split
    · rename_i key _
      cases key with
      | expiryTime | timestamp =>
        unfold assign
        cases parseLong _ <;> rfl
      | _ => rfl
    · rfl
  · rfl

theorem parseItems_withSignature (u s : Option Str) (text : Str) :
    parseItems { unsignedToken := u, signature := s } text =
      (parseItems {} text).map fun t => { t with unsignedToken := u, signature := s } :=
  foldlM_map (parseItem_withSignature u s) {} (splitTrim ';' text)

omit [DigitRules] in
theorem parseAuthorizedService_frame (token : PrincipalToken) (authzSvcToken : Str) :
    ∃ keyId name signature, token.parseAuthorizedService authzSvcToken =
      { token with
        authorizedServiceKeyId := keyId
        authorizedServiceName := name
        authorizedServiceSignature := signature } := by
  have items (items : List Str) (t : PrincipalToken) : ∃ keyId name,
      items.foldl parseAuthorizedItem t =
        { t with authorizedServiceKeyId := keyId, authorizedServiceName := name } := by
    induction items generalizing t with
    | nil => exact ⟨_, _, rfl⟩
    | cons item items ih =>
      obtain ⟨keyId, name, h⟩ := ih (parseAuthorizedItem t item)
      refine ⟨keyId, name, ?_⟩
      rw [List.foldl_cons, h]
      unfold parseAuthorizedItem
      split
      · split
        · rfl
        · split <;> rfl
      · rfl
  unfold parseAuthorizedService
  split
  · rename_i idx _
    obtain ⟨keyId, name, h⟩ := items (splitTrim ';' (authzSvcToken.take idx))
      { token with authorizedServiceSignature := some (authzSvcToken.drop (idx + 4)) }
    exact ⟨keyId, name, _, h⟩
  · exact ⟨_, _, _, rfl⟩

omit [DigitRules] in
theorem elim_parseAuthorizedService_frame (token : PrincipalToken) (authz : Option Str) :
    ∃ keyId name signature, authz.elim token token.parseAuthorizedService =
      { token with
        authorizedServiceKeyId := keyId
        authorizedServiceName := name
        authorizedServiceSignature := signature } ∧
      (authz = none → signature = token.authorizedServiceSignature) := by
  cases authz with
  | none => exact ⟨_, _, _, rfl, fun _ => rfl⟩
  | some authzSvcToken =>
    obtain ⟨keyId, name, signature, h⟩ := parseAuthorizedService_frame token authzSvcToken
    exact ⟨keyId, name, signature, h, fun h => nomatch h⟩

theorem parseItem_authorizedServiceSignature {token : PrincipalToken}
    (h : parseItem token item = .ok token') :
    token'.authorizedServiceSignature = token.authorizedServiceSignature := by
  unfold parseItem at h
  split at h
  · split at h
    · rename_i key _
      unfold assign at h
      cases key with
      | expiryTime | timestamp =>
        dsimp only at h
        cases hn : parseLong _ with
        | error e => rw [hn] at h; cases h
        | ok n => rw [hn] at h; cases h; rfl
      | _ => cases h; rfl
    · cases h; rfl
  · cases h; rfl

theorem parseItems_authorizedServiceSignature {token : PrincipalToken}
    (h : parseItems token text = .ok token') :
    token'.authorizedServiceSignature = token.authorizedServiceSignature := by
  refine foldlM_invariant (P := (·.authorizedServiceSignature = token.authorizedServiceSignature))
    (fun _ _ _ hstep heq => ?_) h rfl
  rw [parseItem_authorizedServiceSignature hstep, heq]

end PrincipalToken

theorem parts_none_of_notInfix (h : ¬ (";s=" : Str) <:+: t) : parts t = none := by
  rw [parts, indexOf_eq_none_iff.2 h]
  rfl

/-- The parts make up the token, and an appended part starts right behind the signature. -/
theorem parts_some (h : parts t = some p) :
    ¬ (";s=" : Str) <:+: p.unsignedToken ∧
    (p.authzSvcToken = none ∧ t = p.unsignedToken ++ ";s=" ++ p.signature ∨
      ∃ r, p.authzSvcToken = some (';' :: r) ∧ ';' ∉ p.signature ∧
        t = p.unsignedToken ++ ";s=" ++ p.signature ++ ';' :: r ∧ (";bs=" : Str) <:+: t) := by
  obtain ⟨idx, hidx, hp⟩ := Option.map_eq_some_iff.1 h
  have hU := not_infix_take_indexOf hidx (by decide)
  have ht := indexOf_decompose hidx
  dsimp only at hp
  split at hp
  · rename_i j k hj hk
    subst p
    obtain ⟨r, hr⟩ := indexOf_prefix_drop hj
    have hs := not_infix_take_indexOf hj (by decide)
    have hrest : t.drop (idx + 3) = (t.drop (idx + 3)).take j ++ ';' :: r := by
      conv_lhs => rw [← List.take_append_drop j (t.drop (idx + 3)), ← hr]
      rfl
    refine ⟨hU, .inr ⟨r, congrArg some hr.symm, ?_, ?_, ?_⟩⟩
    · intro hmem
      exact hs ((List.singleton_infix_iff _ _).2 hmem)
    · conv_lhs => rw [ht]
      rw [List.append_assoc _ (List.take _ _), ← hrest]
      rfl
    · exact (infix_of_indexOf hk).trans (List.drop_suffix _ _).isInfix
  · subst p
    exact ⟨hU, .inl ⟨rfl, ht⟩⟩

section OfSignedToken

variable [DigitRules]

theorem ofSignedToken_ok {token : PrincipalToken} :
    PrincipalToken.ofSignedToken t = .ok token ↔ t ≠ [] ∧
      ∃ read, PrincipalToken.parseItems
          { unsignedToken := (parts t).map (·.unsignedToken)
            signature := (parts t).map (·.signature) }
          (((parts t).map (·.unsignedToken)).getD t) = .ok read ∧
        ∃ full, ((parts t).bind (·.authzSvcToken)).elim read read.parseAuthorizedService = full ∧
        full.domain.getD [] ≠ [] ∧ full.name.getD [] ≠ [] ∧
        { full with signedToken := some t } = token := by
  simp only [PrincipalToken.ofSignedToken, bind_eq_ok, refuse_eq_ok, exists_const, pure_eq_ok,
    exists_eq_left', ne_eq]

/-- A signed token says what its text in front of the signature says by itself, apart from the
part that an authorized service appended. -/
theorem ofSignedToken_text (h : PrincipalToken.ofSignedToken t = .ok token)
    (hp : parts t = some p) :
    ∃ text keyId name signature, PrincipalToken.ofSignedToken p.unsignedToken = .ok text ∧
      token = { text with
        unsignedToken := some p.unsignedToken
        signature := some p.signature
        signedToken := some t
        authorizedServiceKeyId := keyId
        authorizedServiceName := name
        authorizedServiceSignature := signature } ∧
      (p.authzSvcToken = none → signature = none) := by
  have hparts := parts_none_of_notInfix (parts_some hp).1
  obtain ⟨_, token₁, hitems, _, hfull, hdomain, hname, rfl⟩ := ofSignedToken_ok.1 h
  simp only [hp, Option.map_some, Option.getD_some, Option.bind_some] at hitems hfull
  obtain ⟨keyId, name, signature, hauthz, hnone⟩ :=
    token₁.elim_parseAuthorizedService_frame p.authzSvcToken
  rw [hauthz] at hfull
  subst hfull
  rw [PrincipalToken.parseItems_withSignature] at hitems
  obtain ⟨read, hread, rfl⟩ := map_eq_ok.1 hitems
  have hU : p.unsignedToken ≠ [] := by
    intro hU
    rw [hU] at hread
    cases hread
    exact hdomain rfl
  refine ⟨{ read with signedToken := some p.unsignedToken }, keyId, name, signature, ?_, rfl, ?_⟩
  · refine ofSignedToken_ok.2 ⟨hU, read, ?_, read, ?_, hdomain, hname, rfl⟩
    · rwa [hparts]
    · rw [hparts]
      rfl
  · intro hn
    rw [hnone hn]
    exact PrincipalToken.parseItems_authorizedServiceSignature hread

theorem ofSignedToken_unsignedToken (h : PrincipalToken.ofSignedToken t = .ok token) :
    token.unsignedToken = (parts t).map (·.unsignedToken) := by
  obtain ⟨_, read, hitems, _, hfull, _, _, rfl⟩ := ofSignedToken_ok.1 h
  obtain ⟨_, _, _, hauthz, _⟩ :=
    read.elim_parseAuthorizedService_frame ((parts t).bind (·.authzSvcToken))
  rw [hauthz] at hfull
  subst hfull
  rw [PrincipalToken.parseItems_withSignature] at hitems
  obtain ⟨_, _, rfl⟩ := map_eq_ok.1 hitems
  rfl

theorem ofSignedToken_required (h : PrincipalToken.ofSignedToken t = .ok token) :
    ∃ domain name, token.domain = some domain ∧ token.name = some name := by
  obtain ⟨_, _, _, full, _, hdomain, hname, rfl⟩ := ofSignedToken_ok.1 h
  cases hd : full.domain with
  | none => exact absurd (by rw [hd]; rfl) hdomain
  | some domain =>
    cases hn : full.name with
    | none => exact absurd (by rw [hn]; rfl) hname
    | some name => exact ⟨domain, name, rfl, rfl⟩

end OfSignedToken

end Athenz.Java
