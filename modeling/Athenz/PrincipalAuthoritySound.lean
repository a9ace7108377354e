import Athenz.PrincipalAuthority

namespace Athenz.Java
open Lib.Text Lib.Decimal Lib.Result
set_option autoImplicit true

/-- The key stored for a domain, a service and a key id signed the message. -/
def Trust.SignedBy (trust : Trust Key) (domain service keyId message : Str) : Prop :=
  ∃ text key, trust.getPublicKey domain service keyId = some text ∧
    trust.crypto.loadPublicKey text = .ok key ∧ trust.crypto.signed key message

theorem validateForAuthorizedService_ok {crypto : Crypto Key} {token : PrincipalToken} :
    token.validateForAuthorizedService crypto pubKey = .ok u ↔
      ∃ signature text key, token.authorizedServiceSignature = some signature ∧
        pubKey = some text ∧ crypto.loadPublicKey text = .ok key ∧
        crypto.verify ((token.signedToken.getD []).take
          ((indexOf ";bs=" (token.signedToken.getD [])).getD 0)) key signature = .ok true := by
  unfold PrincipalToken.validateForAuthorizedService
  constructor
  · intro h
    dsimp only at h
    split at h
    · cases h
    · rename_i signature hs
      split at h
      · cases h
      · rename_i text
        split at h
        · rename_i hv
          obtain ⟨key, hk, hv⟩ := bind_eq_ok.1 hv
          exact ⟨signature, text, key, hs, rfl, hk, hv⟩
        · cases h
        · cases h
  · rintro ⟨signature, text, key, hs, hp, hk, hv⟩
    simp only [hs, hp, hk, bind, Except.bind, hv]

namespace PrincipalAuthority

theorem validateAuthorizeService_ok {trust : Trust Key} {token : PrincipalToken} :
    validateAuthorizeService trust token = .ok name ↔ claimedServiceName token = .ok name ∧
      ∃ domain service, splitServiceName token name = .ok (domain, service) ∧
        token.validateForAuthorizedService trust.crypto
          (trust.getPublicKey domain service token.authorizedServiceKeyId) = .ok () := by
  unfold validateAuthorizeService
  simp only [bind_eq_ok, mapError_eq_ok, pure_eq_ok, Prod.exists, exists_unit]
  constructor
  · rintro ⟨name', hn, domain, service, hs, hv, he⟩
    subst he
    exact ⟨hn, domain, service, hs, hv⟩
  · rintro ⟨hn, domain, service, hs, hv⟩
    exact ⟨name, hn, domain, service, hs, hv, rfl⟩

theorem splitServiceName_ok (h : splitServiceName token name = .ok (domain, service)) :
    name = domain ++ '.' :: service ∧ '.' ∉ service := by
  unfold splitServiceName at h
  split at h
  · rename_i idx hidx
    cases h
    exact lastIndexOf_eq_some (Option.filter_eq_some_iff.1 hidx).1
  · cases h

theorem claimedServiceName_listed (h : claimedServiceName token = .ok name)
    (hv : token.isValidAuthorizedServiceToken = .ok ())
    (hs : token.authorizedServiceSignature = some signature) :
    ∃ services, token.authorizedServices = some services ∧ name ∈ services := by
  unfold claimedServiceName at h
  unfold PrincipalToken.isValidAuthorizedServiceToken at hv
  rw [hs] at hv
  cases hl : token.authorizedServices with
  | none =>
    rw [hl] at hv
    cases hv
  | some services =>
    refine ⟨services, rfl, ?_⟩
    rw [hl] at hv h
    cases ha : token.authorizedServiceName with
    | some listed =>
      rw [ha] at hv h
      cases h
      exact not_not.1 (refuse_eq_ok.1 hv)
    | none =>
      rw [ha] at h
      cases services with
      | nil => cases h
      | cons listed rest =>
        cases rest with
        | nil =>
          cases h
          exact List.mem_singleton_self _
        | cons => cases h

/-- The service an accepted token reports. -/
theorem checkAuthorizedService_some {trust : Trust Key}
    (h : checkAuthorizedService trust token = .ok (some name)) :
    validateAuthorizeService trust token = .ok name ∧
      ∃ signature, token.authorizedServiceSignature = some signature := by
  unfold checkAuthorizedService at h
  split at h
  · rename_i signature hs
    obtain ⟨name', hv, hn⟩ := map_eq_ok.1 h
    cases hn
    exact ⟨hv, signature, hs⟩
  · cases h

section Sound

variable [CaseRules] [DigitRules]

theorem authenticate_ok {authority : PrincipalAuthority} {trust : Trust Key} :
    authenticate authority trust config now t remoteAddr httpMethod = .ok p ↔
      ∃ token service, PrincipalToken.ofSignedToken t = .ok token ∧
        token.isValidAuthorizedServiceToken = .ok () ∧
        token.validate trust.crypto config now
          (getPublicKey trust (toLowerCase (token.domain.getD []))
            (toLowerCase (token.name.getD [])) token.keyService token.keyId
            (toLowerCase (token.domain.getD []) = authority.userDomain))
          authority.allowedOffset (!isWriteOperation httpMethod) = .ok () ∧
        checkAuthorizedService trust token = .ok service ∧
        ¬ (toLowerCase (token.domain.getD []) = authority.userDomain ∧
          !authority.remoteIpCheck remoteAddr (isWriteOperation httpMethod) token service) ∧
        principalOf t token service = p := by
  unfold authenticate
  simp only [bind_eq_ok, mapError_eq_ok, refuse_eq_ok, pure_eq_ok, exists_unit, decide_eq_true_eq,
    exists_and_left]

/-- The text in front of the signature was signed with the key that answers for the principal,
and the principal is the one that this text describes. -/
def OwnText (authority : PrincipalAuthority) (trust : Trust Key) (t : Str) (p : Principal) :
    Prop :=
  ∃ m text domain name, ¬ (";s=" : Str) <:+: m ∧ m ++ (";s=" : Str) <+: t ∧
    PrincipalToken.ofSignedToken m = .ok text ∧
    text.domain = some domain ∧ text.name = some name ∧
    p.domain = toLowerCase domain ∧ p.name = toLowerCase name ∧ p.ip = text.ip ∧
    p.originalRequestor = text.originalRequestor ∧
    (trust.SignedBy p.domain p.name text.keyId m ∨
      (text.keyService = some ↑"zms" ∨ p.domain = authority.userDomain) ∧
        trust.SignedBy "sys.auth" "zms" text.keyId m ∨
      text.keyService = some ↑"zts" ∧ trust.SignedBy "sys.auth" "zts" text.keyId m)

/-- A reported service is listed in that text and signed a message that starts with the text and
its signature. -/
def ServiceText (trust : Trust Key) (t : Str) (p : Principal) : Prop :=
  ∀ name, p.authorizedService = some name →
    ∃ m signature rest text services domain service keyId message,
      ¬ (";s=" : Str) <:+: m ∧ ';' ∉ signature ∧
      t = m ++ (";s=" : Str) ++ signature ++ ';' :: rest ∧
      PrincipalToken.ofSignedToken m = .ok text ∧ text.authorizedServices = some services ∧
      name ∈ services ∧ name = domain ++ '.' :: service ∧ '.' ∉ service ∧
      trust.SignedBy domain service keyId message ∧
      m ++ (";s=" : Str) ++ signature <+: message

/-- The token passes every check that asks no key and carries the signature of an authorized
service, and the text in front of its own signature holds a `;bs=` of its own. -/
def Shadowed (authority : PrincipalAuthority) (config : TokenConfig) (now : Int)
    (t remoteAddr : Str) (httpMethod : Option Str) : Prop :=
  ∃ token m name owner, PrincipalToken.ofSignedToken t = .ok token ∧
    token.unsignedToken = some m ∧ (";bs=" : Str) <:+: m ∧
    token.authorizedServiceSignature.isSome ∧ token.isValidAuthorizedServiceToken = .ok () ∧
    claimedServiceName token = .ok name ∧ splitServiceName token name = .ok owner ∧
    token.checkTimes config now authority.allowedOffset (!isWriteOperation httpMethod) = .ok () ∧
    ¬ (toLowerCase (token.domain.getD []) = authority.userDomain ∧
      !authority.remoteIpCheck remoteAddr (isWriteOperation httpMethod) token (some name))

omit [CaseRules] [DigitRules] in
theorem keyOwner_cases (domain name : Str) (keyService : Option Str) (userToken : Bool) :
    keyOwner domain name keyService userToken = (domain, name) ∨
      (keyService = some ↑"zms" ∨ userToken) ∧
        keyOwner domain name keyService userToken = (↑"sys.auth", ↑"zms") ∨
      keyService = some ↑"zts" ∧
        keyOwner domain name keyService userToken = (↑"sys.auth", ↑"zts") := by
  unfold keyOwner
  split
  · split
    · rename_i h
      exact .inr (.inl ⟨.inl (congrArg some h), rfl⟩)
    · split
      · rename_i h
        exact .inr (.inr ⟨congrArg some h, rfl⟩)
      · exact .inl rfl
  · split
    · rename_i h
      exact .inr (.inl ⟨.inr h, rfl⟩)
    · exact .inl rfl

theorem authenticate_ownText {authority : PrincipalAuthority} {trust : Trust Key}
    (h : authenticate authority trust config now t remoteAddr httpMethod = .ok p) :
    OwnText authority trust t p := by
  obtain ⟨token, service, htoken, _, hvalid, _, _, rfl⟩ := authenticate_ok.1 h
  obtain ⟨key, m, signature, hkey, hm, _, _, hverify⟩ := Token.validate_ok.1 hvalid
  rw [ofSignedToken_unsignedToken htoken] at hm
  obtain ⟨parts, hparts, rfl⟩ := Option.map_eq_some_iff.1 hm
  obtain ⟨hs, hshape⟩ := parts_some hparts
  obtain ⟨text, _, _, _, htext, rfl, _⟩ := ofSignedToken_text htoken hparts
  obtain ⟨pem, hpem, hload⟩ := Token.loadKey_ok.1 hkey
  obtain ⟨domain, name, hdomain, hname⟩ := ofSignedToken_required htext
  have hsigned := trust.crypto.sound hverify
  refine ⟨parts.unsignedToken, text, domain, name, hs, ?_, htext, hdomain, hname, ?_, ?_, rfl,
    rfl, ?_⟩
  · obtain ⟨_, ht⟩ | ⟨r, _, _, ht, _⟩ := hshape
    · exact ⟨_, ht.symm⟩
    · exact ⟨parts.signature ++ ';' :: r, by simp only [ht, List.append_assoc]⟩
  · simp only [principalOf, hdomain, Option.getD_some]
  · simp only [principalOf, hname, Option.getD_some]
  · unfold getPublicKey at hpem
    obtain ho | ⟨hz, ho⟩ | ⟨hz, ho⟩ := keyOwner_cases (toLowerCase (text.domain.getD []))
      (toLowerCase (text.name.getD [])) text.keyService
      (toLowerCase (text.domain.getD []) = authority.userDomain)
    · rw [ho] at hpem
      exact .inl ⟨pem, key, hpem, hload, hsigned⟩
    · rw [ho] at hpem
      exact .inr (.inl ⟨hz.imp_right of_decide_eq_true, pem, key, hpem, hload, hsigned⟩)
    · rw [ho] at hpem
      exact .inr (.inr ⟨hz, pem, key, hpem, hload, hsigned⟩)

omit [CaseRules] [DigitRules] in
/-- Without a `;bs=` of its own, the signed text and its signature start the message that is
checked for the authorized service. -/
theorem checked_message_extends (hbs : ¬ (";bs=" : Str) <:+: m) (hsig : ';' ∉ signature)
    (ht : t = m ++ (";s=" : Str) ++ signature ++ ';' :: rest)
    (hi : indexOf ";bs=" t = some i) : m ++ (";s=" : Str) ++ signature <+: t.take i := by
  have hfree : ¬ (";bs=" : Str) <:+: m ++ (";s=" : Str) ++ signature := by
    intro h
    rw [List.append_assoc] at h
    obtain h | h := infix_append_cons (by decide) h
    · exact hbs h
    · obtain h | h := List.infix_cons_iff.1 h
      · exact absurd (List.cons_prefix_cons.1 (List.cons_prefix_cons.1 h).2).1 (by decide)
      · have hmem : ';' ∈ 's' :: '=' :: signature := h.subset List.mem_cons_self
        simp only [List.mem_cons, hsig, or_false] at hmem
        revert hmem
        decide
  rw [ht] at hi ⊢
  exact List.prefix_take_iff.2 ⟨List.prefix_append _ _, length_le_indexOf (by decide) hfree hi⟩

theorem authenticate_serviceText {authority : PrincipalAuthority} {trust : Trust Key}
    (h : authenticate authority trust config now t remoteAddr httpMethod = .ok p)
    (hs : ¬ Shadowed authority config now t remoteAddr httpMethod) : ServiceText trust t p := by
  intro name hname
  obtain ⟨token, service, htoken, hwell, hvalid, hservice, hip, rfl⟩ := authenticate_ok.1 h
  cases hname
  obtain ⟨hcheck, signature, hsig⟩ := checkAuthorizedService_some hservice
  obtain ⟨hclaimed, domain, svc, hsplit, hfor⟩ := validateAuthorizeService_ok.1 hcheck
  obtain ⟨_, m, _, _, hm, _, htimes, _⟩ := Token.validate_ok.1 hvalid
  have hfree : ¬ (";bs=" : Str) <:+: m := by
    intro hbs
    exact hs ⟨token, m, name, _, htoken, hm, hbs, by rw [hsig]; rfl, hwell, hclaimed, hsplit,
      htimes, hip⟩
  rw [ofSignedToken_unsignedToken htoken] at hm
  obtain ⟨parts, hparts, rfl⟩ := Option.map_eq_some_iff.1 hm
  obtain ⟨text, keyId, _, signed, htext, rfl, hnone⟩ := ofSignedToken_text htoken hparts
  obtain ⟨services, hservices, hlisted⟩ := claimedServiceName_listed hclaimed hwell hsig
  obtain ⟨hname, hdot⟩ := splitServiceName_ok hsplit
  obtain ⟨_, pem, key, _, hpem, hload, hverify⟩ := validateForAuthorizedService_ok.1 hfor
  obtain ⟨hs', ⟨hempty, _⟩ | ⟨rest, _, hfreeSig, ht, hbs⟩⟩ := parts_some hparts
  · rw [hnone hempty] at hsig
    cases hsig
  · obtain ⟨i, hi⟩ := Option.ne_none_iff_exists'.1 fun hn => indexOf_eq_none_iff.1 hn hbs
    refine ⟨parts.unsignedToken, parts.signature, rest, text, services, domain, svc, keyId, t.take i,
      hs', hfreeSig, ht, htext, hservices, hlisted, hname, hdot, ⟨pem, key, hpem, hload, ?_⟩,
      checked_message_extends hfree hfreeSig ht hi⟩
    rw [Option.getD_some, hi] at hverify
    exact trust.crypto.sound hverify

omit [CaseRules] [DigitRules] in
theorem indexOf_signature (h : ¬ (";s=" : Str) <:+: m) (v : Str) :
    indexOf ";s=" (m ++ ((";s=" : Str) ++ v)) = some m.length :=
  @indexOf_append_self _ _ ';' ['s', '='] m (by decide) h v

omit [CaseRules] in
/-- The message of a genuine authorized service is longer than the signed text. -/
theorem ServiceText.message_longer {trust : Trust Key} (h : ServiceText trust t p)
    (hparts : parts t = some q) (hname : p.authorizedService = some name) :
    ∃ domain service keyId message, trust.SignedBy domain service keyId message ∧
      q.unsignedToken.length < message.length := by
  obtain ⟨m, signature, rest, _, _, domain, service, keyId, message, hfree, _, ht, _, _, _, _, _,
    hby, hpre⟩ := h name hname
  refine ⟨domain, service, keyId, message, hby, ?_⟩
  have hm : indexOf ";s=" t = some m.length := by
    simpa only [ht, List.append_assoc] using indexOf_signature hfree (signature ++ ';' :: rest)
  have hq : indexOf ";s=" t = some q.unsignedToken.length := by
    obtain ⟨hs, ⟨_, ht⟩ | ⟨r, _, _, ht, _⟩⟩ := parts_some hparts
    · simpa only [ht, List.append_assoc] using indexOf_signature hs q.signature
    · simpa only [ht, List.append_assoc] using indexOf_signature hs (q.signature ++ ';' :: r)
  rw [hm, Option.some.injEq] at hq
  have hlen := hpre.length_le
  have hs : (";s=" : Str).length = 3 := rfl
  rw [List.length_append, List.length_append] at hlen
  omega

/-- The parties signed just the text in front of the signature and the shorter text in front of
its own `;bs=`. -/
def twoMessages [Inhabited Key] (m₁ m₂ : Str) : Trust Key where
  getPublicKey _ _ _ := some []
  crypto := {
    signed := fun _ message => message = m₁ ∨ message = m₂
    loadPublicKey := fun _ => .ok default
    verify := fun message _ _ => .ok (message = m₁ ∨ message = m₂)
    sound := fun h => of_decide_eq_true (Except.ok.inj h) }

theorem shadowed_accepted (Key : Type) [Inhabited Key] {authority : PrincipalAuthority}
    (h : Shadowed authority config now t remoteAddr httpMethod) :
    ∃ (trust : Trust Key) (p : Principal),
      authenticate authority trust config now t remoteAddr httpMethod = .ok p ∧
        ¬ ServiceText trust t p := by
  obtain ⟨token, m, name, owner, htoken, hm, hbs, hsig, hwell, hclaimed, hsplit, htimes, hip⟩ := h
  obtain ⟨serviceSignature, hsig⟩ := Option.isSome_iff_exists.1 hsig
  rw [ofSignedToken_unsignedToken htoken] at hm
  obtain ⟨parts, hparts, rfl⟩ := Option.map_eq_some_iff.1 hm
  obtain ⟨text, _, _, _, _, rfl, hnone⟩ := ofSignedToken_text htoken hparts
  obtain ⟨hs, ⟨hempty, _⟩ | ⟨rest, _, _, ht, _⟩⟩ := parts_some hparts
  · rw [hnone hempty] at hsig
    cases hsig
  have ht' : t = parts.unsignedToken ++ ((";s=" : Str) ++ (parts.signature ++ ';' :: rest)) := by
    simpa only [List.append_assoc] using ht
  obtain ⟨i, hi, hlt⟩ := indexOf_append_lt (by decide) hbs
    ((";s=" : Str) ++ (parts.signature ++ ';' :: rest))
  rw [← ht'] at hi
  refine ⟨twoMessages parts.unsignedToken (t.take i), _, authenticate_ok.2 ⟨_, some name, htoken,
    hwell, ?_, ?_, hip, rfl⟩, ?_⟩
  · exact Token.validate_ok.2 ⟨default, _, _, Token.loadKey_ok.2 ⟨[], rfl, rfl⟩, rfl, rfl, htimes,
      congrArg Except.ok (decide_eq_true (.inl rfl))⟩
  · unfold checkAuthorizedService
    rw [hsig]
    refine map_eq_ok.2 ⟨name, validateAuthorizeService_ok.2 ⟨hclaimed, owner.1, owner.2, hsplit,
      validateForAuthorizedService_ok.2 ⟨_, [], default, hsig, rfl, rfl, ?_⟩⟩, rfl⟩
    simp only [Option.getD_some, hi]
    exact congrArg Except.ok (decide_eq_true (.inr rfl))
  · intro hservice
    obtain ⟨_, _, _, message, ⟨_, _, _, _, hsigned⟩, hlen⟩ := hservice.message_longer hparts rfl
    obtain rfl | rfl := hsigned
    · omega
    · rw [List.length_take] at hlen
      omega

/-- Every accepted token is signed for its own principal; its authorized service is genuine, for
every key store and everything the parties ever signed, exactly when no `;bs=` of the signed text
shadows the service's signature. -/
theorem authenticate_sound_iff [Inhabited Key] (authority : PrincipalAuthority)
    (config : TokenConfig) (now : Int) (t remoteAddr : Str) (httpMethod : Option Str) :
    (∀ (trust : Trust Key) p,
      authenticate authority trust config now t remoteAddr httpMethod = .ok p →
        OwnText authority trust t p) ∧
    ((∀ (trust : Trust Key) p,
      authenticate authority trust config now t remoteAddr httpMethod = .ok p →
        OwnText authority trust t p ∧ ServiceText trust t p) ↔
      ¬ Shadowed authority config now t remoteAddr httpMethod) := by
  refine ⟨fun trust p h => authenticate_ownText h, ?_, ?_⟩
  · intro hsound hshadowed
    obtain ⟨trust, p, haccepted, hbad⟩ := shadowed_accepted Key hshadowed
    exact hbad (hsound trust p haccepted).2
  · intro hs trust p h
    exact ⟨authenticate_ownText h, authenticate_serviceText h hs⟩

end Sound

section Sample

local instance sampleCaseRules : CaseRules := .ascii
local instance sampleDigitRules : DigitRules := .ascii

/-- What `weather.api` signs for itself. -/
def weatherText : Str := "v=S1;d=weather;n=api;a=salt;t=100;e=200;k=0"

/-- What `evil.svc` signs: the other service's text, continued. -/
def evilText : Str := weatherText ++ ";bs=x;d=evil;n=svc;b=weather.api"

def evilToken : Str := evilText ++ ";s=evilSig;bk=0;bs=weatherSig"

def sampleTrust : Trust Str where
  getPublicKey domain service _ := some (domain ++ '.' :: service)
  crypto := {
    signed := fun key message => (key, message) ∈
      [((↑"weather.api" : Str), weatherText), (↑"evil.svc", evilText)]
    loadPublicKey := .ok
    verify := fun message key signature => .ok ((key, message, signature) ∈
      [((↑"weather.api" : Str), weatherText, (↑"weatherSig" : Str)),
        (↑"evil.svc", evilText, ↑"evilSig")])
    sound := fun h => by
      have hmem := of_decide_eq_true (Except.ok.inj h)
      simp only [List.mem_cons, Prod.mk.injEq, List.not_mem_nil, or_false] at hmem ⊢
      exact hmem.imp (fun ⟨hk, hm, _⟩ => ⟨hk, hm⟩) (fun ⟨hk, hm, _⟩ => ⟨hk, hm⟩) }

def evilPrincipal : Principal where
  domain := "evil"
  name := "svc"
  creds := evilToken
  issueTime := 100
  unsignedCreds := evilText
  authorizedService := some "weather.api"
  originalRequestor := none
  keyService := none
  ip := none
  keyId := "0"

/-- The token that `weather.api` never saw is reported as authorised by it. -/
theorem unsigned_service_reported :
    authenticate {} sampleTrust ⟨2592000, false⟩ 150 evilToken "" none = .ok evilPrincipal ∧
      ¬ ServiceText sampleTrust evilToken evilPrincipal := by
  refine ⟨by decide +kernel, ?_⟩
  intro h
  have hparts : parts evilToken = some ⟨evilText, "evilSig", some ";bk=0;bs=weatherSig"⟩ := by
    decide +kernel
  obtain ⟨_, _, _, message, ⟨_, _, _, _, hsigned⟩, hlt⟩ := h.message_longer hparts rfl
  have hweather : weatherText.length < evilText.length := by decide +kernel
  simp only [sampleTrust, List.mem_cons, Prod.mk.injEq, List.not_mem_nil, or_false] at hsigned
  obtain ⟨_, rfl⟩ | ⟨_, rfl⟩ := hsigned
  · exact absurd hweather (Nat.lt_asymm hlt)
  · exact absurd hlt (Nat.lt_irrefl _)

end Sample

end PrincipalAuthority

end Athenz.Java
