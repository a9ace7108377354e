import Athenz.NodeRoleToken
import Athenz.NodePrincipalToken

namespace Athenz.Node
open Lib.Text Lib.Number Lib.Assign Lib.Signature
set_option autoImplicit true

/-- The accepted token exposes what the message signed with the key says by itself. -/
def RoleToken.SaysSigned (crypto : Scheme Key) (publicKey : Option Key) (signedToken : Str)
    (token : RoleToken) : Prop :=
  ∃ m key, signedMessage signedToken = some m ∧ publicKey = some key ∧ crypto.signed key m ∧
    token.attributes = (scanRole m).attributes

def PrincipalToken.SaysSigned (crypto : Scheme Key) (publicKey : Option Key) (signedToken : Str)
    (token : PrincipalToken) : Prop :=
  ∃ m key, signedMessage signedToken = some m ∧ publicKey = some key ∧ crypto.signed key m ∧
    token.attributes = (scanPrincipal m).attributes

theorem RoleToken.saysSigned_iff {crypto : Scheme Key} {token : RoleToken}
    (h : parseSignedToken t = .ok token)
    (hv : token.validate crypto config now publicKey allowedOffset allowNoExpiry = true) :
    token.SaysSigned crypto publicKey t ↔ TrailerHarmless t := by
  obtain ⟨m, key, hm, hk, hsigned⟩ := Token.validate_signed hv
  rw [(parse_ok h).2] at hm
  rw [← attributes_signed_iff h hm]
  constructor
  · rintro ⟨m', key', hm', _, _, ha⟩
    rw [hm, Option.some.injEq] at hm'
    rw [hm', ha]
  · intro ha
    exact ⟨m, key, hm, hk, hsigned, ha⟩

theorem PrincipalToken.saysSigned_iff {crypto : Scheme Key} {token : PrincipalToken}
    (h : parseSignedToken t = .ok token)
    (hv : token.validate crypto config now publicKey allowedOffset allowNoExpiry = true) :
    token.SaysSigned crypto publicKey t ↔ TrailerHarmless t := by
  obtain ⟨m, key, hm, hk, hsigned⟩ := Token.validate_signed hv
  rw [(parse_ok h).2] at hm
  rw [← attributes_signed_iff h hm]
  constructor
  · rintro ⟨m', key', hm', _, _, ha⟩
    rw [hm, Option.some.injEq] at hm'
    rw [hm', ha]
  · intro ha
    exact ⟨m, key, hm, hk, hsigned, ha⟩

theorem RoleToken.same_message_same_attributes
    (h : SaysSigned crypto publicKey t token) (h' : SaysSigned crypto' publicKey' t' token')
    (hm : signedMessage t = signedMessage t') : token.attributes = token'.attributes := by
  obtain ⟨m, _, hsm, _, _, ha⟩ := h
  obtain ⟨m', _, hsm', _, _, ha'⟩ := h'
  rw [hm, hsm', Option.some.injEq] at hsm
  rw [ha, ha', hsm]

theorem PrincipalToken.same_message_same_attributes
    (h : SaysSigned crypto publicKey t token) (h' : SaysSigned crypto' publicKey' t' token')
    (hm : signedMessage t = signedMessage t') : token.attributes = token'.attributes := by
  obtain ⟨m, _, hsm, _, _, ha⟩ := h
  obtain ⟨m', _, hsm', _, _, ha'⟩ := h'
  rw [hm, hsm', Option.some.injEq] at hsm
  rw [ha, ha', hsm]

/-- A validated token says only what was signed exactly when nothing behind the signature
overrides an attribute; two such tokens over one signed message then agree. -/
theorem validated_tokens_say_signed_iff (crypto : Scheme Key) (config : Config) (now : JsNumber)
    (publicKey : Option Key) (allowedOffset : JsNumber) (allowNoExpiry : Bool) (t : Str) :
    (∀ token, RoleToken.parseSignedToken t = .ok token →
      token.validate crypto config now publicKey allowedOffset allowNoExpiry = true →
      (token.SaysSigned crypto publicKey t ↔ RoleToken.TrailerHarmless t) ∧
      ∀ t' token', RoleToken.parseSignedToken t' = .ok token' →
        token'.validate crypto config now publicKey allowedOffset allowNoExpiry = true →
        signedMessage t = signedMessage t' → RoleToken.TrailerHarmless t →
        RoleToken.TrailerHarmless t' → token.attributes = token'.attributes) ∧
    (∀ token, PrincipalToken.parseSignedToken t = .ok token →
      token.validate crypto config now publicKey allowedOffset allowNoExpiry = true →
      (token.SaysSigned crypto publicKey t ↔ PrincipalToken.TrailerHarmless t) ∧
      ∀ t' token', PrincipalToken.parseSignedToken t' = .ok token' →
        token'.validate crypto config now publicKey allowedOffset allowNoExpiry = true →
        signedMessage t = signedMessage t' → PrincipalToken.TrailerHarmless t →
        PrincipalToken.TrailerHarmless t' → token.attributes = token'.attributes) := by
  refine ⟨fun token hp hv => ⟨RoleToken.saysSigned_iff hp hv, ?_⟩,
    fun token hp hv => ⟨PrincipalToken.saysSigned_iff hp hv, ?_⟩⟩
  · intro t' token' hp' hv' hm ht ht'
    have hs := (RoleToken.saysSigned_iff hp hv).2 ht
    have hs' := (RoleToken.saysSigned_iff hp' hv').2 ht'
    exact RoleToken.same_message_same_attributes hs hs' hm
  · intro t' token' hp' hv' hm ht ht'
    have hs := (PrincipalToken.saysSigned_iff hp hv).2 ht
    have hs' := (PrincipalToken.saysSigned_iff hp' hv').2 ht'
    exact PrincipalToken.same_message_same_attributes hs hs' hm

def genuineRoleToken : Str :=
  "v=Z1;d=sports;r=readers;a=salt;t=100;e=200;k=0;s=sig"

/-- The same token with one more role list behind the signature. -/
def forgedRoleToken : Str :=
  "v=Z1;d=sports;r=readers;a=salt;t=100;e=200;k=0;s=sig;r=admin"

def sampleSignatures : Scheme Nat :=
  .ofSignatures [(0, "v=Z1;d=sports;r=readers;a=salt;t=100;e=200;k=0", "sig")]

theorem genuine_trailer_harmless : RoleToken.TrailerHarmless genuineRoleToken := by
  have h := (validated_tokens_say_signed_iff sampleSignatures ⟨2592000, false⟩ 150 (some 0) 300
    false genuineRoleToken).1 _ rfl (by decide +kernel)
  exact h.1.1 ⟨_, 0, rfl, rfl, ⟨"sig", List.mem_singleton_self _⟩, by decide +kernel⟩

theorem forged_role_token_accepted :
    ∃ token, RoleToken.parseSignedToken forgedRoleToken = .ok token ∧
      token.validate sampleSignatures ⟨2592000, false⟩ 150 (some 0) 300 false = true ∧
      ¬ token.SaysSigned sampleSignatures (some 0) forgedRoleToken := by
  refine ⟨_, rfl, by decide +kernel, ?_⟩
  rintro ⟨m, key, hm, _, _, ha⟩
  have hroles := congrArg RoleAttributes.roles ha
  cases hm
  revert hroles
  decide +kernel

end Athenz.Node
