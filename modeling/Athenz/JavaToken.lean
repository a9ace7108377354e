import Athenz.Lib.Decimal
import Athenz.Lib.Result

namespace Athenz.Java
open Lib.Text Lib.Decimal Lib.Result
set_option autoImplicit true

/-- The 64-bit value that an arithmetic result wraps around to. -/
def long (n : Int) : Int := n.bmod (2 ^ 64)

def parseLong [DigitRules] (s : Str) : Except Str Int :=
  match parseInteger 63 s with
  | some n => .ok n
  | none => .error ("For input string: \"" ++ s ++ "\"")

/-- How a text builder prints a reference that may be null. -/
def orNull (s : Option Str) : Str := s.getD "null"

def showLong (n : Int) : Str := (toString n).toList

/-- The cryptographic library: loading a key and checking a signature may both throw, and an
accepted message was signed by the key's owner. -/
structure Crypto (Key : Type) where
  signed : Key → Str → Prop
  loadPublicKey : Str → Except Str Key
  verify : Str → Key → Str → Except Str Bool
  sound : verify message key signature = .ok true → signed key message

/-- The token settings of the process. -/
structure TokenConfig where
  maxExpiry : Int
  noExpiry : Bool

structure Token where
  unsignedToken : Option Str := none
  signedToken : Option Str := none
  version : Option Str := none
  salt : Option Str := none
  host : Option Str := none
  ip : Option Str := none
  domain : Option Str := none
  signature : Option Str := none
  keyId : Str := "0"
  expiryTime : Int := 0
  timestamp : Int := 0

/-- The time checks of `validate`, with the message of the one that fails. -/
def Token.checkTimes (config : TokenConfig) (now allowedOffset : Int) (allowNoExpiry : Bool)
    (token : Token) : Except Str Unit := do
  let who : Str := "Token:validate: token=" ++ orNull token.unsignedToken
  refuse (token.timestamp ≠ 0 ∧ long (token.timestamp - allowedOffset) > now)
    (who ++ " : has future timestamp=" ++ showLong token.timestamp ++
      " : current time=" ++ showLong now ++ " : allowed offset=" ++ showLong allowedOffset)
  let bounded := token.expiryTime ≠ 0 ∨ !config.noExpiry ∨ !allowNoExpiry
  refuse (bounded ∧ token.expiryTime < now)
    (who ++ " : has expired time=" ++ showLong token.expiryTime ++
      " : current time=" ++ showLong now)
  refuse (bounded ∧ token.expiryTime > long (long (now + config.maxExpiry) + allowedOffset))
    (who ++ " : expires too far in the future=" ++ showLong token.expiryTime ++
      " : current time=" ++ showLong now ++ " : max expiry=" ++ showLong config.maxExpiry ++
      " : allowed offset=" ++ showLong allowedOffset)

/-- The key named by the caller, loaded. -/
def Token.loadKey (crypto : Crypto Key) (token : Token) (pubKey : Option Str) : Except Str Key :=
  let who : Str := "Token:validate: token=" ++ orNull token.unsignedToken
  match pubKey with
  | none => .error (who ++ " : No public key provided")
  | some text =>
    match crypto.loadPublicKey text with
    | .ok key => .ok key
    | .error e => .error (who ++ " : unable to load public key due to Exception=" ++ e)

def Token.validate (crypto : Crypto Key) (config : TokenConfig) (now : Int)
    (pubKey : Option Str) (allowedOffset : Int) (allowNoExpiry : Bool) (token : Token) :
    Except Str Unit := do
  let who : Str := "Token:validate: token=" ++ orNull token.unsignedToken
  let key ← token.loadKey crypto pubKey
  match token.unsignedToken, token.signature with
  | some unsignedToken, some signature =>
    token.checkTimes config now allowedOffset allowNoExpiry
    match crypto.verify unsignedToken key signature with
    | .ok true => return ()
    | .ok false => throw (who ++ " : authentication failed")
    | .error e => throw (who ++ " : verify signature failed due to Exception=" ++ e)
  | _, _ => throw (who ++ " : missing data/signature component")

theorem Token.validate_ok {crypto : Crypto Key} {token : Token} :
    token.validate crypto config now pubKey allowedOffset allowNoExpiry = .ok u ↔
      ∃ key m signature, token.loadKey crypto pubKey = .ok key ∧ token.unsignedToken = some m ∧
        token.signature = some signature ∧
        token.checkTimes config now allowedOffset allowNoExpiry = .ok () ∧
        crypto.verify m key signature = .ok true := by
  unfold validate
  simp only [bind_eq_ok]
  constructor
  · rintro ⟨key, hk, h⟩
    split at h
    · rename_i m signature hm hs
      obtain ⟨ht, hv⟩ := unit_bind_eq_ok.1 h
      split at hv
      · exact ⟨key, m, signature, hk, hm, hs, ht, ‹_›⟩
      · cases hv
      · cases hv
    · cases h
  · rintro ⟨key, m, signature, hk, hm, hs, ht, hv⟩
    refine ⟨key, hk, ?_⟩
    simp only [hm, hs, ht, hv]
    rfl

theorem Token.loadKey_ok {crypto : Crypto Key} {token : Token} :
    token.loadKey crypto pubKey = .ok key ↔
      ∃ text, pubKey = some text ∧ crypto.loadPublicKey text = .ok key := by
  unfold loadKey
  constructor
  · intro h
    split at h
    · cases h
    · rename_i text
      split at h
      · cases h
        exact ⟨text, rfl, ‹_›⟩
      · cases h
  · rintro ⟨text, ht, hk⟩
    simp only [ht, hk]

section Builders

/-- The values of a `long`. -/
def Long := { n : Int // long n = n }

theorem long_long (n : Int) : long (long n) = long n := Int.bmod_bmod

def Long.ofInt (n : Int) : Long := ⟨long n, long_long n⟩

theorem Long.bounds (n : Long) : -2 ^ 63 ≤ n.1 ∧ n.1 < 2 ^ 63 := by
  have hle := Int.le_bmod (x := n.1) (m := 2 ^ 64) (by decide)
  have hlt := Int.bmod_lt (x := n.1) (m := 2 ^ 64) (by decide)
  have hn : n.1.bmod (2 ^ 64) = n.1 := n.2
  omega

theorem parseLong_showLong [DigitRules] (hlawful : DigitRules.Lawful) (n : Long) :
    parseLong (showLong n.1) = .ok n.1 := by
  rw [parseLong, showLong, Int.toString_eq_repr, parseInteger_repr hlawful n.bounds]

/-- What `setTimeStamp` makes of the issue time and the window: the two times of a token. -/
def setTimeStamp (issueTime expirationWindow now : Long) : Long × Long :=
  let timestamp := if issueTime.1 > 0 then issueTime else now
  (timestamp, .ofInt (timestamp.1 + expirationWindow.1))

/-- An attribute that is only written when it has a value. -/
def appendOptional (name : Str) (value : Option Str) : Str :=
  match value with
  | some value => if value = [] then [] else ";" ++ name ++ "=" ++ value
  | none => []

/-- The token with the signature that the key gives its text. -/
def Token.sign (signText : Str → Str) (token : Token) : Token :=
  let signature := signText (orNull token.unsignedToken)
  { token with
    signature := some signature
    signedToken := some (orNull token.unsignedToken ++ ";s=" ++ signature) }

end Builders

/-- `Token.getUnsignedToken` of a credential text. -/
def getUnsignedToken (credential : Str) : Str :=
  match indexOf ";s=" credential with
  | some idx => credential.take idx
  | none => credential

end Athenz.Java
