import Athenz.Lib.Text
import Mathlib.Algebra.Group.Int.Defs

namespace Athenz.Zmssvctoken
open Lib.Text
set_option autoImplicit true

section Tokens

/-- The nanoseconds of a second. -/
def second : Int := 1000000000

/-- Ten minutes. -/
def expirationDrift : Int := 600 * second

/-- A token; the times are in nanoseconds since the epoch. -/
structure NToken where
  Version : Str
  Domain : Str
  Name : Str
  KeyVersion : Str
  KeyService : Str := []
  Hostname : Str := []
  IPAddress : Str := []
  GenerationTime : Int
  ExpiryTime : Int

/-- `Time.Unix`: the seconds of a time. -/
def unix (time : Int) : Int := time / second

def NToken.almostExpired (n : NToken) (now : Int) : Bool := now > n.ExpiryTime - expirationDrift

def field (k v : Str) : Str := k ++ '=' :: v

def optionalField (k v : Str) : List Str := if v = [] then [] else [field k v]

/-- The text that is signed. -/
def NToken.unsignedToken (n : NToken) (salt : Str) : Str :=
  [';'].intercalate <|
    [field "v" n.Version, field "d" n.Domain, field "n" n.Name, field "k" n.KeyVersion] ++
      optionalField "z" n.KeyService ++ optionalField "h" n.Hostname ++
      optionalField "i" n.IPAddress ++
      [field "a" salt, field "t" (toString (unix n.GenerationTime)).toList,
        field "e" (toString (unix n.ExpiryTime)).toList]

/-- A call of `Value`: its clock readings, its salt and the signer that it meets. -/
structure Call where
  now : Int
  generated : Int
  salt : Except Str Str
  sign : Str → Except Str Str
  ordered : now ≤ generated

/-- The token with its new times, and its signed text unless a step fails. -/
def NToken.toSignedToken (n : NToken) (call : Call) (expiration : Int) :
    NToken × Except Str Str :=
  let n := { n with
    GenerationTime := call.generated
    ExpiryTime := call.generated + expiration }
  match call.salt with
  | .error err => (n, .error ("Salt error: ".toList ++ err))
  | .ok salt =>
    match call.sign (n.unsignedToken salt) with
    | .error err => (n, .error ("Signature error: ".toList ++ err))
    | .ok signature => (n, .ok (n.unsignedToken salt ++ ";s=".toList ++ signature))

structure Token where
  ntok : NToken
  expiration : Int
  cachedToken : Str := []

/-- `Value`: the token afterwards and the text or error that is returned. -/
def Token.Value (t : Token) (call : Call) : Token × Except Str Str :=
  if t.ntok.almostExpired call.now then
    match t.ntok.toSignedToken call t.expiration with
    | (ntok, .error err) => ({ t with ntok := ntok }, .error err)
    | (ntok, .ok v) => ({ t with ntok := ntok, cachedToken := v }, .ok v)
  else (t, .ok t.cachedToken)

/-- The token of a builder made at a time, its setters applied. -/
def NewTokenBuilder (domain name keyVersion keyService hostname ipAddress : Str) (now expiration : Int) :
    Token where
  ntok := {
    Version := "S1"
    Domain := domain
    Name := name
    KeyVersion := keyVersion
    KeyService := keyService
    Hostname := hostname
    IPAddress := ipAddress
    GenerationTime := now - 2 * 3600 * second
    ExpiryTime := now - 3600 * second }
  expiration := expiration

end Tokens

section Runs

/-- A successful signing: its text and the expiry time of its token. -/
structure Signing where
  text : Str
  expiryTime : Int

/-- A token with its last successful signing. -/
structure History where
  token : Token
  signed : Option Signing := none

/-- The signing of a call, when it makes one that succeeds. -/
def signing (t : Token) (call : Call) : Option Signing :=
  if t.ntok.almostExpired call.now then
    match t.ntok.toSignedToken call t.expiration with
    | (_, .error _) => none
    | (ntok, .ok v) => some { text := v, expiryTime := ntok.ExpiryTime }
  else none

def History.step (h : History) (call : Call) : History where
  token := (h.token.Value call).1
  signed := (signing h.token call).or h.signed

/-- A text that is returned is that of the last successful signing and expires, in the seconds that
it states, after the call. -/
def History.Usable (h : History) (call : Call) : Prop :=
  ∀ v, (h.token.Value call).2 = .ok v → v ≠ [] ∧ ∃ signing, (h.step call).signed = some signing ∧
    v = signing.text ∧ call.now < unix signing.expiryTime * second

/-- A call that does not sign meets the expiry time of the last successful signing, or that token
has not expired. -/
def History.InStep (h : History) (call : Call) : Prop :=
  h.token.ntok.almostExpired call.now = false → ∃ signing, h.signed = some signing ∧
    (signing.expiryTime = h.token.ntok.ExpiryTime ∨ call.now < unix signing.expiryTime * second)

/-- A property of every call of a run and the history that it meets. -/
def Throughout (p : History → Call → Prop) : History → List Call → Prop
  | _, [] => True
  | h, call :: calls => p h call ∧ Throughout p (h.step call) calls

end Runs

section Invariant

/-- What is cached is the last text that was signed. -/
structure Backed (h : History) : Prop where
  longer : expirationDrift < h.token.expiration
  cached : h.token.cachedToken = (h.signed.map Signing.text).getD []
  signed : ∀ signing ∈ h.signed, signing.text ≠ []

theorem lt_unix (h : now + second ≤ time) : now < unix time * second := by
  have hdiv := Int.mul_ediv_add_emod time second
  have hmod := Int.emod_lt_of_pos time (show 0 < second by decide)
  rw [Int.mul_comm] at hdiv
  unfold unix
  omega

theorem unsignedToken_ne_nil (n : NToken) (salt : Str) : n.unsignedToken salt ≠ [] := by
  intro h
  have hmem : 'v' ∈ n.unsignedToken salt := by
    have hversion : 'v' ∈ field "v" n.Version := List.mem_append_left _ (by decide)
    refine mem_intercalate ?_ hversion
    exact List.mem_append_left _ (List.mem_append_left _ (List.mem_append_left _
      (List.mem_append_left _ List.mem_cons_self)))
  rw [h] at hmem
  exact absurd hmem List.not_mem_nil

theorem toSignedToken_eq (h : NToken.toSignedToken n call expiration = (ntok, result)) :
    ntok.ExpiryTime = call.generated + expiration ∧ ∀ v, result = .ok v → v ≠ [] := by
  unfold NToken.toSignedToken at h
  dsimp only at h
  split at h
  · cases h
    exact ⟨rfl, nofun⟩
  · split at h
    · cases h
      exact ⟨rfl, nofun⟩
    · cases h
      refine ⟨rfl, ?_⟩
      rintro _ ⟨⟩
      rw [List.append_assoc]
      exact List.append_ne_nil_of_left_ne_nil (unsignedToken_ne_nil _ _) _

/-- The outcomes of a call. -/
theorem Value_cases (t : Token) (call : Call) :
    (t.ntok.almostExpired call.now = true ∧ ∃ ntok,
      ntok.ExpiryTime = call.generated + t.expiration ∧
      ((∃ err, t.Value call = ({ t with ntok := ntok }, .error err) ∧ signing t call = none) ∨
        ∃ v, v ≠ [] ∧ t.Value call = ({ t with ntok := ntok, cachedToken := v }, .ok v) ∧
          signing t call = some { text := v, expiryTime := ntok.ExpiryTime })) ∨
    t.ntok.almostExpired call.now = false ∧ t.Value call = (t, .ok t.cachedToken) ∧
      signing t call = none := by
  unfold Token.Value signing
  cases hexpired : t.ntok.almostExpired call.now with
  | false => exact .inr ⟨rfl, rfl, rfl⟩
  | true =>
    refine .inl ⟨rfl, ?_⟩
    rcases hsigned : t.ntok.toSignedToken call t.expiration with ⟨ntok, err | v⟩
    · exact ⟨ntok, (toSignedToken_eq hsigned).1, .inl ⟨err, rfl, rfl⟩⟩
    · exact ⟨ntok, (toSignedToken_eq hsigned).1, .inr ⟨v, (toSignedToken_eq hsigned).2 v rfl, rfl, rfl⟩⟩

theorem Backed.step {h : History} (hbacked : Backed h) (call : Call) : Backed (h.step call) := by
  rcases Value_cases h.token call with
    ⟨_, ntok, _, ⟨err, hvalue, hsigning⟩ | ⟨v, hne, hvalue, hsigning⟩⟩ | ⟨_, hvalue, hsigning⟩
  · refine ⟨?_, ?_, ?_⟩
    · rw [History.step, hvalue]
      exact hbacked.longer
    · rw [History.step, hvalue, hsigning]
      exact hbacked.cached
    · rw [History.step, hsigning]
      exact hbacked.signed
  · refine ⟨?_, ?_, ?_⟩
    · rw [History.step, hvalue]
      exact hbacked.longer
    · rw [History.step, hvalue, hsigning]
      rfl
    · rw [History.step, hsigning]
      rintro _ ⟨⟩
      exact hne
  · refine ⟨?_, ?_, ?_⟩
    · rw [History.step, hvalue]
      exact hbacked.longer
    · rw [History.step, hvalue, hsigning]
      exact hbacked.cached
    · rw [History.step, hsigning]
      exact hbacked.signed

/-- A call answers with a usable token exactly when it is in step. -/
theorem Backed.usable_iff {h : History} (hbacked : Backed h) (call : Call) :
    h.Usable call ↔ h.InStep call := by
  have hdrift : expirationDrift = 600 * second := rfl
  have hsecond : 0 < second := by decide
  rcases Value_cases h.token call with
    ⟨hexpired, ntok, hexpiry, ⟨err, hvalue, hsigning⟩ | ⟨v, hne, hvalue, hsigning⟩⟩ |
      ⟨hexpired, hvalue, hsigning⟩
  · refine ⟨fun _ hfalse => ?_, fun _ v hv => ?_⟩
    · rw [hexpired] at hfalse
      cases hfalse
    · rw [hvalue] at hv
      cases hv
  · refine ⟨fun _ hfalse => ?_, fun _ v' hv => ?_⟩
    · rw [hexpired] at hfalse
      cases hfalse
    · rw [hvalue] at hv
      cases hv
      refine ⟨hne, _, by rw [History.step, hsigning]; rfl, rfl, lt_unix ?_⟩
      have hlonger := hbacked.longer
      have hordered := call.ordered
      dsimp only
      omega
  · have hsigned : (h.step call).signed = h.signed := by
      rw [History.step, hsigning]
      rfl
    have hcached := hbacked.cached
    unfold History.Usable History.InStep
    rw [hvalue, hsigned, hexpired]
    constructor
    · intro husable _
      obtain ⟨_, signing, hsome, _, hlt⟩ := husable _ rfl
      exact ⟨signing, hsome, .inr hlt⟩
    · intro hinStep v hv
      cases hv
      obtain ⟨signing, hsome, hlater⟩ := hinStep rfl
      rw [hsome] at hcached
      refine ⟨?_, signing, hsome, hcached, ?_⟩
      · rw [hcached]
        exact hbacked.signed signing hsome
      · rcases hlater with hsame | hlt
        · have hnot := of_decide_eq_false hexpired
          apply lt_unix
          omega
        · exact hlt

theorem Backed.throughout_iff {h : History} (hbacked : Backed h) (calls : List Call) :
    Throughout History.Usable h calls ↔ Throughout History.InStep h calls := by
  induction calls generalizing h with
  | nil => exact Iff.rfl
  | cons call calls ih => exact and_congr (hbacked.usable_iff call) (ih (hbacked.step call))

/-- The calls of a token answer with usable tokens exactly when all of them are in step: no call
that does not sign comes after a failed attempt, unless the last token has not expired. -/
theorem service_tokens_usable_iff
    (domain name keyVersion keyService hostname ipAddress : Str) (now : Int) {expiration : Int}
    (hexpiration : expirationDrift < expiration) (calls : List Call) :
    Throughout History.Usable
        { token := NewTokenBuilder domain name keyVersion keyService hostname ipAddress now expiration }
        calls ↔
      Throughout History.InStep
        { token := NewTokenBuilder domain name keyVersion keyService hostname ipAddress now expiration }
        calls :=
  Backed.throughout_iff ⟨hexpiration, rfl, by rintro _ ⟨⟩⟩ calls

end Invariant

section Sample

/-- A call some seconds after the epoch; its salt may fail. -/
def callAt (seconds : Int) (salt : Except Str Str) : Call where
  now := seconds * second
  generated := seconds * second
  salt := salt
  sign _ := .ok "sig".toList
  ordered := Int.le_refl _

def apiToken : History where
  token := NewTokenBuilder "sports" "api" "v0" [] [] [] 0 (3600 * second)

theorem api_tokens_usable_iff :
    Throughout History.Usable apiToken [callAt 10 (.ok "salt"), callAt 20 (.ok "salt")] ↔
      Throughout History.InStep apiToken [callAt 10 (.ok "salt"), callAt 20 (.ok "salt")] :=
  service_tokens_usable_iff "sports" "api" "v0" [] [] [] 0 (by decide) _

/-- After a failed attempt the next call answers with no error and the empty text. -/
theorem failed_signing_answered :
    (apiToken.token.Value (callAt 10 (.error "rand"))).2 = .error "Salt error: rand".toList ∧
      ((apiToken.step (callAt 10 (.error "rand"))).token.Value (callAt 20 (.ok "salt"))).2 =
        .ok [] ∧
      ¬ Throughout History.Usable apiToken [callAt 10 (.error "rand"), callAt 20 (.ok "salt")] := by
  have hempty : ((apiToken.step (callAt 10 (.error "rand"))).token.Value
      (callAt 20 (.ok "salt"))).2 = .ok [] := by
    decide +kernel
  refine ⟨by decide +kernel, hempty, ?_⟩
  rintro ⟨_, husable, _⟩
  exact (husable [] hempty).1 rfl

end Sample

end Athenz.Zmssvctoken
