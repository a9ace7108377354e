import Athenz.ZtsClientCalls

namespace Athenz.ZtsClient
open Lib Lib.Text Lib.Exceptional
set_option autoImplicit true

section Events

inductive Request where
  | role (request : RoleTokenRequest)
  | access (request : AccessTokenRequest)
  | aws (request : AwsRequest)

inductive Event where
  | get (client : Nat) (request : Request) (ignoreCache : Bool)
  | prefetch
  | addCredentials (client : Nat) (identity : Option Principal)
  | addCredentialHeader (client : Nat) (credHeader credToken : Option Str)
  | clearCredentials (client : Nat)
  | preload (scope : Str → Option (List Str)) (listing : List (Str × Str × AccessTokenResponse))

/-- An event with what it meets and what ZTS answers during it. -/
structure Moment where
  event : Event
  world : World
  answers : List Answer := []

/-- All clients of a process, with what they share. -/
structure Process where
  clients : Nat → Client
  shared : State

/-- A process before its first call. -/
def Process.Fresh (process : Process) : Prop :=
  process.shared.roleTokenCache = ∅ ∧ process.shared.accessTokenCache = ∅ ∧
    process.shared.awsCredsCache = ∅ ∧ process.shared.prefetchScheduledItems = [] ∧
    process.shared.issued = []

end Events

section Steps

def Served.map (f : α → β) (served : Served α) : Served β := ⟨f served.credential, served.source⟩

variable (settings : Settings)

def getCredential (world : World) (request : Request) (ignoreCache : Bool) :
    Op (Served Credential) :=
  match request with
  | .role request => do
    let served ← getRoleToken settings world request ignoreCache
    pure (served.map .role)
  | .access request => do
    let served ← getAccessToken settings world request ignoreCache
    pure (served.map .access)
  | .aws request => do
    let served ← getAWSTemporaryCredentials settings world request ignoreCache
    pure (served.map .aws)

/-- The state in which a client makes a call. -/
def Process.entering (process : Process) (client : Nat) (answers : List Answer) : State :=
  { process.shared with self := process.clients client, answers := answers }

def Process.leaving (process : Process) (client : Nat) (s : State) : Process where
  clients := Function.update process.clients client s.self
  shared := s

def Process.change (process : Process) (client : Nat) (f : Client → Client) : Process :=
  { process with clients := Function.update process.clients client (f (process.clients client)) }

/-- What a call returns, and the process after the event. -/
def Process.run (process : Process) (moment : Moment) :
    Option (Served Credential) × Process :=
  match moment.event with
  | .get client request ignoreCache =>
    let outcome := getCredential settings moment.world request ignoreCache
      (process.entering client moment.answers)
    (outcome.1.toOption, process.leaving client outcome.2)
  | .prefetch =>
    let outcome := runPrefetch settings moment.world
      { process.shared with answers := moment.answers }
    (none, { process with shared := outcome.2 })
  | .addCredentials client identity =>
    (none, process.change client (·.addPrincipalCredentials identity true))
  | .addCredentialHeader client credHeader credToken =>
    (none, process.change client fun c =>
      { c with credsHeader := credHeader, credsToken := credToken })
  | .clearCredentials client => (none, process.change client (·.clearCredentials))
  | .preload scope listing =>
    (none, { process with
      shared := { process.shared with roleNameMap := preload moment.world scope listing } })

/-- A condition of every event of a run, in the process that it meets. -/
def Throughout (P : Process → Moment → Prop) : Process → List Moment → Prop
  | _, [] => True
  | process, moment :: moments =>
    P process moment ∧ Throughout P (process.run settings moment).2 moments

/-- What each event establishes under an invariant that it keeps holds throughout. -/
theorem Throughout.derive {P Q : Process → Moment → Prop} (Inv : Process → Prop)
    (step : ∀ process moment, Inv process → P process moment →
      Q process moment ∧ Inv (process.run settings moment).2)
    {process : Process} (hinv : Inv process) {moments : List Moment}
    (h : Throughout settings P process moments) : Throughout settings Q process moments := by
  induction moments generalizing process with
  | nil => trivial
  | cons moment moments ih =>
    obtain ⟨hP, hrest⟩ := h
    obtain ⟨hQ, hinv'⟩ := step process moment hinv hP
    exact ⟨hQ, ih hinv' hrest⟩

theorem Throughout.and {P : Process → Moment → Prop} {A : Moment → Prop} {process : Process}
    {moments : List Moment} (hA : ∀ moment ∈ moments, A moment)
    (h : Throughout settings P process moments) :
    Throughout settings (fun process moment => A moment ∧ P process moment) process moments := by
  induction moments generalizing process with
  | nil => trivial
  | cons moment moments ih =>
    exact ⟨⟨hA moment List.mem_cons_self, h.1⟩,
      ih (fun moment hmem => hA moment (List.mem_cons_of_mem _ hmem)) h.2⟩

end Steps

end Athenz.ZtsClient
