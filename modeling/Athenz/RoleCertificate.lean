import Athenz.ZtsImpl
import Mathlib.Algebra.Group.Int.Defs
import Mathlib.Algebra.Group.Nat.Defs

namespace Athenz.Zts
open Lib Lib.Text Lib.Result
set_option autoImplicit true

structure X509RoleCertRequest extends X509CertRequest where
  reqRoleDomain : Str
  reqRoleName : Str
  rolePrincipal : Option Str

structure RoleCertificateRequest where
  csr : Str
  proxyForPrincipal : Option Str := none
  expiryTime : Int := 0
  prevCertNotBefore : Option Int := none
  prevCertNotAfter : Option Int := none

inductive Priority where
  | Low | Medium | High
deriving DecidableEq

namespace X509RoleCertRequest

variable [CaseRules]

/-- The constructor, on the parsed request. -/
def ofCsr (csr : Csr) : Except Str X509RoleCertRequest := do
  let certReq ← X509CertRequest.ofCsr csr
  match (indexOf ":role." csr.commonName).filter fun idx =>
      idx ≠ 0 ∧ idx + (":role." : Str).length ≠ csr.commonName.length with
  | none => throw ("Role Certificate CN is not a valid role: " ++ csr.commonName)
  | some idx => return { certReq with
      reqRoleDomain := csr.commonName.take idx
      reqRoleName := csr.commonName.drop (idx + (":role." : Str).length)
      rolePrincipal := extractItemFromURI csr.uris "athenz://principal/" }

def validateProxyUserUri (certReq : X509RoleCertRequest) (proxyUser : Str) : Bool :=
  match singleUri "athenz://proxyuser/" certReq.csr.uris with
  | some (some uri) => uri = "athenz://proxyuser/" ++ proxyUser
  | _ => false

def validateEmail (config : ZtsConfig) (emails : List Str) (principal : Str) : Bool :=
  match emails with
  | [email] => principal ++ ['@'] <+: email && config.certDnsSuffix.any (· <:+ email)
  | _ => false

def validateRolePrincipal (config : ZtsConfig) (certReq : X509RoleCertRequest)
    (principal : Str) : Bool :=
  match certReq.rolePrincipal with
  | some (c :: cs) =>
    equalsIgnoreCase principal (c :: cs) &&
      (certReq.csr.emails.isEmpty || validateEmail config certReq.csr.emails principal)
  | _ => validateEmail config certReq.csr.emails principal

def validate (config : ZtsConfig) (certReq : X509RoleCertRequest) (principal : Str)
    (proxyUser : Option Str) : Bool :=
  certReq.validateRolePrincipal config principal && proxyUser.all certReq.validateProxyUserUri &&
    certReq.validateSubjectOField config.validCertSubjectOrgValues &&
    certReq.validateSpiffeURI certReq.reqRoleDomain "ra" certReq.reqRoleName

def validateCertIPAddress (certReq : X509RoleCertRequest) (cert : Option X509Certificate)
    (ip : Str) : Bool :=
  let certIPs := (cert.map (·.ipAddresses)).getD []
  certReq.csr.ipAddresses.isEmpty ||
    if certIPs.isEmpty then certReq.validateIPAddress ip
    else certReq.csr.ipAddresses.all (· ∈ certIPs)

def validateRoleCertSubjectOU (config : ZtsConfig) (certReq : X509RoleCertRequest)
    (cert : Option X509Certificate) : Bool :=
  !config.verifyCertSubjectOU ||
    certReq.validateSubjectOUField none (cert.bind (·.subjectOU))
      config.validCertSubjectOrgUnitValues

/-- A hostname in the request is looked up in the certificate, which must then be there. -/
def validateUriHostname (uriHostname : Option Str) (cert : Option X509Certificate) :
    Except Failure Bool :=
  match uriHostname with
  | none | some [] => .ok true
  | some hostname =>
    match cert with
    | none => .error .nullPointer
    | some cert => .ok (extractItemFromURI cert.uris "athenz://hostname/" = some hostname)

def validateInstanceId (instanceId : Option Str) (cert : Option X509Certificate) : Bool :=
  match instanceId with
  | none | some [] => true
  | some id => cert.bind extractRequestInstanceId = some id

end X509RoleCertRequest

section Requests

variable [CaseRules]

def validateRoleCertificateRequest (config : ZtsConfig) (certReq : X509RoleCertRequest)
    (principal : Str) (proxyUser : Option Str) (cert : Option X509Certificate) (ip : Str) :
    Except Failure Bool :=
  if !certReq.validate config principal proxyUser then .ok false
  else if !certReq.validateRoleCertSubjectOU config cert then .ok false
  else do
    let hostname ← X509RoleCertRequest.validateUriHostname certReq.uriHostname cert
    return hostname && X509RoleCertRequest.validateInstanceId certReq.instanceId cert &&
      (!config.verifyCertRequestIP || certReq.validateCertIPAddress cert ip)

def getCertRequestPriority (config : ZtsConfig) (now notBefore notAfter : Int) :
    Except Failure Priority := do
  let certDuration := (notAfter - notBefore).bmod (2 ^ 64)
  let howLongStillValid := (notAfter - now).bmod (2 ^ 64)
  if howLongStillValid ≤ 0 then return .High
  else
    refuse (certDuration = 0) Failure.arithmetic
    let percentage :=
      (((howLongStillValid * 100).bmod (2 ^ 64)).tdiv certDuration).bmod (2 ^ 64)
    if percentage ≥ config.certPriorityMinPercentLowPriority then return .Low
    else if percentage ≤ config.certPriorityMaxPercentHighPriority then return .High
    else return .Medium

def requestPriority (config : ZtsConfig) (now : Int) (req : RoleCertificateRequest) :
    Except Failure Priority :=
  match req.prevCertNotBefore, req.prevCertNotAfter with
  | some notBefore, some notAfter => getCertRequestPriority config now notBefore notAfter
  | _, _ => .ok .High

def getConfiguredRoleCertExpiryTimeMins (data : PublishedCache) (roles : List Str) : Int :=
  configuredExpiryMins (·.certExpiryMins) data.domainData.roleCertExpiryMins data roles

def determineRoleCertTimeout (data : PublishedCache) (roles : List Str) (reqTime : Int) : Int :=
  tighten (getConfiguredRoleCertExpiryTimeMins data roles) (some reqTime)

/-- The principal on whose behalf the request is made. -/
def proxyPrincipal (config : ZtsConfig) (req : RoleCertificateRequest) : Option Str :=
  req.proxyForPrincipal.map fun proxy => normalizeDomainAliasUser config (toLowerCase proxy)

/-- The roles that the request goes on with. -/
def commonRoles (config : ZtsConfig) (store : DataStore) (now : Int) (data : PublishedCache)
    (principal : Principal) (certReq : X509RoleCertRequest) (req : RoleCertificateRequest) :
    List Str :=
  let find := accessibleRoles store now data certReq.reqRoleDomain (some [certReq.reqRoleName])
  match proxyPrincipal config req with
  | none => find principal.fullName
  | some proxy => (find principal.fullName).filter (· ∈ find proxy)

/-- The answer of the signer, which must not be empty. -/
def signedCertificate (answer : Option Str) : Except Failure Str :=
  match answer with
  | none | some [] => .error (serverError "Unable to create certificate from the cert signer")
  | some x509Cert => .ok x509Cert

/-- Issue a role certificate; the signer gets the request, the expiry time and the priority. -/
def processRoleCertificateRequest (config : ZtsConfig) (store : DataStore) (now : Int)
    (caller : Str) (principal : Principal) (certReq : X509RoleCertRequest) (ipAddress : Str)
    (req : RoleCertificateRequest) (signer : Str → Int → Priority → Option Str) :
    Except Failure Str := do
  let domainName := certReq.reqRoleDomain
  let requestedRoleList := [certReq.reqRoleName]
  refuse (principal.roles.isSome) (forbiddenError "Role Identity not authorized for request")
  refuse (isAuthorizedServicePrincipal principal)
    (forbiddenError "Authorized Service Principals not allowed")
  refuse ((proxyPrincipal config req).isSome ∧
      !isAuthorizedProxyUser config.authorizedProxyUsers principal.fullName)
    (forbiddenError ("Principal: " ++ principal.fullName ++
      " not authorized for proxy role certificate request"))
  let data ← getDataCache store domainName ("No such domain: " ++ domainName)
  let refusal (identity : Str) := forbiddenError
    (tokenErrorMessage caller identity domainName (some requestedRoleList))
  refuse (accessibleRoles store now data domainName (some requestedRoleList) principal.fullName = [])
    (refusal principal.fullName)
  let roles := commonRoles config store now data principal certReq req
  let principalName := (proxyPrincipal config req).getD principal.fullName
  refuse (roles = []) (refusal principalName)
  let proxyUser := (proxyPrincipal config req).map fun _ => principal.fullName
  let valid ← validateRoleCertificateRequest config certReq principalName proxyUser
    principal.x509Certificate ipAddress
  refuse (!valid) (requestError "Unable to validate cert request")
  let priority ← requestPriority config now req
  let expiryTime := determineRoleCertTimeout data roles (req.expiryTime.bmod (2 ^ 32))
  signedCertificate (signer req.csr expiryTime priority)

/-- Everything the request has to pass apart from the check of the role itself. -/
def PassesOtherChecks (config : ZtsConfig) (now : Int) (principal : Principal)
    (certReq : X509RoleCertRequest) (ipAddress : Str) (req : RoleCertificateRequest) : Prop :=
  principal.roles = none ∧ isAuthorizedServicePrincipal principal = false ∧
    ((proxyPrincipal config req).isSome →
      isAuthorizedProxyUser config.authorizedProxyUsers principal.fullName = true) ∧
    validateRoleCertificateRequest config certReq
      ((proxyPrincipal config req).getD principal.fullName)
      ((proxyPrincipal config req).map fun _ => principal.fullName)
      principal.x509Certificate ipAddress = .ok true ∧
    ∃ priority, requestPriority config now req = .ok priority

/-- Every principal of the request holds a role of the requested domain. -/
def AllHold (config : ZtsConfig) (store : DataStore) (now : Int) (data : PublishedCache)
    (principal : Principal) (certReq : X509RoleCertRequest) (req : RoleCertificateRequest)
    (roleName : Str) : Prop :=
  ∀ identity ∈ principal.fullName :: (proxyPrincipal config req).toList,
    HoldsRole store now data certReq.reqRoleDomain identity roleName

theorem mem_commonRoles {data : PublishedCache} :
    roleName ∈ commonRoles config store now data principal certReq req ↔
      AllHold config store now data principal certReq req roleName ∧
        certReq.reqRoleName <:+ certReq.reqRoleDomain ++ ":role.".toList ++ roleName := by
  unfold commonRoles AllHold
  cases proxyPrincipal config req with
  | none =>
    simp only [mem_accessibleRoles, List.mem_singleton, exists_eq_left, Option.toList_none,
      forall_eq]
  | some proxy =>
    simp only [List.mem_filter, mem_accessibleRoles, exists_eq_left, decide_eq_true_eq,
      Option.toList_some, List.mem_cons, List.not_mem_nil, or_false, forall_eq_or_imp, forall_eq]
    constructor
    · rintro ⟨⟨h, hs⟩, h', _⟩
      exact ⟨⟨h, h'⟩, hs⟩
    · rintro ⟨⟨h, h'⟩, hs⟩
      exact ⟨⟨h, hs⟩, h', hs⟩

omit [CaseRules] in
theorem signedCertificate_ok : signedCertificate answer = .ok cert ↔
    answer = some cert ∧ cert ≠ [] := by
  unfold signedCertificate
  split
  · simp only [reduceCtorEq, false_and]
  · simp only [reduceCtorEq, Option.some.injEq, false_iff, not_and, not_not]
    exact Eq.symm
  · rename_i x509Cert hne
    simp only [Except.ok.injEq, Option.some.injEq, iff_self_and]
    intro h hc
    subst h
    exact hne hc

/-- A certificate is issued when the other checks pass, a common role ends in the requested name
and the signer answers. -/
theorem processRoleCertificateRequest_ok {signer : Str → Int → Priority → Option Str} :
    processRoleCertificateRequest config store now caller principal certReq ipAddress req signer
        = .ok cert ↔
      PassesOtherChecks config now principal certReq ipAddress req ∧
      ∃ data, store.cacheStore.lookup certReq.reqRoleDomain = some data ∧
        commonRoles config store now data principal certReq req ≠ [] ∧
        ∃ priority, requestPriority config now req = .ok priority ∧
          signer req.csr (determineRoleCertTimeout data
            (commonRoles config store now data principal certReq req)
            (req.expiryTime.bmod (2 ^ 32))) priority = some cert ∧ cert ≠ [] := by
  unfold processRoleCertificateRequest PassesOtherChecks
  simp only [bind_eq_ok, refuse_eq_ok, exists_unit, getDataCache_ok, signedCertificate_ok,
    Bool.not_eq_true, Option.isSome_eq_false_iff, Option.isNone_iff_eq_none, not_and]
  constructor
  · rintro ⟨hroles, hservice, hproxy, data, hdata, _, hcommon, valid, hvalid, htrue, priority,
      hpriority, hsigned⟩
    cases valid with
    | false => cases htrue
    | true =>
      exact ⟨⟨hroles, hservice, fun h => by simpa using hproxy h, hvalid, priority, hpriority⟩,
        data, hdata, hcommon, priority, hpriority, hsigned⟩
  · rintro ⟨⟨hroles, hservice, hproxy, hvalid, _⟩, data, hdata, hcommon, priority, hpriority,
      hsigned⟩
    refine ⟨hroles, hservice, fun h => by simpa using hproxy h, data, hdata, ?_, hcommon, true,
      hvalid, by decide, priority, hpriority, hsigned⟩
    intro hempty
    apply hcommon
    unfold commonRoles
    cases proxyPrincipal config req with
    | none => exact hempty
    | some proxy => simp only [hempty, List.filter_nil]

/-- A certificate proves membership in the requested role, whatever the signer answers, exactly
when the principals hold it, or hold no role in common whose full name ends in its name, or fail
some other check. -/
theorem role_certificate_sound_iff (config : ZtsConfig) (store : DataStore) (now : Int)
    (caller : Str) (principal : Principal) (certReq : X509RoleCertRequest) (ipAddress : Str)
    (req : RoleCertificateRequest) :
    (∀ signer cert, processRoleCertificateRequest config store now caller principal certReq
        ipAddress req signer = .ok cert →
      ∃ data, store.cacheStore.lookup certReq.reqRoleDomain = some data ∧
        AllHold config store now data principal certReq req certReq.reqRoleName) ↔
    ∀ data, store.cacheStore.lookup certReq.reqRoleDomain = some data →
      AllHold config store now data principal certReq req certReq.reqRoleName ∨
      (∀ roleName, AllHold config store now data principal certReq req roleName →
        ¬ certReq.reqRoleName <:+ certReq.reqRoleDomain ++ ":role.".toList ++ roleName) ∨
      ¬ PassesOtherChecks config now principal certReq ipAddress req := by
  constructor
  · intro hsound data hdata
    by_contra hbad
    simp only [not_or, not_forall, not_not] at hbad
    obtain ⟨hnot, ⟨roleName, hrole, hsuffix⟩, hchecks⟩ := hbad
    have hcommon : commonRoles config store now data principal certReq req ≠ [] :=
      List.ne_nil_of_mem (mem_commonRoles.2 ⟨hrole, hsuffix⟩)
    obtain ⟨priority, hpriority⟩ := hchecks.2.2.2.2
    obtain ⟨data', hdata', hhold⟩ := hsound (fun _ _ _ => some ['c']) ['c']
      (processRoleCertificateRequest_ok.2 ⟨hchecks, data, hdata, hcommon, priority, hpriority, rfl,
        List.cons_ne_nil _ _⟩)
    rw [hdata, Option.some.injEq] at hdata'
    exact hnot (hdata' ▸ hhold)
  · intro hcond signer cert hissued
    obtain ⟨hchecks, data, hdata, hcommon, _⟩ := processRoleCertificateRequest_ok.1 hissued
    refine ⟨data, hdata, ?_⟩
    obtain ⟨roleName, hmem⟩ := List.exists_mem_of_ne_nil _ hcommon
    obtain ⟨hrole, hsuffix⟩ := mem_commonRoles.1 hmem
    obtain h | h | h := hcond data hdata
    · exact h
    · exact absurd hsuffix (h roleName hrole)
    · exact absurd hchecks h

end Requests

section Sample

local instance roleCertCaseRules : CaseRules := .ascii

/-- A domain in which `user.joe` is a member of `super-admin` only. -/
def superAdminStore : DataStore where
  cacheStore := (∅ : Map Str PublishedCache).insert "sports" {
    memberRoleCache := (∅ : Map Str (List MemberRole)).insert "user.joe"
      [⟨"sports:role.super-admin", 0⟩]
    domainData := { name := "sports" } }

def adminRequest : X509RoleCertRequest where
  csr := { commonName := "sports:role.admin", uris := ["athenz://principal/user.joe"] }
  instanceId := none
  uriHostname := none
  spiffeUri := none
  reqRoleDomain := "sports"
  reqRoleName := "admin"
  rolePrincipal := some "user.joe"

theorem super_admin_gets_admin_certificate :
    X509RoleCertRequest.ofCsr adminRequest.csr = .ok adminRequest ∧
    processRoleCertificateRequest {} superAdminStore 100 "postRoleCertificateRequest"
      { domain := "user", fullName := "user.joe" } adminRequest "10.0.0.1" { csr := "csr" }
      (fun _ _ _ => some "cert") = .ok ↑"cert" ∧
    ∀ data, superAdminStore.cacheStore.lookup adminRequest.reqRoleDomain = some data →
      ¬ AllHold {} superAdminStore 100 data { domain := "user", fullName := "user.joe" }
        adminRequest { csr := "csr" } "admin" := by
  refine ⟨rfl, by decide +kernel, ?_⟩
  intro data hdata hall
  have hjoe := hall "user.joe" List.mem_cons_self
  cases hdata
  revert hjoe
  unfold HoldsRole
  decide +kernel

end Sample

end Athenz.Zts
