import Athenz.CertRefresh
import Athenz.InstanceRegister

namespace Athenz.Zts
open Lib Lib.Text Lib.Result Lib.Decimal InstanceUtils Cert
set_option autoImplicit true

structure InstanceRefreshInformation where
  attestationData : Str
  csr : Option Str := none
  ssh : Option Str := none
  sshCertRequest : Bool := false
  token : Bool := false
  expiryTime : Option Int := none
  hostname : Option Str := none
  hostCnames : Option (List Str) := none

/-- The principal of a refresh with the certificate that it was authenticated by. -/
structure InstancePrincipal where
  fullName : Str
  isCertificateAuthority : Bool := true
  authority : Str := "null"
  x509Certificate : X509Certificate
  details : Cert.Certificate

/-- A refresh request: the names of the URI, the body, the principal, address and time. -/
structure RefreshContext where
  provider : Str
  domain : Str
  service : Str
  instanceId : Str
  info : InstanceRefreshInformation
  principal : InstancePrincipal
  remoteAddress : Str
  userAgent : Str := "null"
  now : Int

/-- The identity that a refresh answers. -/
structure RefreshedIdentity where
  name : Str
  provider : Str
  instanceId : Str
  x509Certificate : Option Cert.Certificate := none
  attributes : Map Str Str := ∅
  sshRequested : Bool := false
  serviceToken : Bool := false
deriving DecidableEq

/-- A server with what refreshes need: the providers, the signers and the reset time. -/
structure RefreshServer extends RegisterServer where
  refreshInstance : Str → InstanceConfirmation → Except Failure InstanceConfirmation
  generateIdentity : Str → Str → Option Str → Int → Option Cert.Certificate
  generateSSHIdentity : InstancePrincipal → Option Str → Bool → Bool
  x509CertRefreshResetTime : Int := 0

/-- `X509CertRequest.validateInstanceId`. -/
def X509CertRequest.validateInstanceId (certReq : X509CertRequest) (reqInstanceId : Str)
    (cert : X509Certificate) : Bool :=
  certReq.instanceId = some reqInstanceId && extractRequestInstanceId cert = certReq.instanceId

def convertEmptyStringToNull (value : Option Str) : Option Str := value.filter (· ≠ [])

namespace RefreshContext

variable [CaseRules] (context : RefreshContext)

/-- What of the request a registration would be asked with. -/
def asRegister (csr : Str) : InstanceRegisterInformation where
  provider := context.provider
  domain := context.domain
  service := context.service
  attestationData := context.info.attestationData
  csr := csr
  token := context.info.token
  expiryTime := context.info.expiryTime
  hostname := context.info.hostname
  hostCnames := context.info.hostCnames

omit [CaseRules] in
def registerContext : RegisterContext where
  remoteAddress := context.remoteAddress
  userAgent := context.userAgent
  principal := some context.principal.fullName

/-- The key of the record: the principal is the service. -/
def recordKey : RecordKey :=
  (toLowerCase context.provider, context.instanceId, context.principal.fullName)

def refreshRequest : RefreshRequest where
  key := context.recordKey
  cert := context.principal.details
  remoteAddress := context.remoteAddress
  hostName := context.info.hostname
  now := context.now

end RefreshContext

namespace RefreshServer

variable [CaseRules] [DigitRules] (server : RefreshServer) (context : RefreshContext)

omit [DigitRules] in
/-- `generateInstanceConfirmObject` for a refresh: the host name of the certificate is sent along. -/
def refreshConfirmation (scheme : Scheme) (csr : Str) (certReq : X509CertRequest)
    (providerDnsNames : List Str) : InstanceConfirmation where
  attestationData := context.info.attestationData
  domain := toLowerCase context.domain
  service := toLowerCase context.service
  provider := toLowerCase context.provider
  attributes := Map.ofEntries
    (("certHostname", extractItemFromURI context.principal.x509Certificate.uris "athenz://hostname/") ::
      server.confirmationAttributes context.registerContext scheme (context.asRegister csr) certReq
        providerDnsNames)

omit [DigitRules] in
/-- `processProviderX509RefreshRequest` as far as the answer of the provider. -/
def confirmRefresh (csr : Str) : Except Failure (Map Str Str) := do
  let certReq ← ((server.getPKCS10CertRequest csr).bind X509CertRequest.ofCsr).mapError fun _ =>
    requestError "unable to parse PKCS10 CSR"
  let providerDnsNames ← certReq.validateService (server.serviceCertContext (context.asRegister csr))
    server.config.validCertSubjectOrgValues
  refuse (!certReq.validateInstanceId context.instanceId context.principal.x509Certificate)
    (requestError "CSR validation failed - instance id mismatch")
  let instanceProvider ← require (server.getProvider (toLowerCase context.provider))
    (requestError ("unable to get instance for provider: " ++ toLowerCase context.provider))
  let answer ← (server.refreshInstance (toLowerCase context.provider)
    (server.refreshConfirmation context instanceProvider.scheme csr certReq providerDnsNames)).mapError
      (RegisterServer.confirmFailure context.registerContext context.info.hostname)
  refuse (server.config.verifyCertSubjectOU ∧
      !certReq.validateSubjectOUField (some (toLowerCase context.provider))
        (getInstanceProperty answer.attributes "certSubjectOU") server.config.validCertSubjectOrgUnitValues)
    (requestError "CSR Subject OrgUnit validation failed")
  return answer.attributes

omit [DigitRules] in
/-- The provider leaves the check of the record on unless it answers otherwise. -/
def certRefreshCheck (attributes : Map Str Str) : Bool :=
  RegisterServer.parseBoolean (getInstanceProperty attributes "certRefresh") true

/-- The signer as it is asked: a record for client use only decides the usage. -/
def signRefresh (csr : Str) (attributes : Map Str Str) (clientCert : Bool) : Option Cert.Certificate :=
  server.generateIdentity (toLowerCase context.provider) csr
    (if clientCert then some "client" else getInstanceProperty attributes "certUsage")
    (RegisterServer.getServiceCertRequestExpiryTime
      (((getInstanceProperty attributes "certExpiryTime").bind (parseInteger 31)).getD 0)
      context.info.expiryTime)

def processProviderX509RefreshRequest (conn : CertRecordStoreConnection σ) (csr : Str) (store : σ) :
    Except Failure RefreshedIdentity × σ :=
  match server.confirmRefresh context csr with
  | .error failure => (.error failure, store)
  | .ok attributes =>
    match refreshConfirmed conn server.x509CertRefreshResetTime (certRefreshCheck attributes)
      (server.signRefresh context csr attributes) context.refreshRequest store with
    | (.error failure, store) => (.error failure, store)
    | (.ok newCert, store) => (.ok {
        name := context.principal.fullName
        provider := toLowerCase context.provider
        instanceId := context.instanceId
        x509Certificate := some newCert
        attributes := RegisterServer.remainingAttributes attributes
        sshRequested := RegisterServer.parseBoolean (getInstanceProperty attributes "certSSH") false
        serviceToken := context.info.token }, store)

omit [DigitRules] in
def processProviderSSHRefreshRequest (sshCsr : Option Str) : Except Failure RefreshedIdentity := do
  refuse (!server.generateSSHIdentity context.principal sshCsr context.info.sshCertRequest)
    (serverError "unable to generate ssh identity")
  return {
    name := context.principal.fullName
    provider := toLowerCase context.provider
    instanceId := context.instanceId
    sshRequested := true }

omit [DigitRules] in
/-- The checks that every refresh request passes. -/
def checkRefresh : Except Failure Unit := do
  refuse server.readOnlyMode (requestError
    "Server in Maintenance Read-Only mode. Please try your request later")
  let provider := toLowerCase context.provider
  let domain := toLowerCase context.domain
  let service := toLowerCase context.service
  refuse (!server.verifyInstanceCertIPAddress provider context.remoteAddress)
    (forbiddenError ("Unknown IP: " ++ context.remoteAddress ++ " for Provider: " ++ provider))
  let domainData ← require (server.store.getDomainData domain)
    (notFoundError ("Domain not found: " ++ domain))
  server.checkServiceIdentity domainData (domain ++ '.' :: service)
  refuse (convertEmptyStringToNull context.info.csr = none ∧ convertEmptyStringToNull context.info.ssh = none ∧
    !context.info.sshCertRequest) (requestError "no csr provided")
  refuse (domain ++ '.' :: service ≠ context.principal.fullName)
    (requestError ("Principal mismatch: " ++ (domain ++ '.' :: service) ++ " vs. " ++
      context.principal.fullName))
  refuse (!context.principal.isCertificateAuthority)
    (requestError ("Unsupported authority for TLS Certs: " ++ context.principal.authority))
  (server.authorizeLaunch provider domain service).mapError forbiddenError

def postInstanceRefreshInformation (conn : CertRecordStoreConnection σ) (store : σ) :
    Except Failure RefreshedIdentity × σ :=
  match server.checkRefresh context with
  | .error failure => (.error failure, store)
  | .ok () =>
    match convertEmptyStringToNull context.info.csr with
    | some csr => server.processProviderX509RefreshRequest context conn csr store
    | none =>
      (server.processProviderSSHRefreshRequest context (convertEmptyStringToNull context.info.ssh), store)

end RefreshServer

section Checks

variable {conn : CertRecordStoreConnection σ} {store : σ}

/-- A refresh that goes through with the check on has found a record that is not revoked, or presents a
certificate that the reset time excuses. -/
theorem refreshConfirmed_checked
    (h : (refreshConfirmed conn x509CertRefreshResetTime certRefreshCheck generateIdentity request store).1 =
      .ok newCert) :
    certRefreshCheck = false ∨
      (∃ x509CertRecord, conn.getX509CertRecord request.key store = some x509CertRecord ∧
        ¬ Revoked x509CertRecord) ∨
      request.cert.notBefore ≤ x509CertRefreshResetTime := by
  cases certRefreshCheck with
  | false => exact .inl rfl
  | true =>
    refine .inr ?_
    by_cases hissued : request.cert.notBefore ≤ x509CertRefreshResetTime
    · exact .inr hissued
    have hlater : x509CertRefreshResetTime < request.cert.notBefore := Int.not_le.1 hissued
    rw [refreshConfirmed, if_neg (by decide), getValidatedX509CertRecord, findX509CertRecord] at h
    cases hget : conn.getX509CertRecord request.key store with
    | none =>
      rw [hget] at h
      dsimp only at h
      rw [if_neg (Int.not_lt.2 (Int.le_of_lt hlater))] at h
      cases h
    | some x509CertRecord =>
      refine .inl ⟨x509CertRecord, rfl, fun hrevoked => ?_⟩
      rw [hget] at h
      have hcurrent : x509CertRecord.currentSerial ≠ request.cert.serial := by
        rw [hrevoked.1]
        exact serial_ne_revokedSerial _
      have hprevious : x509CertRecord.prevSerial ≠ request.cert.serial := by
        rw [hrevoked.2]
        exact serial_ne_revokedSerial _
      have hcompare : (∃ failure, compareSerials x509CertRefreshResetTime request x509CertRecord =
          .refused failure) ∨
          compareSerials x509CertRefreshResetTime request x509CertRecord = .mismatch := by
        by_cases hservice : request.key.2.2 ≠ x509CertRecord.service
        · exact .inl ⟨_, if_pos hservice⟩
        · exact .inr ((if_neg hservice).trans ((if_neg hcurrent).trans (if_pos ⟨hprevious, hlater⟩)))
      dsimp only at h
      obtain ⟨failure, hrefused⟩ | hmismatch := hcompare
      · rw [hrefused] at h
        cases h
      · rw [hmismatch] at h
        cases h

namespace RefreshServer

variable [CaseRules] [DigitRules] {server : RefreshServer} {context : RefreshContext}

omit [DigitRules] in
theorem confirmRefresh_instanceId (h : server.confirmRefresh context csr = .ok attributes) :
    extractRequestInstanceId context.principal.x509Certificate = some context.instanceId := by
  simp only [confirmRefresh, bind_eq_ok, refuse_eq_ok, exists_unit] at h
  obtain ⟨certReq, _, _, _, hinstance, _⟩ := h
  rw [Bool.not_eq_true, Bool.not_eq_false', X509CertRequest.validateInstanceId, Bool.and_eq_true,
    decide_eq_true_eq, decide_eq_true_eq] at hinstance
  rw [hinstance.2, hinstance.1]

/-- The provider confirms a request and turns the check of the record off. -/
def TurnsCheckOff (server : RefreshServer) (context : RefreshContext) (csr : Str) : Prop :=
  ∃ attributes, server.confirmRefresh context csr = .ok attributes ∧ certRefreshCheck attributes = false

end RefreshServer

end Checks

section Sample

local instance refreshCaseRules : CaseRules := .ascii
local instance refreshDigitRules : DigitRules := .ascii

def refreshServer (resetTime : Int) : RefreshServer where
  toRegisterServer := sampleServer []
  refreshInstance _ confirmation := .ok { confirmation with attributes := ∅ }
  generateIdentity _ _ _ _ := some (sampleCert 2)
  generateSSHIdentity _ _ _ := true
  x509CertRefreshResetTime := resetTime

/-- A refresh by the service, with a certificate that carries the names. -/
def refreshContext (dnsNames : List Str) (info : InstanceRefreshInformation) : RefreshContext where
  provider := "athenz.aws.us-west-2"
  domain := "sports"
  service := "api"
  instanceId := "i-1"
  info := info
  principal := {
    fullName := "sports.api"
    x509Certificate := { dnsNames := dnsNames }
    details := sampleCert 1 }
  remoteAddress := "10.0.0.1"
  now := 100

def sshContext : RefreshContext :=
  refreshContext [] { attestationData := "i-1", ssh := some "ssh" }

def csrContext : RefreshContext :=
  refreshContext ["i-1.instanceid.athenz.athenz.cloud"] { attestationData := "i-1", csr := some "csr" }

/-- The certificates with one record of the instance. -/
def recordedAs (serial : Str) : JDBCCertRecordStoreConnection.Certificates :=
  (insertX509CertRecord JDBCCertRecordStoreConnection.connection csrContext.refreshRequest serial false 1000
    ∅).2

/-- The identity that a refresh returns. -/
def refreshed (resetTime : Int) (context : RefreshContext)
    (certificates : JDBCCertRecordStoreConnection.Certificates) : Except Failure RefreshedIdentity :=
  ((refreshServer resetTime).postInstanceRefreshInformation context JDBCCertRecordStoreConnection.connection
    certificates).1

end Sample

end Athenz.Zts
