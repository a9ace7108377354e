import Athenz.ZtsImpl
import Athenz.InstanceProvider
import Athenz.Lib.Decimal

namespace Athenz.Zts
open Lib Lib.Text Lib.Result Lib.Decimal InstanceUtils
set_option autoImplicit true

structure InstanceRegisterInformation where
  provider : Str
  domain : Str
  service : Str
  attestationData : Str
  csr : Str
  token : Bool := false
  expiryTime : Option Int := none
  hostname : Option Str := none
  hostCnames : Option (List Str) := none

structure ClientCert where
  issuerDn : Option Str
  subjectDn : Option Str
  rsaModHash : Option Str

/-- What is read from the HTTP request. -/
structure RegisterContext where
  remoteAddress : Str
  userAgent : Str := "null"
  principal : Option Str := none
  clientCert : Option ClientCert := none

inductive Scheme where
  | HTTP | CLASS
deriving DecidableEq

structure InstanceProvider where
  scheme : Scheme
  confirmInstance : InstanceConfirmation → Except Failure InstanceConfirmation

structure X509CertRecord where
  service : Str
  provider : Str
  instanceId : Str
  clientCert : Bool
  currentIP : Str
  hostName : Option Str

/-- The identity that is answered; the flags tell whether a ssh certificate was asked for and
whether a service token was added. -/
structure InstanceIdentity where
  name : Str
  provider : Str
  instanceId : Str
  x509Certificate : X509Certificate
  attributes : Map Str Str
  sshRequested : Bool
  serviceToken : Bool

/-- What a registration leaves behind. -/
structure Registration where
  identity : InstanceIdentity
  certRecord : Option X509CertRecord

/-- The server with its managers: address and launch checks, the CSR reader, the providers, the
signer and the certificate records. -/
structure RegisterServer where
  config : ZtsConfig
  store : DataStore
  readOnlyMode : Bool := false
  verifyInstanceCertIPAddress : Str → Str → Bool
  validateInstanceServiceIdentity : Bool := false
  validateServiceSkipDomains : List Str := []
  authorizeLaunch : Str → Str → Str → Except Str Unit
  getPKCS10CertRequest : Str → Except Str Csr
  extractX509CSRPublicKey : Str → Str
  hostnameResolver : Option HostnameResolver := none
  getProvider : Str → Option InstanceProvider
  generateX509Certificate : Str → Str → Option Str → Int → Option X509Certificate
  insertX509CertRecord : X509CertRecord → Bool

namespace RegisterServer

variable [CaseRules]

def checkServiceIdentity (server : RegisterServer) (domainData : DomainData) (serviceName : Str) :
    Except Failure Unit :=
  refuse (server.validateInstanceServiceIdentity ∧
      domainData.name ∉ server.validateServiceSkipDomains ∧
      !(domainData.services.getD []).any fun service => equalsIgnoreCase service.name serviceName)
    (requestError "Service not registered in domain")

omit [CaseRules] in
def joinPresent (values : List Str) : Option Str :=
  if values = [] then none else some ([','].intercalate values)

/-- The attributes that go to the provider. -/
def confirmationAttributes (server : RegisterServer) (context : RegisterContext) (scheme : Scheme)
    (info : InstanceRegisterInformation) (certReq : X509CertRequest) (providerDnsNames : List Str) :
    List (Str × Option Str) :=
  let cloud := server.store.cloudStore.getD {}
  [("instanceId", certReq.instanceId),
    ("sanDNS", some ([','].intercalate providerDnsNames)),
    ("clientIP", some context.remoteAddress),
    ("sanIP", joinPresent certReq.csr.ipAddresses),
    ("sanURI", joinPresent certReq.csr.uris),
    ("awsAccount", cloud.awsAccountCache.lookup (toLowerCase info.domain)),
    ("azureSubscription", cloud.azureSubscriptionCache.lookup (toLowerCase info.domain)),
    ("csrPublicKey",
      if scheme = .CLASS then some (server.extractX509CSRPublicKey info.csr) else none),
    ("hostname", info.hostname.filter (· ≠ [])),
    ("principal", context.principal),
    ("certIssuerDn", context.clientCert.bind (·.issuerDn)),
    ("certSubjectDn", context.clientCert.bind (·.subjectDn)),
    ("certRsaModHash", context.clientCert.bind (·.rsaModHash))]

def newInstanceConfirmationForRegister (server : RegisterServer) (context : RegisterContext)
    (scheme : Scheme) (info : InstanceRegisterInformation) (certReq : X509CertRequest)
    (providerDnsNames : List Str) : InstanceConfirmation where
  attestationData := info.attestationData
  domain := toLowerCase info.domain
  service := toLowerCase info.service
  provider := toLowerCase info.provider
  attributes := Map.ofEntries
    (server.confirmationAttributes context scheme info certReq providerDnsNames)

omit [CaseRules] in
/-- The answer to a request that the provider turns down. -/
def confirmFailure (context : RegisterContext) (hostname : Option Str) (failure : Failure) :
    Failure :=
  let (code, message) : Nat × Str := match failure with
    | .resource code message => (if code = 504 then 504 else 403, message)
    | _ => (403, "null")
  .resource code ("unable to verify attestation data: " ++ message ++ " client: " ++
    context.userAgent ++ " clientIP: " ++ context.remoteAddress ++ " clientHost: " ++
    hostname.getD "null")

def serviceCertContext (server : RegisterServer) (info : InstanceRegisterInformation) :
    ServiceCertContext where
  domainName := toLowerCase info.domain
  serviceName := toLowerCase info.service
  provider := toLowerCase info.provider
  athenzSysDomainCache :=
    (server.store.cacheStore.lookup (↑"sys.auth" : Str)).map (·.toDataCache)
  serviceDnsSuffix := (server.store.getDomainData (toLowerCase info.domain)).bind (·.certDnsDomain)
  instanceHostname := info.hostname
  instanceHostCnames := info.hostCnames
  hostnameResolver := server.hostnameResolver

omit [CaseRules] in
def getServiceCertRequestExpiryTime (certExpiryTime : Int) (reqExpiryTime : Option Int) : Int :=
  match reqExpiryTime with
  | none => certExpiryTime
  | some reqExpiryTime =>
    if reqExpiryTime < 0 then certExpiryTime
    else if certExpiryTime = 0 then reqExpiryTime
    else min reqExpiryTime certExpiryTime

def parseBoolean (value : Option Str) (defaultValue : Bool) : Bool :=
  match value with
  | none | some [] => defaultValue
  | some value => equalsIgnoreCase value "true"

omit [CaseRules] in
/-- The attributes that are left for the answer. -/
def remainingAttributes (attributes : Map Str Str) : Map Str Str :=
  ["certUsage", "certSubjectOU", "instancePrivateIp", "certExpiryTime", "certRefresh",
    "certSSH"].foldl (fun (left : Map Str Str) (name : String) => left.erase name.toList) attributes

omit [CaseRules] in
def csrParseError (message : Str) : Failure :=
  requestError ("unable to parse PKCS10 CSR: " ++ message)

def readCsr (server : RegisterServer) (csr : Str) : Except Failure X509CertRequest := do
  let parsed ← (server.getPKCS10CertRequest csr).mapError csrParseError
  (X509CertRequest.ofCsr parsed).mapError csrParseError

theorem nodup_confirmationAttributes {server : RegisterServer} :
    ((server.confirmationAttributes context scheme info certReq names).map Prod.fst).Nodup := by
  have hkeys : (server.confirmationAttributes context scheme info certReq names).map Prod.fst =
      ["instanceId", "sanDNS", "clientIP", "sanIP", "sanURI", "awsAccount", "azureSubscription",
        "csrPublicKey", "hostname", "principal", "certIssuerDn", "certSubjectDn",
        "certRsaModHash"].map String.toList := rfl
  rw [hkeys]
  decide +kernel

/-- What the provider reads from the names and URIs that are sent to it. -/
theorem confirmation_instanceId {server : RegisterServer}
    (h : validateCertRequestSanDnsNames (server.newInstanceConfirmationForRegister context scheme
      info certReq names).attributes domain service dnsSuffixes = some instanceId)
    (hnames : ∀ name ∈ names, ',' ∉ name) (huris : ∀ uri ∈ certReq.csr.uris, ',' ∉ uri) :
    (names.filterMap instanceIdOfDnsName = [] →
      extractRequestInstanceIdFromURI certReq.csr.uris = some instanceId) ∧
    (names.filterMap instanceIdOfDnsName ≠ [] →
      instanceId = (names.filterMap instanceIdOfDnsName).flatten) := by
  have hdns : getInstanceProperty (server.newInstanceConfirmationForRegister context scheme info
      certReq names).attributes "sanDNS" = some ([','].intercalate names) :=
    Map.lookup_ofEntries nodup_confirmationAttributes (.tail _ (.head _))
  have huri : getInstanceProperty (server.newInstanceConfirmationForRegister context scheme info
      certReq names).attributes "sanURI" = joinPresent certReq.csr.uris :=
    Map.lookup_ofEntries nodup_confirmationAttributes
      (.tail _ (.tail _ (.tail _ (.tail _ (.head _)))))
  obtain ⟨hostnames, ids, hproperty, hids, hnone, hsome⟩ := validateCertRequestSanDnsNames_some h
  rw [hdns, Option.some.injEq] at hproperty
  rw [← hproperty, filterMap_splitTrim_intercalate rfl hnames] at hids
  rw [hids]
  refine ⟨?_, hsome⟩
  intro hempty
  have hread := hnone hempty
  unfold validateCertRequestUriId at hread
  rw [huri, joinPresent] at hread
  split at hread
  · cases hread
  · cases hread
  · rename_i uriList _ hjoin
    rw [Option.ite_none_left_eq_some, Option.some.injEq] at hjoin
    obtain ⟨hread, _⟩ := Option.filter_eq_some_iff.1 hread
    rw [← hjoin.2, ← List.head?_filterMap, filterMap_splitTrim_intercalate rfl huris,
      List.head?_filterMap] at hread
    exact hread

variable [DigitRules]

/-- The identity that the answers of the provider and of the signer stand for. -/
def registrationFor (context : RegisterContext) (info : InstanceRegisterInformation)
    (certReq : X509CertRequest) (attributes : Map Str Str) (cert : X509Certificate) :
    Registration :=
  let cn := toLowerCase info.domain ++ '.' :: toLowerCase info.service
  let instanceId := certReq.instanceId.getD []
  { identity := {
      name := cn
      provider := toLowerCase info.provider
      instanceId := instanceId
      x509Certificate := cert
      attributes := remainingAttributes attributes
      sshRequested := parseBoolean (getInstanceProperty attributes "certSSH") false
      serviceToken := info.token }
    certRecord :=
      if parseBoolean (getInstanceProperty attributes "certRefresh") true then
        some {
          service := cn
          provider := toLowerCase info.provider
          instanceId := instanceId
          clientCert := (getInstanceProperty attributes "certUsage").any (equalsIgnoreCase "client")
          currentIP := context.remoteAddress
          hostName := info.hostname }
      else none }

/-- Register an instance: check the request, let the provider confirm it, have the certificate
signed and keep a record of it. -/
def postInstanceRegisterInformation (server : RegisterServer) (context : RegisterContext)
    (info : InstanceRegisterInformation) : Except Failure Registration := do
  refuse server.readOnlyMode (requestError
    "Server in Maintenance Read-Only mode. Please try your request later")
  let domain := toLowerCase info.domain
  let service := toLowerCase info.service
  let provider := toLowerCase info.provider
  refuse (!server.verifyInstanceCertIPAddress provider context.remoteAddress)
    (forbiddenError ("Unknown IP: " ++ context.remoteAddress ++ " for Provider: " ++ provider))
  let domainData ← require (server.store.getDomainData domain)
    (notFoundError ("Domain not found: " ++ domain))
  server.checkServiceIdentity domainData (domain ++ '.' :: service)
  (server.authorizeLaunch provider domain service).mapError forbiddenError
  let certReq ← server.readCsr info.csr
  let providerDnsNames ← certReq.validateService (server.serviceCertContext info)
    server.config.validCertSubjectOrgValues
  let instanceProvider ← require (server.getProvider provider)
    (requestError ("unable to get instance for provider: " ++ provider))
  let answer ← (instanceProvider.confirmInstance
    (server.newInstanceConfirmationForRegister context instanceProvider.scheme info certReq
      providerDnsNames)).mapError (confirmFailure context info.hostname)
  let attributes := answer.attributes
  refuse (server.config.verifyCertSubjectOU ∧
      !certReq.validateSubjectOUField (some provider)
        (getInstanceProperty attributes "certSubjectOU") server.config.validCertSubjectOrgUnitValues)
    (requestError "CSR Subject OrgUnit validation failed")
  let certExpiryTime := getServiceCertRequestExpiryTime
    (((getInstanceProperty attributes "certExpiryTime").bind (parseInteger 31)).getD 0)
    info.expiryTime
  let cert ← require
    (server.generateX509Certificate provider info.csr (getInstanceProperty attributes "certUsage")
      certExpiryTime)
    (serverError "unable to generate identity")
  let registration := registrationFor context info certReq attributes cert
  refuse (registration.certRecord.any fun record => !server.insertX509CertRecord record)
    (serverError "unable to update cert db")
  return registration

/-- The steps of a registration that went through. -/
theorem postInstanceRegisterInformation_ok {server : RegisterServer}
    (h : server.postInstanceRegisterInformation context info = .ok registration)
    (hcsr : server.getPKCS10CertRequest info.csr = .ok csr) :
    ∃ certReq names instanceProvider answer usage expiry cert,
      X509CertRequest.ofCsr csr = .ok certReq ∧
      certReq.validateService (server.serviceCertContext info)
        server.config.validCertSubjectOrgValues = .ok names ∧
      server.getProvider (toLowerCase info.provider) = some instanceProvider ∧
      instanceProvider.confirmInstance (server.newInstanceConfirmationForRegister context
        instanceProvider.scheme info certReq names) = .ok answer ∧
      server.generateX509Certificate (toLowerCase info.provider) info.csr usage expiry =
        some cert ∧
      registration = registrationFor context info certReq answer.attributes cert := by
  simp only [postInstanceRegisterInformation, bind_eq_ok, exists_unit, require_eq_ok, readCsr,
    mapError_eq_ok, hcsr, Except.ok.injEq, exists_eq_left', pure_eq_ok] at h
  obtain ⟨_, _, _, _, _, _, certReq, hcertReq, names, hnames, provider, hprovider, answer, hanswer,
    _, cert, hcert, _, rfl⟩ := h
  exact ⟨certReq, names, provider, answer, _, _, cert, hcertReq, hnames, hprovider, hanswer, hcert,
    rfl⟩

end RegisterServer

section Attested

variable [CaseRules] [DigitRules]

/-- The names for the provider hold no instance id, or a single one that is the id the server
takes. -/
def NamesOneInstance (csr : Csr) (names : List Str) : Prop :=
  names.filterMap instanceIdOfDnsName = [] ∨
    ∃ id requested, names.filterMap instanceIdOfDnsName = [id] ∧
      requestedInstanceId csr = some requested ∧ equalsIgnoreCase requested id = true

/-- A registration recorded, and a certificate carries, the attested id, and every name that the
provider was given agrees with it. -/
def RecordsAttested (registration : Registration) (names : List Str) (attested : Str) : Prop :=
  (∀ record, registration.certRecord = some record →
      equalsIgnoreCase record.instanceId attested = true) ∧
    (∃ id, extractRequestInstanceId registration.identity.x509Certificate = some id ∧
      equalsIgnoreCase id attested = true) ∧
    ∀ name ∈ names, ∀ id, instanceIdOfDnsName name = some id → equalsIgnoreCase id attested = true

omit [DigitRules] in
/-- Ids that all agree with their concatenation are a single one, or empty. -/
theorem singleton_of_equalsIgnoreCase_flatten {ids : List Str} (hne : ids ≠ [])
    (hflat : equalsIgnoreCase ids.flatten attested = true) (hpos : attested ≠ [])
    (hall : ∀ id ∈ ids, equalsIgnoreCase id attested = true) : ∃ id, ids = [id] := by
  have hlength : 0 < attested.length := List.length_pos_of_ne_nil hpos
  have hsum := equalsIgnoreCase_length hflat
  match ids, hne with
  | [id], _ => exact ⟨id, rfl⟩
  | id :: id' :: rest, _ =>
    have h := equalsIgnoreCase_length (hall id List.mem_cons_self)
    have h' := equalsIgnoreCase_length (hall id' (.tail _ List.mem_cons_self))
    simp only [List.flatten_cons, List.length_append] at hsum
    omega

omit [DigitRules] in
theorem recordsAttested_iff {info : InstanceRegisterInformation} {names : List Str}
    (hcertReq : certReq.instanceId = some requested)
    (hcert : extractRequestInstanceId cert = some requested) :
    RecordsAttested (RegisterServer.registrationFor context info certReq attributes cert) names
        attested ↔
      equalsIgnoreCase requested attested = true ∧
        ∀ id ∈ names.filterMap instanceIdOfDnsName, equalsIgnoreCase id attested = true := by
  constructor
  · rintro ⟨_, ⟨id, hid, hagree⟩, hnames⟩
    have hsame : requested = id := Option.some.inj (hcert.symm.trans hid)
    refine ⟨hsame ▸ hagree, ?_⟩
    intro id hmem
    obtain ⟨name, hname, hnameId⟩ := List.mem_filterMap.1 hmem
    exact hnames name hname id hnameId
  · rintro ⟨hagree, hnames⟩
    refine ⟨?_, ⟨requested, hcert, hagree⟩, ?_⟩
    · intro record hrecord
      simp only [RegisterServer.registrationFor, Option.ite_none_right_eq_some,
        Option.some.injEq] at hrecord
      rw [← hrecord.2]
      simpa only [hcertReq, Option.getD_some] using hagree
    · intro name hname id hid
      exact hnames id (List.mem_filterMap.2 ⟨name, hname, hid⟩)

/-- A registration that a cloud provider confirmed is recorded under the attested id, and so on,
exactly when the names that the provider was given hold no instance id or only the id that the
server takes. -/
theorem registration_records_attested_iff {Key : Type} (server : RegisterServer)
    (context : RegisterContext) (info : InstanceRegisterInformation) (cloud : CloudProvider Key)
    (now : Int) (csr : Csr) (attested : Str) (registration : Registration)
    (hcsr : server.getPKCS10CertRequest info.csr = .ok csr)
    (hprovider : server.getProvider (toLowerCase info.provider) =
      some ⟨.HTTP, cloud.confirmInstance now⟩)
    (hattested : cloud.attestedInstanceId info.attestationData = some attested)
    (hdnsNames : ∀ name ∈ csr.dnsNames, ',' ∉ name) (huris : ∀ uri ∈ csr.uris, ',' ∉ uri)
    (hsigner : ∀ provider usage expiry cert,
      server.generateX509Certificate provider info.csr usage expiry = some cert →
        cert.dnsNames = csr.dnsNames ∧ cert.uris = csr.uris)
    (hregistered : server.postInstanceRegisterInformation context info = .ok registration) :
    RecordsAttested registration
        ((server.serviceCertContext info).providerDnsNames csr.dnsNames) attested ↔
      NamesOneInstance csr ((server.serviceCertContext info).providerDnsNames csr.dnsNames) := by
  obtain ⟨certReq, names, provider, answer, usage, expiry, cert, hcertReq, hvalid, hget, hanswer,
    hcert, rfl⟩ := RegisterServer.postInstanceRegisterInformation_ok hregistered hcsr
  obtain ⟨rfl, hinstance⟩ := X509CertRequest.ofCsr_ok hcertReq
  obtain ⟨hnames, requested, hrequested, hpos⟩ := X509CertRequest.validateService_ok hvalid
  subst hnames
  have hcommas : ∀ name ∈ (server.serviceCertContext info).providerDnsNames certReq.csr.dnsNames,
      ',' ∉ name := by
    intro name hname
    exact hdnsNames name (List.mem_of_mem_filter hname)
  rw [hprovider, Option.some.injEq] at hget
  subst hget
  obtain ⟨instanceId, hread, hagree⟩ := CloudProvider.confirmInstance_ok hanswer hattested
  obtain ⟨hnone, hsome⟩ := RegisterServer.confirmation_instanceId hread hcommas huris
  obtain ⟨hcertNames, hcertUris⟩ := hsigner _ _ _ _ hcert
  have hfound : extractRequestInstanceId cert = some requested := by
    rw [extractRequestInstanceId, hcertNames, hcertUris, ← hrequested, hinstance]
    rfl
  rw [hinstance] at hrequested
  rw [recordsAttested_iff (hinstance.trans hrequested) hfound]
  constructor
  · rintro ⟨hmatch, hids⟩
    by_cases hempty : ((server.serviceCertContext info).providerDnsNames
        certReq.csr.dnsNames).filterMap instanceIdOfDnsName = []
    · exact .inl hempty
    · have hlong : attested ≠ [] := by
        intro hnil
        have hlength := equalsIgnoreCase_length hmatch
        rw [hnil] at hlength
        exact hpos (List.length_eq_zero_iff.1 hlength)
      obtain ⟨id, hid⟩ := singleton_of_equalsIgnoreCase_flatten hempty (hsome hempty ▸ hagree)
        hlong hids
      have hsame := hids id (hid ▸ List.mem_cons_self)
      exact .inr ⟨id, requested, hid, hrequested,
        equalsIgnoreCase_trans hmatch (equalsIgnoreCase_comm hsame)⟩
  · rintro (hempty | ⟨id, requested', hid, hrequested', hsame⟩)
    · have huri := hnone hempty
      rw [requestedInstanceId, huri, Option.some_or, Option.some.injEq] at hrequested
      rw [hempty, ← hrequested]
      exact ⟨hagree, fun _ h => absurd h List.not_mem_nil⟩
    · rw [hrequested, Option.some.injEq] at hrequested'
      subst hrequested'
      have hflat := hsome (hid ▸ List.cons_ne_nil id [])
      rw [hid, List.flatten_cons, List.flatten_nil, List.append_nil] at hflat
      subst hflat
      rw [hid]
      refine ⟨equalsIgnoreCase_trans hsame hagree, ?_⟩
      intro id' hmem
      rw [List.mem_singleton.1 hmem]
      exact hagree

end Attested

section Sample

local instance registerCaseRules : CaseRules := .ascii
local instance registerDigitRules : DigitRules := .ascii

/-- A provider that trusts every document; a document is its instance id. -/
def sampleAws : InstanceAWSProvider Unit where
  awsPublicKey := some ()
  bootTimeOffsetSeconds := 0
  dnsSuffixes := ["athenz.cloud"]
  readAttestationData data := some {
    role := some "sports.api"
    document := some data
    signature := some "signature"
    access := some "access"
    secret := some "secret"
    token := some "token" }
  readDocument document := some {
    region := some "us-west-2"
    accountId := some "1234"
    instanceId := some document }
  validatePKCS7Signature _ _ _ := .ok true
  timestampMillis _ := none
  callerArn _ := some "arn:aws:sts::1234:assumed-role/sports.api/session"

def sampleCsr (uris : List Str) : Csr where
  commonName := "sports.api"
  dnsNames := ["api.sports.athenz.cloud", "i-1.instanceid.athenz.athenz.cloud"]
  uris := uris

def launchedCache : PublishedCache where
  domainData := { name := "sports" }

def launcherCache : PublishedCache where
  providerDnsSuffixCache := (∅ : Map Str (List Str)).insert "athenz.aws.us-west-2"
    [".athenz.cloud"]
  domainData := { name := "sys.auth" }

def sampleServer (uris : List Str) : RegisterServer where
  config := {}
  store := {
    cacheStore := ((∅ : Map Str PublishedCache).insert (↑"sports" : Str) launchedCache).insert
      (↑"sys.auth" : Str) launcherCache
    cloudStore := some { awsAccountCache := (∅ : Map Str Str).insert "sports" "1234" } }
  verifyInstanceCertIPAddress _ _ := true
  authorizeLaunch _ _ _ := .ok ()
  getPKCS10CertRequest _ := .ok (sampleCsr uris)
  extractX509CSRPublicKey _ := []
  getProvider _ := some ⟨.HTTP, (CloudProvider.aws sampleAws).confirmInstance 0⟩
  generateX509Certificate _ _ _ _ := some {
    dnsNames := (sampleCsr uris).dnsNames
    uris := (sampleCsr uris).uris }
  insertX509CertRecord _ := true

def sampleInfo : InstanceRegisterInformation where
  provider := "athenz.aws.us-west-2"
  domain := "sports"
  service := "api"
  attestationData := "i-1"
  csr := "csr"

/-- The registration of an instance under an id. -/
def sampleRegistration (uris : List Str) (instanceId : Str) : Registration where
  identity := {
    name := "sports.api"
    provider := "athenz.aws.us-west-2"
    instanceId := instanceId
    x509Certificate := { dnsNames := (sampleCsr uris).dnsNames, uris := uris }
    attributes := ∅
    sshRequested := true
    serviceToken := false }
  certRecord := some {
    service := "sports.api"
    provider := "athenz.aws.us-west-2"
    instanceId := instanceId
    clientCert := false
    currentIP := "10.0.0.1"
    hostName := none }

/-- The attested instance `i-1` registers, and is recorded, as `i-2`. -/
theorem instance_registers_as_another :
    (CloudProvider.aws sampleAws).attestedInstanceId sampleInfo.attestationData =
      some "i-1".toList ∧
    (sampleServer ["athenz://instanceid/athenz.aws.us-west-2/i-2"]).postInstanceRegisterInformation
        { remoteAddress := "10.0.0.1" } sampleInfo =
      .ok (sampleRegistration ["athenz://instanceid/athenz.aws.us-west-2/i-2"] "i-2") ∧
    equalsIgnoreCase "i-2" "i-1" = false :=
  ⟨rfl, rfl, rfl⟩

theorem instance_registers_as_itself :
    RecordsAttested (sampleRegistration [] "i-1")
      (((sampleServer []).serviceCertContext sampleInfo).providerDnsNames (sampleCsr []).dnsNames)
      "i-1" := by
  refine (registration_records_attested_iff (sampleServer []) { remoteAddress := "10.0.0.1" }
    sampleInfo (.aws sampleAws) 0 (sampleCsr []) "i-1" (sampleRegistration [] "i-1") rfl rfl rfl
    (by decide +kernel) (by decide +kernel) ?_ rfl).2 (.inr ⟨"i-1", "i-1", ?_⟩)
  · intro provider usage expiry cert hcert
    cases hcert
    exact ⟨rfl, rfl⟩
  · decide +kernel

end Sample

end Athenz.Zts
