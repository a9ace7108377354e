import Athenz.X509CertRequest
import Athenz.X509ServiceCertRequest

namespace Athenz.Zts
open Lib Lib.Text Lib.Result
set_option autoImplicit true

/-- What the server asks a provider to confirm; the answer replaces the attributes. -/
structure InstanceConfirmation where
  attestationData : Str
  domain : Str
  service : Str
  provider : Str
  attributes : Map Str Str

def providerError (message : Str) : Failure := .resource 403 message

namespace InstanceUtils

def getInstanceProperty (attributes : Map Str Str) (propertyName : Str) : Option Str :=
  attributes.lookup propertyName

/-- The scan of the host names, with the id text appended so far. -/
structure HostScan where
  instanceId : Str := []
  hostCheck : Bool := false
  instanceIdCheck : Bool := false

def scanHost (dnsSuffixes hostNameChecks : List Str) (scan : HostScan) (host : Str) :
    Option HostScan :=
  match indexOf ".instanceid.athenz." host with
  | some idx =>
    if host.drop (idx + (".instanceid.athenz." : Str).length) ∈ dnsSuffixes then
      some { scan with instanceId := scan.instanceId ++ host.take idx, instanceIdCheck := true }
    else none
  | none => if host ∈ hostNameChecks then some { scan with hostCheck := true } else none

/-- The id of the first instance URI, which must not be empty. -/
def validateCertRequestUriId (attributes : Map Str Str) : Option Str :=
  match getInstanceProperty attributes "sanURI" with
  | none | some [] => none
  | some uriList => ((splitTrim ',' uriList).findSome? instanceIdOfURI).filter (· ≠ [])

/-- The id that a finished scan stands for. -/
def scannedId (attributes : Map Str Str) (scan : HostScan) : Option Str :=
  if !scan.hostCheck then none
  else if scan.instanceIdCheck then some scan.instanceId
  else (validateCertRequestUriId attributes).map (scan.instanceId ++ ·)

/-- The instance id that the names of a request give, when they are as expected. -/
def validateCertRequestSanDnsNames (attributes : Map Str Str) (domain service : Str)
    (dnsSuffixes : List Str) : Option Str :=
  if dnsSuffixes = [] then none
  else do
    let hostnames ← (getInstanceProperty attributes "sanDNS").filter (· ≠ [])
    let hostNameChecks := dnsSuffixes.map fun suffix =>
      service ++ '.' :: ServiceCertContext.dashDomain domain ++ '.' :: suffix
    let scan ← (splitTrim ',' hostnames).foldlM (scanHost dnsSuffixes hostNameChecks) {}
    scannedId attributes scan

theorem scanHost_some (h : scanHost dnsSuffixes hostNameChecks scan host = some scan') :
    scan'.instanceId = scan.instanceId ++ (instanceIdOfDnsName host).getD [] ∧
      scan'.instanceIdCheck = (scan.instanceIdCheck || (instanceIdOfDnsName host).isSome) := by
  unfold scanHost at h
  unfold instanceIdOfDnsName
  cases hidx : indexOf ".instanceid.athenz." host with
  | none =>
    simp only [hidx, Option.ite_none_right_eq_some, Option.some.injEq] at h
    obtain ⟨_, rfl⟩ := h
    simp only [Option.map_none, Option.getD_none, List.append_nil, Option.isSome_none,
      Bool.or_false, and_self]
  | some idx =>
    simp only [hidx, Option.ite_none_right_eq_some, Option.some.injEq] at h
    obtain ⟨_, rfl⟩ := h
    simp only [Option.map_some, Option.getD_some, Option.isSome_some, Bool.or_true, and_self]

/-- The id that a scan appends is made of the ids of all names. -/
theorem foldlM_scanHost {hosts : List Str}
    (h : hosts.foldlM (scanHost dnsSuffixes hostNameChecks) scan = some scan') :
    scan'.instanceId = scan.instanceId ++ (hosts.filterMap instanceIdOfDnsName).flatten ∧
      (scan'.instanceIdCheck = true ↔
        scan.instanceIdCheck = true ∨ hosts.filterMap instanceIdOfDnsName ≠ []) := by
  induction hosts generalizing scan with
  | nil =>
    cases h
    simp only [List.filterMap_nil, List.flatten_nil, List.append_nil, ne_eq, not_true_eq_false,
      or_false, and_self]
  | cons host hosts ih =>
    rw [List.foldlM_cons] at h
    obtain ⟨scan₁, h₁, h₂⟩ := Option.bind_eq_some_iff.1 h
    obtain ⟨hid₁, hcheck₁⟩ := scanHost_some h₁
    obtain ⟨hid, hcheck⟩ := ih h₂
    rw [hid, hcheck, hid₁, hcheck₁]
    cases hhost : instanceIdOfDnsName host with
    | none =>
      rw [List.filterMap_cons_none hhost]
      simp only [Option.getD_none, List.append_nil, Option.isSome_none, Bool.or_false, and_self]
    | some id =>
      rw [List.filterMap_cons_some hhost]
      simp only [Option.getD_some, List.append_assoc, List.flatten_cons, Option.isSome_some,
        Bool.or_true, true_or, ne_eq, reduceCtorEq, not_false_eq_true, or_true, and_self]

/-- The id comes from the DNS names when one of them has one, and else from the first URI. -/
theorem validateCertRequestSanDnsNames_some
    (h : validateCertRequestSanDnsNames attributes domain service dnsSuffixes = some instanceId) :
    ∃ hostnames ids, getInstanceProperty attributes "sanDNS" = some hostnames ∧
      (splitTrim ',' hostnames).filterMap instanceIdOfDnsName = ids ∧
      (ids = [] → validateCertRequestUriId attributes = some instanceId) ∧
      (ids ≠ [] → instanceId = ids.flatten) := by
  simp only [validateCertRequestSanDnsNames, Option.ite_none_left_eq_some, Option.bind_eq_bind,
    Option.bind_eq_some_iff, Option.filter_eq_some_iff] at h
  obtain ⟨_, hostnames, ⟨hproperty, _⟩, scan, hscan, hid⟩ := h
  obtain ⟨hscanId, hscanCheck⟩ := foldlM_scanHost hscan
  simp only [List.nil_append, Bool.false_eq_true, false_or] at hscanId hscanCheck
  simp only [scannedId, Option.ite_none_left_eq_some, hscanCheck] at hid
  obtain ⟨_, hid⟩ := hid
  refine ⟨hostnames, _, hproperty, rfl, ?_, ?_⟩
  · intro hnone
    rw [if_neg (not_not.2 hnone), hscanId, hnone] at hid
    simpa only [List.flatten_nil, List.nil_append, Option.map_id'] using hid
  · intro hsome
    rw [if_pos hsome, Option.some.injEq] at hid
    exact hid ▸ hscanId

end InstanceUtils

section Aws

structure AWSAttestationData where
  role : Option Str
  document : Option Str := none
  signature : Option Str := none
  access : Option Str := none
  secret : Option Str := none
  token : Option Str := none

/-- The fields of an instance identity document that the provider reads. -/
structure InstanceDocument where
  region : Option Str
  accountId : Option Str
  instanceId : Option Str
  privateIp : Option Str := none
  pendingTime : Option Str := none

/-- The provider for AWS with the services and readers it calls; `callerArn` is the answer of the
token service for the credentials of a request. -/
structure InstanceAWSProvider (Key : Type) where
  awsPublicKey : Option Key
  bootTimeOffsetSeconds : Int := 300
  certValidityTime : Int := 10080
  dnsSuffixes : List Str
  readAttestationData : Str → Option AWSAttestationData
  readDocument : Str → Option InstanceDocument
  validatePKCS7Signature : Str → Str → Key → Except Str Bool
  timestampMillis : Str → Option Int
  callerArn : AWSAttestationData → Option Str

namespace InstanceAWSProvider

variable {Key : Type} [CaseRules]

def documentError (message : Str) : Failure :=
  providerError ("Unable to validate AWS document: " ++ message)

omit [CaseRules] in
def validateAWSSignature (aws : InstanceAWSProvider Key) (document : Str)
    (signature : Option Str) : Except Failure Unit :=
  match signature with
  | none | some [] => .error (documentError "AWS instance document signature is empty")
  | some signature =>
    match aws.awsPublicKey with
    | none => .error (documentError "AWS Public key is not available")
    | some key =>
      match aws.validatePKCS7Signature document signature key with
      | .error message => .error (documentError
          ("verifyInstanceDocument: unable to verify AWS instance document: " ++ message))
      | .ok valid => refuse (!valid) (documentError [])

omit [CaseRules] in
def validateAWSProvider (provider : Str) (region : Option Str) : Except Failure Unit :=
  match region with
  | none => .error (documentError "no region provided in instance document")
  | some region => refuse (¬ '.' :: region <:+ provider) (documentError
      ("provider " ++ provider ++ " does not end with expected suffix " ++ region))

def validateAWSAccount (awsAccount : Str) (docAccount : Option Str) : Except Failure Unit :=
  refuse (!docAccount.any (equalsIgnoreCase awsAccount)) (documentError
    ("mismatch between account values - instance document: " ++ docAccount.getD "null"))

def validateAWSInstanceId (reqInstanceId : Str) (docInstanceId : Option Str) :
    Except Failure Unit :=
  refuse (!docInstanceId.any (equalsIgnoreCase reqInstanceId)) (documentError
    ("mismatch between instance-id values: request: " ++ reqInstanceId ++
      " vs. instance document: " ++ docInstanceId.getD "null"))

omit [CaseRules] in
def validateInstanceBootTime (aws : InstanceAWSProvider Key) (now : Int)
    (document : InstanceDocument) : Except Failure Unit :=
  if aws.bootTimeOffsetSeconds * 1000 ≤ 0 then .ok ()
  else
    match document.pendingTime.bind aws.timestampMillis with
    | none => .error .nullPointer
    | some bootTime => refuse (bootTime < now - aws.bootTimeOffsetSeconds * 1000) (documentError
        ("Instance boot time is not recent enough: " ++ document.pendingTime.getD "null"))

/-- The private address in the document, once the document is accepted for the id. -/
def validateAWSDocument (aws : InstanceAWSProvider Key) (now : Int) (provider : Str)
    (document : Str) (signature : Option Str) (awsAccount instanceId : Str) :
    Except Failure (Option Str) := do
  aws.validateAWSSignature document signature
  let instanceDocument ← require (aws.readDocument document)
    (documentError "Unable to parse identity document")
  validateAWSProvider provider instanceDocument.region
  validateAWSAccount awsAccount instanceDocument.accountId
  validateAWSInstanceId instanceId instanceDocument.instanceId
  aws.validateInstanceBootTime now instanceDocument
  return instanceDocument.privateIp

omit [CaseRules] in
def verifyInstanceIdentity (aws : InstanceAWSProvider Key) (info : AWSAttestationData)
    (awsAccount : Str) : Bool :=
  !isEmptyText info.access && !isEmptyText info.secret && !isEmptyText info.token &&
    (aws.callerArn info).any fun arn =>
      ("arn:aws:sts::" ++ awsAccount ++ ":assumed-role/" ++ info.role.getD "null" ++ "/" : Str) <+:
        arn

omit [CaseRules] in
def setConfirmationAttributes (aws : InstanceAWSProvider Key) (documentCreds : Bool)
    (privateIp : Option Str) : Map Str Str :=
  let attributes : Map Str Str := AList.insert (↑"certSSH" : Str)
    (if documentCreds then "true".toList else "false".toList) ∅
  let attributes : Map Str Str := if documentCreds then attributes
    else attributes.insert "certExpiryTime" (toString aws.certValidityTime).toList
  match privateIp with
  | none | some [] => attributes
  | some privateIp => attributes.insert "instancePrivateIp" privateIp

def confirmInstance (aws : InstanceAWSProvider Key) (now : Int)
    (confirmation : InstanceConfirmation) : Except Failure InstanceConfirmation := do
  let awsAccount ← require
    ((InstanceUtils.getInstanceProperty confirmation.attributes "awsAccount").filter (· ≠ []))
    (providerError "Unable to extract AWS Account id")
  let info ← require (aws.readAttestationData confirmation.attestationData) .nullPointer
  let serviceName := confirmation.domain ++ '.' :: confirmation.service
  refuse (info.role ≠ some serviceName) (providerError
    ("Service name mismatch: " ++ info.role.getD "null" ++ " vs. " ++ serviceName))
  let instanceId ← require
    (InstanceUtils.validateCertRequestSanDnsNames confirmation.attributes confirmation.domain
      confirmation.service aws.dnsSuffixes)
    (providerError "Unable to validate certificate request hostnames")
  let privateIp ← info.document.elim (.ok none) fun document =>
    aws.validateAWSDocument now confirmation.provider document info.signature awsAccount instanceId
  refuse (!aws.verifyInstanceIdentity info awsAccount)
    (providerError "Unable to verify instance identity credentials")
  return { confirmation with
    attributes := aws.setConfirmationAttributes info.document.isSome privateIp }

/-- The id in the instance document of a request, when it brings one. -/
def attestedInstanceId (aws : InstanceAWSProvider Key) (attestationData : Str) : Option Str := do
  let info ← aws.readAttestationData attestationData
  let document ← aws.readDocument (← info.document)
  document.instanceId

theorem confirmInstance_ok {aws : InstanceAWSProvider Key}
    (h : aws.confirmInstance now confirmation = .ok answer)
    (hattested : aws.attestedInstanceId confirmation.attestationData = some attested) :
    ∃ instanceId, InstanceUtils.validateCertRequestSanDnsNames confirmation.attributes
        confirmation.domain confirmation.service aws.dnsSuffixes = some instanceId ∧
      equalsIgnoreCase instanceId attested = true := by
  simp only [attestedInstanceId, Option.bind_eq_bind, Option.bind_eq_some_iff] at hattested
  obtain ⟨info, hinfo, text, htext, document, hdocument, hid⟩ := hattested
  simp only [confirmInstance, bind_eq_ok, require_eq_ok, hinfo, Option.some.injEq,
    exists_eq_left', exists_unit, htext, Option.elim_some] at h
  obtain ⟨_, _, _, instanceId, hnames, _, hvalid, _⟩ := h
  refine ⟨instanceId, hnames, ?_⟩
  simp only [validateAWSDocument, bind_eq_ok, require_eq_ok, hdocument, Option.some.injEq,
    exists_eq_left', exists_unit, validateAWSInstanceId, refuse_eq_ok, hid, Option.any_some,
    Bool.not_eq_true', Bool.not_eq_false] at hvalid
  exact hvalid.2.2.2.1

end InstanceAWSProvider

end Aws

section Azure

structure AzureAttestationData where
  subscriptionId : Option Str
  token : Option Str

structure OAuth2Token where
  audience : Option Str
  subject : Option Str

/-- The details of a machine; a missing block of them is `none`. -/
structure AzureVmDetails where
  location : Option Str
  tags : Option (Option Str)
  identity : Option (Option Str)
  properties : Option (Option Str)

/-- The provider for Azure with the services and readers it calls. -/
structure InstanceAzureProvider where
  azureProvider : Option Str := none
  dnsSuffixes : List Str
  ztsResourceUri : Str
  readAttestationData : Str → Option AzureAttestationData
  validateAccessToken : Option Str → Option OAuth2Token
  fetchVMDetails : AzureAttestationData → Option Str
  parseVmDetails : Str → Option AzureVmDetails

namespace InstanceAzureProvider

def identityError : Failure := providerError "Unable to verify instance identity credentials"

def verifyInstanceIdentity (azure : InstanceAzureProvider) (info : AzureAttestationData)
    (provider serviceName instanceId : Str) : Except Failure Unit := do
  let vmToken ← require (azure.validateAccessToken info.token) identityError
  refuse (vmToken.audience ≠ some azure.ztsResourceUri) identityError
  let vmDetailsData ← require (azure.fetchVMDetails info) identityError
  let vmDetails ← require (azure.parseVmDetails vmDetailsData) identityError
  let subject ← require vmToken.subject .nullPointer
  let principalId ← require vmDetails.identity .nullPointer
  refuse (some subject ≠ principalId) identityError
  let athenz ← require vmDetails.tags .nullPointer
  refuse (some serviceName ≠ athenz) identityError
  let vmId ← require vmDetails.properties .nullPointer
  refuse (some instanceId ≠ vmId) identityError
  let vmProvider := if isEmptyText azure.azureProvider then
      "athenz.azure." ++ vmDetails.location.getD "null"
    else azure.azureProvider.getD []
  refuse (provider ≠ vmProvider) identityError

def confirmInstance (azure : InstanceAzureProvider) (confirmation : InstanceConfirmation) :
    Except Failure InstanceConfirmation := do
  let info ← require (azure.readAttestationData confirmation.attestationData)
    (providerError "Unable to parse attestation data")
  let azureSubscription ← require
    ((InstanceUtils.getInstanceProperty confirmation.attributes "azureSubscription").filter
      (· ≠ []))
    (providerError "Unable to extract Azure Subscription id")
  refuse (some azureSubscription ≠ info.subscriptionId)
    (providerError "Azure Subscription Id mismatch")
  let instanceId ← require
    (InstanceUtils.validateCertRequestSanDnsNames confirmation.attributes confirmation.domain
      confirmation.service azure.dnsSuffixes)
    (providerError "Unable to validate certificate request hostnames")
  azure.verifyInstanceIdentity info confirmation.provider
    (confirmation.domain ++ '.' :: confirmation.service) instanceId
  return { confirmation with attributes := ∅ }

/-- The id of the machine that a request names, as the cloud reports it. -/
def attestedInstanceId (azure : InstanceAzureProvider) (attestationData : Str) : Option Str := do
  let info ← azure.readAttestationData attestationData
  let vmDetails ← azure.parseVmDetails (← azure.fetchVMDetails info)
  vmDetails.properties.join

theorem confirmInstance_ok {azure : InstanceAzureProvider}
    (h : azure.confirmInstance confirmation = .ok answer)
    (hattested : azure.attestedInstanceId confirmation.attestationData = some attested) :
    InstanceUtils.validateCertRequestSanDnsNames confirmation.attributes confirmation.domain
      confirmation.service azure.dnsSuffixes = some attested := by
  simp only [attestedInstanceId, Option.bind_eq_bind, Option.bind_eq_some_iff] at hattested
  obtain ⟨info, hinfo, text, htext, vmDetails, hdetails, hid⟩ := hattested
  simp only [confirmInstance, bind_eq_ok, require_eq_ok, hinfo, Option.some.injEq,
    exists_eq_left', exists_unit] at h
  obtain ⟨_, _, _, instanceId, hnames, hverified, _⟩ := h
  simp only [verifyInstanceIdentity, bind_eq_ok, require_eq_ok, htext, hdetails,
    Option.some.injEq, exists_eq_left', exists_unit, refuse_eq_ok, ne_eq, not_not,
    Option.join_eq_some_iff.1 hid] at hverified
  obtain ⟨_, _, _, _, _, _, _, _, _, _, _, hvm, _⟩ := hverified
  rw [hnames, hvm]

end InstanceAzureProvider

end Azure

/-- The providers that attest to a machine of a cloud. -/
inductive CloudProvider (Key : Type) where
  | aws (provider : InstanceAWSProvider Key)
  | azure (provider : InstanceAzureProvider)

namespace CloudProvider

variable {Key : Type} [CaseRules]

def confirmInstance (now : Int) : CloudProvider Key → InstanceConfirmation →
    Except Failure InstanceConfirmation
  | aws provider => provider.confirmInstance now
  | azure provider => provider.confirmInstance

omit [CaseRules] in
def attestedInstanceId : CloudProvider Key → Str → Option Str
  | aws provider => provider.attestedInstanceId
  | azure provider => provider.attestedInstanceId

omit [CaseRules] in
def dnsSuffixes : CloudProvider Key → List Str
  | aws provider => provider.dnsSuffixes
  | azure provider => provider.dnsSuffixes

/-- A confirmed request names, ignoring case, the id that is attested. -/
theorem confirmInstance_ok {cloud : CloudProvider Key}
    (h : cloud.confirmInstance now confirmation = .ok answer)
    (hattested : cloud.attestedInstanceId confirmation.attestationData = some attested) :
    ∃ instanceId, InstanceUtils.validateCertRequestSanDnsNames confirmation.attributes
        confirmation.domain confirmation.service cloud.dnsSuffixes = some instanceId ∧
      equalsIgnoreCase instanceId attested = true := by
  cases cloud with
  | aws provider => exact provider.confirmInstance_ok h hattested
  | azure provider =>
    exact ⟨attested, provider.confirmInstance_ok h hattested, equalsIgnoreCase_refl attested⟩

end CloudProvider

end Athenz.Zts
