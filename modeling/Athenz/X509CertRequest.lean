import Athenz.DataModel

namespace Athenz.Zts
open Lib Lib.Text Lib.Result
set_option autoImplicit true

/-- A parsed certificate signing request. Reading a subject field fails, with `none`, when the
field occurs more than once. -/
structure Csr where
  commonName : Str
  dnsNames : List Str := []
  uris : List Str := []
  ipAddresses : List Str := []
  emails : List Str := []
  subjectO : Option (Option Str) := some none
  subjectOU : Option (Option Str) := some none

/-- The fields of a certificate that the server reads. -/
structure X509Certificate where
  dnsNames : List Str := []
  uris : List Str := []
  ipAddresses : List Str := []
  subjectOU : Option Str := none
deriving DecidableEq

/-- The rest of the first entry that starts with an item. -/
def extractItemFromURI (uriList : List Str) (item : Str) : Option Str :=
  uriList.findSome? fun uri => if item <+: uri then some (uri.drop item.length) else none

/-- The id in one `athenz://instanceid/<provider>/<id>` entry. -/
def instanceIdOfURI (uri : Str) : Option Str :=
  if ("athenz://instanceid/" : Str) <+: uri then
    (indexOfFrom "/" uri ("athenz://instanceid/" : Str).length).map fun idx => uri.drop (idx + 1)
  else none

def extractRequestInstanceIdFromURI (uriList : List Str) : Option Str :=
  uriList.findSome? instanceIdOfURI

/-- The id in one `<id>.instanceid.athenz.<suffix>` entry. -/
def instanceIdOfDnsName (dnsName : Str) : Option Str :=
  (indexOf ".instanceid.athenz." dnsName).map dnsName.take

def extractRequestInstanceIdFromDnsNames (dnsNames : List Str) : Option Str :=
  dnsNames.findSome? instanceIdOfDnsName

def extractRequestInstanceId (cert : X509Certificate) : Option Str :=
  (extractRequestInstanceIdFromURI cert.uris).or
    (extractRequestInstanceIdFromDnsNames cert.dnsNames)

/-- The id that the server takes from a request. -/
def requestedInstanceId (csr : Csr) : Option Str :=
  (extractRequestInstanceIdFromURI csr.uris).or (extractRequestInstanceIdFromDnsNames csr.dnsNames)

structure X509CertRequest where
  csr : Csr
  instanceId : Option Str
  uriHostname : Option Str
  spiffeUri : Option Str

/-- The only entry that starts with a text, ignoring case; two of them are an error. -/
def singleUri [CaseRules] (start : Str) (uris : List Str) : Option (Option Str) :=
  match uris.filter fun uri => start <+: toLowerCase uri with
  | [] => some none
  | [uri] => some (some uri)
  | _ => none

namespace X509CertRequest

variable [CaseRules]

/-- The constructor, on the parsed request. -/
def ofCsr (csr : Csr) : Except Str X509CertRequest :=
  match singleUri "spiffe://" csr.uris with
  | none => .error "Invalid SPIFFE URI present in CSR"
  | some spiffeUri =>
    .ok {
      csr := csr
      instanceId := requestedInstanceId csr
      uriHostname := extractItemFromURI csr.uris "athenz://hostname/"
      spiffeUri := spiffeUri }

theorem ofCsr_ok {csr : Csr} (h : ofCsr csr = .ok certReq) :
    certReq.csr = csr ∧ certReq.instanceId = requestedInstanceId csr := by
  unfold ofCsr at h
  split at h
  · cases h
  · cases h
    exact ⟨rfl, rfl⟩

omit [CaseRules] in
def validateSubjectOField (certReq : X509CertRequest) (validValues : Option (List Str)) : Bool :=
  match validValues with
  | none | some [] => true
  | some values =>
    match certReq.csr.subjectO with
    | none => false
    | some none => true
    | some (some value) => value ∈ values

/-- Comparison with a text that may be missing. -/
def equalsIgnoreCaseOption (s : Str) (t : Option Str) : Bool := t.any (equalsIgnoreCase s)

def validateSubjectOUField (certReq : X509CertRequest) (provider certSubjectOU : Option Str)
    (validValues : Option (List Str)) : Bool :=
  match certReq.csr.subjectOU with
  | none => false
  | some none => true
  | some (some value) =>
    let value := if (":restricted" : Str) <:+ value then
        value.take (value.length - (":restricted" : Str).length)
      else value
    equalsIgnoreCaseOption value certSubjectOU || equalsIgnoreCaseOption value provider ||
      validValues.any (value ∈ ·)

omit [CaseRules] in
def validateIPAddress (certReq : X509CertRequest) (ip : Str) : Bool :=
  match certReq.csr.ipAddresses with
  | [] => true
  | [address] => address = ip
  | _ => false

def validateSpiffeURI (certReq : X509CertRequest) (domain name value : Str) : Bool :=
  certReq.spiffeUri.all (equalsIgnoreCase ("spiffe://" ++ domain ++ '/' :: name ++ '/' :: value))

end X509CertRequest

end Athenz.Zts
