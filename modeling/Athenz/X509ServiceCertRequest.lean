import Athenz.DataStore
import Athenz.X509CertRequest

namespace Athenz.Zts
open Lib Lib.Text Lib.Result
set_option autoImplicit true

/-- The configured resolver of hostnames. -/
structure HostnameResolver where
  isValidHostname : Str → Bool
  isValidHostCnameList : Str → Str → List Str → Bool

/-- What the check of one DNS name of a request decides. -/
inductive DnsNameCheck where
  | refused | accepted | forProvider
deriving DecidableEq

/-- What a service certificate request is checked against; `athenzSysDomainCache` is missing when
the system domain is not loaded. -/
structure ServiceCertContext where
  domainName : Str
  serviceName : Str
  provider : Str
  athenzSysDomainCache : Option DataCache
  serviceDnsSuffix : Option Str := none
  instanceHostname : Option Str := none
  instanceHostCnames : Option (List Str) := none
  hostnameResolver : Option HostnameResolver := none

namespace ServiceCertContext

def isHostnameAllowed (context : ServiceCertContext) (hostname : Str) : Except Failure Bool :=
  match context.athenzSysDomainCache with
  | none => .error .nullPointer
  | some cache =>
    let denied := cache.providerHostnameDeniedSuffixCache.listAt context.provider
    let allowed := cache.providerHostnameAllowedSuffixCache.listAt context.provider
    .ok (!denied.any (· <:+ hostname) && allowed.any (· <:+ hostname))

def validateInstanceHostname (context : ServiceCertContext) : Except Failure Bool :=
  match context.instanceHostname with
  | none | some [] => .ok true
  | some hostname => do
    let allowed ← context.isHostnameAllowed hostname
    return allowed && context.hostnameResolver.all (·.isValidHostname hostname)

/-- Cnames need a hostname, a permission for each of them and a resolver that knows them. -/
def validateInstanceCnames (context : ServiceCertContext) : Except Failure Bool :=
  match context.instanceHostCnames with
  | none | some [] => .ok true
  | some cnames =>
    match context.instanceHostname with
    | none | some [] => .ok false
    | some hostname => do
      let allowed ← cnames.allM context.isHostnameAllowed
      return allowed && context.hostnameResolver.any fun resolver =>
        resolver.isValidHostCnameList (context.domainName ++ '.' :: context.serviceName) hostname
          cnames

/-- The domain name as it stands in a host name. -/
def dashDomain (domainName : Str) : Str := domainName.map fun c => if c = '.' then '-' else c

def wildCardPrefix (context : ServiceCertContext) : Str :=
  "*." ++ context.serviceName ++ '.' :: dashDomain context.domainName ++ ['.']

def isCname (context : ServiceCertContext) (dnsName : Str) : Bool :=
  context.instanceHostCnames.any (dnsName ∈ ·)

variable [CaseRules]

def dnsSuffixCheck (context : ServiceCertContext) (providerDnsSuffixList : List Str)
    (dnsName : Str) : DnsNameCheck :=
  if providerDnsSuffixList.any (· <:+ dnsName) then
    if context.isCname dnsName then .accepted
    else if context.wildCardPrefix <+: dnsName then .accepted
    else .forProvider
  else if context.serviceDnsSuffix.any fun suffix => '.' :: suffix <:+ dnsName then .accepted
  else if context.instanceHostname.any (equalsIgnoreCase dnsName) then .forProvider
  else if context.isCname dnsName then .accepted
  else .refused

/-- What is decided about a DNS name; without the system domain no suffix is known. -/
def checkDnsName (context : ServiceCertContext) (dnsName : Str) : DnsNameCheck :=
  context.dnsSuffixCheck ((context.athenzSysDomainCache.map
    (·.providerDnsSuffixCache.listAt context.provider)).getD []) dnsName

/-- The DNS names that the provider is asked about. -/
def providerDnsNames (context : ServiceCertContext) (dnsNames : List Str) : List Str :=
  dnsNames.filter (context.checkDnsName · = .forProvider)

def validateDnsNames (context : ServiceCertContext) (dnsNames : List Str) :
    Except Failure (Option (List Str)) :=
  if dnsNames = [] then .ok (some [])
  else do
    if !(← context.validateInstanceHostname) then return none
    else if !(← context.validateInstanceCnames) then return none
    else
      refuse context.athenzSysDomainCache.isNone Failure.nullPointer
      if dnsNames.any (context.checkDnsName · = .refused) then return none
      else return some (context.providerDnsNames dnsNames)

theorem validateDnsNames_ok {context : ServiceCertContext}
    (h : context.validateDnsNames dnsNames = .ok (some names)) :
    names = context.providerDnsNames dnsNames := by
  unfold validateDnsNames at h
  split at h
  · rename_i hnil
    cases h
    rw [hnil]
    rfl
  · obtain ⟨hostname, _, h⟩ := bind_eq_ok.1 h
    split at h
    · cases h
    obtain ⟨cnames, _, h⟩ := bind_eq_ok.1 h
    split at h
    · cases h
    obtain ⟨_, _, h⟩ := bind_eq_ok.1 h
    split at h
    · cases h
    · cases h
      rfl

end ServiceCertContext

namespace X509CertRequest

variable [CaseRules]

def validateCommonName (certReq : X509CertRequest) (reqCommonName : Str) : Bool :=
  equalsIgnoreCase reqCommonName certReq.csr.commonName

omit [CaseRules] in
def validateUriHostname (certReq : X509CertRequest) (instanceHostname : Option Str) : Bool :=
  isEmptyText certReq.uriHostname || certReq.uriHostname = instanceHostname

def csrError (message : Str) : Failure := .resource 400 ("CSR validation failed - " ++ message)

/-- `X509ServiceCertRequest.validate`: the names for the provider, or the answer of the server. -/
def validateService (certReq : X509CertRequest) (context : ServiceCertContext)
    (validSubjectOValues : Option (List Str)) : Except Failure (List Str) := do
  refuse (isEmptyText certReq.instanceId) (csrError "InstanceId cannot be empty")
  refuse (!certReq.validateCommonName (context.domainName ++ '.' :: context.serviceName))
    (csrError "Unable to validate CSR common name")
  refuse (!certReq.validateUriHostname context.instanceHostname)
    (csrError ("Instance/Uri hostname mismatch: " ++ context.instanceHostname.getD "null" ++
      " vs. " ++ certReq.uriHostname.getD "null"))
  let dnsNames ← context.validateDnsNames certReq.csr.dnsNames
  let providerDnsNames ← require dnsNames
    (csrError "Unable to validate CSR SAN dnsNames - invalid dns suffix")
  refuse (!certReq.validateSubjectOField validSubjectOValues)
    (csrError "Unable to validate Subject O Field")
  refuse (!certReq.validateSpiffeURI context.domainName "sa" context.serviceName)
    (csrError "Unable to validate Service SPIFFE URI")
  return providerDnsNames

theorem validateService_ok {certReq : X509CertRequest}
    (h : certReq.validateService context validSubjectOValues = .ok names) :
    names = context.providerDnsNames certReq.csr.dnsNames ∧
      ∃ id, certReq.instanceId = some id ∧ id ≠ [] := by
  simp only [validateService, bind_eq_ok, refuse_eq_ok, exists_unit, require_eq_ok,
    pure_eq_ok] at h
  obtain ⟨hid, _, _, dnsNames, hnames, _, hsome, _, _, rfl⟩ := h
  subst hsome
  refine ⟨ServiceCertContext.validateDnsNames_ok hnames, ?_⟩
  cases hinstance : certReq.instanceId with
  | none => simp [isEmptyText, hinstance] at hid
  | some id =>
    refine ⟨id, rfl, ?_⟩
    intro hempty
    simp [isEmptyText, hinstance, hempty] at hid

end X509CertRequest

end Athenz.Zts
