import Athenz.InstanceRegister
import Athenz.RoleCertUris

namespace Athenz.Zts
open Lib Lib.Text Lib.Result
set_option autoImplicit true

section Names

namespace ServiceCertContext

/-- A hostname that the provider may ask for, and that the resolver knows. -/
def HostnameVouched (context : ServiceCertContext) (hostname : Str) : Prop :=
  context.isHostnameAllowed hostname = .ok true ∧
    (context.hostnameResolver.all (·.isValidHostname hostname)) = true

/-- A cname of the request that the provider may ask for, and that the resolver confirms. -/
def CnameVouched (context : ServiceCertContext) (cname : Str) : Prop :=
  ∃ cnames hostname resolver, context.instanceHostCnames = some cnames ∧ cname ∈ cnames ∧
    context.isHostnameAllowed cname = .ok true ∧ context.instanceHostname = some hostname ∧
    context.hostnameResolver = some resolver ∧
    resolver.isValidHostCnameList (context.domainName ++ '.' :: context.serviceName) hostname
      cnames = true

def providerDnsSuffixes (context : ServiceCertContext) : List Str :=
  (context.athenzSysDomainCache.map (·.providerDnsSuffixCache.listAt context.provider)).getD []

/-- A DNS name that the provider is asked about, or that need not be asked about. -/
def DnsNameVouched (context : ServiceCertContext) (providerDnsNames : List Str) (name : Str) : Prop :=
  name ∈ providerDnsNames ∨ context.CnameVouched name ∨
    (∃ suffix, context.serviceDnsSuffix = some suffix ∧ '.' :: suffix <:+ name) ∨
    (context.wildCardPrefix <+: name ∧ ∃ suffix ∈ context.providerDnsSuffixes, suffix <:+ name)

theorem validateInstanceHostname_ok {context : ServiceCertContext}
    (h : context.validateInstanceHostname = .ok true)
    (hhostname : context.instanceHostname = some hostname) (hne : hostname ≠ []) :
    context.HostnameVouched hostname := by
  unfold validateInstanceHostname at h
  rw [hhostname] at h
  cases hostname with
  | nil => exact absurd rfl hne
  | cons c hostname =>
    obtain ⟨allowed, hallowed, hrest⟩ := bind_eq_ok.1 h
    have hboth := Except.ok.inj hrest
    rw [Bool.and_eq_true] at hboth
    rw [hboth.1] at hallowed
    exact ⟨hallowed, hboth.2⟩

theorem allM_ok {p : α → Except ε Bool} {items : List α} (h : items.allM p = .ok true) :
    ∀ item ∈ items, p item = .ok true := by
  induction items with
  | nil => exact fun _ hmem => nomatch hmem
  | cons item items ih =>
    rw [List.allM] at h
    obtain ⟨holds, hitem, hrest⟩ := bind_eq_ok.1 h
    cases holds with
    | false => cases hrest
    | true =>
      intro other hmem
      obtain rfl | hmem := List.mem_cons.1 hmem
      · exact hitem
      · exact ih hrest other hmem

theorem validateInstanceCnames_ok {context : ServiceCertContext}
    (h : context.validateInstanceCnames = .ok true) (hcname : context.isCname cname = true) :
    context.CnameVouched cname := by
  obtain ⟨cnames, hcnames, hmem⟩ := (Option.any_eq_true _ _).1 hcname
  have hmem := of_decide_eq_true hmem
  unfold validateInstanceCnames at h
  rw [hcnames] at h
  cases cnames with
  | nil => cases hmem
  | cons first cnames =>
    cases hhostname : context.instanceHostname with
    | none =>
      rw [hhostname] at h
      cases h
    | some hostname =>
      rw [hhostname] at h
      cases hostname with
      | nil => cases h
      | cons c hostname =>
        obtain ⟨allowed, hallowed, hrest⟩ := bind_eq_ok.1 h
        have hboth := Except.ok.inj hrest
        rw [Bool.and_eq_true] at hboth
        rw [hboth.1] at hallowed
        obtain ⟨resolver, hresolver, hconfirmed⟩ := (Option.any_eq_true _ _).1 hboth.2
        exact ⟨_, _, resolver, hcnames, hmem, allM_ok hallowed cname hmem, hhostname, hresolver,
          hconfirmed⟩

variable [CaseRules]

theorem checkDnsName_vouched {context : ServiceCertContext} {name : Str}
    (hcnames : context.validateInstanceCnames = .ok true)
    (hcheck : context.checkDnsName name ≠ .refused)
    (hnames : context.checkDnsName name = .forProvider → name ∈ names) :
    context.DnsNameVouched names name := by
  have hcname : context.isCname name = true → context.DnsNameVouched names name :=
    fun hcname => .inr (.inl (validateInstanceCnames_ok hcnames hcname))
  unfold checkDnsName dnsSuffixCheck at hcheck hnames
  split at hcheck
  · rename_i hsuffix
    rw [if_pos hsuffix] at hnames
    split at hcheck
    · rename_i hfound
      exact hcname hfound
    · rename_i hnotCname
      rw [if_neg hnotCname] at hnames
      split at hcheck
      · rename_i hwild
        obtain ⟨suffix, hmem, hends⟩ := List.any_eq_true.1 hsuffix
        exact .inr (.inr (.inr ⟨hwild, suffix, hmem, of_decide_eq_true hends⟩))
      · rename_i hnotWild
        rw [if_neg hnotWild] at hnames
        exact .inl (hnames rfl)
  · rename_i hnoSuffix
    rw [if_neg hnoSuffix] at hnames
    split at hcheck
    · rename_i hservice
      obtain ⟨suffix, hsuffix, hends⟩ := (Option.any_eq_true _ _).1 hservice
      exact .inr (.inr (.inl ⟨suffix, hsuffix, of_decide_eq_true hends⟩))
    · rename_i hnoService
      rw [if_neg hnoService] at hnames
      split at hcheck
      · rename_i hhostname
        rw [if_pos hhostname] at hnames
        exact .inl (hnames rfl)
      · split at hcheck
        · rename_i hfound
          exact hcname hfound
        · exact absurd rfl hcheck

/-- What is known when the DNS names of a request are accepted. -/
theorem validateDnsNames_vouched {context : ServiceCertContext}
    (h : context.validateDnsNames dnsNames = .ok (some names)) :
    (∀ name ∈ dnsNames, context.DnsNameVouched names name) ∧
      (dnsNames ≠ [] → ∀ hostname, context.instanceHostname = some hostname → hostname ≠ [] →
        context.HostnameVouched hostname) := by
  have hforProvider := validateDnsNames_ok h
  unfold validateDnsNames at h
  split at h
  · rename_i hnil
    rw [hnil]
    exact ⟨List.forall_mem_nil _, fun hne => absurd rfl hne⟩
  · obtain ⟨hostnames, hhostnames, h⟩ := bind_eq_ok.1 h
    split at h
    · cases h
    rename_i hvalid
    obtain ⟨cnames, hcnames, h⟩ := bind_eq_ok.1 h
    split at h
    · cases h
    rename_i hvalid'
    rw [Bool.not_eq_true, Bool.not_eq_false'] at hvalid hvalid'
    rw [hvalid] at hhostnames
    rw [hvalid'] at hcnames
    obtain ⟨_, _, h⟩ := bind_eq_ok.1 h
    split at h
    · cases h
    rename_i hnone
    constructor
    · intro name hmem
      apply checkDnsName_vouched hcnames
      · intro hrefused
        exact hnone (List.any_eq_true.2 ⟨name, hmem, decide_eq_true hrefused⟩)
      · intro hcheck
        rw [hforProvider]
        exact List.mem_filter.2 ⟨hmem, decide_eq_true hcheck⟩
    · exact fun _ hostname hhostname hne => validateInstanceHostname_ok hhostnames hhostname hne

end ServiceCertContext

end Names

section Requests

/-- The hostnames in the entries of a request that have a text. -/
def hostnameEntries (csr : Csr) : List Str :=
  (itemsOf "athenz://hostname/" csr.uris).filter (· ≠ [])

theorem mem_hostnameEntries :
    hostname ∈ hostnameEntries csr ↔
      "athenz://hostname/".toList ++ hostname ∈ csr.uris ∧ hostname ≠ [] := by
  rw [hostnameEntries, List.mem_filter, mem_itemsOf, decide_eq_true_eq]

variable [CaseRules]

/-- Every name of a request is one that has been looked at. -/
structure NamesVouched (csr : Csr) (context : ServiceCertContext) (providerDnsNames : List Str) :
    Prop where
  hostname : ∀ hostname, "athenz://hostname/".toList ++ hostname ∈ csr.uris → hostname ≠ [] →
    context.instanceHostname = some hostname ∧ context.HostnameVouched hostname
  dnsName : ∀ name ∈ csr.dnsNames, context.DnsNameVouched providerDnsNames name
  spiffe : ∀ uri ∈ csr.uris, "spiffe://".toList <+: toLowerCase uri →
    equalsIgnoreCase ("spiffe://".toList ++ context.domainName ++ "/sa/".toList ++
      context.serviceName) uri = true

/-- The hostname entries repeat the first one, which has a text or names the hostname anyway; without
DNS names there is no entry but for a hostname that would be let through. -/
structure HostnameEntriesAgree (csr : Csr) (context : ServiceCertContext) : Prop where
  repeats : FirstStands
    (fun first => (itemsOf "athenz://hostname/" csr.uris).head? = some [] →
      context.instanceHostname = some first)
    (fun first other => other = first) (hostnameEntries csr)
  checked : csr.dnsNames = [] → ∀ hostname ∈ hostnameEntries csr, context.HostnameVouched hostname

/-- What the constructor reads from a request. -/
theorem X509CertRequest.ofCsr_fields {csr : Csr} (h : X509CertRequest.ofCsr csr = .ok certReq) :
    certReq.csr = csr ∧ certReq.uriHostname = extractItemFromURI csr.uris "athenz://hostname/" ∧
      singleUri "spiffe://" csr.uris = some certReq.spiffeUri := by
  unfold X509CertRequest.ofCsr at h
  split at h
  · cases h
  · rename_i spiffeUri hspiffe
    cases h
    exact ⟨rfl, rfl, hspiffe⟩

/-- The checks of a service request that is accepted. -/
theorem validateService_checks {certReq : X509CertRequest}
    (h : certReq.validateService context validSubjectOValues = .ok names) :
    certReq.validateUriHostname context.instanceHostname = true ∧
      context.validateDnsNames certReq.csr.dnsNames = .ok (some names) ∧
      certReq.validateSpiffeURI context.domainName "sa" context.serviceName = true := by
  simp only [X509CertRequest.validateService, bind_eq_ok, refuse_eq_ok, exists_unit, require_eq_ok,
    pure_eq_ok] at h
  obtain ⟨_, _, hhostname, dnsNames, hnames, _, hsome, _, hspiffe, rfl⟩ := h
  subst hsome
  rw [Bool.not_eq_true', Bool.not_eq_false] at hhostname hspiffe
  exact ⟨hhostname, hnames, hspiffe⟩

variable {csr : Csr} {certReq : X509CertRequest} {context : ServiceCertContext}

theorem first_hostname_entry (hcsr : X509CertRequest.ofCsr csr = .ok certReq)
    (hchecked : certReq.validateUriHostname context.instanceHostname = true)
    (hfirst : (hostnameEntries csr).head? = some first) :
    context.instanceHostname = some first ↔
      ((itemsOf "athenz://hostname/" csr.uris).head? = some [] →
        context.instanceHostname = some first) := by
  refine ⟨fun h _ => h, fun h => ?_⟩
  unfold hostnameEntries at hfirst
  cases hitems : itemsOf "athenz://hostname/" csr.uris with
  | nil =>
    rw [hitems] at hfirst
    cases hfirst
  | cons item items =>
    rw [hitems] at hfirst h
    cases item with
    | nil => exact h rfl
    | cons c item =>
      have hsame : c :: item = first := by
        have hkept : ((c :: item) :: items).filter (· ≠ []) = (c :: item) :: items.filter (· ≠ []) :=
          List.filter_cons_of_pos (decide_eq_true (List.cons_ne_nil c item))
        rw [hkept] at hfirst
        exact Option.some.inj hfirst
      unfold X509CertRequest.validateUriHostname at hchecked
      rw [(X509CertRequest.ofCsr_fields hcsr).2.1, extractItemFromURI_eq, hitems, Bool.or_eq_true]
        at hchecked
      obtain hempty | hhostname := hchecked
      · cases hempty
      · rw [← hsame]
        exact (of_decide_eq_true hhostname).symm

theorem spiffe_vouched (hcsr : X509CertRequest.ofCsr csr = .ok certReq)
    (hchecked : certReq.validateSpiffeURI context.domainName "sa" context.serviceName = true)
    (uri : Str) (huri : uri ∈ csr.uris) (hstart : "spiffe://".toList <+: toLowerCase uri) :
    equalsIgnoreCase ("spiffe://".toList ++ context.domainName ++ "/sa/".toList ++
      context.serviceName) uri = true := by
  unfold X509CertRequest.validateSpiffeURI at hchecked
  rw [eq_of_singleUri (X509CertRequest.ofCsr_fields hcsr).2.2 huri hstart, Option.all_some]
    at hchecked
  rw [← hchecked]
  simp only [List.append_assoc, String.toList]
  rfl

/-- The names of an accepted request are vouched for exactly when its hostname entries agree. -/
theorem validateService_names_iff {validSubjectOValues : Option (List Str)}
    (hcsr : X509CertRequest.ofCsr csr = .ok certReq)
    (h : certReq.validateService context validSubjectOValues = .ok names) :
    NamesVouched csr context names ↔ HostnameEntriesAgree csr context := by
  obtain ⟨huri, hdns, hspiffe⟩ := validateService_checks h
  rw [(X509CertRequest.ofCsr_fields hcsr).1] at hdns
  obtain ⟨hnames, hhostname⟩ := ServiceCertContext.validateDnsNames_vouched hdns
  have hrepeats : (∀ hostname ∈ hostnameEntries csr, context.instanceHostname = some hostname) ↔
      FirstStands (fun first => (itemsOf "athenz://hostname/" csr.uris).head? = some [] →
        context.instanceHostname = some first) (fun first other => other = first)
        (hostnameEntries csr) := by
    refine forall_iff_firstStands (fun first hfirst => first_hostname_entry hcsr huri hfirst) ?_
    intro first other hgood
    rw [hgood, Option.some.injEq, eq_comm]
  constructor
  · intro hvouched
    constructor
    · refine hrepeats.1 fun hostname hmem => ?_
      obtain ⟨hentry, hne⟩ := mem_hostnameEntries.1 hmem
      exact (hvouched.hostname hostname hentry hne).1
    · intro _ hostname hmem
      obtain ⟨hentry, hne⟩ := mem_hostnameEntries.1 hmem
      exact (hvouched.hostname hostname hentry hne).2
  · intro hagree
    refine ⟨fun hostname hentry hne => ?_, hnames, spiffe_vouched hcsr hspiffe⟩
    have hmem := mem_hostnameEntries.2 ⟨hentry, hne⟩
    have hsame := hrepeats.2 hagree.repeats hostname hmem
    refine ⟨hsame, ?_⟩
    by_cases hnone : csr.dnsNames = []
    · exact hagree.checked hnone hostname hmem
    · exact hhostname hnone hostname hsame hne

end Requests

section Sample

local instance namesCaseRules : CaseRules := .ascii

def namesCsr (uris : List Str) : Csr where
  commonName := "sports.api"
  uris := "athenz://instanceid/sys.aws/i-1" :: uris

def namesContext (instanceHostname : Option Str) : ServiceCertContext where
  domainName := "sports"
  serviceName := "api"
  provider := "sys.aws"
  athenzSysDomainCache := some {}
  instanceHostname := instanceHostname

def namesRequest (uris : List Str) (uriHostname : Option Str) : X509CertRequest where
  csr := namesCsr uris
  instanceId := some "i-1"
  uriHostname := uriHostname
  spiffeUri := none

theorem validateService_names_plain :
    NamesVouched (namesCsr []) (namesContext none) [] ↔
      HostnameEntriesAgree (namesCsr []) (namesContext none) :=
  have haccepted : (namesRequest [] none).validateService (namesContext none) none = .ok [] := by
    decide +kernel
  validateService_names_iff rfl haccepted

/-- Without a DNS name nobody asks whether the provider may use the hostname. -/
theorem hostname_not_vouched :
    X509CertRequest.ofCsr (namesCsr ["athenz://hostname/www.bank.com"]) =
      .ok (namesRequest ["athenz://hostname/www.bank.com"] (some "www.bank.com")) ∧
    (namesRequest ["athenz://hostname/www.bank.com"] (some "www.bank.com")).validateService
      (namesContext (some "www.bank.com")) none = .ok [] ∧
    ¬ NamesVouched (namesCsr ["athenz://hostname/www.bank.com"])
      (namesContext (some "www.bank.com")) [] := by
  refine ⟨rfl, by decide +kernel, fun h => ?_⟩
  have hallowed := (h.hostname "www.bank.com" (by decide) (by decide)).2.1
  revert hallowed
  decide +kernel

end Sample

end Athenz.Zts
