import Athenz.RoleCertificate

namespace Athenz.Zts
open Lib Lib.Text Lib.Result
set_option autoImplicit true

section Items

/-- The rests of all entries that start with an item. -/
def itemsOf (item : Str) (uriList : List Str) : List Str :=
  uriList.filterMap fun uri => if item <+: uri then some (uri.drop item.length) else none

theorem extractItemFromURI_eq (uriList : List Str) (item : Str) :
    extractItemFromURI uriList item = (itemsOf item uriList).head? := by
  unfold extractItemFromURI itemsOf
  rw [List.head?_filterMap]

theorem mem_itemsOf : rest ∈ itemsOf item uriList ↔ item ++ rest ∈ uriList := by
  unfold itemsOf
  rw [List.mem_filterMap]
  constructor
  · rintro ⟨uri, huri, h⟩
    split at h
    · rename_i hstarts
      obtain ⟨tail, rfl⟩ := hstarts
      rw [List.drop_left, Option.some.injEq] at h
      rw [← h]
      exact huri
    · cases h
  · intro h
    refine ⟨_, h, ?_⟩
    rw [if_pos (List.prefix_append _ _), List.drop_left]

/-- The ids of all entries that start with the item for instances. -/
def instanceIdsOf (uriList : List Str) : List (Option Str) :=
  (uriList.filter fun uri => "athenz://instanceid/".toList <+: uri).map instanceIdOfURI

theorem instanceIdOfURI_of_other (h : ¬ "athenz://instanceid/".toList <+: uri) :
    instanceIdOfURI uri = none := if_neg h

theorem extractRequestInstanceIdFromURI_eq (uriList : List Str) :
    extractRequestInstanceIdFromURI uriList = (instanceIdsOf uriList).findSome? id := by
  unfold extractRequestInstanceIdFromURI instanceIdsOf
  rw [List.findSome?_map]
  induction uriList with
  | nil => rfl
  | cons uri uriList ih =>
    rw [List.findSome?_cons, List.filter_cons]
    by_cases hstarts : "athenz://instanceid/".toList <+: uri
    · rw [if_pos (decide_eq_true hstarts), List.findSome?_cons, ih]
      rfl
    · rw [if_neg (by rwa [decide_eq_true_eq]), instanceIdOfURI_of_other hstarts, ih]

/-- The first item is as it has to be, and the others are the same as the first. -/
def FirstStands (named : α → Prop) (same : α → α → Prop) : List α → Prop
  | [] => True
  | first :: others => named first ∧ ∀ other ∈ others, same first other

/-- Where the first item alone is looked at, all of them are right when the others are the same. -/
theorem forall_iff_firstStands {good named : α → Prop} {same : α → α → Prop} {items : List α}
    (hfirst : ∀ first, items.head? = some first → (good first ↔ named first))
    (hsame : ∀ first other, good first → (good other ↔ same first other)) :
    (∀ item ∈ items, good item) ↔ FirstStands named same items := by
  cases items with
  | nil => exact ⟨fun _ => trivial, fun _ _ h => absurd h List.not_mem_nil⟩
  | cons first others =>
    rw [List.forall_mem_cons, FirstStands, ← hfirst first rfl]
    exact and_congr_right fun hgood => forall₂_congr fun other _ => hsame first other hgood

end Items

section Requests

variable [CaseRules]

/-- The hostname of a request certificate. -/
def certHostname (cert : Option X509Certificate) : Option Str :=
  cert.bind fun cert => extractItemFromURI cert.uris "athenz://hostname/"

/-- Every identity in the entries of a request is one that has been authenticated. -/
structure NamesVerified (csr : Csr) (principal : Str) (proxyUser : Option Str)
    (cert : Option X509Certificate) (role : Str × Str) : Prop where
  principal : ∀ item, "athenz://principal/".toList ++ item ∈ csr.uris →
    equalsIgnoreCase principal item = true
  proxyUser : ∀ item, "athenz://proxyuser/".toList ++ item ∈ csr.uris → proxyUser = some item
  hostname : ∀ item, "athenz://hostname/".toList ++ item ∈ csr.uris → certHostname cert = some item
  instanceId : ∀ uri ∈ csr.uris, "athenz://instanceid/".toList <+: uri →
    ∃ id, instanceIdOfURI uri = some id ∧ cert.bind extractRequestInstanceId = some id
  spiffe : ∀ uri ∈ csr.uris, "spiffe://".toList <+: toLowerCase uri →
    equalsIgnoreCase ("spiffe://".toList ++ role.1 ++ "/ra/".toList ++ role.2) uri = true

/-- The entries of each kind repeat the first one, which has a text of its own; without a proxy
there is no entry for one. -/
structure EntriesAgree (csr : Csr) (principal : Str) (proxyUser : Option Str)
    (cert : Option X509Certificate) : Prop where
  principal : FirstStands (fun first => first = [] → principal = [])
    (fun first other => equalsIgnoreCase first other = true)
    (itemsOf "athenz://principal/" csr.uris)
  proxyUser : proxyUser = none → itemsOf "athenz://proxyuser/" csr.uris = []
  hostname : FirstStands (fun first => first = [] → certHostname cert = some [])
    (fun first other => other = first) (itemsOf "athenz://hostname/" csr.uris)
  instanceId : FirstStands (fun first => first ≠ none ∧
      (first = some [] → cert.bind extractRequestInstanceId = some []))
    (fun first other => other = first) (instanceIdsOf csr.uris)

/-- What the constructor reads from a request. -/
theorem ofCsr_fields {csr : Csr} (h : X509RoleCertRequest.ofCsr csr = .ok certReq) :
    certReq.csr = csr ∧ certReq.instanceId = requestedInstanceId csr ∧
      certReq.uriHostname = extractItemFromURI csr.uris "athenz://hostname/" ∧
      certReq.rolePrincipal = extractItemFromURI csr.uris "athenz://principal/" ∧
      singleUri "spiffe://" csr.uris = some certReq.spiffeUri := by
  unfold X509RoleCertRequest.ofCsr at h
  obtain ⟨request, hrequest, h⟩ := bind_eq_ok.1 h
  unfold X509CertRequest.ofCsr at hrequest
  split at hrequest
  · cases hrequest
  · rename_i spiffeUri hspiffe
    cases hrequest
    split at h
    · cases h
    · cases h
      exact ⟨rfl, rfl, rfl, rfl, hspiffe⟩

/-- The checks of a request that is accepted. -/
structure Accepted (config : ZtsConfig) (certReq : X509RoleCertRequest) (principal : Str)
    (proxyUser : Option Str) (cert : Option X509Certificate) : Prop where
  principal : certReq.validateRolePrincipal config principal = true
  proxyUser : ∀ proxy, proxyUser = some proxy → certReq.validateProxyUserUri proxy = true
  spiffe : certReq.validateSpiffeURI certReq.reqRoleDomain "ra" certReq.reqRoleName = true
  hostname : X509RoleCertRequest.validateUriHostname certReq.uriHostname cert = .ok true
  instanceId : X509RoleCertRequest.validateInstanceId certReq.instanceId cert = true

theorem accepted {config : ZtsConfig} {certReq : X509RoleCertRequest}
    (h : validateRoleCertificateRequest config certReq principal proxyUser cert ip = .ok true) :
    Accepted config certReq principal proxyUser cert := by
  unfold validateRoleCertificateRequest at h
  split at h
  · cases h
  · rename_i hvalidate
    split at h
    · cases h
    · obtain ⟨hostname, hhostname, h⟩ := bind_eq_ok.1 h
      rw [Bool.not_eq_true, Bool.not_eq_false', X509RoleCertRequest.validate, Bool.and_eq_true,
        Bool.and_eq_true, Bool.and_eq_true] at hvalidate
      obtain ⟨⟨⟨hprincipal, hproxy⟩, _⟩, hspiffe⟩ := hvalidate
      have hall : (hostname && X509RoleCertRequest.validateInstanceId certReq.instanceId cert &&
          (!config.verifyCertRequestIP || certReq.validateCertIPAddress cert ip)) = true :=
        Except.ok.inj h
      rw [Bool.and_eq_true, Bool.and_eq_true] at hall
      refine ⟨hprincipal, ?_, hspiffe, ?_, hall.1.2⟩
      · rintro proxy rfl
        exact hproxy
      · rw [hhostname, hall.1.1]

variable {config : ZtsConfig} {certReq : X509RoleCertRequest} {csr : Csr} {principal : Str}
  {proxyUser : Option Str} {cert : Option X509Certificate}

theorem Accepted.principal_iff (h : Accepted config certReq principal proxyUser cert)
    (hcsr : X509RoleCertRequest.ofCsr csr = .ok certReq) :
    (∀ item, "athenz://principal/".toList ++ item ∈ csr.uris →
        equalsIgnoreCase principal item = true) ↔
      FirstStands (fun first => first = [] → principal = [])
        (fun first other => equalsIgnoreCase first other = true)
        (itemsOf "athenz://principal/" csr.uris) := by
  refine Iff.trans (forall_congr' fun item => imp_congr_left mem_itemsOf.symm)
    (forall_iff_firstStands ?_ ?_)
  · intro first hfirst
    have hchecked := h.principal
    unfold X509RoleCertRequest.validateRolePrincipal at hchecked
    rw [(ofCsr_fields hcsr).2.2.2.1, extractItemFromURI_eq, hfirst] at hchecked
    cases first with
    | nil =>
      rw [equalsIgnoreCase_iff, List.map_nil, List.map_eq_nil_iff]
      exact ⟨fun hempty _ => hempty, fun hempty => hempty rfl⟩
    | cons c rest =>
      rw [Bool.and_eq_true] at hchecked
      exact ⟨fun _ => nofun, fun _ => hchecked.1⟩
  · intro first other hgood
    exact ⟨fun h => equalsIgnoreCase_trans (equalsIgnoreCase_comm hgood) h,
      fun h => equalsIgnoreCase_trans hgood h⟩

theorem Accepted.hostname_iff (h : Accepted config certReq principal proxyUser cert)
    (hcsr : X509RoleCertRequest.ofCsr csr = .ok certReq) :
    (∀ item, "athenz://hostname/".toList ++ item ∈ csr.uris → certHostname cert = some item) ↔
      FirstStands (fun first => first = [] → certHostname cert = some [])
        (fun first other => other = first) (itemsOf "athenz://hostname/" csr.uris) := by
  refine Iff.trans (forall_congr' fun item => imp_congr_left mem_itemsOf.symm)
    (forall_iff_firstStands ?_ ?_)
  · intro first hfirst
    have hchecked := h.hostname
    rw [(ofCsr_fields hcsr).2.2.1, extractItemFromURI_eq, hfirst] at hchecked
    cases first with
    | nil => exact ⟨fun hempty _ => hempty, fun hempty => hempty rfl⟩
    | cons c rest =>
      refine ⟨fun _ => nofun, fun _ => ?_⟩
      cases cert with
      | none => cases hchecked
      | some cert => exact of_decide_eq_true (Except.ok.inj hchecked)
  · intro first other hgood
    rw [hgood, Option.some.injEq, eq_comm]

theorem Accepted.instanceId_iff (h : Accepted config certReq principal proxyUser cert)
    (hcsr : X509RoleCertRequest.ofCsr csr = .ok certReq) :
    (∀ uri ∈ csr.uris, "athenz://instanceid/".toList <+: uri →
        ∃ id, instanceIdOfURI uri = some id ∧ cert.bind extractRequestInstanceId = some id) ↔
      FirstStands (fun first => first ≠ none ∧
          (first = some [] → cert.bind extractRequestInstanceId = some []))
        (fun first other => other = first) (instanceIdsOf csr.uris) := by
  have hids : (∀ uri ∈ csr.uris, "athenz://instanceid/".toList <+: uri →
        ∃ id, instanceIdOfURI uri = some id ∧ cert.bind extractRequestInstanceId = some id) ↔
      ∀ item ∈ instanceIdsOf csr.uris,
        item ≠ none ∧ cert.bind extractRequestInstanceId = item := by
    unfold instanceIdsOf
    rw [List.forall_mem_map]
    simp only [List.mem_filter, decide_eq_true_eq, and_imp]
    refine forall₃_congr fun uri _ _ => ?_
    cases instanceIdOfURI uri with
    | none => simp only [reduceCtorEq, false_and, exists_false, ne_eq, not_true_eq_false]
    | some id => simp only [Option.some.injEq, exists_eq_left', ne_eq, reduceCtorEq,
        not_false_eq_true, true_and]
  refine hids.trans (forall_iff_firstStands ?_ ?_)
  · intro first hfirst
    have hchecked := h.instanceId
    rw [(ofCsr_fields hcsr).2.1, requestedInstanceId, extractRequestInstanceIdFromURI_eq]
      at hchecked
    refine and_congr_right fun hsome => ?_
    obtain ⟨id, rfl⟩ := Option.ne_none_iff_exists'.1 hsome
    obtain ⟨others, hothers⟩ := List.head?_eq_some_iff.1 hfirst
    rw [hothers, List.findSome?_cons] at hchecked
    cases id with
    | nil => exact ⟨fun hempty _ => hempty, fun hempty => hempty rfl⟩
    | cons c rest => exact ⟨fun _ => nofun, fun _ => of_decide_eq_true hchecked⟩
  · rintro first other ⟨hsome, hgood⟩
    rw [hgood]
    exact ⟨fun hother => hother.2.symm, fun hother => ⟨hother ▸ hsome, hother.symm⟩⟩

theorem eq_of_singleUri (h : singleUri start uris = some found) (huri : uri ∈ uris)
    (hstart : start <+: toLowerCase uri) : found = some uri := by
  unfold singleUri at h
  have hmem : uri ∈ uris.filter fun uri => start <+: toLowerCase uri :=
    List.mem_filter.2 ⟨huri, decide_eq_true hstart⟩
  split at h
  · rename_i hnone
    rw [hnone] at hmem
    cases hmem
  · rename_i only hone
    rw [hone, List.mem_singleton] at hmem
    rw [hmem, ← Option.some.inj h]
  · cases h

theorem Accepted.proxyUser_iff (hcase : CaseRules.KeepsLowerCase)
    (h : Accepted config certReq principal proxyUser cert)
    (hcsr : X509RoleCertRequest.ofCsr csr = .ok certReq) :
    (∀ item, "athenz://proxyuser/".toList ++ item ∈ csr.uris → proxyUser = some item) ↔
      (proxyUser = none → itemsOf "athenz://proxyuser/" csr.uris = []) := by
  cases proxyUser with
  | none =>
    simp only [reduceCtorEq, imp_false, forall_const]
    rw [List.eq_nil_iff_forall_not_mem]
    exact forall_congr' fun item => not_congr mem_itemsOf.symm
  | some proxy =>
    refine ⟨fun _ => nofun, fun _ item hitem => ?_⟩
    have hchecked := h.proxyUser proxy rfl
    unfold X509RoleCertRequest.validateProxyUserUri at hchecked
    rw [(ofCsr_fields hcsr).1] at hchecked
    split at hchecked
    · rename_i found hfound
      have hlower : "athenz://proxyuser/".toList.all (fun c => c.toLower = c ∧ c.toNat < 128) = true := by
        decide
      have hstart := hcase "athenz://proxyuser/".toList item fun c hc =>
        of_decide_eq_true (List.all_eq_true.1 hlower c hc)
      have hsame := eq_of_singleUri hfound hitem hstart
      rw [Option.some.injEq] at hsame
      rw [hsame, decide_eq_true_eq, List.append_cancel_left_eq] at hchecked
      rw [hchecked]
    · cases hchecked

theorem Accepted.spiffe_names (h : Accepted config certReq principal proxyUser cert)
    (hcsr : X509RoleCertRequest.ofCsr csr = .ok certReq) (uri : Str) (huri : uri ∈ csr.uris)
    (hstart : "spiffe://".toList <+: toLowerCase uri) :
    equalsIgnoreCase ("spiffe://".toList ++ certReq.reqRoleDomain ++ "/ra/".toList ++
      certReq.reqRoleName) uri = true := by
  have hchecked := h.spiffe
  unfold X509CertRequest.validateSpiffeURI at hchecked
  rw [eq_of_singleUri (ofCsr_fields hcsr).2.2.2.2 huri hstart, Option.all_some] at hchecked
  rw [← hchecked]
  simp only [List.append_assoc, String.toList]
  rfl

/-- An accepted request names nobody who has not been authenticated if its entries of each kind
agree with the one that is looked at. -/
theorem validateRoleCertificateRequest_names (hcase : CaseRules.KeepsLowerCase)
    (hcsr : X509RoleCertRequest.ofCsr csr = .ok certReq)
    (h : validateRoleCertificateRequest config certReq principal proxyUser cert ip = .ok true) :
    NamesVerified csr principal proxyUser cert (certReq.reqRoleDomain, certReq.reqRoleName) ↔
      EntriesAgree csr principal proxyUser cert := by
  have haccepted := accepted h
  constructor
  · intro hnames
    exact ⟨(haccepted.principal_iff hcsr).1 hnames.principal,
      (haccepted.proxyUser_iff hcase hcsr).1 hnames.proxyUser,
      (haccepted.hostname_iff hcsr).1 hnames.hostname,
      (haccepted.instanceId_iff hcsr).1 hnames.instanceId⟩
  · intro hagree
    exact ⟨(haccepted.principal_iff hcsr).2 hagree.principal,
      (haccepted.proxyUser_iff hcase hcsr).2 hagree.proxyUser,
      (haccepted.hostname_iff hcsr).2 hagree.hostname,
      (haccepted.instanceId_iff hcsr).2 hagree.instanceId,
      haccepted.spiffe_names hcsr⟩

end Requests

section Sample

local instance uriCaseRules : CaseRules := .ascii

def uriRequest (others : List Str) : Csr where
  commonName := "sports:role.readers"
  uris := "athenz://principal/user.joe" :: others

def acceptedRequest (others : List Str) : X509RoleCertRequest where
  csr := uriRequest others
  instanceId := none
  uriHostname := none
  spiffeUri := none
  reqRoleDomain := "sports"
  reqRoleName := "readers"
  rolePrincipal := some "user.joe"

/-- A second entry for a principal is not looked at. -/
theorem second_principal_accepted :
    X509RoleCertRequest.ofCsr (uriRequest ["athenz://principal/user.admin"]) =
      .ok (acceptedRequest ["athenz://principal/user.admin"]) ∧
    validateRoleCertificateRequest {} (acceptedRequest ["athenz://principal/user.admin"])
      "user.joe" none none "10.0.0.1" = .ok true ∧
    ¬ NamesVerified (uriRequest ["athenz://principal/user.admin"]) "user.joe" none none
      ("sports", "readers") := by
  refine ⟨rfl, by decide +kernel, fun hnames => ?_⟩
  have hadmin := hnames.principal "user.admin" (by decide)
  revert hadmin
  decide +kernel

theorem single_principal_names :
    NamesVerified (uriRequest []) "user.joe" none none ("sports", "readers") ↔
      EntriesAgree (uriRequest []) "user.joe" none none :=
  have haccepted : validateRoleCertificateRequest {} (acceptedRequest []) "user.joe" none none
      "10.0.0.1" = .ok true := by decide +kernel
  validateRoleCertificateRequest_names CaseRules.ascii_keepsLowerCase rfl haccepted

end Sample

end Athenz.Zts
