import Athenz.X509CertRequest
import Mathlib.Data.List.Dedup
import Mathlib.Data.List.Perm.Subperm

namespace Athenz.Zts
open Lib.Text
set_option autoImplicit true

section Names

/-- The DNS names of a list with `n` entries for `m` different names. -/
def distinctNames (names : List Str) : Nat := names.dedup.length

/-- Names that are among others are all of them when there are as many different ones. -/
theorem subset_iff_distinctNames {names others : List Str} (h : names ⊆ others) :
    others ⊆ names ↔ distinctNames names = distinctNames others := by
  have hsub : names.dedup ⊆ others.dedup := fun name hmem =>
    List.mem_dedup.2 (h (List.mem_dedup.1 hmem))
  have hsubperm := List.subperm_of_subset (List.nodup_dedup names) hsub
  constructor
  · intro hback
    have hbackSub : others.dedup ⊆ names.dedup := fun name hmem =>
      List.mem_dedup.2 (hback (List.mem_dedup.1 hmem))
    exact Nat.le_antisymm hsubperm.length_le
      (List.subperm_of_subset (List.nodup_dedup others) hbackSub).length_le
  · intro hlength name hmem
    have hperm := hsubperm.perm_of_length_le (Nat.le_of_eq hlength.symm)
    exact List.mem_dedup.1 (hperm.mem_iff.2 (List.mem_dedup.2 hmem))

end Names

section Refresh

/-- `X509CertRequest.validateDnsNames` of a certificate. -/
def X509CertRequest.validateDnsNames (certReq : X509CertRequest) (cert : X509Certificate) : Bool :=
  let certDnsNames := cert.dnsNames
  if certDnsNames.length ≠ certReq.csr.dnsNames.length then false
  else certReq.csr.dnsNames.all (· ∈ certDnsNames)

theorem X509CertRequest.validateDnsNames_iff (certReq : X509CertRequest) (cert : X509Certificate) :
    certReq.validateDnsNames cert = true ↔
      certReq.csr.dnsNames.length = cert.dnsNames.length ∧ certReq.csr.dnsNames ⊆ cert.dnsNames := by
  unfold X509CertRequest.validateDnsNames
  dsimp only
  split
  · rename_i hne
    exact ⟨fun h => Bool.noConfusion h, fun h => absurd h.1.symm hne⟩
  · rename_i heq
    rw [not_not] at heq
    rw [List.all_eq_true]
    exact ⟨fun h => ⟨heq.symm, fun name hmem => of_decide_eq_true (h name hmem)⟩,
      fun h name hmem => decide_eq_true (h.2 hmem)⟩

/-- The request and the certificate carry the same set of DNS names. -/
def SameDnsNames (certReq : X509CertRequest) (cert : X509Certificate) : Prop :=
  ∀ name, name ∈ certReq.csr.dnsNames ↔ name ∈ cert.dnsNames

/-- The check answers for the two sets unless, of a request within the certificate, the lengths and
the numbers of different names do not agree alike. -/
theorem validateDnsNames_exact_iff (certReq : X509CertRequest) (cert : X509Certificate) :
    (certReq.validateDnsNames cert = true ↔ SameDnsNames certReq cert) ↔
      (certReq.csr.dnsNames ⊆ cert.dnsNames →
        (certReq.csr.dnsNames.length = cert.dnsNames.length ↔
          distinctNames certReq.csr.dnsNames = distinctNames cert.dnsNames)) := by
  have hsame : SameDnsNames certReq cert ↔
      certReq.csr.dnsNames ⊆ cert.dnsNames ∧ cert.dnsNames ⊆ certReq.csr.dnsNames :=
    ⟨fun h => ⟨fun name => (h name).1, fun name => (h name).2⟩,
      fun h name => ⟨fun hmem => h.1 hmem, fun hmem => h.2 hmem⟩⟩
  rw [certReq.validateDnsNames_iff, hsame]
  by_cases hsub : certReq.csr.dnsNames ⊆ cert.dnsNames
  · rw [subset_iff_distinctNames hsub]
    exact ⟨fun h _ => ⟨fun hlength => (h.1 ⟨hlength, hsub⟩).2, fun hcount => (h.2 ⟨hsub, hcount⟩).1⟩,
      fun h => ⟨fun hvalid => ⟨hsub, (h hsub).1 hvalid.1⟩,
        fun hvalid => ⟨(h hsub).2 hvalid.2, hsub⟩⟩⟩
  · exact ⟨fun _ h => absurd h hsub, fun _ => ⟨fun h => absurd h.2 hsub, fun h => absurd h.1 hsub⟩⟩

end Refresh

section Sample

def dnsRequest (dnsNames : List Str) : X509CertRequest where
  csr := { commonName := "sports.api", dnsNames := dnsNames }
  instanceId := none
  uriHostname := none
  spiffeUri := none

def dnsCertificate (dnsNames : List Str) : X509Certificate where
  dnsNames := dnsNames

/-- A request may drop a name when it repeats another one, and may not leave out a repetition. -/
theorem repeated_dns_names :
    (dnsRequest ["a", "a"]).validateDnsNames (dnsCertificate ["a", "b"]) = true ∧
      ¬ SameDnsNames (dnsRequest ["a", "a"]) (dnsCertificate ["a", "b"]) ∧
      (dnsRequest ["a"]).validateDnsNames (dnsCertificate ["a", "a"]) = false ∧
      SameDnsNames (dnsRequest ["a"]) (dnsCertificate ["a", "a"]) := by
  refine ⟨by decide, ?_, by decide, ?_⟩
  · intro h
    have hmem := (h "b".toList).2 (by decide)
    exact absurd hmem (by decide)
  · intro name
    show name ∈ ["a".toList] ↔ name ∈ ["a".toList, "a".toList]
    simp only [List.mem_cons, List.not_mem_nil, or_false, or_self]

end Sample

end Athenz.Zts
