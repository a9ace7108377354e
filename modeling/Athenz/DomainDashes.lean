import Athenz.JdbcConnection
import Athenz.X509ServiceCertRequest

namespace Athenz.ZmsServer
open Lib Lib.Text Lib.Result Lib.Transaction
set_option autoImplicit true

/-- The names that a domain may have consist of such characters. -/
def LegalDomainName (name : Str) : Prop :=
  ∀ c ∈ name, c.isLower = true ∨ c.isDigit = true ∨ c ∈ ['_', '-', '.']

instance : Decidable (LegalDomainName name) := List.decidableBAll _ name

/-- The names that a service may have consist of such characters. -/
def SimpleName (name : Str) : Prop := ∀ c ∈ name, c.isAlphanum = true ∨ c ∈ ['_', '-']

instance : Decidable (SimpleName name) := List.decidableBAll _ name

theorem SimpleName.no_dot (h : SimpleName name) : '.' ∉ name := by
  intro hdot
  have hchar := h '.' hdot
  revert hchar
  decide

section Pattern

variable [Collation]

theorem like_ordinary (hc : c ∉ ['%', '_', '\\']) (pattern text : Str) :
    like (c :: pattern) text = (text.head?.any (sameText [c] [·]) && like pattern text.tail) := by
  simp only [List.mem_cons, List.not_mem_nil, or_false, not_or] at hc
  obtain ⟨hpercent, hunderscore, hescape⟩ := hc
  rw [like]
  · exact hpercent
  · exact hunderscore
  · intro _ _ hsame
    exact (hescape hsame).elim

/-- A legal name finds every name that has one form with it. -/
theorem like_domainQuery (hlegal : LegalDomainName name) (hsame : dashed other = dashed name) :
    like (domainQuery name) other = true := by
  induction name generalizing other with
  | nil =>
    have hnil : other = [] := List.map_eq_nil_iff.1 hsame
    rw [hnil]
    rfl
  | cons c name ih =>
    obtain ⟨d, rest, rfl, hd, hrest⟩ := List.map_eq_cons_iff.1 hsame
    have hlike := ih (fun x hx => hlegal x (List.mem_cons_of_mem c hx)) hrest
    rw [domainQuery, List.map_cons]
    split
    · exact hlike
    · rename_i hc
      rw [not_or] at hc
      have hdc : d = c := by
        dsimp only at hd
        rw [if_neg hc.1] at hd
        split at hd
        · exact (hc.2 hd.symm).elim
        · exact hd
      rw [hdc]
      by_cases hunderscore : c = '_'
      · rw [hunderscore]
        exact hlike
      · have hordinary : c ∉ ['%', '_', '\\'] := by
          intro hmem
          have hchar := hlegal c List.mem_cons_self
          rcases List.mem_cons.1 hmem with rfl | hmem
          · revert hchar
            decide
          · rcases List.mem_cons.1 hmem with rfl | hmem
            · exact hunderscore rfl
            · obtain rfl := List.mem_singleton.1 hmem
              revert hchar
              decide
        rw [like_ordinary hordinary]
        exact Bool.and_eq_true_iff.2 ⟨sameText_refl [c], hlike⟩

theorem verifyDomainNameDashUniqueness_ok (hlegal : LegalDomainName name)
    (h : verifyDomainNameDashUniqueness db name = .ok ()) (hstored : other ∈ db.domains) :
    dashed other ≠ dashed name := by
  intro hsame
  rw [verifyDomainNameDashUniqueness, if_pos] at h
  · cases h
  · refine List.any_eq_true.2 ⟨other, List.mem_filter.2 ⟨?_, like_domainQuery hlegal hsame⟩,
      decide_eq_true hsame⟩
    exact AList.mem_keys.1 hstored

end Pattern

section Runs

/-- No two domains have one form in certificates. -/
def DashedApart (db : Database) : Prop :=
  ∀ a ∈ db.domains, ∀ b ∈ db.domains, dashed a = dashed b → a = b

variable [Collation]

theorem insertDomain_preserves {domain : Domain} (hlegal : LegalDomainName domain.name) :
    Tx.Preserves DashedApart (insertDomain domain) := by
  refine .statement fun time db inserted db' hapart h => ?_
  obtain ⟨_, _, h⟩ := bind_eq_ok.1 h
  obtain ⟨_, hdash, h⟩ := bind_eq_ok.1 h
  cases h
  intro a ha b hb hsame
  have hfresh : ∀ {other}, other ∈ db.domains → dashed other ≠ dashed domain.name :=
    verifyDomainNameDashUniqueness_ok hlegal hdash
  rcases (AList.mem_insert _).1 ha with rfl | ha
  · rcases (AList.mem_insert _).1 hb with rfl | hb
    · rfl
    · exact (hfresh hb hsame.symm).elim
  · rcases (AList.mem_insert _).1 hb with rfl | hb
    · exact (hfresh ha hsame).elim
    · exact hapart a ha b hb hsame

omit [Collation] in
theorem deleteDomain_preserves (domainName : Str) :
    Tx.Preserves DashedApart (deleteDomain domainName) := by
  refine .statement fun time db deleted db' hapart h => ?_
  cases h
  intro a ha b hb hsame
  exact hapart a ((AList.mem_erase).1 ha).2 b ((AList.mem_erase).1 hb).2 hsame

/-- The stores that insertions and deletions of domains lead to, one behind another. -/
inductive DomainRun : Database → Prop
  | empty : db.domains = ∅ → DomainRun db
  | insertDomain {domain : Domain} : DomainRun db → LegalDomainName domain.name →
      DomainRun (Tx.attempt autoCommit (insertDomain domain) db events).2.1
  | deleteDomain : DomainRun db →
      DomainRun (Tx.attempt autoCommit (deleteDomain domainName) db events).2.1

theorem DomainRun.dashedApart (h : DomainRun db) : DashedApart db := by
  induction h with
  | empty hempty =>
    intro a ha
    rw [hempty] at ha
    exact (AList.notMem_empty a ha).elim
  | insertDomain _ hlegal ih => exact Tx.attempt_preserves (insertDomain_preserves hlegal) ih
  | deleteDomain _ ih => exact Tx.attempt_preserves (deleteDomain_preserves _) ih

end Runs

section Wildcards

open Athenz.Zts

/-- A name is taken for the service's own by its wildcard and a suffix of the provider. -/
def acceptsWildcard (context : ServiceCertContext) (suffixes : List Str) (dnsName : Str) : Prop :=
  suffixes.any (· <:+ dnsName) = true ∧ context.wildCardPrefix <+: dnsName

theorem dot_notMem_dashed (name : Str) : '.' ∉ dashed name := by
  intro hdot
  obtain ⟨c, _, hc⟩ := List.mem_map.1 hdot
  split at hc
  · cases hc
  · rename_i hne
    exact hne hc

theorem wildCardPrefix_inj {context context' : ServiceCertContext}
    (hservice : SimpleName context.serviceName) (hservice' : SimpleName context'.serviceName)
    (h : context.wildCardPrefix <+: dnsName) (h' : context'.wildCardPrefix <+: dnsName) :
    context.serviceName = context'.serviceName ∧
      dashed context.domainName = dashed context'.domainName := by
  have hparts : ∀ (context : ServiceCertContext) (rest : Str),
      context.wildCardPrefix ++ rest =
        '*' :: '.' :: (context.serviceName ++ '.' :: (dashed context.domainName ++ '.' :: rest)) := by
    intro context rest
    simp only [ServiceCertContext.wildCardPrefix, List.append_assoc, List.cons_append,
      List.nil_append]
    rfl
  obtain ⟨rest, rfl⟩ := h
  obtain ⟨rest', hsame⟩ := h'
  rw [hparts, hparts, List.cons.injEq, List.cons.injEq] at hsame
  obtain ⟨hname, hdomain⟩ :=
    append_cons_inj_first hservice'.no_dot hservice.no_dot hsame.2.2
  obtain ⟨hdashed, _⟩ :=
    append_cons_inj_first (dot_notMem_dashed _) (dot_notMem_dashed _) hdomain
  exact ⟨hname.symm, hdashed.symm⟩

end Wildcards

section Sample

open Athenz.Zts

local instance dashCollation : Collation := .caseInsensitive

/-- The store behind the insertions of some domains. -/
def insertedDomains : List Str → Database
  | [] => {}
  | name :: names =>
    (Tx.attempt true (insertDomain { name := name }) (insertedDomains names) fun _ => ⟨0, none⟩).2.1

theorem insertedDomains_run (names : List Str) (hlegal : ∀ name ∈ names, LegalDomainName name) :
    DomainRun (insertedDomains names) := by
  induction names with
  | nil => exact .empty rfl
  | cons name names ih =>
    exact .insertDomain (ih fun other h => hlegal other (List.mem_cons_of_mem name h))
      (hlegal name List.mem_cons_self)

/-- A service of a domain with a provider of which no suffix is known. -/
def sampleService (domainName serviceName : Str) : ServiceCertContext where
  domainName := domainName
  serviceName := serviceName
  provider := "sys.aws"
  athenzSysDomainCache := none

end Sample

end Athenz.ZmsServer
