import Athenz.AwsAssumeRole
import Athenz.X509ServiceCertRequest

namespace Athenz.Zts
open Lib Lib.Text Lib.Index Lib.Result
set_option autoImplicit true

/-- The three lists of suffixes that are kept for each provider. -/
inductive SuffixList where
  | dns | hostnameAllowed | hostnameDenied

namespace SuffixList

def start : SuffixList → Str
  | dns => "sys.auth:dns."
  | hostnameAllowed | hostnameDenied => "sys.auth:hostname."

def effect : SuffixList → AssertionEffect
  | dns | hostnameAllowed => .ALLOW
  | hostnameDenied => .DENY

def cache : SuffixList → DataCache → Map Str (List Str)
  | dns => DataCache.providerDnsSuffixCache
  | hostnameAllowed => DataCache.providerHostnameAllowedSuffixCache
  | hostnameDenied => DataCache.providerHostnameDeniedSuffixCache

end SuffixList

/-- An assertion that adds a suffix for the members of its role. -/
def Launches (list : SuffixList) (suffix : Str) (assertion : Assertion) : Prop :=
  assertion.action = "launch" ∧ assertion.effect.getD .ALLOW = list.effect ∧
    list.start <+: assertion.resource ∧
    suffix = assertion.resource.drop (list.start.length - 1)

namespace DataCache

section Index

variable {cache cache' : DataCache} (list : SuffixList)

theorem suffixes_processRoleMembers :
    list.cache (processRoleMembers now roleName members cache) = list.cache cache := by
  refine foldl_invariant (P := fun c : DataCache => list.cache c = list.cache cache)
    (fun acc member hacc => ?_) _ rfl
  rw [← hacc]
  unfold processRoleMember
  split
  · rfl
  split
  · rfl
  split
  · cases list <;> rfl
  split <;> cases list <;> rfl

theorem suffixes_processRole : list.cache (processRole now cache role) = list.cache cache := by
  have hmeta (c : DataCache) : list.cache (processRoleMeta role c) = list.cache c := by
    unfold processRoleMeta
    split <;> cases list <;> rfl
  have htrust (c : DataCache) :
      list.cache (processRoleTrustDomain role.name role.trust c) = list.cache c := by
    unfold processRoleTrustDomain
    split <;> cases list <;> rfl
  rw [processRole, hmeta, htrust, suffixes_processRoleMembers]

theorem mem_processProviderSuffixAssertion {assertion : Assertion}
    (haction : assertion.action = "launch") {suffixes : Map Str (List Str)} :
    suffix ∈ (processProviderSuffixAssertion assertion list.effect roles list.start
        suffixes).listAt provider ↔
      suffix ∈ suffixes.listAt provider ∨ Launches list suffix assertion ∧
        ∃ member ∈ (assertionMembers roles assertion).getD [], member.memberName = provider := by
  unfold processProviderSuffixAssertion Launches
  split
  · rename_i heffect
    exact (or_iff_left fun h => heffect h.1.2.1.symm).symm
  rename_i heffect
  rw [not_not] at heffect
  split
  · rename_i hstart
    exact (or_iff_left fun h => hstart h.1.2.2.1).symm
  rename_i hstart
  rw [not_not] at hstart
  refine (foldl_adds (Q := fun suffixes : Map Str (List Str) => suffix ∈ suffixes.listAt provider)
    (P := fun member : RoleMember => provider = member.memberName ∧
      suffix = assertion.resource.drop (list.start.length - 1))
    fun suffixes member => Map.mem_listAt_appendTo).trans (or_congr_right ?_)
  constructor
  · rintro ⟨member, hmem, hname, hsuffix⟩
    exact ⟨⟨haction, heffect.symm, hstart, hsuffix⟩, member, hmem, hname.symm⟩
  · rintro ⟨⟨_, _, _, hsuffix⟩, member, hmem, hname⟩
    exact ⟨member, hmem, hname.symm, hsuffix⟩

theorem suffixes_processAssertion
    (h : processAssertion now domainName roles cache assertion = .ok cache')
    (haction : assertion.action ≠ "launch") : list.cache cache' = list.cache cache := by
  unfold processAssertion at h
  split at h
  · cases h
    unfold processAWSAssumeRoleAssertion
    split
    · rfl
    · cases list <;> rfl
  split at h
  · cases h
    unfold processAssumeRoleAssertion
    split
    · rfl
    split
    · rfl
    · exact suffixes_processRoleMembers list
  split at h
  · simp only [processTransportRulesAssertion, bind_eq_ok, pure_eq_ok] at h
    obtain ⟨_, _, rfl⟩ := h
    cases list <;> rfl
  · cases h
    rfl

theorem mem_suffixes_processAssertion
    (h : processAssertion now "sys.auth" roles cache assertion = .ok cache') :
    suffix ∈ (list.cache cache').listAt provider ↔
      suffix ∈ (list.cache cache).listAt provider ∨ Launches list suffix assertion ∧
        ∃ member ∈ (assertionMembers roles assertion).getD [], member.memberName = provider := by
  by_cases haction : assertion.action = "launch"
  · have hlaunch : cache' = processLaunchAssertion "sys.auth" assertion roles cache := by
      unfold processAssertion at h
      rw [haction, if_neg (by decide), if_neg (by decide), if_pos rfl] at h
      exact (Except.ok.inj h).symm
    have hlist : list.cache cache' = processProviderSuffixAssertion assertion list.effect roles
        list.start (list.cache cache) := by
      rw [hlaunch, processLaunchAssertion, if_neg (not_not_intro rfl)]
      cases list <;> rfl
    rw [hlist, mem_processProviderSuffixAssertion list haction]
  · rw [suffixes_processAssertion list h haction]
    exact (or_iff_left fun hboth => haction hboth.1.1).symm

theorem mem_suffixes_processPolicy
    (h : processPolicy now "sys.auth" roles cache policy = .ok cache') :
    suffix ∈ (list.cache cache').listAt provider ↔
      suffix ∈ (list.cache cache).listAt provider ∨
        ∃ assertion ∈ policy.assertions.getD [], Launches list suffix assertion ∧
          ∃ member ∈ (assertionMembers roles assertion).getD [], member.memberName = provider := by
  unfold processPolicy at h
  refine foldlM_adds (Q := fun c => suffix ∈ (list.cache c).listAt provider) ?_ h
  intro c assertion c' hstep
  exact mem_suffixes_processAssertion list hstep

theorem suffixes_processEntity (h : processEntity codec domainName cache entity = .ok cache') :
    list.cache cache' = list.cache cache := by
  unfold processEntity at h
  split at h
  · cases h
    rfl
  obtain ⟨data, _, h⟩ := bind_eq_ok.1 h
  split at h
  · cases h
    rfl
  split at h
  · cases h
  · cases h
    cases list <;> rfl

theorem suffixes_processSystemBehaviorRoles
    (h : processSystemBehaviorRoles domainData cache = .ok cache') :
    list.cache cache' = list.cache cache := by
  unfold processSystemBehaviorRoles at h
  split at h
  · cases h
    rfl
  split at h
  · cases h
  · obtain ⟨current, _, h⟩ := bind_eq_ok.1 h
    cases h
    cases list <;> rfl

end Index

end DataCache

namespace DataStore

open DataCache

section Authority

/-- A launch assertion on a role that lists the provider in one of the ways. -/
def GrantsSuffix (domainData : DomainData) (list : SuffixList) (listed : RoleMember → Prop)
    (provider suffix : Str) : Prop :=
  ∃ assertion ∈ activeAssertions domainData, Launches list suffix assertion ∧
    ∃ member ∈ (assertionMembers (rolesByName domainData) assertion).getD [],
      member.memberName = provider ∧ listed member

theorem mem_suffixes_buildCache {domainData : DomainData} (list : SuffixList)
    (hname : domainData.name = "sys.auth")
    (h : buildCache codec now domainData = .ok cache) :
    suffix ∈ (list.cache cache).listAt provider ↔
      GrantsSuffix domainData list (fun _ => True) provider suffix := by
  simp only [buildCache, bind_eq_ok] at h
  obtain ⟨indexed, hindexed, withEntities, hentities, hsystem⟩ := h
  have hroles : list.cache ((domainData.roles.getD []).foldl (processRole now) {}) = ∅ := by
    refine foldl_invariant (P := fun c : DataCache => list.cache c = ∅) (fun c role hc => ?_) _ ?_
    · rw [suffixes_processRole, hc]
    · cases list <;> rfl
  have hservices : list.cache (processDomainServiceIdentities codec domainData indexed) =
      list.cache indexed := by
    refine foldl_invariant (P := fun c : DataCache => list.cache c = list.cache indexed)
      (fun c service hc => ?_) _ rfl
    rw [← hc]
    cases list <;> rfl
  have hentities : list.cache withEntities = list.cache indexed := by
    refine foldlM_invariant (P := fun c : DataCache => list.cache c = list.cache indexed)
      (fun c entity c' hstep hc => ?_) hentities hservices
    rw [suffixes_processEntity list hstep, hc]
  have hpolicies := processDomainPolicies_ok hindexed
  rw [hname] at hpolicies
  rw [suffixes_processSystemBehaviorRoles list hsystem, hentities,
    foldlM_adds (Q := fun c => suffix ∈ (list.cache c).listAt provider)
      (fun c policy c' hstep => mem_suffixes_processPolicy list hstep) hpolicies,
    hroles, Map.listAt_empty]
  unfold GrantsSuffix activeAssertions activePolicies
  simp only [List.not_mem_nil, false_or, List.mem_flatMap, and_true]
  constructor
  · rintro ⟨policy, hpolicy, assertion, hassertion, hlaunches⟩
    exact ⟨assertion, ⟨policy, hpolicy, hassertion⟩, hlaunches⟩
  · rintro ⟨assertion, ⟨policy, hpolicy, hassertion⟩, hlaunches⟩
    exact ⟨policy, hpolicy, assertion, hassertion, hlaunches⟩

end Authority

section Live

/-- A member that is neither disabled nor expired. -/
def LiveMember (now : Int) (member : RoleMember) : Prop :=
  isMemberDisabled member.systemDisabled = false ∧ isMemberExpired member.expiration now = false

/-- Whether a provider may ask for a hostname, by the index of the system domain. -/
def hostnameAllowed (cache : DataCache) (provider hostname : Str) : Prop :=
  ∀ context : ServiceCertContext, context.provider = provider →
    context.athenzSysDomainCache = some cache → context.isHostnameAllowed hostname = .ok true

/-- The index answers for a provider by its live memberships, denials by any membership. -/
structure AuthorityLive (domainData : DomainData) (cache : DataCache) (provider : Str) (now : Int) :
    Prop where
  hostname : ∀ hostname, hostnameAllowed cache provider hostname ↔
    (∃ suffix, GrantsSuffix domainData .hostnameAllowed (LiveMember now) provider suffix ∧
      suffix <:+ hostname) ∧
    ¬ ∃ suffix, GrantsSuffix domainData .hostnameDenied (fun _ => True) provider suffix ∧
      suffix <:+ hostname
  dns : ∀ suffix, suffix ∈ cache.providerDnsSuffixCache.listAt provider ↔
    GrantsSuffix domainData .dns (LiveMember now) provider suffix

/-- What a provider has by a disabled or expired membership, it also has by a live one, or, for a
hostname, it is denied anyway. -/
structure NoStaleSuffix (domainData : DomainData) (provider : Str) (now : Int) : Prop where
  hostname : ∀ suffix, GrantsSuffix domainData .hostnameAllowed (fun _ => True) provider suffix →
    (∃ live, GrantsSuffix domainData .hostnameAllowed (LiveMember now) provider live ∧
      live <:+ suffix) ∨
    ∃ denied, GrantsSuffix domainData .hostnameDenied (fun _ => True) provider denied ∧
      denied <:+ suffix
  dns : ∀ suffix, GrantsSuffix domainData .dns (fun _ => True) provider suffix →
    GrantsSuffix domainData .dns (LiveMember now) provider suffix

variable {domainData : DomainData} {cache : DataCache}

theorem GrantsSuffix.any (h : GrantsSuffix domainData list listed provider suffix) :
    GrantsSuffix domainData list (fun _ => True) provider suffix := by
  obtain ⟨assertion, hmem, hlaunches, member, hmember, hname, _⟩ := h
  exact ⟨assertion, hmem, hlaunches, member, hmember, hname, trivial⟩

theorem hostnameAllowed_iff_lists :
    hostnameAllowed cache provider hostname ↔
      (∃ suffix ∈ (SuffixList.hostnameAllowed.cache cache).listAt provider, suffix <:+ hostname) ∧
        ¬ ∃ suffix ∈ (SuffixList.hostnameDenied.cache cache).listAt provider, suffix <:+ hostname := by
  have hanswer : ∀ context : ServiceCertContext, context.provider = provider →
      context.athenzSysDomainCache = some cache → (context.isHostnameAllowed hostname = .ok true ↔
        (∃ suffix ∈ (SuffixList.hostnameAllowed.cache cache).listAt provider, suffix <:+ hostname) ∧
          ¬ ∃ suffix ∈ (SuffixList.hostnameDenied.cache cache).listAt provider,
            suffix <:+ hostname) := by
    rintro context rfl hcache
    unfold ServiceCertContext.isHostnameAllowed
    rw [hcache]
    dsimp only
    rw [Except.ok.injEq, Bool.and_eq_true, Bool.not_eq_true', ← Bool.not_eq_true, List.any_eq_true,
      List.any_eq_true, and_comm]
    simp only [decide_eq_true_eq]
    rfl
  constructor
  · intro h
    have hsome := h ⟨[], [], provider, some cache, none, none, none, none⟩ rfl rfl
    exact (hanswer _ rfl rfl).1 hsome
  · exact fun h context hprovider hcache => (hanswer context hprovider hcache).2 h

/-- The hostnames of a provider by the data of the system domain. -/
theorem hostnameAllowed_iff (hname : domainData.name = "sys.auth")
    (h : buildCache codec loaded domainData = .ok cache) :
    hostnameAllowed cache provider hostname ↔
      (∃ suffix, GrantsSuffix domainData .hostnameAllowed (fun _ => True) provider suffix ∧
        suffix <:+ hostname) ∧
      ¬ ∃ suffix, GrantsSuffix domainData .hostnameDenied (fun _ => True) provider suffix ∧
        suffix <:+ hostname := by
  rw [hostnameAllowed_iff_lists]
  refine and_congr ?_ (not_congr ?_)
  · exact exists_congr fun suffix => and_congr_left fun _ => mem_suffixes_buildCache _ hname h
  · exact exists_congr fun suffix => and_congr_left fun _ => mem_suffixes_buildCache _ hname h

theorem authorityLive_iff (hname : domainData.name = "sys.auth")
    (h : buildCache codec loaded domainData = .ok cache) (provider : Str) (now : Int) :
    AuthorityLive domainData cache provider now ↔ NoStaleSuffix domainData provider now := by
  have hdns : ∀ suffix, suffix ∈ cache.providerDnsSuffixCache.listAt provider ↔
      GrantsSuffix domainData .dns (fun _ => True) provider suffix :=
    fun suffix => mem_suffixes_buildCache .dns hname h
  constructor
  · intro hlive
    constructor
    · intro suffix hsuffix
      by_contra hstale
      rw [not_or] at hstale
      have hallowed : hostnameAllowed cache provider suffix :=
        (hostnameAllowed_iff hname h).2 ⟨⟨suffix, hsuffix, List.suffix_refl suffix⟩, hstale.2⟩
      exact hstale.1 ((hlive.hostname suffix).1 hallowed).1
    · exact fun suffix hsuffix => (hlive.dns suffix).1 ((hdns suffix).2 hsuffix)
  · intro hfresh
    constructor
    · intro hostname
      rw [hostnameAllowed_iff hname h]
      constructor
      · rintro ⟨⟨suffix, hsuffix, hends⟩, hdenied⟩
        refine ⟨?_, hdenied⟩
        obtain ⟨live, hlive, hlends⟩ | ⟨denied, hgrants, hdends⟩ := hfresh.hostname suffix hsuffix
        · exact ⟨live, hlive, hlends.trans hends⟩
        · exact absurd ⟨denied, hgrants, hdends.trans hends⟩ hdenied
      · rintro ⟨⟨suffix, hsuffix, hends⟩, hdenied⟩
        exact ⟨⟨suffix, hsuffix.any, hends⟩, hdenied⟩
    · intro suffix
      rw [hdns suffix]
      exact ⟨hfresh.dns suffix, fun hlive => hlive.any⟩

end Live

section Order

/-- The same domain with its policies, assertions and members in another order. -/
structure Reordered (domainData domainData' : DomainData) : Prop where
  name : domainData'.name = domainData.name
  policies : ∃ policies, (domainData.policies.getD []).Perm policies ∧
    List.Forall₂ (fun policy policy' => policy'.active = policy.active ∧
      (policy.assertions.getD []).Perm (policy'.assertions.getD [])) policies
      (domainData'.policies.getD [])
  roles : List.Forall₂ (fun role role' => role'.name = role.name ∧
    (role.roleMembers.getD []).Perm (role'.roleMembers.getD []))
    (domainData.roles.getD []) (domainData'.roles.getD [])

theorem Reordered.mem_activeAssertions {domainData domainData' : DomainData}
    (h : Reordered domainData domainData') :
    assertion ∈ activeAssertions domainData ↔ assertion ∈ activeAssertions domainData' := by
  obtain ⟨policies, hperm, hsame⟩ := h.policies
  have hswapped : assertion ∈ activeAssertions domainData ↔
      ∃ policy ∈ policies, policy.active ≠ some false ∧ assertion ∈ policy.assertions.getD [] := by
    unfold activeAssertions activePolicies
    simp only [List.mem_flatMap, List.mem_filter, decide_eq_true_eq, and_assoc, hperm.mem_iff]
  have hrows : (∃ policy ∈ policies, policy.active ≠ some false ∧
        assertion ∈ policy.assertions.getD []) ↔
      ∃ policy ∈ domainData'.policies.getD [], policy.active ≠ some false ∧
        assertion ∈ policy.assertions.getD [] := by
    clear hperm hswapped
    generalize domainData'.policies.getD [] = policies' at hsame ⊢
    induction hsame with
    | nil => rfl
    | cons hpolicy _ ih =>
      rw [List.exists_mem_cons_iff, List.exists_mem_cons_iff, ih, hpolicy.1, hpolicy.2.mem_iff]
  rw [hswapped, hrows]
  unfold activeAssertions activePolicies
  simp only [List.mem_flatMap, List.mem_filter, decide_eq_true_eq, and_assoc]

/-- Two indexes of roles with the same members. -/
def SameMembers (roles roles' : Map Str Role) : Prop :=
  ∀ name member, member ∈ ((roles.lookup name).bind (·.roleMembers)).getD [] ↔
    member ∈ ((roles'.lookup name).bind (·.roleMembers)).getD []

theorem SameMembers.foldl_insert {roles roles' : List Role} {m m' : Map Str Role}
    (hroles : List.Forall₂ (fun role role' : Role => role'.name = role.name ∧
      (role.roleMembers.getD []).Perm (role'.roleMembers.getD [])) roles roles')
    (h : SameMembers m m') :
    SameMembers (roles.foldl (fun m role => m.insert role.name role) m)
      (roles'.foldl (fun m role => m.insert role.name role) m') := by
  induction hroles generalizing m m' with
  | nil => exact h
  | cons hrole _ ih =>
    apply ih
    intro name member
    rw [Map.lookup_insert, Map.lookup_insert, hrole.1]
    split
    · exact hrole.2.mem_iff
    · exact h name member

theorem Reordered.grants_iff {domainData domainData' : DomainData}
    (h : Reordered domainData domainData') :
    GrantsSuffix domainData list listed provider suffix ↔
      GrantsSuffix domainData' list listed provider suffix := by
  have hmembers : SameMembers (rolesByName domainData) (rolesByName domainData') :=
    SameMembers.foldl_insert h.roles fun _ _ => Iff.rfl
  refine exists_congr fun assertion => and_congr h.mem_activeAssertions (and_congr_right fun _ => ?_)
  exact exists_congr fun member => and_congr_left fun _ => hmembers assertion.role member

/-- The index answers by live memberships exactly when none of them is stale, and whatever order the
data is in. -/
theorem providerAuthority_iff {domainData : DomainData} {cache : DataCache}
    (hname : domainData.name = "sys.auth") (h : buildCache codec loaded domainData = .ok cache)
    (provider : Str) (now : Int) :
    (AuthorityLive domainData cache provider now ↔ NoStaleSuffix domainData provider now) ∧
      ∀ domainData' codec' loaded' cache', Reordered domainData domainData' →
        buildCache codec' loaded' domainData' = .ok cache' →
        (∀ hostname, hostnameAllowed cache' provider hostname ↔
          hostnameAllowed cache provider hostname) ∧
        ∀ suffix, suffix ∈ cache'.providerDnsSuffixCache.listAt provider ↔
          suffix ∈ cache.providerDnsSuffixCache.listAt provider := by
  refine ⟨authorityLive_iff hname h provider now, ?_⟩
  intro domainData' codec' loaded' cache' hreordered h'
  have hname' := hreordered.name.trans hname
  constructor
  · intro hostname
    rw [hostnameAllowed_iff hname h, hostnameAllowed_iff hname' h']
    simp only [hreordered.grants_iff]
  · intro suffix
    have hgrants : suffix ∈ (SuffixList.dns.cache cache').listAt provider ↔
        GrantsSuffix domainData' .dns (fun _ => True) provider suffix :=
      mem_suffixes_buildCache .dns hname' h'
    exact hgrants.trans
      (hreordered.grants_iff.symm.trans (mem_suffixes_buildCache .dns hname h).symm)

end Order

section Sample

/-- A provider that may launch hosts of a suffix, disabled or not. -/
def launchData (systemDisabled : Option Int) : DomainData where
  name := "sys.auth"
  roles := some [{
    name := "sys.auth:role.providers"
    roleMembers := some [{ memberName := "sys.aws", systemDisabled := systemDisabled }] }]
  policies := some [{ assertions := some [{
    role := "sys.auth:role.providers"
    resource := "sys.auth:hostname.cloud.com"
    action := "launch" }] }]

def launchCodec : Codec := ⟨fun _ => none, fun _ => none⟩

def launchCache (systemDisabled : Option Int) : DataCache :=
  (buildCache launchCodec 0 (launchData systemDisabled)).toOption.getD {}

theorem buildCache_launch (h : (buildCache launchCodec 0 (launchData disabled)).isOk = true) :
    buildCache launchCodec 0 (launchData disabled) = .ok (launchCache disabled) := by
  unfold launchCache
  cases hbuild : buildCache launchCodec 0 (launchData disabled) with
  | error e =>
    rw [hbuild] at h
    cases h
  | ok cache => rfl

theorem providerAuthority_enabled :
    AuthorityLive (launchData none) (launchCache none) "sys.aws" 0 ↔
      NoStaleSuffix (launchData none) "sys.aws" 0 :=
  have hok : (buildCache launchCodec 0 (launchData none)).isOk = true := by decide +kernel
  (providerAuthority_iff rfl (buildCache_launch hok) "sys.aws" 0).1

/-- A provider that has been disabled goes on to launch. -/
theorem disabledProvider_notLive :
    buildCache launchCodec 0 (launchData (some 1)) = .ok (launchCache (some 1)) ∧
      ¬ AuthorityLive (launchData (some 1)) (launchCache (some 1)) "sys.aws" 0 := by
  refine ⟨buildCache_launch (by decide +kernel), fun hlive => ?_⟩
  have hallowed : hostnameAllowed (launchCache (some 1)) "sys.aws" "www.cloud.com" := by
    rw [hostnameAllowed_iff_lists]
    decide +kernel
  obtain ⟨suffix, ⟨assertion, hmem, _, member, hmember, _, henabled, _⟩, _⟩ :=
    ((hlive.hostname "www.cloud.com").1 hallowed).1
  have hdisabled : ∀ assertion ∈ activeAssertions (launchData (some 1)),
      ∀ member ∈ (assertionMembers (rolesByName (launchData (some 1))) assertion).getD [],
        isMemberDisabled member.systemDisabled = true := by
    decide +kernel
  rw [hdisabled assertion hmem member hmember] at henabled
  cases henabled

end Sample

end DataStore

end Athenz.Zts
