import Athenz.DisabledDomain

namespace Athenz.Zts
open Lib Lib.Text Lib.Index
set_option autoImplicit true

namespace CloudStore

def getAwsAccount (cloud : CloudStore) (domainName : Str) : Option Str :=
  cloud.awsAccountCache.lookup domainName

def getAzureSubscription (cloud : CloudStore) (domainName : Str) : Option Str :=
  cloud.azureSubscriptionCache.lookup domainName

/-- A text that is neither missing nor empty. -/
def present (text : Option Str) : Option Str := text.filter (· ≠ [])

theorem present_eq (text : Option Str) :
    present text = if isEmptyText text then none else some (text.getD []) := by
  cases text with
  | none => rfl
  | some s =>
    by_cases hs : s = []
    · subst hs
      rfl
    · simp only [present, Option.filter_some, isEmptyText, Option.all_some, hs, decide_false,
        ne_eq, not_false_eq_true, decide_true, if_true, Bool.false_eq_true, if_false, Option.getD_some]

theorem getAwsAccount_updateAwsAccount (cloud : CloudStore) (name : Str) (account : Option Str)
    (other : Str) : (cloud.updateAwsAccount name account).getAwsAccount other =
      if other = name then present account else cloud.getAwsAccount other := by
  unfold updateAwsAccount getAwsAccount
  rw [present_eq]
  cases isEmptyText account with
  | true => exact Map.lookup_erase ..
  | false => exact Map.lookup_insert ..

theorem getAzureSubscription_updateAwsAccount (cloud : CloudStore) (name : Str)
    (account : Option Str) (other : Str) :
    (cloud.updateAwsAccount name account).getAzureSubscription other =
      cloud.getAzureSubscription other := by
  unfold updateAwsAccount
  split
  · rfl
  · rfl

theorem getAwsAccount_updateAzureSubscription (cloud : CloudStore) (name : Str)
    (subscription : Option Str) (other : Str) :
    (cloud.updateAzureSubscription name subscription).getAwsAccount other =
      cloud.getAwsAccount other := by
  unfold updateAzureSubscription
  split
  · rfl
  split
  · rfl
  · rfl

/-- A subscription is cleared where an account is kept, and stays where there is none. -/
theorem getAzureSubscription_updateAzureSubscription (cloud : CloudStore) (name : Str)
    (subscription : Option Str) (other : Str) :
    (cloud.updateAzureSubscription name subscription).getAzureSubscription other =
      if other = name then
        if isEmptyText subscription && (cloud.getAwsAccount name).isNone
          then cloud.getAzureSubscription name else present subscription
      else cloud.getAzureSubscription other := by
  unfold updateAzureSubscription getAzureSubscription getAwsAccount
  rw [present_eq]
  cases isEmptyText subscription with
  | false => exact Map.lookup_insert ..
  | true =>
    cases cloud.awsAccountCache.lookup name with
    | some account => exact Map.lookup_erase ..
    | none =>
      by_cases hname : other = name
      · rw [if_pos hname, hname]
        rfl
      · rw [if_neg hname]
        rfl

end CloudStore

namespace DataStore

open CloudStore

/-- The account that the cached data of a domain has. -/
def cachedAccount (store : DataStore) (name : Str) : Option Str :=
  present ((store.getDomainData name).bind (·.account))

def cachedSubscription (store : DataStore) (name : Str) : Option Str :=
  present ((store.getDomainData name).bind (·.azureSubscription))

section Accounts

variable {store : DataStore} {cache : PublishedCache}

/-- Two stores with the same accounts, in the cached data and in the clouds. -/
structure SameAccounts (store store' : DataStore) : Prop where
  cloud : store'.cloudStore = store.cloudStore
  account : ∀ name, store'.cachedAccount name = store.cachedAccount name
  subscription : ∀ name, store'.cachedSubscription name = store.cachedSubscription name

theorem SameAccounts.trans (h : SameAccounts a b) (h' : SameAccounts b c) : SameAccounts a c where
  cloud := h'.cloud.trans h.cloud
  account name := (h'.account name).trans (h.account name)
  subscription name := (h'.subscription name).trans (h.subscription name)

theorem sameAccounts_of_caches {store' : DataStore} (hcloud : store'.cloudStore = store.cloudStore)
    (hcaches : store'.cacheStore = store.cacheStore) : SameAccounts store store' := by
  refine ⟨hcloud, ?_, ?_⟩
  · intro name
    rw [cachedAccount, cachedAccount, getDomainData, getDomainData, hcaches]
  · intro name
    rw [cachedSubscription, cachedSubscription, getDomainData, getDomainData, hcaches]

theorem sameAccounts_editPublished (store : DataStore) (name : Str) (edit : DomainData → DomainData)
    (hedit : ∀ data, (edit data).account = data.account ∧
      (edit data).azureSubscription = data.azureSubscription) :
    SameAccounts store (store.editPublished name edit) := by
  unfold editPublished
  split
  · exact sameAccounts_of_caches rfl rfl
  · rename_i published hlookup
    refine ⟨rfl, ?_, ?_⟩
    · intro other
      unfold cachedAccount getDomainData
      dsimp only
      rw [Map.lookup_insert]
      split
      · rename_i hname
        rw [hname, hlookup]
        exact congrArg present (hedit published.domainData).1
      · rfl
    · intro other
      unfold cachedSubscription getDomainData
      dsimp only
      rw [Map.lookup_insert]
      split
      · rename_i hname
        rw [hname, hlookup]
        exact congrArg present (hedit published.domainData).2
      · rfl

theorem cached_addDomainToCache (store : DataStore) (name : Str) (cache : PublishedCache)
    (other : Str) :
    (store.addDomainToCache name cache).cachedAccount other =
        (if other = name then present cache.domainData.account else store.cachedAccount other) ∧
      (store.addDomainToCache name cache).cachedSubscription other =
        if other = name then present cache.domainData.azureSubscription
        else store.cachedSubscription other := by
  unfold cachedAccount cachedSubscription getDomainData
  rw [(addDomainToCache_frame store name cache).1, Map.lookup_insert]
  split
  · exact ⟨rfl, rfl⟩
  · exact ⟨rfl, rfl⟩

theorem cached_deleteDomainFromCache (store : DataStore) (name other : Str) :
    (store.deleteDomainFromCache name).cachedAccount other =
        (if other = name then none else store.cachedAccount other) ∧
      (store.deleteDomainFromCache name).cachedSubscription other =
        if other = name then none else store.cachedSubscription other := by
  unfold cachedAccount cachedSubscription getDomainData
  rw [lookup_deleteDomainFromCache]
  split
  · exact ⟨rfl, rfl⟩
  · exact ⟨rfl, rfl⟩

theorem cloudStore_addDomainToCache (store : DataStore) (name : Str) (cache : PublishedCache) :
    (store.addDomainToCache name cache).cloudStore = store.cloudStore.map fun cloud =>
      (cloud.updateAwsAccount name cache.domainData.account).updateAzureSubscription name
        cache.domainData.azureSubscription := by
  unfold addDomainToCache removeEntries
  cases store.cacheStore.lookup name with
  | none => rfl
  | some published => rfl

/-- The clouds answer with what the cached data has. -/
def AccountsExact (store : DataStore) : Prop :=
  ∃ cloud, store.cloudStore = some cloud ∧ ∀ name,
    cloud.getAwsAccount name = store.cachedAccount name ∧
      cloud.getAzureSubscription name = store.cachedSubscription name

/-- An update that takes away a subscription leaves an account. -/
def UpdateClears (store : DataStore) (name : Str) (data : DomainData) : Prop :=
  present data.azureSubscription = none → store.cachedSubscription name ≠ none →
    present data.account ≠ none

/-- A cached domain that is taken away has neither account nor subscription. -/
def HasNoCloud (store : DataStore) (name : Str) : Prop :=
  store.cachedAccount name = none ∧ store.cachedSubscription name = none

theorem AccountsExact.same {store' : DataStore} (h : AccountsExact store)
    (hsame : SameAccounts store store') : AccountsExact store' := by
  obtain ⟨cloud, hcloud, hexact⟩ := h
  refine ⟨cloud, hsame.cloud.trans hcloud, ?_⟩
  intro name
  rw [hsame.account, hsame.subscription]
  exact hexact name

theorem AccountsExact.addDomainToCache (h : AccountsExact store)
    (hclears : UpdateClears store name cache.domainData) :
    AccountsExact (store.addDomainToCache name cache) := by
  obtain ⟨cloud, hcloud, hexact⟩ := h
  refine ⟨_, by rw [cloudStore_addDomainToCache, hcloud, Option.map_some], ?_⟩
  intro other
  obtain ⟨haccount, hsubscription⟩ := hexact other
  rw [(cached_addDomainToCache ..).1, (cached_addDomainToCache ..).2,
    getAwsAccount_updateAzureSubscription, getAwsAccount_updateAwsAccount,
    getAzureSubscription_updateAzureSubscription, getAwsAccount_updateAwsAccount, if_pos rfl,
    getAzureSubscription_updateAwsAccount, getAzureSubscription_updateAwsAccount, haccount,
    hsubscription]
  refine ⟨rfl, if_congr Iff.rfl ?_ rfl⟩
  split
  · rename_i hkept
    rw [Bool.and_eq_true, Option.isNone_iff_eq_none] at hkept
    have hnone : present cache.domainData.azureSubscription = none := by
      rw [present_eq, if_pos hkept.1]
    rw [hnone, (hexact name).2]
    by_contra hsome
    exact hclears hnone hsome hkept.2
  · rfl

theorem AccountsExact.deleteDomainFromCache (h : AccountsExact store) (hnone : HasNoCloud store name) :
    AccountsExact (store.deleteDomainFromCache name) := by
  obtain ⟨cloud, hcloud, hexact⟩ := h
  refine ⟨cloud, (deleteDomainFromCache_frame store name).2.2.2.trans hcloud, ?_⟩
  intro other
  rw [(cached_deleteDomainFromCache ..).1, (cached_deleteDomainFromCache ..).2, (hexact other).1,
    (hexact other).2]
  split
  · rename_i hname
    rw [hname]
    exact hnone
  · exact ⟨rfl, rfl⟩

end Accounts

section Runs

variable [CaseRules]

theorem sameAccounts_processDomainRoles (now : Int) (domainData : DomainData) (store : DataStore) :
    SameAccounts store (processDomainRoles now domainData store) := by
  have hedit := sameAccounts_editPublished store domainData.name (fun data => { data with
    roles := deletedRoles data.roles ((domainData.roles.getD []).map (·.name)) }) fun _ => ⟨rfl, rfl⟩
  exact hedit.trans (sameAccounts_of_caches rfl rfl)

theorem sameAccounts_processDomainGroups (clock : Group → Int) (domainData : DomainData)
    (store : DataStore) : SameAccounts store (processDomainGroups clock domainData store) := by
  obtain ⟨members, principals, hgroups⟩ := foldl_processGroupDelete_keeps
    (droppedGroups domainData store)
    ((domainData.groups.getD []).foldl (processListedGroup clock domainData.name) store)
  rw [processDomainGroups_eq, hgroups]
  have hlisted : SameAccounts store
      ((domainData.groups.getD []).foldl (processListedGroup clock domainData.name) store) := by
    refine foldl_invariant (P := SameAccounts store) ?_ _ (sameAccounts_of_caches rfl rfl)
    intro s group hs
    have hedit := sameAccounts_editPublished s domainData.name (fun data => { data with
      groups := data.groups.map fun groups =>
        groups.filter fun item => !equalsIgnoreCase item.name group.name }) fun _ => ⟨rfl, rfl⟩
    exact hs.trans (hedit.trans (sameAccounts_of_caches rfl rfl))
  exact hlisted.trans (sameAccounts_of_caches rfl rfl)

/-- Updates and deletions of domains, disabled ones among them, from a store without domains on. An
update that takes away a subscription leaves an account, and no domain is taken away with an account
or a subscription. -/
inductive CloudRun : DataStore → Prop where
  | empty : CloudRun { cloudStore := some {} }
  | update (run : CloudRun store) (codec : Codec) (clock : Group → Int) (now : Int)
    (domainData : DomainData) (hclears : UpdateClears store domainData.name domainData) :
    CloudRun (store.processDomainData codec clock now domainData).1
  | disable (run : CloudRun store) (name : Str) (hnone : HasNoCloud store name) :
    CloudRun (store.deleteDomainFromCache name)
  | delete (run : CloudRun store) (name : Str)
    (hnone : ∀ published, store.cacheStore.lookup name = some published →
      published.domainData.roles ≠ none → HasNoCloud store name) :
    CloudRun (store.deleteDomain name).1

variable {store : DataStore}

theorem AccountsExact.processDomainData (h : AccountsExact store)
    (hclears : UpdateClears store domainData.name domainData) :
    AccountsExact (store.processDomainData codec clock now domainData).1 := by
  have hsame : SameAccounts store
      (processDomainGroups clock domainData (processDomainRoles now domainData store)) :=
    (sameAccounts_processDomainRoles now domainData store).trans
      (sameAccounts_processDomainGroups clock domainData _)
  unfold DataStore.processDomainData
  dsimp only
  split
  · exact h.same hsame
  · apply (h.same hsame).addDomainToCache
    intro hnone hcached
    rw [hsame.subscription] at hcached
    exact hclears hnone hcached

theorem AccountsExact.deleteDomain (h : AccountsExact store)
    (hnone : ∀ published, store.cacheStore.lookup name = some published →
      published.domainData.roles ≠ none → HasNoCloud store name) :
    AccountsExact (store.deleteDomain name).1 := by
  cases hlookup : store.cacheStore.lookup name with
  | none =>
    rw [deleteDomain_of_none hlookup]
    apply h.deleteDomainFromCache
    unfold HasNoCloud cachedAccount cachedSubscription getDomainData
    rw [hlookup]
    exact ⟨rfl, rfl⟩
  | some published =>
    cases hroles : published.domainData.roles with
    | none =>
      obtain ⟨members, principals, hgroups⟩ := foldl_processGroupDelete_keeps
        (published.domainData.groups.getD []) store
      have hfailed : (store.deleteDomain name).1 =
          { store with groupMemberCache := members, principalGroupCache := principals } := by
        simp only [DataStore.deleteDomain, processDeleteDomainGroups, cleanRequireRoleCertCache,
          hlookup, hroles, Option.bind_some, hgroups]
      rw [hfailed]
      exact h.same (sameAccounts_of_caches rfl rfl)
    | some roles =>
      rw [deleteDomain_of_roles hlookup hroles]
      have hno := hnone published hlookup (hroles ▸ Option.some_ne_none roles)
      exact (h.deleteDomainFromCache hno).same (sameAccounts_of_caches rfl rfl)

/-- In every such run the clouds answer for a domain with the account and the subscription of its
cached data. -/
theorem cloud_accounts_exact (run : CloudRun store) :
    ∃ cloud, store.cloudStore = some cloud ∧ ∀ name,
      cloud.getAwsAccount name = store.cachedAccount name ∧
        cloud.getAzureSubscription name = store.cachedSubscription name := by
  have hexact : AccountsExact store := by
    induction run with
    | empty => exact ⟨{}, rfl, fun _ => ⟨rfl, rfl⟩⟩
    | update _ codec clock now domainData hclears ih => exact ih.processDomainData hclears
    | disable _ name hnone ih => exact ih.deleteDomainFromCache hnone
    | delete _ name hnone ih => exact ih.deleteDomain hnone
  exact hexact

end Runs

section Sample

local instance cloudCaseRules : CaseRules := .ascii

def accountData (account azureSubscription : Option Str) : DomainData where
  name := "sports"
  account := account
  azureSubscription := azureSubscription
  roles := some []

/-- The update of a store with the data of one domain, at a fixed time. -/
def updateAccount (store : DataStore) (account azureSubscription : Option Str) : DataStore :=
  (store.processDomainData ⟨fun _ => none, fun _ => none⟩ (fun _ => 100) 100
    (accountData account azureSubscription)).1

/-- What the clouds and the cached data have for the domain. -/
def sportsAccounts (store : DataStore) : List (Option Str) :=
  [store.cloudStore.bind (·.getAwsAccount "sports"), store.cachedAccount "sports",
    store.cloudStore.bind (·.getAzureSubscription "sports"), store.cachedSubscription "sports"]

/-- A subscription is cleared next to an account. -/
theorem subscription_cleared_beside_account :
    ∃ cloud, (updateAccount (updateAccount { cloudStore := some {} } (some "1234") (some "abcd"))
        (some "1234") none).cloudStore = some cloud ∧
      cloud.getAzureSubscription "sports" = none := by
  have hfirst : UpdateClears { cloudStore := some {} } "sports"
      (accountData (some "1234") (some "abcd")) := fun hnone => absurd hnone (by decide +kernel)
  have hsecond : UpdateClears (updateAccount { cloudStore := some {} } (some "1234") (some "abcd"))
      "sports" (accountData (some "1234") none) := fun _ _ => by decide +kernel
  obtain ⟨cloud, hcloud, hexact⟩ :=
    cloud_accounts_exact ((CloudRun.empty.update _ _ _ _ hfirst).update _ _ _ _ hsecond)
  refine ⟨cloud, hcloud, (hexact "sports").2.trans ?_⟩
  decide +kernel

/-- A subscription without an account stays when the data no longer has it, and an account stays when
its domain is disabled or deleted. -/
theorem accounts_left_behind :
    sportsAccounts (updateAccount (updateAccount { cloudStore := some {} } none (some "abcd")) none none) =
        [none, none, some ↑"abcd", none] ∧
      sportsAccounts ((updateAccount { cloudStore := some {} } (some "1234") none).deleteDomainFromCache
        "sports") = [some ↑"1234", none, none, none] ∧
      sportsAccounts ((updateAccount { cloudStore := some {} } (some "1234") none).deleteDomain
        "sports").1 = [some ↑"1234", none, none, none] := by
  decide +kernel

end Sample

end DataStore

end Athenz.Zts
