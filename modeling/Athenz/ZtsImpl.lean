import Athenz.AccessibleRoles
import Athenz.X509CertRequest

namespace Athenz.Zts
open Lib Lib.Text Lib.Result
set_option autoImplicit true

/-- The authenticated caller of a request. -/
structure Principal where
  domain : Str
  fullName : Str
  roles : Option (List Str) := none
  authorizedService : Option Str := none
  x509Certificate : Option X509Certificate := none

/-- The settings of the server that the requests read. -/
structure ZtsConfig where
  authorizedProxyUsers : Option (List Str) := none
  userDomainPrefix : Str := "user."
  userDomainAliasPrefix : Option Str := none
  validCertSubjectOrgValues : Option (List Str) := none
  validCertSubjectOrgUnitValues : Option (List Str) := none
  verifyCertSubjectOU : Bool := false
  verifyCertRequestIP : Bool := false
  certDnsSuffix : List Str := [".athenz.cloud"]
  certPriorityMinPercentLowPriority : Int := 75
  certPriorityMaxPercentHighPriority : Int := 25

def forbiddenError (message : Str) : Failure := .resource 403 message
def notFoundError (message : Str) : Failure := .resource 404 message
def requestError (message : Str) : Failure := .resource 400 message
def serverError (message : Str) : Failure := .resource 500 message

def normalizeDomainAliasUser (config : ZtsConfig) (user : Str) : Str :=
  match config.userDomainAliasPrefix with
  | none => user
  | some aliasPrefix =>
    if aliasPrefix <+: user ∧ '.' ∉ user.drop aliasPrefix.length then
      config.userDomainPrefix ++ user.drop aliasPrefix.length
    else user

def isAuthorizedProxyUser (proxyUsers : Option (List Str)) (principal : Str) : Bool :=
  proxyUsers.any (principal ∈ ·)

def isAuthorizedServicePrincipal (principal : Principal) : Bool :=
  principal.authorizedService.any (· ≠ [])

def tokenErrorMessage (caller principalName domainName : Str)
    (requestedRoleList : Option (List Str)) : Str :=
  let roleComment : Str :=
    if requestedRoleList.isNone then "any role" else "the requested role(s)"
  caller ++ ": principal " ++ principalName ++ " is not included in " ++ roleComment ++
    " in domain " ++ domainName

/-- The smaller of two limits, where 0 is no limit. -/
def tighten (limit : Int) (value : Option Int) : Int :=
  match value with
  | none => limit
  | some value => if value > 0 ∧ (limit = 0 ∨ value < limit) then value else limit

/-- The smallest limit configured for the roles, or else the limit of the domain. -/
def configuredExpiryMins (read : RoleMeta → Option Int) (domainLimit : Option Int)
    (data : PublishedCache) (roles : List Str) : Int :=
  let limit := roles.foldl
    (fun limit role => tighten limit ((data.roleMetaCache.lookup role).bind read)) 0
  if limit = 0 then tighten 0 domainLimit else limit

/-- The cached data of a domain. -/
def getDataCache (store : DataStore) (domainName : Str) (message : Str) :
    Except Failure PublishedCache :=
  match store.cacheStore.lookup domainName with
  | none => .error (notFoundError message)
  | some data => .ok data

theorem getDataCache_ok : getDataCache store domainName message = .ok data ↔
    store.cacheStore.lookup domainName = some data := by
  unfold getDataCache
  cases store.cacheStore.lookup domainName with
  | none => simp only [reduceCtorEq]
  | some found => simp only [Except.ok.injEq, Option.some.injEq]

/-- The roles that a request finds for an identity, without their prefix. -/
def accessibleRoles (store : DataStore) (now : Int) (data : PublishedCache) (domainName : Str)
    (requested : Option (List Str)) (identity : Str) : List Str :=
  store.getAccessibleRoles now ⟨domainName, requested, false⟩ (some data.toDataCache) identity []

/-- An identity holds a role of a domain itself: the full name is among the roles found without
a filter. -/
def HoldsRole (store : DataStore) (now : Int) (data : PublishedCache) (domainName identity : Str)
    (roleName : Str) : Prop :=
  domainName ++ ":role.".toList ++ roleName ∈
    store.getAccessibleRoles now ⟨domainName, none, true⟩ (some data.toDataCache) identity []

theorem holdsRole_iff {data : PublishedCache} :
    HoldsRole store now data domainName identity roleName ↔
      store.Holds now data.toDataCache identity (domainName ++ ":role.".toList ++ roleName) := by
  unfold HoldsRole
  rw [DataStore.mem_getAccessibleRoles]
  constructor
  · rintro (h | ⟨role, h, _, _, hname⟩)
    · cases h
    · cases hname
      exact h
  · intro h
    exact .inr ⟨_, h, List.prefix_append _ _, rfl, rfl⟩

/-- The roles found under a filter are the held ones whose full name ends in a requested one. -/
theorem mem_accessibleRoles {data : PublishedCache} :
    roleName ∈ accessibleRoles store now data domainName (some requested) identity ↔
      HoldsRole store now data domainName identity roleName ∧
        ∃ r ∈ requested, r <:+ domainName ++ ":role.".toList ++ roleName := by
  unfold accessibleRoles
  rw [DataStore.mem_getAccessibleRoles, holdsRole_iff]
  constructor
  · rintro (h | ⟨role, h, ⟨rest, hrest⟩, hreq, hname⟩)
    · cases h
    · subst hrest
      have hn : roleName = rest := by
        rw [hname]
        exact List.drop_left
      subst hn
      exact ⟨h, DataStore.requests_some.1 hreq⟩
  · rintro ⟨h, hreq⟩
    exact .inr ⟨_, h, List.prefix_append _ _, DataStore.requests_some.2 hreq, List.drop_left.symm⟩

end Athenz.Zts
