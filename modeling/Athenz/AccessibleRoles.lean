import Athenz.DataStore

namespace Athenz.Zts
open Lib Lib.Text Lib.Index
set_option autoImplicit true

namespace DataStore

/-- Which roles a query asks for and how it wants them named. -/
structure RoleQuery where
  domainName : Str
  requestedRoleList : Option (List Str)
  keepFullName : Bool

def RoleQuery.rolePrefix (query : RoleQuery) : Str := query.domainName ++ ":role.".toList

def RoleQuery.requests (query : RoleQuery) (role : Str) : Bool :=
  query.requestedRoleList.all fun requested => requested.any (· <:+ role)

/-- The name under which a query lists a role. -/
def RoleQuery.listName (query : RoleQuery) (role : Str) : Str :=
  if query.keepFullName then role else role.drop query.rolePrefix.length

def addRoleToList (query : RoleQuery) (role : Str) (accessibleRoles : List Str) : List Str :=
  if ¬ query.rolePrefix <+: role then accessibleRoles
  else if !query.requests role then accessibleRoles
  else accessibleRoles.insert (query.listName role)

def processStandardMembership (now : Int) (query : RoleQuery) (memberRoles : List MemberRole)
    (accessibleRoles : List Str) : List Str :=
  memberRoles.foldl
    (fun roles memberRole =>
      if isExpiredAt memberRole.expiration now then roles
      else addRoleToList query memberRole.role roles)
    accessibleRoles

/-- Whether a role name is the one that a delegation names, or is matched by its glob. -/
def roleMatches (role roleName : Str) : Bool :=
  if containsMatchCharacter roleName then matchesPattern (patternFromGlob roleName) role
  else role = roleName

def roleMatchInSet (now : Int) (role : Str) (memberRoles : List MemberRole) : Bool :=
  memberRoles.any fun memberRole =>
    !isExpiredAt memberRole.expiration now && roleMatches role memberRole.role

def processSingleTrustedDomainRole (now : Int) (query : RoleQuery) (memberRoles : List MemberRole)
    (accessibleRoles : List Str) (roleName : Str) : List Str :=
  if roleMatchInSet now roleName memberRoles then addRoleToList query roleName accessibleRoles
  else accessibleRoles

/-- What is done with one set of roles: without trusted resources its roles are added, with them
those resources that the set delegates. -/
def processMemberRoles (now : Int) (query : RoleQuery) (trustedResources : Option (List Str))
    (memberRoles : List MemberRole) (accessibleRoles : List Str) : List Str :=
  match trustedResources with
  | none => processStandardMembership now query memberRoles accessibleRoles
  | some resources =>
    resources.foldl (processSingleTrustedDomainRole now query memberRoles) accessibleRoles

def processGroupMembership (store : DataStore) (now : Int) (query : RoleQuery) (data : DataCache)
    (identity : Str) (trustedResources : Option (List Str)) (accessibleRoles : List Str) :
    List Str :=
  (store.principalGroupCache.listAt identity).foldl
    (fun roles member =>
      if isMemberExpired member.expiration now then roles
      else processMemberRoles now query trustedResources
        (data.memberRoleCache.listAt member.groupName) roles)
    accessibleRoles

/-- The direct, the all-users, the prefix and the group path through the indexes of one domain. -/
def processIdentity (store : DataStore) (now : Int) (query : RoleQuery) (data : DataCache)
    (identity : Str) (trustedResources : Option (List Str)) (accessibleRoles : List Str) :
    List Str :=
  let process := processMemberRoles now query trustedResources
  let roles := process (data.memberRoleCache.listAt identity) accessibleRoles
  let roles := process data.memberAllRoleCache roles
  let roles := data.memberPrefixRoleCache.entries.foldl
    (fun roles entry => if entry.1 <+: identity then process entry.2 roles else roles) roles
  processGroupMembership store now query data identity trustedResources roles

def processTrustedDomain (store : DataStore) (now : Int) (query : RoleQuery)
    (trustData : Option DataCache) (identity : Str) (trustedResources : List Str)
    (accessibleRoles : List Str) : List Str :=
  match trustData with
  | none => accessibleRoles
  | some trustData =>
    processIdentity store now query trustData identity (some trustedResources) accessibleRoles

def processTrustMembership (store : DataStore) (now : Int) (query : RoleQuery) (data : DataCache)
    (identity : Str) (accessibleRoles : List Str) : List Str :=
  data.trustCache.entries.foldl
    (fun roles trusted =>
      processTrustedDomain store now query
        ((store.cacheStore.lookup trusted.1).map (·.toDataCache)) identity trusted.2 roles)
    accessibleRoles

def getAccessibleRoles (store : DataStore) (now : Int) (query : RoleQuery)
    (data : Option DataCache) (identity : Str) (accessibleRoles : List Str) : List Str :=
  match data with
  | none => accessibleRoles
  | some data =>
    processTrustMembership store now query data identity
      (processIdentity store now query data identity none accessibleRoles)

/-- A query lists a role that it is asked about under a name. -/
def RoleQuery.Lists (query : RoleQuery) (role name : Str) : Prop :=
  query.rolePrefix <+: role ∧ query.requests role = true ∧ name = query.listName role

/-- An unexpired entry gives a role, or a trusted resource that it delegates. -/
def Grants (now : Int) (trustedResources : Option (List Str)) (entry : MemberRole) (role : Str) :
    Prop :=
  isExpiredAt entry.expiration now = false ∧
    match trustedResources with
    | none => entry.role = role
    | some resources => role ∈ resources ∧ roleMatches role entry.role = true

/-- An entry of the indexes of a domain that applies to an identity. -/
def HasEntry (store : DataStore) (now : Int) (data : DataCache) (identity : Str)
    (entry : MemberRole) : Prop :=
  entry ∈ data.memberRoleCache.listAt identity ∨ entry ∈ data.memberAllRoleCache ∨
    (∃ start entries, data.memberPrefixRoleCache.lookup start = some entries ∧
      start <+: identity ∧ entry ∈ entries) ∨
    ∃ member ∈ store.principalGroupCache.listAt identity,
      isMemberExpired member.expiration now = false ∧
        entry ∈ data.memberRoleCache.listAt member.groupName

/-- The roles of a domain that an identity holds, by itself or through a delegation. -/
def Holds (store : DataStore) (now : Int) (data : DataCache) (identity role : Str) : Prop :=
  (∃ entry, HasEntry store now data identity entry ∧ Grants now none entry role) ∨
    ∃ domain resources trusted, data.trustCache.lookup domain = some resources ∧
      store.cacheStore.lookup domain = some trusted ∧
      ∃ entry, HasEntry store now trusted.toDataCache identity entry ∧
        Grants now (some resources) entry role

theorem requests_some :
    RoleQuery.requests ⟨domainName, some requested, keepFullName⟩ role = true ↔
      ∃ r ∈ requested, r <:+ role := by
  simp only [RoleQuery.requests, Option.all_some, List.any_eq_true, decide_eq_true_eq]

theorem mem_addRoleToList {query : RoleQuery} {roles : List Str} :
    name ∈ addRoleToList query role roles ↔ name ∈ roles ∨ query.Lists role name := by
  unfold addRoleToList RoleQuery.Lists
  by_cases hp : query.rolePrefix <+: role
  · by_cases hr : query.requests role = true
    · simp only [hp, hr, not_true_eq_false, Bool.not_true, Bool.false_eq_true, ↓reduceIte,
        List.mem_insert_iff, true_and]
      exact or_comm
    · simp [hp, hr]
  · simp [hp]

theorem mem_processStandardMembership {query : RoleQuery} :
    name ∈ processStandardMembership now query memberRoles roles ↔ name ∈ roles ∨
      ∃ entry ∈ memberRoles, ∃ role, Grants now none entry role ∧ query.Lists role name := by
  have hstep : ∀ acc (entry : MemberRole) b,
      b ∈ (if isExpiredAt entry.expiration now then acc else addRoleToList query entry.role acc) ↔
        b ∈ acc ∨ ∃ role, Grants now none entry role ∧ query.Lists role b := by
    intro acc entry b
    unfold Grants
    split
    · rename_i h
      simp only [h, Bool.true_eq_false, false_and, exists_false, or_false]
    · rename_i h
      simp only [mem_addRoleToList, eq_false_of_ne_true h, true_and, exists_eq_left']
  exact mem_foldl hstep

theorem roleMatchInSet_iff :
    roleMatchInSet now role memberRoles = true ↔ ∃ entry ∈ memberRoles,
      isExpiredAt entry.expiration now = false ∧ roleMatches role entry.role = true := by
  simp only [roleMatchInSet, List.any_eq_true, Bool.and_eq_true, Bool.not_eq_true']

theorem mem_processMemberRoles {query : RoleQuery} :
    name ∈ processMemberRoles now query trustedResources memberRoles roles ↔ name ∈ roles ∨
      ∃ entry ∈ memberRoles, ∃ role, Grants now trustedResources entry role ∧
        query.Lists role name := by
  cases trustedResources with
  | none => exact mem_processStandardMembership
  | some resources =>
    have hstep : ∀ acc role b, b ∈ processSingleTrustedDomainRole now query memberRoles acc role ↔
        b ∈ acc ∨ roleMatchInSet now role memberRoles = true ∧ query.Lists role b := by
      intro acc role b
      unfold processSingleTrustedDomainRole
      split
      · rename_i h
        simp only [mem_addRoleToList, h, true_and]
      · rename_i h
        simp only [h, Bool.false_eq_true, false_and, or_false]
    unfold processMemberRoles Grants
    rw [mem_foldl hstep]
    simp only [roleMatchInSet_iff]
    refine or_congr_right ⟨?_, ?_⟩
    · rintro ⟨role, hr, ⟨entry, he, hx, hm⟩, hl⟩
      exact ⟨entry, he, role, ⟨hx, hr, hm⟩, hl⟩
    · rintro ⟨entry, he, role, ⟨hx, hr, hm⟩, hl⟩
      exact ⟨role, hr, ⟨entry, he, hx, hm⟩, hl⟩

theorem mem_processGroupMembership {store : DataStore} {query : RoleQuery} :
    name ∈ processGroupMembership store now query data identity trustedResources roles ↔
      name ∈ roles ∨ ∃ member ∈ store.principalGroupCache.listAt identity,
        isMemberExpired member.expiration now = false ∧
        ∃ entry ∈ data.memberRoleCache.listAt member.groupName, ∃ role,
          Grants now trustedResources entry role ∧ query.Lists role name := by
  have hstep : ∀ acc (member : GroupMember) b,
      b ∈ (if isMemberExpired member.expiration now then acc
        else processMemberRoles now query trustedResources
          (data.memberRoleCache.listAt member.groupName) acc) ↔
      b ∈ acc ∨ isMemberExpired member.expiration now = false ∧
        ∃ entry ∈ data.memberRoleCache.listAt member.groupName, ∃ role,
          Grants now trustedResources entry role ∧ query.Lists role b := by
    intro acc member b
    split
    · rename_i h
      simp only [h, Bool.true_eq_false, false_and, or_false]
    · rename_i h
      simp only [mem_processMemberRoles, eq_false_of_ne_true h, true_and]
  exact mem_foldl hstep

theorem mem_processIdentity {store : DataStore} {query : RoleQuery} :
    name ∈ processIdentity store now query data identity trustedResources roles ↔
      name ∈ roles ∨ ∃ entry, HasEntry store now data identity entry ∧
        ∃ role, Grants now trustedResources entry role ∧ query.Lists role name := by
  have hstep : ∀ acc (e : Sigma fun _ : Str => List MemberRole) b,
      b ∈ (if e.1 <+: identity then processMemberRoles now query trustedResources e.2 acc
        else acc) ↔
      b ∈ acc ∨ e.1 <+: identity ∧ ∃ entry ∈ e.2, ∃ role,
        Grants now trustedResources entry role ∧ query.Lists role b := by
    intro acc e b
    split
    · rename_i h
      simp only [mem_processMemberRoles, h, true_and]
    · rename_i h
      simp only [h, false_and, or_false]
  unfold processIdentity
  simp only [mem_processGroupMembership, mem_foldl hstep, mem_processMemberRoles, HasEntry,
    or_and_right, exists_or, or_assoc]
  refine or_congr_right (or_congr_right (or_congr_right (or_congr ?_ ?_)))
  · simp only [Sigma.exists, Map.mem_entries_iff]
    constructor
    · rintro ⟨start, entries, hl, hp, entry, he, h⟩
      exact ⟨entry, ⟨start, entries, hl, hp, he⟩, h⟩
    · rintro ⟨entry, ⟨start, entries, hl, hp, he⟩, h⟩
      exact ⟨start, entries, hl, hp, entry, he, h⟩
  · constructor
    · rintro ⟨member, hm, hx, entry, he, h⟩
      exact ⟨entry, ⟨member, hm, hx, he⟩, h⟩
    · rintro ⟨entry, ⟨member, hm, hx, he⟩, h⟩
      exact ⟨member, hm, hx, entry, he, h⟩

theorem mem_processTrustMembership {store : DataStore} {query : RoleQuery} {data : DataCache} :
    name ∈ processTrustMembership store now query data identity roles ↔ name ∈ roles ∨
      ∃ domain resources trusted, data.trustCache.lookup domain = some resources ∧
        store.cacheStore.lookup domain = some trusted ∧
        ∃ entry, HasEntry store now trusted.toDataCache identity entry ∧
          ∃ role, Grants now (some resources) entry role ∧ query.Lists role name := by
  have hstep : ∀ acc (e : Sigma fun _ : Str => List Str) b,
      b ∈ processTrustedDomain store now query
        ((store.cacheStore.lookup e.1).map (·.toDataCache)) identity e.2 acc ↔
      b ∈ acc ∨ ∃ trusted, store.cacheStore.lookup e.1 = some trusted ∧
        ∃ entry, HasEntry store now trusted.toDataCache identity entry ∧
          ∃ role, Grants now (some e.2) entry role ∧ query.Lists role b := by
    intro acc e b
    unfold processTrustedDomain
    cases store.cacheStore.lookup e.1 with
    | none => simp only [Option.map_none, reduceCtorEq, false_and, exists_false, or_false]
    | some trusted => simp only [Option.map_some, mem_processIdentity, Option.some.injEq,
        exists_eq_left']
  unfold processTrustMembership
  rw [mem_foldl hstep]
  simp only [Sigma.exists, Map.mem_entries_iff, exists_and_left]

theorem mem_getAccessibleRoles {store : DataStore} {query : RoleQuery} {data : DataCache} :
    name ∈ getAccessibleRoles store now query (some data) identity roles ↔ name ∈ roles ∨
      ∃ role, Holds store now data identity role ∧ query.Lists role name := by
  unfold getAccessibleRoles Holds
  simp only [mem_processTrustMembership, mem_processIdentity, or_assoc, or_and_right, exists_or]
  refine or_congr_right (or_congr ?_ ?_)
  · constructor
    · rintro ⟨entry, he, role, hg, hl⟩
      exact ⟨role, ⟨entry, he, hg⟩, hl⟩
    · rintro ⟨role, ⟨entry, he, hg⟩, hl⟩
      exact ⟨entry, he, role, hg, hl⟩
  · constructor
    · rintro ⟨domain, resources, trusted, hr, ht, entry, he, role, hg, hl⟩
      exact ⟨role, ⟨domain, resources, trusted, hr, ht, entry, he, hg⟩, hl⟩
    · rintro ⟨role, ⟨domain, resources, trusted, hr, ht, entry, he, hg⟩, hl⟩
      exact ⟨domain, resources, trusted, hr, ht, entry, he, role, hg, hl⟩

section Nodup

variable {query : RoleQuery} {roles : List Str}

theorem nodup_addRoleToList (h : roles.Nodup) : (addRoleToList query role roles).Nodup := by
  unfold addRoleToList
  split
  · exact h
  split
  · exact h
  · exact h.insert

theorem nodup_processMemberRoles (h : roles.Nodup) :
    (processMemberRoles now query trustedResources memberRoles roles).Nodup := by
  unfold processMemberRoles
  split
  · refine foldl_invariant (fun acc entry hacc => ?_) _ h
    split
    · exact hacc
    · exact nodup_addRoleToList hacc
  · refine foldl_invariant (fun acc role hacc => ?_) _ h
    unfold processSingleTrustedDomainRole
    split
    · exact nodup_addRoleToList hacc
    · exact hacc

theorem nodup_processIdentity (h : roles.Nodup) :
    (processIdentity store now query data identity trustedResources roles).Nodup := by
  refine foldl_invariant (fun acc member hacc => ?_) _ (foldl_invariant (fun acc entry hacc => ?_) _
    (nodup_processMemberRoles (nodup_processMemberRoles h)))
  · split
    · exact hacc
    · exact nodup_processMemberRoles hacc
  · split
    · exact nodup_processMemberRoles hacc
    · exact hacc

theorem nodup_getAccessibleRoles (h : roles.Nodup) :
    (getAccessibleRoles store now query data identity roles).Nodup := by
  unfold getAccessibleRoles
  split
  · exact h
  · refine foldl_invariant (fun acc trusted hacc => ?_) _ (nodup_processIdentity h)
    unfold processTrustedDomain
    split
    · exact hacc
    · exact nodup_processIdentity hacc

end Nodup

end DataStore

end Athenz.Zts
