import Athenz.DataModel
import Athenz.Lib.Trie
import Athenz.Lib.Index

namespace Athenz.Zts
open Lib Lib.Text Lib.Index
set_option autoImplicit true

structure RoleMemberCache where
  roleMember : RoleMember
  role : Str
deriving DecidableEq

structure RequireRoleCertCache where
  roleMemberRequireCertCache : Map Str (List RoleMemberCache) := ∅
  principalRoleRequireCertCache : Map Str (List RoleMemberCache) := ∅
  requireRoleCertPrefixTrie : Trie Str Str := .empty
  requireRoleCertWildcard : List Str := []

/-- The path of sections under which the trie keeps a wildcard member. -/
def triePath (pattern : Str) : List Str :=
  splitTrim '.' (if ['.', '*'] <:+ pattern then pattern.dropLast.dropLast else pattern)

/-- `findMatchingValues` on the sections of a principal, from the node reached so far. -/
def findMatchingSections : List Str → Trie Str Str → List Str
  | [], _ => []
  | [service], t =>
    (t.children.map (·.1)).foldl
      (fun roles pattern =>
        if ['*'] <:+ pattern ∧ pattern.dropLast <+: service then
          roles ∪ ((t.child pattern).map (·.values)).getD []
        else roles)
      []
  | domain :: sections, t =>
    match t.child domain with
    | none => []
    | some node => node.values ∪ findMatchingSections sections node

def findMatchingValues (t : Trie Str Str) (text : Str) : List Str :=
  findMatchingSections (splitTrim '.' text) t

namespace RequireRoleCertCache

def getRoleMembersForCache (role : Role) : List RoleMemberCache :=
  (role.roleMembers.getD []).map fun member => ⟨member, role.name⟩

def shouldSkipRoleMember (member : RoleMemberCache) (currentTime : Int) : Bool :=
  isMemberDisabled member.roleMember.systemDisabled ||
    isMemberExpired member.roleMember.expiration currentTime

/-- The roles a principal needs a certificate for. -/
def getRolesRequireRoleCert (cache : RequireRoleCertCache) (principal : Str) : List Str :=
  (cache.principalRoleRequireCertCache.listAt principal).map (·.role) ++
    cache.requireRoleCertWildcard ++ findMatchingValues cache.requireRoleCertPrefixTrie principal

variable [CaseRules]

def removeRoleMembersCache (original remove : List RoleMemberCache) : List RoleMemberCache :=
  original.filter fun item =>
    !remove.any fun member =>
      equalsIgnoreCase item.roleMember.memberName member.roleMember.memberName

/-- The details that an update copies into the entry it finds. -/
def refresh (member entry : RoleMemberCache) : RoleMemberCache where
  roleMember := { entry.roleMember with
    expiration := member.roleMember.expiration
    systemDisabled := member.roleMember.systemDisabled
    active := member.roleMember.active
    approved := member.roleMember.approved }
  role := member.role

def updateMember (now : Int) (roleName : Str) (cache : RequireRoleCertCache)
    (member : RoleMemberCache) : RequireRoleCertCache :=
  let memberName := member.roleMember.memberName
  let principals := cache.principalRoleRequireCertCache
  match principals.lookup memberName with
  | none =>
    if shouldSkipRoleMember member now then cache
    else { cache with principalRoleRequireCertCache := principals.insert memberName [member] }
  | some members =>
    { cache with
      principalRoleRequireCertCache := principals.insert memberName <|
        if shouldSkipRoleMember member now then
          members.filter fun item => !equalsIgnoreCase item.role roleName
        else modifyFirst (fun item => equalsIgnoreCase item.role roleName) (refresh member)
          members }

def addMember (now : Int) (roleName : Str) (cache : RequireRoleCertCache)
    (member : RoleMemberCache) : RequireRoleCertCache :=
  let memberName := member.roleMember.memberName
  if shouldSkipRoleMember member now then cache
  else
    let cache := { cache with
      principalRoleRequireCertCache :=
        cache.principalRoleRequireCertCache.appendTo memberName member }
    if memberName = "*" then
      { cache with requireRoleCertWildcard := cache.requireRoleCertWildcard.insert roleName }
    else if ['*'] <:+ memberName then
      { cache with
        requireRoleCertPrefixTrie :=
          cache.requireRoleCertPrefixTrie.insert (triePath memberName) roleName }
    else cache

def deleteMember (collectionName : Str) (cache : RequireRoleCertCache)
    (member : RoleMemberCache) : RequireRoleCertCache :=
  let memberName := member.roleMember.memberName
  match cache.principalRoleRequireCertCache.lookup memberName with
  | none => cache
  | some members =>
    let cache := { cache with
      principalRoleRequireCertCache := cache.principalRoleRequireCertCache.insert memberName
        (members.filter fun item => !equalsIgnoreCase item.role collectionName) }
    if memberName = "*" then
      { cache with
        requireRoleCertWildcard := cache.requireRoleCertWildcard.filter (· ≠ collectionName) }
    else if ['*'] <:+ memberName then
      { cache with
        requireRoleCertPrefixTrie :=
          (cache.requireRoleCertPrefixTrie.delete (triePath memberName) collectionName).1 }
    else cache

def processCollectionDeletedMembers (collectionName : Str) (deleted : List RoleMemberCache)
    (cache : RequireRoleCertCache) : RequireRoleCertCache :=
  deleted.foldl (deleteMember collectionName) cache

def processRoleCache (now : Int) (role : Role) (cache : RequireRoleCertCache) :
    RequireRoleCertCache :=
  let collectionMembers := getRoleMembersForCache role
  let curMembers := cache.roleMemberRequireCertCache.listAt role.name
  let newMembers := removeRoleMembersCache collectionMembers curMembers
  let delMembers := removeRoleMembersCache curMembers collectionMembers
  let updMembers := removeRoleMembersCache collectionMembers newMembers
  let cache := { cache with
    roleMemberRequireCertCache :=
      cache.roleMemberRequireCertCache.insert role.name collectionMembers }
  let cache := updMembers.foldl (updateMember now role.name) cache
  let cache := newMembers.foldl (addMember now role.name) cache
  processCollectionDeletedMembers role.name delMembers cache

def processRoleCacheDelete (role : Role) (cache : RequireRoleCertCache) : RequireRoleCertCache :=
  processCollectionDeletedMembers role.name (getRoleMembersForCache role)
    { cache with
      roleMemberRequireCertCache := cache.roleMemberRequireCertCache.erase role.name }

end RequireRoleCertCache

end Athenz.Zts
