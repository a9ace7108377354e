import Athenz.DataCache
import Athenz.RequireRoleCertCache

namespace Athenz.Zts
open Lib Lib.Text Lib.Result Lib.Index
set_option autoImplicit true

structure CloudStore where
  awsAccountCache : Map Str Str := ∅
  azureSubscriptionCache : Map Str Str := ∅

/-- What the server keeps in memory of all domains. -/
structure DataStore where
  cacheStore : Map Str PublishedCache := ∅
  groupMemberCache : Map Str (List GroupMember) := ∅
  principalGroupCache : Map Str (List GroupMember) := ∅
  requireRoleCertCache : RequireRoleCertCache := {}
  hostCache : Map Str (List Str) := ∅
  publicKeyCache : Map Str Str := ∅
  cloudStore : Option CloudStore := none

/-- A text is missing or empty. -/
def isEmptyText (s : Option Str) : Bool := s.all (· = [])

def CloudStore.updateAwsAccount (domainName : Str) (awsAccount : Option Str)
    (cloud : CloudStore) : CloudStore :=
  if !isEmptyText awsAccount then
    { cloud with
      awsAccountCache := cloud.awsAccountCache.insert domainName (awsAccount.getD []) }
  else { cloud with awsAccountCache := cloud.awsAccountCache.erase domainName }

def CloudStore.updateAzureSubscription (domainName : Str) (azureSubscription : Option Str)
    (cloud : CloudStore) : CloudStore :=
  if !isEmptyText azureSubscription then
    { cloud with
      azureSubscriptionCache :=
        cloud.azureSubscriptionCache.insert domainName (azureSubscription.getD []) }
  else if (cloud.awsAccountCache.lookup domainName).isSome then
    { cloud with azureSubscriptionCache := cloud.azureSubscriptionCache.erase domainName }
  else cloud

/-- Group members of a role are marked as such. -/
def setRoleMemberGroupType (role : Role) : Role :=
  { role with
    roleMembers := role.roleMembers.map fun members => members.map fun member =>
      if (":group." : Str) <:+: member.memberName then { member with principalType := some 3 }
      else member }

def isRoleCertRequired (role : Role) : Bool :=
  role.roleMembers.isSome && decide ((↑"true" : Str) ∈ role.tags.listAt "zts.IssueRoleCerts")

namespace DataStore

section Roles

variable [CaseRules]

def processRoleCert (now : Int) (cache : RequireRoleCertCache) (role : Role) :
    RequireRoleCertCache :=
  if isRoleCertRequired role then cache.processRoleCache now role
  else cache.processRoleCacheDelete role

/-- The roles of the published data that an update no longer lists. -/
def deletedRoles (published : Option (List Role)) (validRoles : List Str) :
    Option (List Role) :=
  if validRoles = [] then published
  else published.map fun roles => roles.filter (·.name ∉ validRoles)

/-- The edit of the published data of one domain, in place. -/
def editPublished (name : Str) (edit : DomainData → DomainData) (store : DataStore) : DataStore :=
  match store.cacheStore.lookup name with
  | none => store
  | some published =>
    { store with
      cacheStore := store.cacheStore.insert name
        { published with domainData := edit published.domainData } }

def processDomainRoles (now : Int) (domainData : DomainData) (store : DataStore) : DataStore :=
  let roles := domainData.roles.getD []
  let validRoles := roles.map (·.name)
  let certs := roles.foldl (processRoleCert now) store.requireRoleCertCache
  let store := store.editPublished domainData.name fun data =>
    { data with roles := deletedRoles data.roles validRoles }
  let deleted := ((store.cacheStore.lookup domainData.name).bind (·.domainData.roles)).getD []
  { store with
    requireRoleCertCache := deleted.foldl (fun cache role => cache.processRoleCacheDelete role)
      certs }

end Roles

section Groups

variable [CaseRules]

def removeGroupMembers (original remove : List GroupMember) : List GroupMember :=
  original.filter fun item =>
    !remove.any fun member => equalsIgnoreCase item.memberName member.memberName

/-- The details that an update copies into the entry it finds. -/
def refreshGroupMember (member entry : GroupMember) : GroupMember :=
  { entry with
    expiration := member.expiration
    systemDisabled := member.systemDisabled
    active := member.active
    approved := member.approved }

def updateGroupMember (now : Int) (groupName : Str) (principals : Map Str (List GroupMember))
    (member : GroupMember) : Map Str (List GroupMember) :=
  match principals.lookup member.memberName with
  | none | some [] =>
    if shouldSkipGroupMember member now then principals
    else principals.insert member.memberName [member]
  | some groupMembers =>
    principals.insert member.memberName <|
      if shouldSkipGroupMember member now then
        groupMembers.filter fun item => !equalsIgnoreCase item.groupName groupName
      else modifyFirst (fun item => equalsIgnoreCase item.groupName groupName)
        (refreshGroupMember member) groupMembers

omit [CaseRules] in
def addGroupMember (now : Int) (principals : Map Str (List GroupMember)) (member : GroupMember) :
    Map Str (List GroupMember) :=
  if shouldSkipGroupMember member now then principals
  else principals.appendTo member.memberName member

def deleteGroupMember (groupName : Str) (principals : Map Str (List GroupMember))
    (member : GroupMember) : Map Str (List GroupMember) :=
  match principals.lookup member.memberName with
  | none => principals
  | some groupMembers =>
    principals.insert member.memberName
      (groupMembers.filter fun item => !equalsIgnoreCase item.groupName groupName)

def processGroupDeletedMembers (groupName : Str) (deletedMembers : Option (List GroupMember))
    (store : DataStore) : DataStore :=
  { store with
    principalGroupCache := (deletedMembers.getD []).foldl (deleteGroupMember groupName)
      store.principalGroupCache }

def processGroup (now : Int) (group : Group) (store : DataStore) : DataStore :=
  let members := group.groupMembers.getD []
  let curMembers := store.groupMemberCache.listAt group.name
  let newMembers := removeGroupMembers members curMembers
  let delMembers := removeGroupMembers curMembers members
  let updMembers := removeGroupMembers members newMembers
  let principals := updMembers.foldl (updateGroupMember now group.name) store.principalGroupCache
  let principals := newMembers.foldl (addGroupMember now) principals
  processGroupDeletedMembers group.name (some delMembers)
    { store with
      groupMemberCache := store.groupMemberCache.insert group.name members
      principalGroupCache := principals }

def processGroupDelete (group : Group) (store : DataStore) : DataStore :=
  processGroupDeletedMembers group.name group.groupMembers
    { store with groupMemberCache := store.groupMemberCache.erase group.name }

/-- One group of an update: it is struck from the published groups and then processed. -/
def processListedGroup (clock : Group → Int) (domainName : Str) (store : DataStore)
    (group : Group) : DataStore :=
  processGroup (clock group) group <| store.editPublished domainName fun data =>
    { data with
      groups := data.groups.map fun groups =>
        groups.filter fun item => !equalsIgnoreCase item.name group.name }

def processDomainGroups (clock : Group → Int) (domainData : DomainData) (store : DataStore) :
    DataStore :=
  let store := (domainData.groups.getD []).foldl (processListedGroup clock domainData.name) store
  let deleted := ((store.cacheStore.lookup domainData.name).bind (·.domainData.groups)).getD []
  deleted.foldl (fun store group => store.processGroupDelete group) store

end Groups

section Data

def processDomainPolicies (now : Int) (domainData : DomainData) (cache : DataCache) :
    Except Failure DataCache :=
  match domainData.policies with
  | none => .ok cache
  | some policies =>
    match domainData.roles with
    | none => .error .nullPointer
    | some roles =>
      let roleMap := roles.foldl (fun (m : Map Str Role) role => m.insert role.name role) ∅
      (policies.filter (·.active ≠ some false)).foldlM
        (DataCache.processPolicy now domainData.name roleMap) cache

def processDomainServiceIdentities (codec : Codec) (domainData : DomainData)
    (cache : DataCache) : DataCache :=
  (domainData.services.getD []).foldl (DataCache.processServiceIdentity codec) cache

def processDomainEntities (codec : Codec) (domainData : DomainData) (cache : DataCache) :
    Except Failure DataCache :=
  (domainData.entities.getD []).foldlM (DataCache.processEntity codec domainData.name) cache

/-- The indexes of a domain, built from its data alone. -/
def buildCache (codec : Codec) (now : Int) (domainData : DomainData) :
    Except Failure DataCache := do
  let cache := (domainData.roles.getD []).foldl (DataCache.processRole now) {}
  let cache ← processDomainPolicies now domainData cache
  let cache := processDomainServiceIdentities codec domainData cache
  let cache ← processDomainEntities codec domainData cache
  cache.processSystemBehaviorRoles domainData

/-- The data as processing leaves it: group members are marked and a missing list of group members
is replaced by an empty one. -/
def normalized (domainData : DomainData) : DomainData :=
  { domainData with
    roles := domainData.roles.map fun roles => roles.map setRoleMemberGroupType
    groups := domainData.groups.map fun groups => groups.map fun group =>
      { group with groupMembers := some (group.groupMembers.getD []) } }

def addHostEntries (hostMap hosts : Map Str (List Str)) : Map Str (List Str) :=
  hostMap.entries.foldl (fun hosts entry => hosts.insert entry.1 (hosts.listAt entry.1 ++ entry.2))
    hosts

def removeHostEntries (hostMap hosts : Map Str (List Str)) : Map Str (List Str) :=
  hostMap.entries.foldl
    (fun hosts entry =>
      match hosts.lookup entry.1 with
      | none => hosts
      | some services => hosts.insert entry.1 (services.filter (· ∉ entry.2)))
    hosts

def addPublicKeys (publicKeyMap keys : Map Str Str) : Map Str Str :=
  publicKeyMap.entries.foldl (fun keys entry => keys.insert entry.1 entry.2) keys

def removePublicKeys (publicKeyMap keys : Map Str Str) : Map Str Str :=
  publicKeyMap.entries.foldl (fun keys entry => keys.erase entry.1) keys

/-- The hosts and public keys of the published data of a domain are taken out. -/
def removeEntries (name : Str) (store : DataStore) : DataStore :=
  match store.cacheStore.lookup name with
  | none => store
  | some published =>
    { store with
      hostCache := removeHostEntries published.hostCache store.hostCache
      publicKeyCache := removePublicKeys published.publicKeyCache store.publicKeyCache }

def addDomainToCache (name : Str) (cache : PublishedCache) (store : DataStore) : DataStore :=
  let store := store.removeEntries name
  { store with
    hostCache := addHostEntries cache.hostCache store.hostCache
    publicKeyCache := addPublicKeys cache.publicKeyCache store.publicKeyCache
    cloudStore := store.cloudStore.map fun cloud =>
      (cloud.updateAwsAccount name cache.domainData.account).updateAzureSubscription name
        cache.domainData.azureSubscription
    cacheStore := store.cacheStore.insert name cache }

def deleteDomainFromCache (name : Str) (store : DataStore) : DataStore :=
  let store := store.removeEntries name
  { store with cacheStore := store.cacheStore.erase name }

variable [CaseRules]

/-- `processDomainData`: the state it leaves, also when it throws. -/
def processDomainData (codec : Codec) (clock : Group → Int) (now : Int) (domainData : DomainData)
    (store : DataStore) : DataStore × Except Failure Unit :=
  let store := processDomainGroups clock domainData (processDomainRoles now domainData store)
  match buildCache codec now domainData with
  | .error e => (store, .error e)
  | .ok cache =>
    (store.addDomainToCache domainData.name { cache with domainData := normalized domainData },
      .ok ())

def processDeleteDomainGroups (domainName : Str) (store : DataStore) : DataStore :=
  (((store.cacheStore.lookup domainName).bind (·.domainData.groups)).getD []).foldl
    (fun store group => store.processGroupDelete group) store

def cleanRequireRoleCertCache (domainName : Str) (store : DataStore) :
    Except Failure DataStore :=
  match store.cacheStore.lookup domainName with
  | none => .ok store
  | some published =>
    match published.domainData.roles with
    | none => .error .nullPointer
    | some roles =>
      .ok { store with
        requireRoleCertCache := roles.foldl (fun cache role => cache.processRoleCacheDelete role)
          store.requireRoleCertCache }

/-- `deleteDomain`, apart from the change-log store; a published domain without roles stops it. -/
def deleteDomain (domainName : Str) (store : DataStore) : DataStore × Except Failure Unit :=
  let store := store.processDeleteDomainGroups domainName
  match store.cleanRequireRoleCertCache domainName with
  | .error e => (store, .error e)
  | .ok store => (store.deleteDomainFromCache domainName, .ok ())

end Data

section Updates

structure SignedDomain where
  domain : DomainData
  signature : Str
  keyId : Option Str

structure JWSDomain where
  payload : Str
  protectedHeader : Str
  signature : Str

/-- The keys of ZMS and the libraries that check and read what it sends. -/
structure Zms (Key : Type) where
  zmsPublicKeyCache : Map Str Key
  asCanonicalString : DomainData → Str
  verify : Str → Key → Str → Except Str Bool
  readDomainData : Str → Option DomainData
  validateJWSDocument : Str → Str → Str → (Str → Option Key) → Bool

def validateSignedDomain (zms : Zms Key) (signedDomain : SignedDomain) : Bool :=
  match zms.zmsPublicKeyCache.lookup (signedDomain.keyId.getD "0") with
  | none => false
  | some zmsKey =>
    match zms.verify (zms.asCanonicalString signedDomain.domain) zmsKey signedDomain.signature with
    | .ok result => result
    | .error _ => false

def validateJWSDomain (zms : Zms Key) (jwsDomain : JWSDomain) : Bool :=
  zms.validateJWSDocument jwsDomain.protectedHeader jwsDomain.payload jwsDomain.signature
    zms.zmsPublicKeyCache.lookup

variable [CaseRules]

/-- The common part of the two entry points, behind the signature check; `saved` tells whether
the change-log store kept the domain, or was not asked to. -/
def processValidDomain (codec : Codec) (clock : Group → Int) (now : Int) (domainData : DomainData)
    (saved : Bool) (store : DataStore) : DataStore × Bool :=
  if domainData.enabled = some false then (store.deleteDomainFromCache domainData.name, saved)
  else
    match store.processDomainData codec clock now domainData with
    | (store, .error _) => (store, false)
    | (store, .ok _) => (store, saved)

/-- `saveLocalDomain` answers false where the change-log store throws. -/
def processSignedDomain (zms : Zms Key) (codec : Codec) (clock : Group → Int) (now : Int)
    (saveLocalDomain : SignedDomain → Bool) (signedDomain : SignedDomain) (saveInStore : Bool)
    (store : DataStore) : DataStore × Bool :=
  if !validateSignedDomain zms signedDomain then (store, false)
  else processValidDomain codec clock now signedDomain.domain
    (!saveInStore || saveLocalDomain signedDomain) store

def processJWSDomain (zms : Zms Key) (codec : Codec) (clock : Group → Int) (now : Int)
    (saveLocalDomain : JWSDomain → Bool) (jwsDomain : JWSDomain) (saveInStore : Bool)
    (store : DataStore) : DataStore × Bool :=
  match zms.readDomainData jwsDomain.payload with
  | none => (store, false)
  | some domainData =>
    if !validateJWSDomain zms jwsDomain then (store, false)
    else processValidDomain codec clock now domainData
      (!saveInStore || saveLocalDomain jwsDomain) store

end Updates

def getDomainData (store : DataStore) (name : Str) : Option DomainData :=
  (store.cacheStore.lookup name).map (·.domainData)

def getPublicKey (store : DataStore) (domain service keyId : Str) : Option Str :=
  store.publicKeyCache.lookup
    (DataCache.generateServiceKeyName (domain ++ '.' :: service) keyId)

def getHostServices (store : DataStore) (host : Str) : Option (List Str) :=
  store.hostCache.lookup host

end DataStore

end Athenz.Zts
