import Athenz.SignUtils
import Athenz.DataModel

namespace Athenz.Zms
open Lib.Document Lib.Text SignUtils
set_option autoImplicit true

structure Role extends Zts.Role where
  auditEnabled : Option Bool := none
  memberExpiryDays : Option Int := none
  memberReviewDays : Option Int := none
  members : Option (List Str) := none
  modified : Option Int := none
  selfServe : Option Bool := none
  serviceExpiryDays : Option Int := none
  serviceReviewDays : Option Int := none

structure Group extends Zts.Group where
  auditEnabled : Option Bool := none
  memberExpiryDays : Option Int := none
  modified : Option Int := none
  reviewEnabled : Option Bool := none
  selfServe : Option Bool := none
  serviceExpiryDays : Option Int := none

structure Policy extends Zts.Policy where
  name : Str
  modified : Option Int := none

structure DomainPolicies where
  domain : Option Str := none
  policies : List Policy

structure SignedPolicies where
  contents : DomainPolicies
  keyId : Option Str := none
  signature : Option Str := none

structure ServiceIdentity extends Zts.ServiceIdentity where
  description : Option Str := none
  executable : Option Str := none
  group : Option Str := none
  modified : Option Int := none
  providerEndpoint : Option Str := none
  user : Option Str := none

/-- A domain as ZMS sends it, with all that its signature is made from. -/
structure DomainData where
  name : Str
  enabled : Option Bool := none
  account : Option Str := none
  azureSubscription : Option Str := none
  auditEnabled : Option Bool := none
  certDnsDomain : Option Str := none
  memberExpiryDays : Option Int := none
  modified : Option Int := none
  roleCertExpiryMins : Option Int := none
  serviceCertExpiryMins : Option Int := none
  serviceExpiryDays : Option Int := none
  signAlgorithm : Option Str := none
  tokenExpiryMins : Option Int := none
  ypmId : Option Int := none
  roles : Option (List Role) := none
  groups : Option (List Group) := none
  policies : Option SignedPolicies := none
  services : Option (List ServiceIdentity) := none
  entities : Option (List Zts.Entity) := none

/-- The part of a domain that the server acts on. -/
def DomainData.toDomainData (data : DomainData) : Zts.DomainData where
  name := data.name
  enabled := data.enabled
  account := data.account
  azureSubscription := data.azureSubscription
  certDnsDomain := data.certDnsDomain
  roleCertExpiryMins := data.roleCertExpiryMins
  tokenExpiryMins := data.tokenExpiryMins
  roles := data.roles.map fun roles => roles.map (·.toRole)
  groups := data.groups.map fun groups => groups.map (·.toGroup)
  policies := data.policies.map fun policies => policies.contents.policies.map (·.toPolicy)
  services := data.services.map fun services => services.map (·.toServiceIdentity)
  entities := data.entities

section Structs

variable (timestampText : Int → Str)

def stringField (value : Option Str) : Option (Node Attr) := value.map .string

def integerField (value : Option Int) : Option (Node Attr) := value.map .integer

def booleanField (value : Option Bool) : Option (Node Attr) := value.map .boolean

/-- `timestampText` is the `toString` of a timestamp. -/
def timestampField (value : Option Int) : Option (Node Attr) :=
  value.map fun millis => .string (timestampText millis)

def arrayField (asStruct : α → Node Attr) (items : List α) : Option (Node Attr) :=
  some (.array (items.map asStruct))

/-- A list that is left out when it is missing or empty. -/
def nonEmptyField (asStruct : α → Node Attr) (items : Option (List α)) : Option (Node Attr) :=
  match items with
  | none | some [] => none
  | some items => arrayField asStruct items

/-- A list that is left out when it is missing. -/
def listField (asStruct : α → Node Attr) (items : Option (List α)) : Option (Node Attr) :=
  items.bind (arrayField asStruct)

def effectText : Zts.AssertionEffect → Str
  | .ALLOW => "ALLOW"
  | .DENY => "DENY"

def assertionStruct (assertion : Zts.Assertion) : Node Attr :=
  .struct (present
    [(.action, stringField assertion.action), (.effect, stringField (assertion.effect.map effectText)),
      (.resource, stringField assertion.resource), (.role, stringField assertion.role)])

def Policy.asStruct (policy : Policy) : Node Attr :=
  .struct (present
    [(.assertions, nonEmptyField assertionStruct policy.assertions),
      (.modified, timestampField timestampText policy.modified), (.name, stringField policy.name)])

def DomainPolicies.asStruct (domainPolicies : DomainPolicies) : Node Attr :=
  .struct (present
    [(.domain, stringField domainPolicies.domain),
      (.policies, arrayField (Policy.asStruct timestampText) domainPolicies.policies)])

def SignedPolicies.asStruct (signedPolicies : SignedPolicies) : Node Attr :=
  .struct (present
    [(.contents, some (signedPolicies.contents.asStruct timestampText)),
      (.keyId, stringField signedPolicies.keyId), (.signature, stringField signedPolicies.signature)])

def roleMemberStruct (roleMember : Zts.RoleMember) : Node Attr :=
  .struct (present
    [(.expiration, timestampField timestampText roleMember.expiration),
      (.memberName, stringField roleMember.memberName),
      (.systemDisabled, integerField roleMember.systemDisabled)])

def Role.asStruct (role : Role) : Node Attr :=
  .struct (present
    [(.auditEnabled, booleanField role.auditEnabled),
      (.certExpiryMins, integerField role.certExpiryMins),
      (.memberExpiryDays, integerField role.memberExpiryDays),
      (.memberReviewDays, integerField role.memberReviewDays),
      (.members, listField .string role.members),
      (.modified, timestampField timestampText role.modified), (.name, stringField role.name),
      (.roleMembers, listField (roleMemberStruct timestampText) role.roleMembers),
      (.selfServe, booleanField role.selfServe),
      (.serviceExpiryDays, integerField role.serviceExpiryDays),
      (.serviceReviewDays, integerField role.serviceReviewDays),
      (.signAlgorithm, stringField role.signAlgorithm),
      (.tokenExpiryMins, integerField role.tokenExpiryMins), (.trust, stringField role.trust)])

def groupMemberStruct (groupMember : Zts.GroupMember) : Node Attr :=
  .struct (present
    [(.expiration, timestampField timestampText groupMember.expiration),
      (.groupName, stringField groupMember.groupName),
      (.memberName, stringField groupMember.memberName),
      (.systemDisabled, integerField groupMember.systemDisabled)])

def Group.asStruct (group : Group) : Node Attr :=
  .struct (present
    [(.auditEnabled, booleanField group.auditEnabled),
      (.memberExpiryDays, integerField group.memberExpiryDays),
      (.groupMembers, listField (groupMemberStruct timestampText) group.groupMembers),
      (.modified, timestampField timestampText group.modified), (.name, stringField group.name),
      (.reviewEnabled, booleanField group.reviewEnabled), (.selfServe, booleanField group.selfServe),
      (.serviceExpiryDays, integerField group.serviceExpiryDays)])

def publicKeyStruct (publicKey : Zts.PublicKeyEntry) : Node Attr :=
  .struct (present [(.id, stringField publicKey.id), (.key, stringField publicKey.key)])

def ServiceIdentity.asStruct (service : ServiceIdentity) : Node Attr :=
  .struct (present
    [(.description, stringField service.description), (.executable, stringField service.executable),
      (.group, stringField service.group), (.hosts, listField .string service.hosts),
      (.modified, timestampField timestampText service.modified), (.name, stringField service.name),
      (.providerEndpoint, stringField service.providerEndpoint),
      (.publicKeys, arrayField publicKeyStruct (service.publicKeys.getD [])),
      (.user, stringField service.user)])

def DomainData.asStruct (domainData : DomainData) : Node Attr :=
  .struct (present
    [(.account, stringField domainData.account), (.auditEnabled, booleanField domainData.auditEnabled),
      (.certDnsDomain, stringField domainData.certDnsDomain),
      (.enabled, booleanField domainData.enabled),
      (.groups, nonEmptyField (Group.asStruct timestampText) domainData.groups),
      (.memberExpiryDays, integerField domainData.memberExpiryDays),
      (.modified, timestampField timestampText domainData.modified),
      (.name, stringField domainData.name),
      (.policies, domainData.policies.map (SignedPolicies.asStruct timestampText)),
      (.roleCertExpiryMins, integerField domainData.roleCertExpiryMins),
      (.roles, arrayField (Role.asStruct timestampText) (domainData.roles.getD [])),
      (.serviceCertExpiryMins, integerField domainData.serviceCertExpiryMins),
      (.serviceExpiryDays, integerField domainData.serviceExpiryDays),
      (.services, arrayField (ServiceIdentity.asStruct timestampText) (domainData.services.getD [])),
      (.signAlgorithm, stringField domainData.signAlgorithm),
      (.tokenExpiryMins, integerField domainData.tokenExpiryMins),
      (.ypmId, integerField domainData.ypmId)])

def DomainData.asCanonicalString (domainData : DomainData) : Str :=
  SignUtils.asCanonicalString (domainData.asStruct timestampText)

end Structs

section Signed

def signedRoleMember (member : Zts.RoleMember) : Zts.RoleMember where
  memberName := member.memberName
  expiration := member.expiration
  systemDisabled := member.systemDisabled

def signedGroupMember (member : Zts.GroupMember) : Zts.GroupMember where
  memberName := member.memberName
  groupName := member.groupName
  expiration := member.expiration
  systemDisabled := member.systemDisabled

def Role.signed (role : Role) : Role :=
  { role with tags := ∅, roleMembers := role.roleMembers.map fun members => members.map signedRoleMember }

def Group.signed (group : Group) : Group :=
  { group with groupMembers := group.groupMembers.map fun members => members.map signedGroupMember }

def Policy.signed (policy : Policy) : Policy :=
  { policy with active := none, assertions := some (policy.assertions.getD []) }

def SignedPolicies.signed (policies : SignedPolicies) : SignedPolicies :=
  { policies with contents := { policies.contents with
      policies := policies.contents.policies.map (·.signed) } }

def ServiceIdentity.signed (service : ServiceIdentity) : ServiceIdentity :=
  { service with publicKeys := some (service.publicKeys.getD []) }

/-- What the signature of a domain covers: neither the entities, the Azure subscription, the tags of
roles and whether policies are active, nor whether a list is missing or empty. -/
def DomainData.signed (domainData : DomainData) : DomainData :=
  { domainData with
    azureSubscription := none
    entities := none
    roles := some ((domainData.roles.getD []).map (·.signed))
    groups := some ((domainData.groups.getD []).map (·.signed))
    policies := domainData.policies.map (·.signed)
    services := some ((domainData.services.getD []).map (·.signed)) }

/-- The struct of a value says what is signed of it, and no more. -/
def Signs (asStruct : α → Node Attr) (signed : α → β) : Prop :=
  ∀ x y, data Attr.text (asStruct x) = data Attr.text (asStruct y) ↔ signed x = signed y

theorem dataItems_eq_map (items : List (Node Attr)) :
    dataItems Attr.text items = items.map (data Attr.text) := by
  induction items with
  | nil => rfl
  | cons item items ih =>
    rw [dataItems, ih]
    rfl

@[simp] theorem stringField_iff {a b : Option Str} :
    (stringField a).map (data Attr.text) = (stringField b).map (data Attr.text) ↔ a = b := by
  cases a <;> cases b <;> simp [stringField, data]

@[simp] theorem integerField_iff {a b : Option Int} :
    (integerField a).map (data Attr.text) = (integerField b).map (data Attr.text) ↔ a = b := by
  cases a <;> cases b <;> simp [integerField, data]

@[simp] theorem booleanField_iff {a b : Option Bool} :
    (booleanField a).map (data Attr.text) = (booleanField b).map (data Attr.text) ↔ a = b := by
  cases a <;> cases b <;> simp [booleanField, data]

section Lists

variable {asStruct : α → Node Attr} {signed : α → β}

theorem Signs.map_iff (h : Signs asStruct signed) (xs ys : List α) :
    xs.map (data Attr.text ∘ asStruct) = ys.map (data Attr.text ∘ asStruct) ↔
      xs.map signed = ys.map signed := by
  induction xs generalizing ys with
  | nil =>
    cases ys with
    | nil => exact iff_of_true rfl rfl
    | cons y ys => exact ⟨fun h => (nomatch h), fun h => (nomatch h)⟩
  | cons x xs ih =>
    cases ys with
    | nil => exact ⟨fun h => (nomatch h), fun h => (nomatch h)⟩
    | cons y ys =>
      rw [List.map_cons, List.map_cons, List.map_cons, List.map_cons, List.cons.injEq,
        List.cons.injEq, ih]
      exact and_congr_left fun _ => h x y

theorem Signs.arrayField_iff (h : Signs asStruct signed) {xs ys : List α} :
    (arrayField asStruct xs).map (data Attr.text) = (arrayField asStruct ys).map (data Attr.text) ↔
      xs.map signed = ys.map signed := by
  rw [← h.map_iff]
  simp [arrayField, data, dataItems_eq_map]

theorem Signs.listField_iff (h : Signs asStruct signed) {xs ys : Option (List α)} :
    (listField asStruct xs).map (data Attr.text) = (listField asStruct ys).map (data Attr.text) ↔
      xs.map (·.map signed) = ys.map (·.map signed) := by
  cases xs <;> cases ys <;> simp [listField, h.arrayField_iff]
  · simp [arrayField]
  · simp [arrayField]

theorem Signs.nonEmptyField_iff (h : Signs asStruct signed) {xs ys : Option (List α)} :
    (nonEmptyField asStruct xs).map (data Attr.text) =
        (nonEmptyField asStruct ys).map (data Attr.text) ↔
      (xs.getD []).map signed = (ys.getD []).map signed := by
  rcases xs with _ | _ | ⟨x, xs⟩ <;> rcases ys with _ | _ | ⟨y, ys⟩ <;>
    simp only [nonEmptyField, h.arrayField_iff] <;> simp [arrayField]

end Lists

theorem effectText_iff {a b : Option Zts.AssertionEffect} :
    a.map effectText = b.map effectText ↔ a = b := by
  rcases a with _ | _ | _ <;> rcases b with _ | _ | _ <;> decide

theorem assertionStruct_signs : Signs assertionStruct id := by
  rintro ⟨⟩ ⟨⟩
  refine Iff.trans (data_present_iff (by simp) rfl) ?_
  simp [effectText_iff]
  grind

theorem publicKeyStruct_signs : Signs publicKeyStruct id := by
  rintro ⟨⟩ ⟨⟩
  refine Iff.trans (data_present_iff (by simp) rfl) ?_
  simp

theorem string_signs : Signs .string id := by
  intro a b
  simp [data]

section Structs

variable {timestampText : Int → Str}

theorem timestampField_iff (htime : Function.Injective timestampText) {a b : Option Int} :
    (timestampField timestampText a).map (data Attr.text) =
      (timestampField timestampText b).map (data Attr.text) ↔ a = b := by
  cases a <;> cases b <;> simp [timestampField, data, htime.eq_iff]

theorem roleMemberStruct_signs (htime : Function.Injective timestampText) :
    Signs (roleMemberStruct timestampText) signedRoleMember := by
  intro a b
  refine Iff.trans (data_present_iff (by simp) rfl) ?_
  simp [timestampField_iff htime, signedRoleMember]
  grind

theorem groupMemberStruct_signs (htime : Function.Injective timestampText) :
    Signs (groupMemberStruct timestampText) signedGroupMember := by
  intro a b
  refine Iff.trans (data_present_iff (by simp) rfl) ?_
  simp [timestampField_iff htime, signedGroupMember]
  grind

theorem Policy.asStruct_signs (htime : Function.Injective timestampText) :
    Signs (Policy.asStruct timestampText) Policy.signed := by
  rintro ⟨⟨⟩⟩ ⟨⟨⟩⟩
  refine Iff.trans (data_present_iff (by simp) rfl) ?_
  simp [timestampField_iff htime, Policy.signed, assertionStruct_signs.nonEmptyField_iff]
  grind

theorem SignedPolicies.asStruct_signs (htime : Function.Injective timestampText) :
    Signs (SignedPolicies.asStruct timestampText) SignedPolicies.signed := by
  rintro ⟨⟨domain, policies⟩⟩ ⟨⟨domain', policies'⟩⟩
  refine Iff.trans (data_present_iff (by simp) rfl) ?_
  have hcontents : data Attr.text (DomainPolicies.asStruct timestampText ⟨domain, policies⟩) =
      data Attr.text (DomainPolicies.asStruct timestampText ⟨domain', policies'⟩) ↔
        domain = domain' ∧ policies.map (·.signed) = policies'.map (·.signed) := by
    refine Iff.trans (data_present_iff (by simp) rfl) ?_
    simp [(Policy.asStruct_signs htime).arrayField_iff]
  simp [SignedPolicies.signed, hcontents]

theorem Role.asStruct_signs (htime : Function.Injective timestampText) :
    Signs (Role.asStruct timestampText) Role.signed := by
  rintro ⟨⟨⟩⟩ ⟨⟨⟩⟩
  refine Iff.trans (data_present_iff (by simp) rfl) ?_
  simp [timestampField_iff htime, Role.signed, string_signs.listField_iff,
    (roleMemberStruct_signs htime).listField_iff]
  grind

theorem Group.asStruct_signs (htime : Function.Injective timestampText) :
    Signs (Group.asStruct timestampText) Group.signed := by
  rintro ⟨⟨⟩⟩ ⟨⟨⟩⟩
  refine Iff.trans (data_present_iff (by simp) rfl) ?_
  simp [timestampField_iff htime, Group.signed, (groupMemberStruct_signs htime).listField_iff]
  grind

theorem ServiceIdentity.asStruct_signs (htime : Function.Injective timestampText) :
    Signs (ServiceIdentity.asStruct timestampText) ServiceIdentity.signed := by
  rintro ⟨⟨⟩⟩ ⟨⟨⟩⟩
  refine Iff.trans (data_present_iff (by simp) rfl) ?_
  simp [timestampField_iff htime, ServiceIdentity.signed, string_signs.listField_iff,
    publicKeyStruct_signs.arrayField_iff]
  grind

theorem DomainData.asStruct_signs (htime : Function.Injective timestampText) :
    Signs (DomainData.asStruct timestampText) DomainData.signed := by
  rintro ⟨⟩ ⟨⟩
  refine Iff.trans (data_present_iff (by simp) rfl) ?_
  have hpolicies (xs ys : Option SignedPolicies) :
      xs.map (data Attr.text ∘ SignedPolicies.asStruct timestampText) =
        ys.map (data Attr.text ∘ SignedPolicies.asStruct timestampText) ↔
          xs.map (·.signed) = ys.map (·.signed) := by
    have hsigns := SignedPolicies.asStruct_signs htime
    cases xs <;> cases ys <;> simp [hsigns _ _]
  simp [timestampField_iff htime, DomainData.signed, hpolicies,
    (Group.asStruct_signs htime).nonEmptyField_iff, (Role.asStruct_signs htime).arrayField_iff,
    (ServiceIdentity.asStruct_signs htime).arrayField_iff]
  grind

end Structs

section Example

/-- Two domains that differ in what is not signed. -/
def unsignedMedia (azureSubscription : Option Str) : DomainData where
  name := "media"
  azureSubscription := azureSubscription

end Example

end Signed

end Athenz.Zms
