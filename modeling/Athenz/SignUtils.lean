import Athenz.Lib.Document

namespace Athenz
open Lib.Document Lib.Text
set_option autoImplicit true

namespace SignUtils

/-- The names of the attributes of the signed documents. -/
inductive Attr where
  | enabled | modified | policies | domain | expires | policyData | zmsSignature | zmsKeyId
  | members | roleMembers | groupMembers | memberName | groupName | systemDisabled | expiration
  | name | role | services | id | publicKeys | account | ypmId | effect | action | resource
  | assertions | executable | description | trust | group | providerEndpoint | user | hosts | key
  | roles | groups | signature | keyId | contents | certDnsDomain | auditEnabled | reviewEnabled
  | selfServe | memberExpiryDays | tokenExpiryMins | certExpiryMins | roleCertExpiryMins
  | serviceExpiryDays | serviceCertExpiryMins | memberReviewDays | serviceReviewDays
  | signAlgorithm
deriving DecidableEq

def Attr.text : Attr → Str
  | .enabled => "enabled"
  | .modified => "modified"
  | .policies => "policies"
  | .domain => "domain"
  | .expires => "expires"
  | .policyData => "policyData"
  | .zmsSignature => "zmsSignature"
  | .zmsKeyId => "zmsKeyId"
  | .members => "members"
  | .roleMembers => "roleMembers"
  | .groupMembers => "groupMembers"
  | .memberName => "memberName"
  | .groupName => "groupName"
  | .systemDisabled => "systemDisabled"
  | .expiration => "expiration"
  | .name => "name"
  | .role => "role"
  | .services => "services"
  | .id => "id"
  | .publicKeys => "publicKeys"
  | .account => "account"
  | .ypmId => "ypmId"
  | .effect => "effect"
  | .action => "action"
  | .resource => "resource"
  | .assertions => "assertions"
  | .executable => "executable"
  | .description => "description"
  | .trust => "trust"
  | .group => "group"
  | .providerEndpoint => "providerEndpoint"
  | .user => "user"
  | .hosts => "hosts"
  | .key => "key"
  | .roles => "roles"
  | .groups => "groups"
  | .signature => "signature"
  | .keyId => "keyId"
  | .contents => "contents"
  | .certDnsDomain => "certDnsDomain"
  | .auditEnabled => "auditEnabled"
  | .reviewEnabled => "reviewEnabled"
  | .selfServe => "selfServe"
  | .memberExpiryDays => "memberExpiryDays"
  | .tokenExpiryMins => "tokenExpiryMins"
  | .certExpiryMins => "certExpiryMins"
  | .roleCertExpiryMins => "roleCertExpiryMins"
  | .serviceExpiryDays => "serviceExpiryDays"
  | .serviceCertExpiryMins => "serviceCertExpiryMins"
  | .memberReviewDays => "memberReviewDays"
  | .serviceReviewDays => "serviceReviewDays"
  | .signAlgorithm => "signAlgorithm"

/-- The text that is signed; a struct keeps one value under a name and gives its names in order. -/
def asCanonicalString (obj : Node Attr) : Str := print Attr.text obj

/-- What a document says, apart from the order of its attributes and the width of its numbers. -/
def documentData (obj : Node Attr) : Data Attr := data Attr.text obj

def Attr.all : List Attr :=
  [.enabled, .modified, .policies, .domain, .expires, .policyData, .zmsSignature, .zmsKeyId,
    .members, .roleMembers, .groupMembers, .memberName, .groupName, .systemDisabled, .expiration,
    .name, .role, .services, .id, .publicKeys, .account, .ypmId, .effect, .action, .resource,
    .assertions, .executable, .description, .trust, .group, .providerEndpoint, .user, .hosts,
    .key, .roles, .groups, .signature, .keyId, .contents, .certDnsDomain, .auditEnabled,
    .reviewEnabled, .selfServe, .memberExpiryDays, .tokenExpiryMins, .certExpiryMins,
    .roleCertExpiryMins, .serviceExpiryDays, .serviceCertExpiryMins, .memberReviewDays,
    .serviceReviewDays, .signAlgorithm]

theorem Attr.mem_all (attr : Attr) : attr ∈ Attr.all := by
  cases attr <;> decide

theorem Attr.text_injective : Function.Injective Attr.text := by
  have hall : ∀ a ∈ Attr.all, ∀ b ∈ Attr.all, a.text = b.text → a = b := by decide +kernel
  intro a b h
  exact hall a a.mem_all b b.mem_all h

theorem Attr.quote_notMem_text (attr : Attr) : '"' ∉ attr.text := by
  have hall : ∀ a ∈ Attr.all, '"' ∉ a.text := by decide +kernel
  exact hall attr attr.mem_all

/-- Two lists of texts with one signed string. -/
theorem quoted_comma_collides :
    asCanonicalString (.array [.string [], .string []]) =
      asCanonicalString (.array [.string ['"', ',', '"']]) ∧
    documentData (.array [.string [], .string []]) ≠ documentData (.array [.string ['"', ',', '"']]) := by
  refine ⟨by decide +kernel, ?_⟩
  intro h
  cases h

/-- Documents over a set of characters are told apart by their signed strings exactly when the set
lacks the quote or the comma. -/
theorem asCanonicalString_unambiguous_iff (allowed : Char → Prop) :
    (∀ a b : Node Attr, Over allowed (documentData a) → Over allowed (documentData b) →
      asCanonicalString a = asCanonicalString b → documentData a = documentData b) ↔
    ¬ (allowed '"' ∧ allowed ',') := by
  constructor
  · rintro hunique ⟨hquote, hcomma⟩
    obtain ⟨hsame, hdifferent⟩ := quoted_comma_collides
    refine hdifferent (hunique _ _ ⟨nofun, nofun, trivial⟩ ⟨?_, trivial⟩ hsame)
    intro c hc
    obtain rfl | rfl | rfl : c = '"' ∨ c = ',' ∨ c = '"' := by simpa using hc
    · exact hquote
    · exact hcomma
    · exact hquote
  · intro hcut a b ha hb h
    exact print_injective Attr.text_injective Attr.quote_notMem_text hcut ha hb h

/-- A service with two hosts and one with a single host whose name has a quote have one signed string. -/
theorem hosts_collide :
    asCanonicalString (.struct [(.hosts, .array [.string "host1", .string "host2"]),
        (.name, .string "sports.api")]) =
      asCanonicalString (.struct [(.hosts, .array [.string "host1\",\"host2"]),
        (.name, .string "sports.api")]) ∧
    documentData (.struct [(.hosts, .array [.string "host1", .string "host2"]),
        (.name, .string "sports.api")]) ≠
      documentData (.struct [(.hosts, .array [.string "host1\",\"host2"]),
        (.name, .string "sports.api")]) := by
  refine ⟨by decide +kernel, ?_⟩
  intro h
  cases h

end SignUtils

end Athenz
