import Athenz.AccessToken
import Athenz.Lib.Rearrangement

namespace Athenz.Zts
open Lib Lib.Text Lib.Result Lib.Rearrangement
set_option autoImplicit true

section Entities

variable [CaseRules]

/-- An entity of the type of an object, in which the other fields of the object are listed. -/
def AuthzDetailsEntity.Allows (entity : AuthzDetailsEntity) (item : AuthzDetailsItem) : Prop :=
  some entity.type = item.type ∧
    ∀ field ∈ item.fields, field = "type" ∨ entity.isValidField field = true

theorem allows_of_validateAuthzDetailsAgainstConfig {item : AuthzDetailsItem}
    (h : validateAuthzDetailsAgainstConfig item entities = true) :
    ∃ entity ∈ entities, entity.Allows item := by
  unfold validateAuthzDetailsAgainstConfig at h
  split at h
  · cases h
  · rename_i entity hfind
    have htype := List.find?_some hfind
    refine ⟨entity, List.mem_of_find?_eq_some hfind, of_decide_eq_true htype, ?_⟩
    intro field hfield
    have hvalid := List.all_eq_true.1 h field hfield
    rw [Bool.or_eq_true, decide_eq_true_eq] at hvalid
    exact hvalid

/-- The entities of the type of an object all list its fields, or none does. -/
def Unambiguous (entities : List AuthzDetailsEntity) (item : AuthzDetailsItem) : Prop :=
  ∀ entity ∈ entities, entity.Allows item →
    ∀ other ∈ entities, some other.type = item.type → other.Allows item

theorem validateAuthzDetailsAgainstConfig_iff {item : AuthzDetailsItem}
    (h : Unambiguous entities item) :
    validateAuthzDetailsAgainstConfig item entities = true ↔
      ∃ entity ∈ entities, entity.Allows item := by
  refine ⟨allows_of_validateAuthzDetailsAgainstConfig, ?_⟩
  rintro ⟨entity, hmem, hallows⟩
  unfold validateAuthzDetailsAgainstConfig
  split
  · rename_i hfind
    exact absurd hallows.1 (of_decide_eq_false
      (Bool.not_eq_true _ ▸ List.find?_eq_none.1 hfind entity hmem))
  · rename_i first hfind
    have htype := List.find?_some hfind
    have hfirst := h entity hmem hallows first (List.mem_of_find?_eq_some hfind)
      (of_decide_eq_true htype)
    rw [List.all_eq_true]
    intro field hfield
    rw [Bool.or_eq_true, decide_eq_true_eq]
    exact hfirst.2 field hfield

/-- The same entity, its fields in any order. -/
def AuthzDetailsEntity.Same (entity other : AuthzDetailsEntity) : Prop :=
  entity.type = other.type ∧ (entity.fields.getD []).Perm (other.fields.getD [])

/-- The same object, its fields in any order. -/
def AuthzDetailsItem.Same (item other : AuthzDetailsItem) : Prop :=
  item.type = other.type ∧ item.fields.Perm other.fields

theorem AuthzDetailsEntity.Same.isValidField {entity other : AuthzDetailsEntity}
    (h : entity.Same other) (field : Str) : entity.isValidField field = other.isValidField field :=
  h.2.any_eq

theorem AuthzDetailsEntity.Same.allows_iff {entity other : AuthzDetailsEntity}
    {item item' : AuthzDetailsItem} (h : entity.Same other) (hitem : item.Same item') :
    entity.Allows item ↔ other.Allows item' := by
  unfold AuthzDetailsEntity.Allows
  rw [h.1, hitem.1]
  refine and_congr_right fun _ => ?_
  constructor
  · intro hall field hfield
    rw [← h.isValidField]
    exact hall field (hitem.2.mem_iff.2 hfield)
  · intro hall field hfield
    rw [h.isValidField]
    exact hall field (hitem.2.mem_iff.1 hfield)

theorem Unambiguous.rearranged {item item' : AuthzDetailsItem} (h : Unambiguous entities item)
    (hentities : Rearranged AuthzDetailsEntity.Same entities entities') (hitem : item.Same item') :
    Unambiguous entities' item' := by
  intro entity' hmem' hallows other' hother' htype
  obtain ⟨entity, hmem, hsame⟩ := hentities.exists_left hmem'
  obtain ⟨other, hother, hsameOther⟩ := hentities.exists_left hother'
  rw [← hsameOther.allows_iff hitem]
  apply h entity hmem ((hsame.allows_iff hitem).2 hallows) other hother
  rw [hsameOther.1, htype, hitem.1]

end Entities

section Requests

/-- A request with authorization details for one role: the objects of a text within the limit. -/
structure DetailsRequest where
  config : TokenConfig
  lib : TokenLib
  data : PublishedCache
  role : Str
  text : Str
  items : List AuthzDetailsItem
  ne_nil : text ≠ []
  within : text.length ≤ config.maxAuthzDetailsLength
  reads : lib.readAuthzDetails text = some items

namespace DetailsRequest

def roleAuthzDetails (request : DetailsRequest) : Option (List AuthzDetailsEntity) :=
  request.data.authzDetailsCache.lookup request.role

/-- The entities of the role and those of the system. -/
def entities (request : DetailsRequest) : List AuthzDetailsEntity :=
  request.roleAuthzDetails.getD [] ++ request.config.systemAuthzDetails.getD []

/-- There are authorization details of the role or of the system. -/
def Configured (request : DetailsRequest) : Prop :=
  request.roleAuthzDetails.isSome ∨ request.config.systemAuthzDetails.isSome

variable [CaseRules]

def Accepted (request : DetailsRequest) : Prop :=
  validateAuthorizationDetails request.config request.lib (some request.text)
    (some [request.role]) request.data = .ok ()

/-- Every object has an entity of its type that lists its other fields. -/
def Covered (request : DetailsRequest) : Prop :=
  ∀ item ∈ request.items, ∃ entity ∈ request.entities, entity.Allows item

def Unambiguous (request : DetailsRequest) : Prop :=
  ∀ item ∈ request.items, Zts.Unambiguous (request.roleAuthzDetails.getD []) item ∧
    Zts.Unambiguous (request.config.systemAuthzDetails.getD []) item

/-- The same request, its entities, its objects and their fields in any order. -/
structure Reordered (request other : DetailsRequest) : Prop where
  role : Option.Rel (Rearranged AuthzDetailsEntity.Same) request.roleAuthzDetails
    other.roleAuthzDetails
  system : Option.Rel (Rearranged AuthzDetailsEntity.Same) request.config.systemAuthzDetails
    other.config.systemAuthzDetails
  items : Rearranged AuthzDetailsItem.Same request.items other.items

theorem accepted_iff (request : DetailsRequest) :
    request.Accepted ↔ request.Configured ∧ ∀ item ∈ request.items,
      validateAuthzDetailsAgainstConfig item (request.roleAuthzDetails.getD []) = true ∨
        validateAuthzDetailsAgainstConfig item (request.config.systemAuthzDetails.getD []) = true := by
  have hsource (item : AuthzDetailsItem) (source : Option (List AuthzDetailsEntity)) :
      source.any (validateAuthzDetailsAgainstConfig item) =
        validateAuthzDetailsAgainstConfig item (source.getD []) := by
    cases source <;> rfl
  unfold Accepted validateAuthorizationDetails
  split
  · rename_i h
    cases h
  · rename_i h
    exact absurd (Option.some.inj h) request.ne_nil
  · rename_i text h
    cases h
    simp only [bind_eq_ok, exists_unit, refuse_eq_ok, Nat.not_lt, gt_iff_lt, request.within, true_and,
      request.reads, not_not, hsource, List.all_eq_true, Bool.or_eq_true, Configured,
      roleAuthzDetails, not_and_or, Bool.not_eq_true, Option.isNone_eq_false_iff]
    exact and_congr_left fun _ => or_comm

theorem Reordered.covered_iff {request other : DetailsRequest} (h : request.Reordered other) :
    request.Covered ↔ other.Covered := by
  refine h.items.forall_iff fun item item' hitem => ?_
  have hsource {source source' : Option (List AuthzDetailsEntity)}
      (hsource : Option.Rel (Rearranged AuthzDetailsEntity.Same) source source') :
      (∃ entity ∈ source.getD [], entity.Allows item) ↔
        ∃ entity ∈ source'.getD [], entity.Allows item' := by
    cases hsource with
    | none =>
      simp only [Option.getD_none, List.not_mem_nil, false_and, exists_false]
    | some hentities => exact hentities.exists_iff fun _ _ hsame => hsame.allows_iff hitem
  simp only [entities, List.mem_append, or_and_right, exists_or]
  exact or_congr (hsource h.role) (hsource h.system)

omit [CaseRules] in
theorem Reordered.configured_iff {request other : DetailsRequest} (h : request.Reordered other) :
    request.Configured ↔ other.Configured := by
  have hsource {source source' : Option (List AuthzDetailsEntity)}
      (hsource : Option.Rel (Rearranged AuthzDetailsEntity.Same) source source') :
      source.isSome = source'.isSome := by
    cases hsource <;> rfl
  rw [Configured, hsource h.role, hsource h.system, Configured]

theorem Reordered.unambiguous {request other : DetailsRequest} (h : request.Reordered other)
    (hrequest : request.Unambiguous) : other.Unambiguous := by
  intro item' hitem'
  obtain ⟨item, hitem, hsame⟩ := h.items.exists_left hitem'
  have hsource {source source' : Option (List AuthzDetailsEntity)}
      (hsource : Option.Rel (Rearranged AuthzDetailsEntity.Same) source source')
      (hunambiguous : Zts.Unambiguous (source.getD []) item) :
      Zts.Unambiguous (source'.getD []) item' := by
    cases hsource with
    | none => exact fun _ hmem => absurd hmem List.not_mem_nil
    | some hentities => exact hunambiguous.rearranged hentities hsame
  exact ⟨hsource h.role (hrequest item hitem).1, hsource h.system (hrequest item hitem).2⟩

theorem Accepted.covered {request : DetailsRequest} (h : request.Accepted) : request.Covered := by
  intro item hitem
  rcases ((accepted_iff request).1 h).2 item hitem with hvalid | hvalid
  · obtain ⟨entity, hmem, hallows⟩ := allows_of_validateAuthzDetailsAgainstConfig hvalid
    exact ⟨entity, List.mem_append_left _ hmem, hallows⟩
  · obtain ⟨entity, hmem, hallows⟩ := allows_of_validateAuthzDetailsAgainstConfig hvalid
    exact ⟨entity, List.mem_append_right _ hmem, hallows⟩

theorem Unambiguous.accepted_iff {request : DetailsRequest} (h : request.Unambiguous) :
    request.Accepted ↔ request.Configured ∧ request.Covered := by
  refine ⟨fun haccepted => ⟨((DetailsRequest.accepted_iff request).1 haccepted).1,
    haccepted.covered⟩, ?_⟩
  rintro ⟨hconfigured, hcovered⟩
  refine (DetailsRequest.accepted_iff request).2 ⟨hconfigured, fun item hitem => ?_⟩
  obtain ⟨entity, hmem, hallows⟩ := hcovered item hitem
  rcases List.mem_append.1 hmem with hmem | hmem
  · exact .inl ((validateAuthzDetailsAgainstConfig_iff (h item hitem).1).2 ⟨entity, hmem, hallows⟩)
  · exact .inr ((validateAuthzDetailsAgainstConfig_iff (h item hitem).2).2 ⟨entity, hmem, hallows⟩)

end DetailsRequest

end Requests

section Sample

local instance detailsCaseRules : CaseRules := .ascii

def payment (fields : List Str) : AuthzDetailsEntity where
  type := "payment"
  roles := some ["payers"]
  fields := some fields

/-- A payment of an amount, for a role with some entities. -/
def paymentRequest (entities : Option (List AuthzDetailsEntity)) (items : List AuthzDetailsItem) :
    DetailsRequest where
  config := {}
  lib := {
    decodeString := some
    isURI := fun _ => true
    readAuthzDetails := fun _ => some items
    validate := fun _ _ => none }
  data := {
    authzDetailsCache := .ofEntries [("payers", entities)]
    domainData := { name := "bank" } }
  role := "payers"
  text := "[]"
  items := items
  ne_nil := by decide
  within := by decide
  reads := rfl

def amount : AuthzDetailsItem where
  type := some "payment"
  fields := ["type", "amount"]

end Sample

end Athenz.Zts
