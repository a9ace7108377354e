import Athenz.DomainRoundTrip

namespace Athenz.Zmscli
open Lib.Text
set_option autoImplicit true

section Specification

variable {T : Type} [DecidableEq T]

/-- A domain whose objects stand under their names, without white space where a file is cut. -/
structure Domain.Formed (domain : Domain T) : Prop where
  nonempty : domain.name ≠ []
  name : ':' ∉ domain.name
  services : ServicesFormed domain.name domain.services
  roles : RolesFormed domain.name domain.roles
  policies : PoliciesFormed domain.name domain.policies

/-- The requests for the domain itself. -/
def domainRequests (cli : Cli) (domain : Domain T) (admins : List Str) : List (Request T) :=
  [cli.createDomain domain.name (domain.ypmId.getD 0) (cli.validatedUsers admins true),
    .putDomainMeta domain.name domain.description domain.org (domain.auditEnabled.getD false)
      domain.applicationId domain.businessService]

/-- A member that the admin role of the new domain has already. -/
def Settled (current : List (RoleMember T)) (member : RoleMember T) : Prop :=
  ∃ known ∈ current, known.memberName = member.memberName ∧
    known.expiration = member.expiration ∧ known.reviewReminder = member.reviewReminder

instance (current : List (RoleMember T)) (member : RoleMember T) :
    Decidable (Settled current member) :=
  inferInstanceAs (Decidable (∃ known ∈ current, _))

def Role.plain (role : Role T) : Role T where
  name := role.name
  roleMembers := role.roleMembers.map RoleMember.plain
  trust := role.trust

/-- The requests that re-create a role: the members of an admin role are added to those that it
has, and after them the administrators of the command. -/
def roleRequests (cli : Cli) (dn : Str) (current : List (RoleMember T))
    (validatedAdmins : List Str) (role : Role T) : List (Request T) :=
  if role.name = adminRole dn then
    ((role.roleMembers.filter fun member => ¬ Settled current member).map fun member =>
      .putMembership "admin".toList member.memberName member.expiration member.reviewReminder) ++
    (missingAdmins ((role.roleMembers ++ current).map RoleMember.memberName) validatedAdmins).map
      fun admin => .putMembership "admin".toList (cli.validatedUser admin) none none
  else [.putRole role.plain]

def policyRequests (dn : Str) (policy : Policy) : List (Request T) :=
  if policy.name = adminPolicy dn then []
  else [.putPolicy { name := policy.name, assertions := policy.assertions.map Assertion.plain }]

/-- The requests that re-create a domain. -/
def restoreRequests (cli : Cli) (domain : Domain T) (admins : List Str)
    (current : List (RoleMember T)) : List (Request T) :=
  domainRequests cli domain admins ++ domain.services.flatMap serviceRequests ++
    domain.roles.flatMap
      (roleRequests cli domain.name current (cli.validatedUsers admins true)) ++
    domain.policies.flatMap (policyRequests domain.name)

/-- The requests that an import issues when it comes to its end. -/
def sentRestore (cli : Cli) (domain : Domain T) (admins : List Str)
    (current : List (RoleMember T)) : List (Request T) :=
  domainRequests cli domain admins ++ domain.services.flatMap serviceRequests ++
    domain.roles.flatMap
      (sentRequests cli domain.name current (cli.validatedUsers admins true)) ++
    domain.policies.flatMap (sentPolicies domain.name)

def Named (member : RoleMember T) : Prop :=
  '.' ∈ member.memberName ∨ member.memberName = "*".toList

/-- An import comes to its end. -/
structure Completes (cli : Cli) (domain : Domain T) : Prop where
  product : cli.productIdSupport = true → '.' ∈ domain.name ∨ domain.ypmId.getD 0 ≠ 0
  keys : ∀ service ∈ domain.services, service.publicKeys = []
  roles : domain.roles ≠ []
  policies : domain.policies ≠ []
  admins : ∀ role ∈ domain.roles, role.name = adminRole domain.name → role.roleMembers ≠ []

/-- The domains that an import restores. -/
structure Restorable (cli : Cli) (domain : Domain T) (current : List (RoleMember T)) : Prop
    extends Completes cli domain where
  members : ∀ role ∈ domain.roles, role.name ≠ adminRole domain.name →
    ∀ member ∈ role.roleMembers, Named member
  adminMembers : ∀ role ∈ domain.roles, role.name = adminRole domain.name →
    ∀ member ∈ role.roleMembers, Settled current member ∨
      (member.memberName ∉ current.map RoleMember.memberName ∧ Named member ∧
        member.reviewReminder = none)
  assertions : ∀ policy ∈ domain.policies, policy.name ≠ adminPolicy domain.name →
    ∀ assertion ∈ policy.assertions, assertion.Own domain.name

end Specification

section Reading

variable {T : Type} {rdl : Rdl T} {cli : Cli} {domain : Domain T}

theorem showDomain_name (h : domain.name ≠ []) :
    entry (showDomain rdl domain) "name" = .text domain.name := by
  have hlookup : (showDomain rdl domain).lookup "name" = some (.text domain.name) := by
    simp only [showDomain, dumpDomain, List.lookup_append, lookup_dumpStringValue]
    simp [h]
  rw [entry, hlookup, Option.getD_some]

theorem showDomain_text {key : String} {value : Str}
    (h : (key, value) ∈ [("org", domain.org), ("application_id", domain.applicationId),
      ("business_service", domain.businessService), ("description", domain.description)]) :
    (showDomain rdl domain).lookup key = if value ≠ [] then some (.text value) else none := by
  simp only [List.mem_cons, Prod.mk.injEq, List.not_mem_nil, or_false] at h
  obtain ⟨rfl, rfl⟩ | ⟨rfl, rfl⟩ | ⟨rfl, rfl⟩ | ⟨rfl, rfl⟩ := h <;>
    simp only [showDomain, dumpDomain, List.lookup_append, lookup_dumpStringValue,
      lookup_dumpInt32Value, lookup_dumpBoolValue, lookup_single, lookup_dumpServices] <;>
    simp [lookup_dumpTags]

theorem showDomain_audit :
    (showDomain rdl domain).lookup "audit_enabled" = domain.auditEnabled.map .bool := by
  simp only [showDomain, dumpDomain, List.lookup_append, lookup_dumpStringValue,
    lookup_dumpInt32Value, lookup_dumpBoolValue, lookup_single, lookup_dumpServices]
  simp [lookup_dumpTags]

theorem showDomain_product :
    (showDomain rdl domain).lookup "product_id" =
      if domain.ypmId.getD 0 ≠ 0 then some (.int (domain.ypmId.getD 0)) else none := by
  simp only [showDomain, dumpDomain, List.lookup_append, lookup_dumpStringValue,
    lookup_dumpInt32Value, lookup_dumpBoolValue, lookup_single, lookup_dumpServices]
  simp [lookup_dumpTags]

theorem showDomain_services :
    (showDomain rdl domain).lookup "services" =
      if domain.services ≠ [] then
        some (.list (domain.services.map fun service => .map (dumpService rdl service)))
      else none := by
  simp only [showDomain, dumpDomain, List.lookup_append, lookup_dumpStringValue,
    lookup_dumpInt32Value, lookup_dumpBoolValue, lookup_single, lookup_dumpServices]
  simp [lookup_dumpTags]

theorem showDomain_roles :
    entry (showDomain rdl domain) "roles" =
      itemList (domain.roles.map fun role => .map (dumpRole rdl role)) := by
  rw [entry]
  simp only [showDomain, dumpDomain, List.lookup_append, lookup_dumpStringValue,
    lookup_dumpInt32Value, lookup_dumpBoolValue, lookup_single, lookup_dumpServices]
  simp [lookup_dumpTags]

theorem showDomain_policies :
    entry (showDomain rdl domain) "policies" =
      itemList (domain.policies.map fun policy => .map (dumpPolicy policy)) := by
  rw [entry]
  simp only [showDomain, dumpDomain, List.lookup_append, lookup_dumpStringValue,
    lookup_dumpInt32Value, lookup_dumpBoolValue, lookup_single, lookup_dumpServices]
  simp [lookup_dumpTags]

theorem importDescription_shown :
    importDescription (showDomain rdl domain) = domain.description := by
  have hlookup : (showDomain rdl domain).lookup "description" =
      if domain.description ≠ [] then some (.text domain.description) else none :=
    showDomain_text (by simp)
  unfold importDescription
  by_cases h : domain.description = []
  · simp [hlookup, h]
  · simp [hlookup, h]

theorem importAuditEnabled_shown :
    importAuditEnabled (showDomain rdl domain) = .ok (domain.auditEnabled.getD false) := by
  unfold importAuditEnabled
  rw [showDomain_audit]
  cases domain.auditEnabled <;> rfl

theorem asList_itemList {α : Type} {items : List α} {f : α → Node} (h : items ≠ []) :
    asList (itemList (items.map f)) = .ok (items.map f) := by
  cases items with
  | nil => exact absurd rfl h
  | cons item items => rfl

theorem productId_given (h : cli.productIdSupport = true →
    '.' ∈ domain.name ∨ domain.ypmId.getD 0 ≠ 0) :
    cli.productId domain.name (showDomain rdl domain) = .ok (domain.ypmId.getD 0) := by
  rw [Cli.productId, showDomain_product]
  by_cases hproduct : domain.ypmId.getD 0 = 0
  · have hsupport : ¬ (cli.productIdSupport = true ∧ '.' ∉ domain.name) := fun hboth =>
      (h hboth.1).elim hboth.2 (absurd hproduct)
    rw [if_neg (not_not.2 hproduct), hproduct]
    exact if_neg hsupport
  · rw [if_pos hproduct]
    rfl

theorem productId_missing (h : ¬ (cli.productIdSupport = true →
    '.' ∈ domain.name ∨ domain.ypmId.getD 0 ≠ 0)) :
    cli.productId domain.name (showDomain rdl domain) = .error missingProductId := by
  simp only [Classical.not_imp, not_or, not_not] at h
  rw [Cli.productId, showDomain_product, if_neg (not_not.2 h.2.2)]
  exact if_pos ⟨h.1, h.2.1⟩

end Reading

section Running

variable {T : Type} {rdl : Rdl T} {cli : Cli} {domain : Domain T}

/-- A request that creates no role, no policy and no membership. -/
def Request.Neutral (request : Request T) : Prop :=
  (∀ name, request.createsRole name = false) ∧ (∀ name, request.createsPolicy name = false) ∧
    request.adminMember = none

theorem domainRequests_neutral (admins : List Str) :
    ∀ request ∈ domainRequests cli domain admins, request.Neutral := by
  have hcreate : ∀ (dn : Str) (productId : Int) (users : List Str),
      (cli.createDomain dn productId users : Request T).Neutral := by
    intro dn productId users
    unfold Cli.createDomain
    split
    · exact ⟨fun _ => rfl, fun _ => rfl, rfl⟩
    · split_ifs <;> exact ⟨fun _ => rfl, fun _ => rfl, rfl⟩
  intro request hrequest
  rcases List.mem_cons.1 hrequest with rfl | hrequest
  · exact hcreate _ _ _
  · rw [List.mem_singleton.1 hrequest]
    exact ⟨fun _ => rfl, fun _ => rfl, rfl⟩

theorem serviceRequests_neutral (service : ServiceIdentity T) :
    ∀ request ∈ serviceRequests service, request.Neutral := by
  have hput (put : ServiceIdentity T) : (Request.putServiceIdentity put).Neutral :=
    ⟨fun _ => rfl, fun _ => rfl, rfl⟩
  have hmeta (name endpoint : Str) :
      (Request.putServiceIdentitySystemMeta name endpoint : Request T).Neutral :=
    ⟨fun _ => rfl, fun _ => rfl, rfl⟩
  have hnone : ∀ request ∈ ([] : List (Request T)), request.Neutral := fun _ h => nomatch h
  unfold serviceRequests
  refine List.forall_mem_append.2 ⟨List.forall_mem_append.2 ⟨List.forall_mem_append.2
    ⟨List.forall_mem_singleton.2 (hput _), ?_⟩, ?_⟩, ?_⟩
  · split_ifs
    · exact List.forall_mem_singleton.2 (hmeta _ _)
    · exact hnone
  · split_ifs
    · exact List.forall_mem_singleton.2 (hput _)
    · exact hnone
  · cases service.hosts with
    | some hosts => exact List.forall_mem_singleton.2 (hput _)
    | none => exact hnone

theorem neutral_any {requests : List (Request T)} (h : ∀ request ∈ requests, request.Neutral)
    (name : Str) : requests.any (Request.createsRole name) = false ∧
      requests.any (Request.createsPolicy name) = false ∧
      requests.filterMap Request.adminMember = [] := by
  refine ⟨List.any_eq_false.2 fun request hmem => ?_, List.any_eq_false.2 fun request hmem => ?_,
    List.filterMap_eq_nil_iff.2 fun request hmem => (h request hmem).2.2⟩
  · rw [(h request hmem).1 name]
    exact Bool.false_ne_true
  · rw [(h request hmem).2.1 name]
    exact Bool.false_ne_true

theorem sentRequests_policies {dn name : Str} {current : List (RoleMember T)}
    {validatedAdmins : List Str} {roles : List (Role T)} :
    (roles.flatMap (sentRequests cli dn current validatedAdmins)).any
      (Request.createsPolicy name) = false := by
  rw [List.any_eq_false]
  intro request hrequest
  obtain ⟨role, -, hrequest⟩ := List.mem_flatMap.1 hrequest
  unfold sentRequests at hrequest
  split_ifs at hrequest
  · rcases List.mem_append.1 hrequest with hsent | hsent <;>
      obtain ⟨_, -, rfl⟩ := List.mem_map.1 hsent <;> exact Bool.false_ne_true
  · rw [List.mem_singleton.1 hrequest]
    exact Bool.false_ne_true

/-- The server with a domain that has just been created. -/
def freshServer (current : List (RoleMember T)) : Server T := { adminMembers := current }

theorem importDomainOld_objects (hformed : domain.Formed) (admins : List Str)
    (server : Server T)
    (hproduct : cli.productIdSupport = true → '.' ∈ domain.name ∨ domain.ypmId.getD 0 ≠ 0) :
    cli.importDomainOld rdl domain.name (exportDomain rdl domain) admins server =
      cli.importObjectsOld rdl domain.name (showDomain rdl domain)
        (cli.validatedUsers admins true) (server.serve (domainRequests cli domain admins)) := by
  have hdomain : entry (exportDomain rdl domain) "domain" = .map (showDomain rdl domain) := rfl
  have horg : optionalString (showDomain rdl domain) "org" = .ok domain.org :=
    optionalString_dumped (showDomain_text (by simp))
  have happlication : optionalString (showDomain rdl domain) "application_id" =
      .ok domain.applicationId := optionalString_dumped (showDomain_text (by simp))
  have hbusiness : optionalString (showDomain rdl domain) "business_service" =
      .ok domain.businessService := optionalString_dumped (showDomain_text (by simp))
  simp only [Cli.importDomainOld, hdomain, asMap, bind, Except.bind,
    showDomain_name hformed.nonempty, asString, ne_eq, not_true_eq_false, if_false,
    productId_given hproduct, horg, importAuditEnabled_shown, happlication, hbusiness,
    importDescription_shown, Cli.addDomain, Server.serve_serve, List.singleton_append,
    domainRequests]

theorem importDomainOld_product (hformed : domain.Formed) (admins : List Str)
    (server : Server T)
    (hproduct : ¬ (cli.productIdSupport = true →
      '.' ∈ domain.name ∨ domain.ypmId.getD 0 ≠ 0)) :
    cli.importDomainOld rdl domain.name (exportDomain rdl domain) admins server =
      .error missingProductId := by
  have hdomain : entry (exportDomain rdl domain) "domain" = .map (showDomain rdl domain) := rfl
  simp only [Cli.importDomainOld, hdomain, asMap, bind, Except.bind,
    showDomain_name hformed.nonempty, asString, ne_eq, not_true_eq_false, if_false,
    productId_missing hproduct]

/-- The services of a file, which an import leaves out when there are none. -/
theorem importObjectsOld_services (validatedAdmins : List Str) (server : Server T) :
    cli.importObjectsOld rdl domain.name (showDomain rdl domain) validatedAdmins server =
      (do
        let server ← importServicesOld domain.name server
          (domain.services.map fun service => .map (dumpService rdl service))
        let lstRoles ← asList (itemList (domain.roles.map fun role => .map (dumpRole rdl role)))
        let server ← cli.importRolesOld rdl domain.name validatedAdmins server lstRoles
        let lstPolicies ← asList
          (itemList (domain.policies.map fun policy => .map (dumpPolicy policy)))
        importPoliciesOld domain.name server lstPolicies) := by
  unfold Cli.importObjectsOld
  rw [showDomain_roles, showDomain_policies, showDomain_services]
  by_cases hservices : domain.services = []
  · rw [if_neg (not_not.2 hservices), hservices]
    rfl
  · rw [if_pos hservices]

theorem freshServer_domain (admins : List Str) (current : List (RoleMember T)) (name : Str) :
    ((freshServer current).serve (domainRequests cli domain admins)).getServiceIdentity name =
      none := by
  have hcreate (dn : Str) (productId : Int) (users : List Str) :
      Request.onService name none (cli.createDomain dn productId users : Request T) = none := by
    unfold Cli.createDomain
    split
    · rfl
    · split_ifs <;> rfl
  rw [Server.getServiceIdentity_serve]
  simp only [freshServer, Server.getServiceIdentity, domainRequests, List.foldl_cons,
    List.foldl_nil, hcreate]
  rfl

theorem importDomainOld_completes (hlawful : rdl.Lawful) (hformed : domain.Formed)
    (hcompletes : Completes cli domain) (admins : List Str) (current : List (RoleMember T)) :
    cli.importDomainOld rdl domain.name (exportDomain rdl domain) admins
        (freshServer current) =
      .ok ((freshServer current).serve (sentRestore cli domain admins current)) := by
  have hbefore : ∀ request ∈ domainRequests cli domain admins ++
      domain.services.flatMap serviceRequests, request.Neutral := by
    refine List.forall_mem_append.2 ⟨domainRequests_neutral admins, fun request hrequest => ?_⟩
    obtain ⟨service, -, hmem⟩ := List.mem_flatMap.1 hrequest
    exact serviceRequests_neutral service request hmem
  have hneutral := neutral_any hbefore
  have hservices : importServicesOld domain.name
      ((freshServer current).serve (domainRequests cli domain admins))
      (domain.services.map fun service => .map (dumpService rdl service)) =
      .ok (((freshServer current).serve (domainRequests cli domain admins)).serve
        (domain.services.flatMap serviceRequests)) :=
    importServicesOld_plain hformed.services hcompletes.keys fun service _ =>
      freshServer_domain admins current service.name
  rw [Server.serve_serve] at hservices
  generalize hplaced : domainRequests cli domain admins ++
    domain.services.flatMap serviceRequests = placed at hneutral hservices
  have hroles : cli.importRolesOld rdl domain.name (cli.validatedUsers admins true)
      ((freshServer current).serve placed)
      (domain.roles.map fun role => .map (dumpRole rdl role)) =
      .ok (((freshServer current).serve placed).serve (domain.roles.flatMap
        (sentRequests cli domain.name current (cli.validatedUsers admins true)))) := by
    refine importRolesOld_sent hlawful hformed.name hformed.roles hcompletes.admins
      (fun role _ => (hneutral role.name).1) fun _ => ?_
    rw [Server.getAdmins_serve, (hneutral []).2.2, List.append_nil]
    exact List.append_nil current
  rw [Server.serve_serve] at hroles
  have hpolicies : importPoliciesOld domain.name
      ((freshServer current).serve (placed ++ domain.roles.flatMap
        (sentRequests cli domain.name current (cli.validatedUsers admins true))))
      (domain.policies.map fun policy => .map (dumpPolicy policy)) =
      .ok (((freshServer current).serve (placed ++ domain.roles.flatMap
        (sentRequests cli domain.name current (cli.validatedUsers admins true)))).serve
          (domain.policies.flatMap (sentPolicies domain.name))) := by
    refine importPoliciesOld_sent hformed.name hformed.policies fun policy _ => ?_
    rw [Server.serve, freshServer, List.nil_append, List.any_append, (hneutral policy.name).2.1,
      sentRequests_policies, Bool.or_self]
  rw [Server.serve_serve] at hpolicies
  rw [importDomainOld_objects hformed admins _ hcompletes.product, importObjectsOld_services]
  simp only [hservices, bind, Except.bind, asList_itemList hcompletes.roles, hroles,
    asList_itemList hcompletes.policies, hpolicies, sentRestore, hplaced]

theorem asList_itemList_ne {α : Type} {items : List α} {f : α → Node} {read : List Node}
    (h : asList (itemList (items.map f)) = .ok read) : items ≠ [] := by
  rintro rfl
  cases h

theorem completes_of_import (hformed : domain.Formed) {admins : List Str}
    {server after : Server T}
    (h : cli.importDomainOld rdl domain.name (exportDomain rdl domain) admins server =
      .ok after) : Completes cli domain := by
  have hproduct : cli.productIdSupport = true →
      '.' ∈ domain.name ∨ domain.ypmId.getD 0 ≠ 0 := by
    by_contra hmissing
    rw [importDomainOld_product hformed admins server hmissing] at h
    cases h
  rw [importDomainOld_objects hformed admins server hproduct, importObjectsOld_services] at h
  simp only [bind, Except.bind] at h
  split at h
  · cases h
  · rename_i placed hservices
    split at h
    · cases h
    · rename_i roles hroles
      have hrolesNe := asList_itemList_ne hroles
      rw [asList_itemList hrolesNe] at hroles
      cases hroles
      split at h
      · cases h
      · rename_i joined hjoined
        split at h
        · cases h
        · rename_i policies hpolicies
          exact ⟨hproduct, importServicesOld_keys hservices, hrolesNe,
            asList_itemList_ne hpolicies, importRolesOld_admins hformed.name hjoined⟩

end Running

section Comparing

theorem flatMap_inj {f g : α → List β} {l : List α}
    (hlength : ∀ x ∈ l, (f x).length = (g x).length) :
    l.flatMap f = l.flatMap g ↔ ∀ x ∈ l, f x = g x := by
  induction l with
  | nil => simp
  | cons x l ih =>
    obtain ⟨hfirst, hrest⟩ := List.forall_mem_cons.1 hlength
    rw [List.flatMap_cons, List.flatMap_cons, List.forall_mem_cons, ← ih hrest]
    constructor
    · exact fun h => List.append_inj h hfirst
    · rintro ⟨hx, hl⟩
      rw [hx, hl]

theorem length_flatMap_congr {f g : α → List β} {l : List α}
    (hlength : ∀ x ∈ l, (f x).length = (g x).length) :
    (l.flatMap f).length = (l.flatMap g).length := by
  rw [List.length_flatMap, List.length_flatMap, List.map_congr_left hlength]

/-- Two selections of a list, one within the other, are the same only element by element. -/
theorem map_filter_inj {f g : α → β} {p q : α → Bool} {l : List α}
    (hpq : ∀ x ∈ l, p x = true → q x = true) :
    (l.filter p).map f = (l.filter q).map g ↔
      ∀ x ∈ l, q x = false ∨ (p x = true ∧ f x = g x) := by
  induction l with
  | nil => simp
  | cons x l ih =>
    obtain ⟨hfirst, hrest⟩ := List.forall_mem_cons.1 hpq
    rw [List.forall_mem_cons, ← ih hrest]
    cases hq : q x with
    | false =>
      have hp : p x = false := by
        by_contra hp
        rw [hfirst (Bool.not_eq_false _ ▸ hp)] at hq
        cases hq
      simp [hp, hq]
    | true =>
      cases hp : p x with
      | true => simp [hp, hq]
      | false =>
        simp only [List.filter_cons, hp, hq, if_true, Bool.false_eq_true, if_false,
          List.map_cons, Bool.true_eq_false, false_and, or_self, iff_false]
        intro heq
        have hlength := congrArg List.length heq
        have hle : (l.filter p).length ≤ (l.filter q).length := by
          rw [← List.countP_eq_length_filter, ← List.countP_eq_length_filter]
          exact List.countP_mono_left hrest
        simp only [List.length_map, List.length_cons] at hlength
        omega

theorem validatedUser_iff (cli : Cli) {user : Str} :
    cli.validatedUser user = user ↔ '.' ∈ user ∨ user = "*".toList := by
  unfold Cli.validatedUser
  split_ifs with h
  · refine iff_of_false (fun heq => ?_) (not_or.2 h)
    have hlength := congrArg List.length heq
    simp at hlength
    omega
  · refine iff_of_true rfl ?_
    by_contra hnot
    exact h (not_or.1 hnot)

variable {T : Type} {cli : Cli} {dn : Str}

theorem sentRole_iff {role : Role T} :
    sentRole cli role = role.plain ↔ ∀ member ∈ role.roleMembers, Named member := by
  have hmembers : cli.validateRoleMembers (role.roleMembers.map RoleMember.plain) =
      role.roleMembers.map RoleMember.plain ↔ ∀ member ∈ role.roleMembers, Named member := by
    rw [Cli.validateRoleMembers, List.map_map, List.map_inj_left]
    refine forall₂_congr fun member _ => ?_
    rw [Named, ← validatedUser_iff cli]
    simp [RoleMember.plain]
  rw [← hmembers]
  constructor
  · exact fun h => congrArg Role.roleMembers h
  · intro h
    simp only [sentRole, Role.plain, h]

variable [DecidableEq T]

theorem sentAdmins_iff {current : List (RoleMember T)} {validatedAdmins : List Str}
    {role : Role T} (hadmin : role.name = adminRole dn) :
    sentAdmins cli current validatedAdmins role =
        roleRequests cli dn current validatedAdmins role ↔
      ∀ member ∈ role.roleMembers, Settled current member ∨
        (member.memberName ∉ current.map RoleMember.memberName ∧ Named member ∧
          member.reviewReminder = none) := by
  rw [sentAdmins, roleRequests, if_pos hadmin, List.append_left_inj, List.filter_map,
    List.map_map, map_filter_inj]
  · refine forall₂_congr fun member _ => or_congr (by simp) ?_
    rw [Function.comp_apply, Bool.not_eq_true', ← Bool.not_eq_true, containsMember_iff, Named,
      ← validatedUser_iff cli]
    simp [RoleMember.plain, eq_comm]
  · intro member _ hmissing
    rw [Function.comp_apply, Bool.not_eq_true', ← Bool.not_eq_true, containsMember_iff]
      at hmissing
    rw [decide_eq_true_iff]
    rintro ⟨known, hknown, hname, -, -⟩
    exact hmissing (List.mem_map.2 ⟨known, hknown, hname⟩)

omit [DecidableEq T] in
theorem sentPolicies_iff (hdn : ':' ∉ dn) {policy : Policy}
    (hformed : ∀ assertion ∈ policy.assertions, AssertionFormed assertion) :
    (sentPolicies dn policy : List (Request T)) = policyRequests dn policy ↔
      (policy.name ≠ adminPolicy dn → ∀ assertion ∈ policy.assertions, assertion.Own dn) := by
  by_cases hadmin : policy.name = adminPolicy dn
  · simp [sentPolicies, policyRequests, hadmin]
  · rw [sentPolicies, policyRequests, if_neg hadmin, if_neg hadmin]
    simp only [sentPolicy, List.cons.injEq, and_true, Request.putPolicy.injEq, Policy.mk.injEq,
      true_and, List.map_inj_left, ne_eq, hadmin, not_false_eq_true, forall_const]
    exact forall₂_congr fun assertion hmem => rereadAssertion_plain_iff hdn (hformed _ hmem)

def Request.isRole : Request T → Bool
  | .putRole _ => true
  | _ => false

omit [DecidableEq T] in
theorem sentRequests_filter {current : List (RoleMember T)} {validatedAdmins : List Str}
    {role : Role T} :
    (sentRequests cli dn current validatedAdmins role).filter Request.isRole =
      if role.name = adminRole dn then [] else [.putRole (sentRole cli role)] := by
  unfold sentRequests
  split_ifs
  · rw [List.filter_eq_nil_iff]
    intro request hrequest
    rcases List.mem_append.1 hrequest with hsent | hsent <;>
      obtain ⟨_, -, rfl⟩ := List.mem_map.1 hsent <;> exact Bool.false_ne_true
  · rfl

theorem roleRequests_filter {current : List (RoleMember T)} {validatedAdmins : List Str}
    {role : Role T} :
    (roleRequests cli dn current validatedAdmins role).filter Request.isRole =
      if role.name = adminRole dn then [] else [.putRole role.plain] := by
  unfold roleRequests
  split_ifs
  · rw [List.filter_eq_nil_iff]
    intro request hrequest
    rcases List.mem_append.1 hrequest with hsent | hsent <;>
      obtain ⟨_, -, rfl⟩ := List.mem_map.1 hsent <;> exact Bool.false_ne_true
  · rfl

/-- The requests for the roles are the right ones only role by role. -/
theorem sentRoles_iff {roles : List (Role T)} {current : List (RoleMember T)}
    {validatedAdmins : List Str} (hformed : RolesFormed dn roles) :
    roles.flatMap (sentRequests cli dn current validatedAdmins) =
        roles.flatMap (roleRequests cli dn current validatedAdmins) ↔
      ∀ role ∈ roles, sentRequests cli dn current validatedAdmins role =
        roleRequests cli dn current validatedAdmins role := by
  constructor
  · intro heq
    have hregular : ∀ role ∈ roles, role.name ≠ adminRole dn →
        sentRequests cli dn current validatedAdmins role =
          roleRequests cli dn current validatedAdmins role := by
      intro role hrole hname
      have hfilter := congrArg (List.filter Request.isRole) heq
      rw [List.filter_flatMap, List.filter_flatMap, flatMap_inj] at hfilter
      · have hone := hfilter role hrole
        rw [sentRequests_filter, roleRequests_filter, if_neg hname, if_neg hname] at hone
        rw [sentRequests, roleRequests, if_neg hname, if_neg hname, hone]
      · intro other _
        rw [sentRequests_filter, roleRequests_filter]
        split_ifs <;> rfl
    intro role hrole
    by_cases hname : role.name = adminRole dn
    · obtain ⟨before, after, rfl⟩ := List.append_of_mem hrole
      have hdistinct := hformed.distinct
      rw [List.map_append, List.map_cons, List.perm_middle.nodup_iff, List.nodup_cons] at hdistinct
      have hother : ∀ other ∈ before ++ after, other.name ≠ adminRole dn := by
        intro other hmem heq
        refine hdistinct.1 ?_
        rw [← List.map_append, hname, ← heq]
        exact List.mem_map_of_mem hmem
      have hsame : ∀ other ∈ before ++ after,
          sentRequests cli dn current validatedAdmins other =
            roleRequests cli dn current validatedAdmins other := fun other hmem =>
        hregular other (by
          rcases List.mem_append.1 hmem with h | h
          · exact List.mem_append_left _ h
          · exact List.mem_append_right _ (List.mem_cons_of_mem _ h)) (hother other hmem)
      obtain ⟨hbefore, hafter⟩ := List.forall_mem_append.1 hsame
      rw [List.flatMap_append, List.flatMap_append, List.flatMap_cons, List.flatMap_cons,
        List.flatMap_congr hbefore, List.flatMap_congr hafter, List.append_cancel_left_eq,
        List.append_cancel_right_eq] at heq
      exact heq
    · exact hregular role hrole hname
  · exact fun h => List.flatMap_congr h

theorem sentRequests_iff {current : List (RoleMember T)} {validatedAdmins : List Str}
    {role : Role T} :
    sentRequests cli dn current validatedAdmins role =
        roleRequests cli dn current validatedAdmins role ↔
      (role.name ≠ adminRole dn → ∀ member ∈ role.roleMembers, Named member) ∧
      (role.name = adminRole dn → ∀ member ∈ role.roleMembers, Settled current member ∨
        (member.memberName ∉ current.map RoleMember.memberName ∧ Named member ∧
          member.reviewReminder = none)) := by
  by_cases hadmin : role.name = adminRole dn
  · rw [sentRequests, if_pos hadmin, sentAdmins_iff hadmin]
    simp only [ne_eq, hadmin, not_true_eq_false, false_implies, forall_const, true_and]
  · rw [sentRequests, roleRequests, if_neg hadmin, if_neg hadmin]
    simp only [List.cons.injEq, and_true, Request.putRole.injEq, ne_eq, hadmin,
      not_false_eq_true, forall_const, false_implies, sentRole_iff]

theorem sentRestore_iff {domain : Domain T} {admins : List Str} {current : List (RoleMember T)}
    (hformed : domain.Formed) (hcompletes : Completes cli domain) :
    sentRestore cli domain admins current = restoreRequests cli domain admins current ↔
      Restorable cli domain current := by
  have hpolicies : ∀ policy ∈ domain.policies,
      (sentPolicies domain.name policy : List (Request T)).length =
        (policyRequests domain.name policy : List (Request T)).length := by
    intro policy _
    unfold sentPolicies policyRequests
    split_ifs <;> rfl
  have hsplit : sentRestore cli domain admins current =
        restoreRequests cli domain admins current ↔
      (∀ role ∈ domain.roles,
        sentRequests cli domain.name current (cli.validatedUsers admins true) role =
          roleRequests cli domain.name current (cli.validatedUsers admins true) role) ∧
      ∀ policy ∈ domain.policies, (sentPolicies domain.name policy : List (Request T)) =
        policyRequests domain.name policy := by
    rw [← sentRoles_iff hformed.roles, ← flatMap_inj hpolicies]
    constructor
    · intro heq
      obtain ⟨hroles, hrest⟩ := List.append_inj' heq (length_flatMap_congr hpolicies)
      exact ⟨List.append_cancel_left hroles, hrest⟩
    · rintro ⟨hroles, hrest⟩
      rw [sentRestore, restoreRequests, hroles, hrest]
  rw [hsplit]
  constructor
  · rintro ⟨hroles, hassertions⟩
    exact {
      toCompletes := hcompletes
      members := fun role hrole => (sentRequests_iff.1 (hroles role hrole)).1
      adminMembers := fun role hrole => (sentRequests_iff.1 (hroles role hrole)).2
      assertions := fun policy hpolicy =>
        (sentPolicies_iff hformed.name (hformed.policies.assertions policy hpolicy)).1
          (hassertions policy hpolicy) }
  · intro h
    exact ⟨fun role hrole => sentRequests_iff.2
        ⟨h.members role hrole, h.adminMembers role hrole⟩,
      fun policy hpolicy =>
        (sentPolicies_iff hformed.name (hformed.policies.assertions policy hpolicy)).2
          (h.assertions policy hpolicy)⟩

/-- Exactly when an import issues the requests that re-create the exported domain. -/
theorem import_restores_iff {rdl : Rdl T} {domain : Domain T} (hlawful : rdl.Lawful)
    (hformed : domain.Formed) (cli : Cli) (admins : List Str) (current : List (RoleMember T)) :
    cli.importDomainOld rdl domain.name (exportDomain rdl domain) admins
        (freshServer current) =
      .ok ((freshServer current).serve (restoreRequests cli domain admins current)) ↔
      Restorable cli domain current := by
  constructor
  · intro h
    have hcompletes := completes_of_import hformed h
    rw [importDomainOld_completes hlawful hformed hcompletes] at h
    have hrequests := congrArg Server.requests (Except.ok.inj h)
    exact (sentRestore_iff hformed hcompletes).1 (List.append_cancel_left hrequests)
  · intro h
    rw [importDomainOld_completes hlawful hformed h.toCompletes,
      (sentRestore_iff hformed h.toCompletes).2 h]

/-- Timestamps as the texts they are written in. -/
def texts : Rdl Str := ⟨id, id⟩

def unixCli : Cli where
  userDomain := "user".toList
  homeDomain := "home".toList
  identity := "user.joe".toList
  productIdSupport := false

def sportsAdmins : Role Str where
  name := adminRole "sports".toList
  roleMembers := [{ memberName := "user.joe".toList }]

def sportsReaders : Role Str where
  name := roleName "sports".toList "readers".toList
  roleMembers := [{ memberName := "user.jane".toList, expiration := some "2030-01-01".toList }]

def sportsPolicy : Policy where
  name := policyName "sports".toList "readers".toList
  assertions := [{
    role := roleName "sports".toList "readers".toList
    resource := "sports:files".toList
    action := "read".toList }]

def sportsDomain (publicKeys : List PublicKeyEntry) : Domain Str where
  name := "sports".toList
  roles := [sportsAdmins, sportsReaders]
  policies := [sportsPolicy]
  services := [{ name := "sports.api".toList, publicKeys }]

theorem sportsPolicy_formed : ∀ assertion ∈ sportsPolicy.assertions, AssertionFormed assertion :=
  List.forall_mem_singleton.2 {
    role := ⟨"sports".toList, "readers".toList, rfl, by decide, by decide, by decide⟩
    resource := ⟨"sports".toList, "files".toList, rfl, by decide, by decide, by decide⟩
    action := by decide }

theorem sportsDomain_formed (publicKeys : List PublicKeyEntry) :
    (sportsDomain publicKeys).Formed where
  nonempty := List.cons_ne_nil _ _
  name := (by decide : ':' ∉ "sports".toList)
  services := {
    named := List.forall_mem_singleton.2 ⟨"api".toList, rfl⟩
    distinct := List.nodup_cons.2 ⟨List.not_mem_nil, List.nodup_nil⟩ }
  roles := {
    named := List.forall_mem_cons.2
      ⟨⟨"admin".toList, rfl⟩, List.forall_mem_singleton.2 ⟨"readers".toList, rfl⟩⟩
    distinct := (by decide : ([sportsAdmins, sportsReaders].map Role.name).Nodup)
    exclusive := List.forall_mem_cons.2 ⟨.inr rfl, List.forall_mem_singleton.2 (.inr rfl)⟩ }
  policies := {
    named := List.forall_mem_singleton.2 ⟨"readers".toList, by decide, rfl⟩
    distinct := List.nodup_cons.2 ⟨List.not_mem_nil, List.nodup_nil⟩
    assertions := List.forall_mem_singleton.2 sportsPolicy_formed }

theorem sportsDomain_restorable :
    Restorable unixCli (sportsDomain []) sportsAdmins.roleMembers where
  product hsupport := by cases hsupport
  keys := List.forall_mem_singleton.2 rfl
  roles := List.cons_ne_nil _ _
  policies := List.cons_ne_nil _ _
  admins := List.forall_mem_cons.2 ⟨fun _ => List.cons_ne_nil _ _,
    List.forall_mem_singleton.2 fun _ => List.cons_ne_nil _ _⟩
  members := List.forall_mem_cons.2 ⟨fun hname => absurd rfl hname,
    List.forall_mem_singleton.2 fun _ => List.forall_mem_singleton.2
      (.inl (by decide : '.' ∈ "user.jane".toList))⟩
  adminMembers := List.forall_mem_cons.2
    ⟨fun _ => List.forall_mem_singleton.2 (.inl ⟨_, List.mem_cons_self, rfl, rfl, rfl⟩),
      List.forall_mem_singleton.2 fun hname => absurd hname (by decide)⟩
  assertions := List.forall_mem_singleton.2 fun _ => List.forall_mem_singleton.2 {
    role := ⟨"readers".toList, rfl⟩
    resource := fun text htext => by
      have hsame : "sports:".toList ++ text = "sports:".toList ++ "files".toList := htext.symm
      rw [List.append_cancel_left hsame]
      decide }

theorem sports_restored :
    unixCli.importDomainOld texts "sports".toList (exportDomain texts (sportsDomain [])) []
        (freshServer sportsAdmins.roleMembers) =
      .ok ((freshServer sportsAdmins.roleMembers).serve
        (restoreRequests unixCli (sportsDomain []) [] sportsAdmins.roleMembers)) :=
  (import_restores_iff (fun _ => rfl) (sportsDomain_formed []) unixCli []
    sportsAdmins.roleMembers).2 sportsDomain_restorable

/-- An exported public key ends an import in a panic. -/
theorem keys_not_restored :
    (sportsDomain [⟨"key".toList, "0".toList⟩]).Formed ∧
      unixCli.importDomainOld texts "sports".toList
        (exportDomain texts (sportsDomain [⟨"key".toList, "0".toList⟩])) []
        (freshServer sportsAdmins.roleMembers) = .error .panicked :=
  ⟨sportsDomain_formed _, rfl⟩

end Comparing

end Athenz.Zmscli
