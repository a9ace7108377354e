import Athenz.StoreSpec
import Athenz.DbServiceOperations

namespace Athenz.ZmsServer
open Lib Lib.Text Lib.Transaction Tx
set_option autoImplicit true

section Statements

theorem onDomain_writing (domainName : Str) (f : DomainRow → Except Failure (α × DomainRow)) :
    Writing (onDomain domainName f) := .statement _

theorem readDomain_reading (domainName : Str) (f : DomainRow → Except Failure α) :
    Reading (readDomain domainName f) := by
  refine .statement fun time s a s' h => ?_
  split at h
  · cases h
  · rename_i row _
    cases hf : f row with
    | error e =>
      rw [hf] at h
      cases h
    | ok b =>
      rw [hf] at h
      cases h
      rfl

theorem readDomain_writing (domainName : Str) (f : DomainRow → Except Failure α) :
    Writing (readDomain domainName f) := .statement _

theorem objectName_writing (domainName fullName separator : Str) :
    Writing (objectName domainName fullName separator) := by
  unfold objectName
  split
  · exact .abort _
  · exact .pure _

theorem Table.on_writing (table : Table S) (domainName name : Str)
    (f : Collection S → Except Failure (α × Collection S)) : Writing (table.on domainName name f) :=
  onDomain_writing _ _

theorem insertRole_writing (domainName : Str) (role : Role) : Writing (insertRole domainName role) :=
  (objectName_writing _ _ _).bind fun _ => onDomain_writing _ _

theorem updateRole_writing (domainName : Str) (role : Role) : Writing (updateRole domainName role) :=
  (objectName_writing _ _ _).bind fun _ => Table.on_writing _ _ _ _

theorem insertGroup_writing (domainName : Str) (group : Group) :
    Writing (insertGroup domainName group) :=
  (objectName_writing _ _ _).bind fun _ => onDomain_writing _ _

theorem updateGroup_writing (domainName : Str) (group : Group) :
    Writing (updateGroup domainName group) :=
  (objectName_writing _ _ _).bind fun _ => Table.on_writing _ _ _ _

theorem Table.insertMember_writing (table : Table S) (domainName name : Str) (member : Member)
    (admin : Option Str) : Writing (table.insertMember domainName name member admin) := by
  have hput : Writing (table.putMember domainName name member admin) :=
    (Writing.query _).bind fun _ => .ite (.abort _) (table.on_writing _ _ _)
  refine hput.bind fun action => ?_
  cases action with
  | none => exact .pure true
  | some action => exact table.on_writing _ _ _

theorem Table.deleteMember_writing (table : Table S) (domainName name memberName : Str)
    (admin : Option Str) : Writing (table.deleteMember domainName name memberName admin) :=
  (table.on_writing _ _ _).bind fun _ => .ite (.pure false) (table.on_writing _ _ _)

theorem insertServiceIdentity_writing (domainName : Str) (service : ServiceIdentity) :
    Writing (insertServiceIdentity domainName service) :=
  (objectName_writing _ _ _).bind fun _ => onDomain_writing _ _

theorem updateServiceIdentity_writing (domainName : Str) (service : ServiceIdentity) :
    Writing (updateServiceIdentity domainName service) :=
  (objectName_writing _ _ _).bind fun _ => onDomain_writing _ _

end Statements

section Checks

theorem auditReferenceCheck_reading (config : Config) (ctx : Context) (objectName : Str) :
    Reading (auditReferenceCheck config ctx objectName) :=
  (Reading.ensure _ _).bind fun _ => .ensure _ _

theorem checkDomainAuditEnabled_reading (config : Config) (ctx : Context) (domainName : Str)
    (objectType : AuditType) : Reading (checkDomainAuditEnabled config ctx domainName objectType) := by
  refine .ite ((Reading.query _).bind fun domain => ?_) (.pure ())
  cases domain with
  | none => exact .abort _
  | some domain => exact .ite (auditReferenceCheck_reading _ _ _) (.pure ())

theorem checkObjectAuditEnabled_reading (config : Config) (ctx : Context)
    (auditEnabled : Option Bool) (objectName : Str) :
    Reading (checkObjectAuditEnabled config ctx auditEnabled objectName) :=
  .ite (auditReferenceCheck_reading _ _ _) (.pure ())

theorem checkQuota_reading (what : Str) (limit actual : Nat) : Reading (checkQuota what limit actual) :=
  .permit _ _

theorem getDomainQuota_reading (config : Config) (domainName : Str) :
    Reading (getDomainQuota config domainName) :=
  (readDomain_reading _ _).bind fun _ => .pure _

theorem checkSubdomainQuota_reading (config : Config) (domainName : Str) :
    Reading (checkSubdomainQuota config domainName) := by
  refine .ite ?_ (.pure ())
  split
  · exact .pure ()
  · exact (getDomainQuota_reading _ _).bind fun _ =>
      (Reading.query _).bind fun _ => checkQuota_reading _ _ _

theorem checkRoleQuota_reading (config : Config) (domainName : Str) (role : Role) :
    Reading (checkRoleQuota config domainName role) :=
  .ite ((getDomainQuota_reading _ _).bind fun _ => (checkQuota_reading _ _ _).bind fun _ =>
    (readDomain_reading _ _).bind fun _ => checkQuota_reading _ _ _) (.pure ())

theorem checkGroupQuota_reading (config : Config) (domainName : Str) (group : Group) :
    Reading (checkGroupQuota config domainName group) :=
  .ite ((getDomainQuota_reading _ _).bind fun _ => (checkQuota_reading _ _ _).bind fun _ =>
    (readDomain_reading _ _).bind fun _ => checkQuota_reading _ _ _) (.pure ())

theorem checkPolicyQuota_reading (config : Config) (domainName : Str) (policy : Policy) :
    Reading (checkPolicyQuota config domainName policy) :=
  .ite ((getDomainQuota_reading _ _).bind fun _ => (checkQuota_reading _ _ _).bind fun _ =>
    (readDomain_reading _ _).bind fun _ => checkQuota_reading _ _ _) (.pure ())

theorem checkServiceIdentityQuota_reading (config : Config) (domainName : Str)
    (service : ServiceIdentity) : Reading (checkServiceIdentityQuota config domainName service) :=
  .ite ((getDomainQuota_reading _ _).bind fun _ => (checkQuota_reading _ _ _).bind fun _ =>
    (checkQuota_reading _ _ _).bind fun _ => (readDomain_reading _ _).bind fun _ =>
    checkQuota_reading _ _ _) (.pure ())

theorem checkRoleMembershipQuota_reading (config : Config) (domainName roleName : Str) :
    Reading (checkRoleMembershipQuota config domainName roleName) :=
  .ite ((getDomainQuota_reading _ _).bind fun _ => (readDomain_reading _ _).bind fun _ =>
    checkQuota_reading _ _ _) (.pure ())

theorem checkGroupMembershipQuota_reading (config : Config) (domainName groupName : Str) :
    Reading (checkGroupMembershipQuota config domainName groupName) :=
  .ite ((getDomainQuota_reading _ _).bind fun _ => (readDomain_reading _ _).bind fun _ =>
    checkQuota_reading _ _ _) (.pure ())

end Checks

section Services

theorem processServiceIdentity_writing (original : Option ServiceIdentity)
    (domainName serviceName : Str) (service : ServiceIdentity) (ignoreDeletes : Bool) :
    Writing (processServiceIdentity original domainName serviceName service ignoreDeletes) := by
  have hkeys : ∀ keys, Writing (Tx.forAll (insertPublicKeyEntry domainName serviceName) keys) :=
    fun _ => .forAll fun _ _ => onDomain_writing _ _
  refine Writing.both ?_ ((Writing.forAll fun _ _ => onDomain_writing _ _).both
    (.forAll fun _ _ => onDomain_writing _ _))
  cases original with
  | none => exact (insertServiceIdentity_writing _ _).both (hkeys _)
  | some original =>
    exact (updateServiceIdentity_writing _ _).both
      ((Writing.ite (.pure true) (.forAll fun _ _ => onDomain_writing _ _)).both (hkeys _))

theorem putServiceIdentityBody_whole (config : Config) (ctx : Context)
    (domainName serviceName : Str) (service : ServiceIdentity) :
    Whole (putServiceIdentityBody config ctx domainName serviceName service) :=
  (checkDomainAuditEnabled_reading _ _ _ _).whole_bind fun _ =>
    (checkServiceIdentityQuota_reading _ _ _).whole_bind fun _ =>
    (Reading.query _).whole_bind fun _ =>
    ((processServiceIdentity_writing _ _ _ _ _).bind fun _ => .ensure _ _).whole

end Services

section Parts

theorem processTags_writing {insert : Tags → Op Bool} {delete : List Column → Op Bool}
    (hinsert : ∀ tags, Writing (insert tags)) (hdelete : ∀ keys, Writing (delete keys))
    (tags : Option Tags) (original : Option (Option Tags)) :
    Writing (processTags insert delete tags original) := by
  cases tags with
  | none => exact .pure true
  | some tags =>
    refine .ite (.pure true) ?_
    cases original with
    | none => exact hinsert _
    | some original =>
      exact .ite (.ite (.pure true) (hinsert _)) ((hdelete _).both (hinsert _))

theorem touchDomain_writing (domainName : Str) (changed : Bool) :
    Writing (touchDomain domainName changed) :=
  .ite ((Writing.statement _).bind fun _ => .pure true) (.pure true)

theorem mem_of_mem_policyAssertionChanges {newAssertions curAssertions : List Assertion}
    (h : assertion ∈ (policyAssertionChanges newAssertions curAssertions).2) :
    assertion ∈ curAssertions := by
  induction newAssertions generalizing curAssertions with
  | nil => exact h
  | cons new newAssertions ih => exact List.mem_of_mem_eraseP (ih h)

/-- A stored policy: its assertions have identifiers. -/
def Policy.Stored (policy : Policy) : Prop :=
  ∀ assertion ∈ policy.assertions.getD [], assertion.id ≠ none

theorem savePolicy_stored (domainName : Str) (row : PolicyRow) :
    (savePolicy domainName row).Stored := by
  intro assertion h
  obtain ⟨a, _, rfl⟩ := List.mem_map.1 h
  exact Option.some_ne_none a.id

theorem Table.processUpdateMembers_writing [CaseRules] (table : Table S)
    (originalMembers members : Option (List Member)) (ignoreDeletes : Bool)
    (domainName name : Str) (admin : Option Str) :
    Writing (table.processUpdateMembers originalMembers members ignoreDeletes domainName name
      admin) :=
  (Writing.ite (.pure true) (.forAll fun _ _ => table.deleteMember_writing _ _ _ _)).both
    (.forAll fun _ _ => table.insertMember_writing _ _ _ _)

theorem listTemplate_writing {template : Template} (h : template.metadata ≠ none)
    (domainName templateName : Str) : Writing (listTemplate domainName templateName template) := by
  have hlisted : Writing (ensureListed domainName templateName) :=
    (readDomain_writing _ _).bind fun _ => .ite (.pure ()) (onDomain_writing _ _)
  refine hlisted.bind fun _ => ?_
  cases hmetadata : template.metadata with
  | none => exact absurd hmetadata h
  | some metadata =>
    cases hversion : metadata.latestVersion with
    | none =>
      simp only [hversion]
      exact .pure true
    | some version =>
      simp only [hversion]
      exact (onDomain_writing _ _).bind fun _ => .pure true

end Parts

variable [Collation]

section Policies

theorem insertPolicyRow_writing (domainName policyName version : Str) (active : Bool) :
    Writing (insertPolicyRow domainName policyName version active) := onDomain_writing _ _

/-- A policy that is inserted with a version says whether it is active. -/
def Policy.Insertable (policy : Policy) : Prop :=
  isEmptyVersion policy.version = true ∨ policy.active ≠ none

theorem insertPolicy_writing {policy : Policy} (h : policy.Insertable) (domainName : Str) :
    Writing (insertPolicy domainName policy) := by
  refine (objectName_writing _ _ _).bind fun policyName => ?_
  split
  · exact insertPolicyRow_writing _ _ _ _
  · rename_i hversion
    cases hactive : policy.active with
    | none => exact absurd hactive (h.resolve_left hversion)
    | some active => exact insertPolicyRow_writing _ _ _ _

theorem updatePolicy_writing (domainName : Str) (policy : Policy) :
    Writing (updatePolicy domainName policy) :=
  (objectName_writing _ _ _).bind fun _ => onDomain_writing _ _

theorem insertAssertion_writing (domainName policyName : Str) (version : Option Str)
    (assertion : Assertion) : Writing (insertAssertion domainName policyName version assertion) :=
  (objectName_writing _ _ _).bind fun _ => .statement _

theorem insertAssertions_writing (domainName policyName : Str) (version : Option Str)
    (assertions : List Assertion) :
    Writing (insertAssertions domainName policyName version assertions) :=
  .forAll fun _ _ => (insertAssertion_writing _ _ _ _).bind fun _ => .pure true

theorem deleteAssertions_writing {assertions : List Assertion}
    (h : ∀ assertion ∈ assertions, assertion.id ≠ none) (domainName policyName : Str)
    (version : Option Str) : Writing (deleteAssertions domainName policyName version assertions) := by
  refine .forAll fun assertion hmem => ?_
  cases hid : assertion.id with
  | none => exact absurd hid (h assertion hmem)
  | some id => exact onDomain_writing _ _

theorem processPolicy_writing {original : Option Policy} {policy : Policy}
    (hinsert : original = none → policy.Insertable) (hstored : ∀ p ∈ original, p.Stored)
    (domainName policyName : Str) (ignoreDeletes : Bool) :
    Writing (processPolicy original domainName policyName policy ignoreDeletes) := by
  cases original with
  | none =>
    exact (insertPolicy_writing (hinsert rfl) _).both (insertAssertions_writing _ _ _ _)
  | some original =>
    refine (updatePolicy_writing _ _).both (.both (.ite (.pure true) ?_)
      (insertAssertions_writing _ _ _ _))
    exact deleteAssertions_writing
      (fun a ha => hstored original rfl a (mem_of_mem_policyAssertionChanges ha)) _ _ _

theorem addTemplatePolicy_writing (domainName : Str) (params : Option (List TemplateParam))
    (policy : Policy) : Writing (addTemplatePolicy domainName params policy) := by
  refine Writing.query_bind fun db => processPolicy_writing (fun _ => .inl rfl) ?_ _ _ _
  intro original horiginal
  obtain ⟨row, _, rfl⟩ := Option.map_eq_some_iff.1 horiginal
  exact savePolicy_stored _ _

theorem getPolicy_bind_whole {f : Option Policy → Op α} (domainName policyName : Str)
    (version : Option Str) (h : ∀ original : Option Policy, (∀ p ∈ original, p.Stored) →
      Whole (f original)) : Whole (getPolicy domainName policyName version >>= f) := by
  refine Whole.query_bind fun db => h _ ?_
  intro original horiginal
  obtain ⟨row, _, rfl⟩ := Option.map_eq_some_iff.1 horiginal
  exact savePolicy_stored _ _

/-- A version that is not stored yet is only let through with its flag. -/
theorem checkPolicyVersion_bind_whole {policy : Policy} {original : Option Policy}
    {f : Unit → Op α} (domainName policyName : Str)
    (h : (original = none → policy.Insertable) → Whole (f ())) :
    Whole (checkPolicyVersion domainName policyName policy original >>= f) := by
  have hreading : Reading (checkPolicyVersion domainName policyName policy original) := by
    refine .ite ((Reading.query _).bind fun active => ?_) (.pure ())
    split
    · exact .raise _
    · exact (Reading.ensure _ _).bind fun _ => .ensure _ _
  refine hreading.whole_bind_of fun c a c' hrun => h fun horiginal => ?_
  by_contra hinsert
  obtain ⟨hversion, hactive⟩ := not_or.1 hinsert
  rw [not_not] at hactive
  rw [checkPolicyVersion, hactive, horiginal, if_pos (by simpa using hversion)] at hrun
  obtain ⟨_, _, _, hraise⟩ := bind_eq_ok.1 hrun
  cases hraise

theorem insertConditionsFrom_writing (assertionId : Nat) (result : Bool)
    (conditions : List AssertionCondition) :
    Writing (insertConditionsFrom assertionId result conditions) := by
  induction conditions generalizing result with
  | nil => exact .pure result
  | cons condition conditions ih =>
    have hnext : Writing (insertNextCondition assertionId result condition) :=
      (Writing.query _).bind fun _ => .ite (.statement _) (.pure false)
    exact hnext.bind ih

theorem copyAssertion_writing (domainName policyName : Str) (version : Version)
    (assertion : Assertion) : Writing (copyAssertion domainName policyName version assertion) := by
  unfold copyAssertion
  split
  · exact (insertAssertion_writing _ _ _ _).bind fun _ => .pure true
  · exact (Writing.query _).bind fun _ => (insertAssertion_writing _ _ _ _).bind fun _ =>
      .ite (.pure true) (insertConditionsFrom_writing _ _ _)

theorem putPolicyBody_whole (config : Config) (ctx : Context) (domainName policyName : Str)
    (policy : Policy) : Whole (putPolicyBody config ctx domainName policyName policy) :=
  (checkDomainAuditEnabled_reading _ _ _ _).whole_bind fun _ =>
    (checkPolicyQuota_reading _ _ _).whole_bind fun _ =>
    getPolicy_bind_whole _ _ _ fun _ hstored => checkPolicyVersion_bind_whole _ _ fun hinsert =>
    ((processPolicy_writing hinsert hstored _ _ _).bind fun _ => .ensure _ _).whole

theorem putPolicyVersionBody_whole (config : Config) (ctx : Context)
    (domainName policyName : Str) (version : Version) (fromVersion : Option Str) :
    Whole (putPolicyVersionBody config ctx domainName policyName version fromVersion) := by
  refine (checkDomainAuditEnabled_reading _ _ _ _).whole_bind fun _ =>
    (readDomain_reading _ _).whole_bind fun _ => (Reading.ensure _ _).whole_bind fun _ =>
    (Reading.query _).whole_bind fun original => ?_
  cases original with
  | none => exact (Reading.abort _).whole
  | some original =>
    exact (checkPolicyQuota_reading _ _ _).whole_bind fun _ =>
      (((insertPolicy_writing (.inr (Option.some_ne_none false)) _).both
        (.forAll fun _ _ => copyAssertion_writing _ _ _ _)).bind fun _ => .ensure _ _).whole

end Policies

section Tags

theorem processDomainTags_writing (config : Config) (domainTags originalTags : Option Tags)
    (domainName : Str) (updateDomainLastModTimestamp : Bool) :
    Writing (processDomainTags config domainTags originalTags domainName
      updateDomainLastModTimestamp) := by
  have hinsert : ∀ tags, Writing (insertDomainTags config.domainTagsLimit domainName tags) :=
    fun _ => onDomain_writing _ _
  refine .ite (.ite (.pure true) ((hinsert _).both (touchDomain_writing _ _))) ?_
  cases domainTags with
  | none => exact .pure true
  | some tags =>
    exact (Writing.ite (.pure true) (onDomain_writing _ _)).both
      ((Writing.ite (.pure true) (hinsert _)).both (touchDomain_writing _ _))

end Tags

variable [CaseRules]

section Objects

theorem processRole_writing (config : Config) (original : Option Role) (domainName roleName : Str)
    (role : Role) (admin : Option Str) (ignoreDeletes : Bool) :
    Writing (processRole config original domainName roleName role admin ignoreDeletes) := by
  have htags : Writing (processRoleTags config role roleName domainName original) :=
    processTags_writing (fun _ => roleTable.on_writing _ _ _) (fun _ => roleTable.on_writing _ _ _)
      _ _
  cases original with
  | none =>
    exact (insertRole_writing _ _).both
      ((Writing.forAll fun _ _ => roleTable.insertMember_writing _ _ _ _).both htags)
  | some original =>
    exact (updateRole_writing _ _).both
      ((roleTable.processUpdateMembers_writing _ _ _ _ _ _).both htags)

theorem processGroup_writing (config : Config) (original : Option Group)
    (domainName groupName : Str) (group : Group) (admin : Option Str) :
    Writing (processGroup config original domainName groupName group admin) := by
  have htags : Writing (processGroupTags config group groupName domainName original) :=
    processTags_writing (fun _ => groupTable.on_writing _ _ _)
      (fun _ => groupTable.on_writing _ _ _) _ _
  cases original with
  | none =>
    exact (insertGroup_writing _ _).both
      ((Writing.forAll fun _ _ => groupTable.insertMember_writing _ _ _ _).both htags)
  | some original =>
    exact (updateGroup_writing _ _).both
      ((groupTable.processUpdateMembers_writing _ _ _ _ _ _).both htags)

end Objects

section Templates

theorem addSolutionTemplate_writing {config : Config} {templateName : Str}
    (h : ∀ template, config.templates.lookup templateName = some template →
      template.metadata ≠ none)
    (domainName : Str) (admin : Option Str) (params : Option (List TemplateParam)) :
    Writing (addSolutionTemplate config domainName templateName admin params) := by
  unfold addSolutionTemplate
  split
  · exact .pure true
  · rename_i template htemplate
    refine (Writing.forAll fun role _ => ?_).both ((Writing.forAll fun policy _ => ?_).both
      ((Writing.forAll fun service _ => ?_).both
        (listTemplate_writing (h template htemplate) _ _)))
    · exact (Writing.query _).bind fun _ => processRole_writing _ _ _ _ _ _ _
    · exact addTemplatePolicy_writing _ _ _
    · exact (Writing.query _).bind fun _ => processServiceIdentity_writing _ _ _ _ _

end Templates

section Bodies

theorem putRoleBody_whole (config : Config) (ctx : Context) (domainName roleName : Str)
    (role : Role) : Whole (putRoleBody config ctx domainName roleName role) :=
  (checkDomainAuditEnabled_reading _ _ _ _).whole_bind fun _ =>
    (checkRoleQuota_reading _ _ _).whole_bind fun _ =>
    (Reading.query _).whole_bind fun _ => (Reading.permit _ _).whole_bind fun _ =>
    ((processRole_writing _ _ _ _ _ _ _).bind fun _ => .ensure _ _).whole

theorem putGroupBody_whole (config : Config) (ctx : Context) (domainName groupName : Str)
    (group : Group) : Whole (putGroupBody config ctx domainName groupName group) :=
  (checkDomainAuditEnabled_reading _ _ _ _).whole_bind fun _ =>
    (checkGroupQuota_reading _ _ _).whole_bind fun _ =>
    (Reading.query _).whole_bind fun _ => (Reading.permit _ _).whole_bind fun _ =>
    ((processGroup_writing _ _ _ _ _ _).bind fun _ => .ensure _ _).whole

theorem makeDomainBody_whole {config : Config} {solutionTemplates : Option (List Str)}
    (h : ∀ name ∈ solutionTemplates.getD [], ∀ template,
      config.templates.lookup name = some template → template.metadata ≠ none)
    (ctx : Context) (domain : Domain) (adminUsers : List Str) :
    Whole (makeDomainBody config ctx domain adminUsers solutionTemplates) := by
  refine (checkSubdomainQuota_reading _ _).whole_bind fun _ => Writing.whole ?_
  exact (Writing.statement _).bind fun _ => (processDomainTags_writing _ _ _ _ _).bind fun _ =>
    (Writing.ensure _ _).bind fun _ => (processRole_writing _ _ _ _ _ _ _).bind fun _ =>
    (Writing.ensure _ _).bind fun _ =>
    (processPolicy_writing (fun _ => .inl rfl) (fun p h => absurd h (Option.not_mem_none p)) _ _
      _).bind fun _ =>
    (Writing.ensure _ _).bind fun _ =>
    (Writing.forAll fun name hname => addSolutionTemplate_writing (h name hname) _ _ _).bind fun _ =>
    .ensure _ _

end Bodies

end Athenz.ZmsServer
