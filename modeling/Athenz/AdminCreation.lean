import Athenz.AdminMembers

namespace Athenz.ZmsServer
open Lib Lib.Text Lib.Transaction Lib.Transaction.Tx
set_option autoImplicit true

section Views

/-- A view that shows the roles and policies of a domain at most. -/
def RowHidden (domainName : Str) (view : Database → β) : Prop :=
  ∀ db row row', db.domains.lookup domainName = some row → row'.roles = row.roles →
    row'.policies = row.policies →
    view { db with domains := db.domains.insert domainName row' } = view db

variable {view : Database → β}

theorem onDomain_hidden (hview : RowHidden domainName view)
    {f : DomainRow → Except Failure (α × DomainRow)}
    (h : ∀ row a row', f row = .ok (a, row') → row'.roles = row.roles ∧ row'.policies = row.policies) :
    Leaves view (onDomain domainName f) := by
  refine onDomain_leaves fun db row a row' hrow hf => ?_
  obtain ⟨hroles, hpolicies⟩ := h row a row' hf
  exact hview db row row' hrow hroles hpolicies

/-- A first step that is refused. -/
theorem both_refused {p q : Op Bool} (hp : Returns p fun _ _ _ => False) : Leaves view (both p q) := by
  intro c a c' h
  obtain ⟨done, d, hrun, _⟩ := bind_eq_ok.1 h
  exact (hp c done d hrun).elim

end Views

section Services

variable {view : Database → β}

theorem onService_hidden (hview : RowHidden domainName view) (serviceName : Str)
    (f : ServiceRow → Except Failure (α × ServiceRow)) :
    Leaves view (onService domainName serviceName f) := by
  refine onDomain_hidden hview fun row a row' h => ?_
  split at h
  · cases h
  · obtain ⟨⟨_, service⟩, _, h⟩ := Result.bind_eq_ok.1 h
    cases h
    exact ⟨rfl, rfl⟩

theorem insertServiceIdentity_hidden (hview : RowHidden domainName view)
    (service : ServiceIdentity) : Leaves view (insertServiceIdentity domainName service) := by
  refine objectName_leaves _ _ _ fun serviceName _ => onDomain_hidden hview fun row a row' h => ?_
  split at h
  · cases h
  · cases h
    exact ⟨rfl, rfl⟩

theorem processServiceIdentity_hidden (hview : RowHidden domainName view)
    (originalService : Option ServiceIdentity) (serviceName : Str) (service : ServiceIdentity)
    (ignoreDeletes : Bool) :
    Leaves view (processServiceIdentity originalService domainName serviceName service
      ignoreDeletes) := by
  have hinsert : ∀ keys, Leaves view
      (Tx.forAll (insertPublicKeyEntry domainName serviceName) keys) :=
    fun keys => .forAll fun _ _ => onService_hidden hview _ _
  refine Leaves.both ?_ ((Leaves.forAll fun _ _ => onService_hidden hview _ _).both
    (.forAll fun _ _ => onService_hidden hview _ _))
  cases originalService with
  | none => exact (insertServiceIdentity_hidden hview _).both (hinsert _)
  | some original =>
    refine Leaves.both ?_ (Leaves.both ?_ (hinsert _))
    · exact objectName_leaves _ _ _ fun _ _ => onService_hidden hview _ _
    · exact .ite (.pure true) (.forAll fun _ _ => onService_hidden hview _ _)

theorem listTemplate_hidden (hview : RowHidden domainName view) (templateName : Str)
    (template : Template) : Leaves view (listTemplate domainName templateName template) := by
  have hlisted : Leaves view (ensureListed domainName templateName) := by
    refine Leaves.bind (.of_keeps (readDomain_reading _ _).keeps) fun _ => .ite (.pure ()) ?_
    refine onDomain_hidden hview fun row a row' h => ?_
    split at h
    · cases h
    · cases h
      exact ⟨rfl, rfl⟩
  refine hlisted.bind fun _ => ?_
  cases template.metadata with
  | none => exact .raise _
  | some metadata =>
    dsimp only
    cases metadata.latestVersion with
    | none => exact .pure true
    | some version =>
      refine Leaves.bind (onDomain_hidden hview fun row a row' h => ?_) fun _ => .pure true
      split at h
      · cases h
        exact ⟨rfl, rfl⟩
      · cases h
        exact ⟨rfl, rfl⟩

end Services

section Templates

variable [Collation] {view : Database → β}

theorem addTemplatePolicy_leaves {policy : Policy} {params : Option (List TemplateParam)}
    (hview : ∀ policyName, substitute domainName params policy.name =
      policyResourceName domainName policyName → PolicyHidden domainName policyName view) :
    Leaves view (addTemplatePolicy domainName params policy) := by
  refine (Leaves.query _).bind fun originalPolicy => ?_
  cases hextract : extractObjectName domainName (substitute domainName params policy.name)
    ":policy." with
  | none =>
    cases originalPolicy with
    | none => exact both_refused (objectName_refused hextract)
    | some original => exact both_refused (objectName_refused hextract)
  | some policyName =>
    have hstripped : removeDomainPrefix (updateTemplatePolicy policy domainName params).name
        domainName ":policy." = policyName := by
      unfold removeDomainPrefix updateTemplatePolicy
      dsimp only
      rw [hextract]
      rfl
    have hfull := extractObjectName_eq hextract
    rw [hstripped]
    exact processPolicy_leaves (hview policyName hfull) rfl hfull originalPolicy true

/-- A view that shows of the roles and policies of a domain those of the admin at most. -/
structure AdminView (domainName : Str) (view : Database → β) : Prop where
  row : RowHidden domainName view
  role : ∀ roleName, roleName ≠ ADMIN_ROLE_NAME → roleTable.Hidden domainName roleName view
  policy : ∀ policyName, policyName ≠ ADMIN_POLICY_NAME → PolicyHidden domainName policyName view

theorem adminRole_view (domainName : Str) :
    AdminView domainName fun db => roleTable.find db domainName ADMIN_ROLE_NAME where
  row db row row' hrow hroles _ := by
    dsimp only [Table.find]
    rw [AList.lookup_insert, hrow]
    exact congrArg (fun roles : Map Str (Collection RoleSettings) => roles.lookup ADMIN_ROLE_NAME)
      hroles
  role _ hname := roleTable.hidden_find domainName hname.symm
  policy policyName _ := policyHidden_find domainName policyName ADMIN_ROLE_NAME

theorem adminPolicy_view (domainName : Str) :
    AdminView domainName fun db => db.policyRow domainName ADMIN_POLICY_NAME none where
  row db row row' hrow _ hpolicies := by
    dsimp only [Database.policyRow]
    rw [AList.lookup_insert, hrow, Option.bind_some, Option.bind_some, hpolicies]
  role roleName _ := roleTable_hidden_policyRow domainName roleName ADMIN_POLICY_NAME
  policy _ hname := policyHidden_policyRow domainName hname.symm

variable [CaseRules]

theorem addTemplateRole_leaves (config : Config) {role : Role} {params : Option (List TemplateParam)}
    (hview : ∀ roleName, substitute domainName params role.name =
      roleResourceName domainName roleName → roleTable.Hidden domainName roleName view)
    (admin : Option Str) : Leaves view (addTemplateRole config domainName admin params role) := by
  refine (Leaves.query _).bind fun originalRole => ?_
  generalize htemplate : (originalRole.elim (updateTemplateRole role domainName params)
    fun original => mergeOriginalRoleAndMetaRoleAttributes original
      (updateTemplateRole role domainName params)) = templateRole
  have hname : templateRole.name = substitute domainName params role.name := by
    rw [← htemplate]
    cases originalRole with
    | none => rfl
    | some original => rfl
  cases hextract : extractObjectName domainName (substitute domainName params role.name) ":role." with
  | none =>
    cases originalRole with
    | none =>
      refine both_refused (objectName_refused ?_)
      dsimp only
      rw [hname]
      exact hextract
    | some original =>
      refine both_refused (objectName_refused ?_)
      dsimp only
      rw [hname]
      exact hextract
  | some roleName =>
    have hstripped : removeDomainPrefix (updateTemplateRole role domainName params).name domainName
        ":role." = roleName := by
      unfold removeDomainPrefix updateTemplateRole
      dsimp only
      rw [hextract]
      rfl
    have hfull := extractObjectName_eq hextract
    rw [hstripped]
    exact processRole_leaves (hview roleName hfull) (hname.trans hfull) config originalRole admin true

end Templates

section AdminTemplates

theorem extractObjectName_append (domainName separator name : Str) :
    extractObjectName domainName (domainName ++ separator ++ name) separator = some name := by
  unfold extractObjectName
  rw [if_pos (List.prefix_append _ _), List.drop_left]

variable [Collation]

/-- The admin role of a domain has no trust and a member, and its active admin policy allows this role
every action on every resource. -/
def Administered (domainName : Str) : Database → Prop :=
  AdminHolds domainName fun stored => ∃ memberName, HasMember memberName stored

theorem administered_iff : Administered domainName db ↔
    (∃ memberName, roleTable.Holds domainName ADMIN_ROLE_NAME (HasMember memberName) db) ∧
      ∃ policy, db.policyRow domainName ADMIN_POLICY_NAME none = some policy ∧
        ∃ assertion ∈ policy.assertions, Grants domainName assertion := by
  unfold Administered
  rw [adminHolds_iff]
  refine and_congr ⟨?_, ?_⟩ Iff.rfl
  · rintro ⟨stored, hstored, memberName, hmember⟩
    exact ⟨memberName, stored, hstored, hmember⟩
  · rintro ⟨memberName, stored, hstored, hmember⟩
    exact ⟨stored, hstored, memberName, hmember⟩

theorem Administered.congr (h : Administered domainName db)
    (hrole : roleTable.find db' domainName ADMIN_ROLE_NAME =
      roleTable.find db domainName ADMIN_ROLE_NAME)
    (hpolicy : db'.policyRow domainName ADMIN_POLICY_NAME none =
      db.policyRow domainName ADMIN_POLICY_NAME none) : Administered domainName db' := by
  obtain ⟨⟨memberName, stored, hstored, hmember⟩, policy, hfound, hgrants⟩ := administered_iff.1 h
  exact administered_iff.2 ⟨⟨memberName, stored, hrole.trans hstored, hmember⟩, policy,
    hpolicy.trans hfound, hgrants⟩

/-- A program that leaves the admin role and the admin policy. -/
theorem administered_of_leaves {p : Op Bool}
    (h : ∀ {β : Type} {view : Database → β}, AdminView domainName view → Leaves view p) :
    Accepts p fun db db' => Administered domainName db → Administered domainName db' := by
  intro c c' hrun hadministered
  exact hadministered.congr (h (adminRole_view domainName) c true c' hrun)
    (h (adminPolicy_view domainName) c true c' hrun)

theorem insertAssertion_grants (policyName : Str) (assertion : Assertion) :
    Returns (insertAssertion domainName policyName none assertion) fun db _ db' => ∀ policy,
      db.policyRow domainName policyName none = some policy → ∃ policy',
        db'.policyRow domainName policyName none = some policy' ∧
          policy.assertions ⊆ policy'.assertions := by
  by_cases hrole : ∃ roleName, assertion.role = domainName ++ ":role." ++ roleName
  · obtain ⟨roleName, hrole⟩ := hrole
    refine (insertAssertion_returns policyName hrole).mono ?_
    rintro db added db' ⟨policy, hpolicy, hpolicy'⟩ found hfound
    cases hpolicy.symm.trans hfound
    refine ⟨_, hpolicy', ?_⟩
    split
    · exact List.Subset.refl _
    · exact List.subset_append_left _ _
  · have hrefused : extractObjectName domainName assertion.role ":role." = none := by
      by_contra hsome
      obtain ⟨roleName, hname⟩ := Option.ne_none_iff_exists'.1 hsome
      exact hrole ⟨roleName, extractObjectName_eq hname⟩
    exact (objectName_refused hrefused).mono fun _ _ _ hfalse => hfalse.elim

theorem insertAssertion_administered (assertion : Assertion) :
    Returns (insertAssertion domainName ADMIN_POLICY_NAME none assertion) fun db _ db' =>
      Administered domainName db → Administered domainName db' := by
  intro c added c' h hadministered
  obtain ⟨⟨memberName, stored, hstored, hmember⟩, policy, hpolicy, granting, hmem, hgrants⟩ :=
    administered_iff.1 hadministered
  obtain ⟨policy', hpolicy', hsubset⟩ := insertAssertion_grants _ _ _ _ _ h policy hpolicy
  have hleft := insertAssertion_leaves (policyHidden_find domainName ADMIN_POLICY_NAME
    ADMIN_ROLE_NAME) _ _ _ _ h
  exact administered_iff.2 ⟨⟨memberName, stored, hleft.trans hstored, hmember⟩, policy', hpolicy',
    granting, hsubset hmem, hgrants⟩

theorem insertAssertions_administered (assertions : List Assertion) :
    Accepts (insertAssertions domainName ADMIN_POLICY_NAME none assertions) fun db db' =>
      Administered domainName db → Administered domainName db' := by
  refine Accepts.forAll_keeps fun assertion _ c c' h => ?_
  obtain ⟨added, _, hinsert, hpure⟩ := bind_eq_ok.1 h
  cases hpure
  exact insertAssertion_administered assertion c added _ hinsert

theorem getPolicy_eq (domainName policyName : Str) (version : Option Str) :
    getPolicy domainName policyName version =
      Tx.query fun db => (db.policyRow domainName policyName version).map (savePolicy domainName) :=
  rfl

/-- The admin policy is put again without the loss of an assertion. -/
theorem processPolicy_administered {policy : Policy} (hversion : policy.version = none)
    (hname : policy.name = policyResourceName domainName ADMIN_POLICY_NAME) (original : Policy) :
    Accepts (processPolicy (some original) domainName ADMIN_POLICY_NAME policy true) fun db db' =>
      Administered domainName db → Administered domainName db' := by
  rw [processPolicy, updatePolicy_eq hversion hname, hversion]
  have hrow : Accepts (onDomain domainName
      (changePolicy domainName ADMIN_POLICY_NAME none fun p => .ok (true, p))) fun db db' =>
        Administered domainName db → Administered domainName db' := by
    intro c c' h hadministered
    obtain ⟨policy, policy', hpolicy, hsame, hpolicy'⟩ := onPolicy_returns sameVersion_self _ _ _ h
    cases hsame
    exact hadministered.congr (onPolicy_leaves (policyHidden_find domainName ADMIN_POLICY_NAME
      ADMIN_ROLE_NAME) sameVersion_self _ _ _ h) (hpolicy'.trans hpolicy.symm)
  refine (hrow.both (Accepts.both (Accepts.pure : Accepts (if true then pure true else _) _)
    (insertAssertions_administered _))).mono ?_
  rintro db db'' ⟨db', hfirst, _, rfl, hrest⟩ hadministered
  exact hrest (hfirst hadministered)

/-- A policy of a template leaves the assertions of the admin policy. -/
theorem addTemplatePolicy_administered (domainName : Str) (params : Option (List TemplateParam))
    (policy : Policy) :
    Accepts (addTemplatePolicy domainName params policy) fun db db' =>
      Administered domainName db → Administered domainName db' := by
  by_cases hadmin : substitute domainName params policy.name =
      policyResourceName domainName ADMIN_POLICY_NAME
  · have hstripped : removeDomainPrefix (updateTemplatePolicy policy domainName params).name
        domainName ":policy." = ADMIN_POLICY_NAME := by
      unfold removeDomainPrefix updateTemplatePolicy
      dsimp only
      rw [hadmin, policyResourceName, extractObjectName_append]
      rfl
    intro c c' h hadministered
    unfold addTemplatePolicy at h
    rw [hstripped, getPolicy_eq] at h
    obtain ⟨_, d, hread, h⟩ := bind_eq_ok.1 h
    obtain ⟨_, rfl, rfl⟩ := query_eq_ok.1 hread
    obtain ⟨_, found, hfound, _⟩ := administered_iff.1 hadministered
    rw [hfound] at h
    exact processPolicy_administered rfl hadmin _ _ _ h hadministered
  · refine administered_of_leaves fun hview => addTemplatePolicy_leaves fun policyName hname => ?_
    apply hview.policy
    rintro rfl
    exact hadmin hname

variable [CaseRules]

/-- The admin role is put again without the loss of a member. -/
theorem processRole_administered (config : Config) {role : Role} (original : Role)
    (hname : role.name = roleResourceName domainName ADMIN_ROLE_NAME)
    (htrust : (processInsertValue role.trust).1 = []) (admin : Option Str) :
    Accepts (processRole config (some original) domainName ADMIN_ROLE_NAME role admin true)
      fun db db' => Administered domainName db → Administered domainName db' := by
  intro c c' h hadministered
  have hleft := processRole_leaves (roleTable_hidden_policyRow domainName ADMIN_ROLE_NAME
    ADMIN_POLICY_NAME) hname config _ admin true _ _ _ h
  obtain ⟨⟨memberName, stored, hstored, hmember⟩, policy, hpolicy, hgrants⟩ :=
    administered_iff.1 hadministered
  unfold processRole at h
  dsimp only at h
  rw [updateRole_eq (show { role with auditEnabled := original.auditEnabled }.name = _ from hname)]
    at h
  have hrow : roleTable.Alters domainName ADMIN_ROLE_NAME
      (roleTable.updateRow domainName ADMIN_ROLE_NAME
        (Role.settings { role with auditEnabled := original.auditEnabled }))
      fun row row' => row' = { row with
        settings := Role.settings { role with auditEnabled := original.auditEnabled } } :=
    roleTable.on_alters _ fun _ => rfl
  have hmembers : roleTable.Alters domainName ADMIN_ROLE_NAME
      (roleTable.processUpdateMembers original.roleMembers role.roleMembers true domainName
        ADMIN_ROLE_NAME admin) (Joined (removeMembers (role.roleMembers.getD [])
          (some (original.roleMembers.getD [])))) := by
    refine Table.Alters.both (R := fun stored stored' => stored' = stored) (.pure fun _ => rfl)
      (roleTable.insertMembers_alters domainName ADMIN_ROLE_NAME _ admin) ?_
    rintro _ _ _ rfl h
    exact h
  obtain ⟨db₁, h₁, db₂, h₂, h₃⟩ := Accepts.both hrow (Accepts.both hmembers
    (roleTable.processTags_alters domainName ADMIN_ROLE_NAME config.roleTagsLimit role.tags _)) _ _ h
  obtain ⟨stored₁, hstored₁, rfl⟩ := h₁ stored hstored
  obtain ⟨stored₂, hstored₂, hjoined⟩ := h₂ _ hstored₁
  obtain ⟨stored₃, hstored₃, hkept, hsame⟩ := h₃ _ hstored₂
  refine administered_iff.2 ⟨⟨memberName, stored₃, hstored₃, ?_, ?_⟩, policy, ?_, hgrants⟩
  · rw [hkept, hjoined.settings]
    exact htrust
  · rw [hsame]
    exact hjoined.stays memberName hmember.present
  · exact Eq.trans hleft hpolicy

/-- A template that does not delegate the admin role of the domain. -/
def Template.KeepsAdmin (template : Template) (domainName : Str) : Prop :=
  ∀ role ∈ template.roles.getD [], substitute domainName none role.name =
    roleResourceName domainName ADMIN_ROLE_NAME → (processInsertValue role.trust).1 = []

theorem addTemplateRole_administered (config : Config) (domainName : Str) {role : Role}
    (htrust : substitute domainName none role.name = roleResourceName domainName ADMIN_ROLE_NAME →
      (processInsertValue role.trust).1 = []) (admin : Option Str) :
    Accepts (addTemplateRole config domainName admin none role) fun db db' =>
      Administered domainName db → Administered domainName db' := by
  by_cases hadmin : substitute domainName none role.name = roleResourceName domainName ADMIN_ROLE_NAME
  · have hstripped : removeDomainPrefix (updateTemplateRole role domainName none).name domainName
        ":role." = ADMIN_ROLE_NAME := by
      unfold removeDomainPrefix updateTemplateRole
      dsimp only
      rw [hadmin, roleResourceName, extractObjectName_append]
      rfl
    intro c c' h hadministered
    unfold addTemplateRole at h
    rw [hstripped, getRole_eq] at h
    obtain ⟨_, d, hread, h⟩ := bind_eq_ok.1 h
    obtain ⟨_, rfl, rfl⟩ := query_eq_ok.1 hread
    obtain ⟨⟨_, stored, hstored, _⟩, _⟩ := administered_iff.1 hadministered
    rw [hstored] at h
    have hput : Accepts (processRole config (some (saveRole domainName ADMIN_ROLE_NAME stored))
        domainName ADMIN_ROLE_NAME (mergeOriginalRoleAndMetaRoleAttributes
          (saveRole domainName ADMIN_ROLE_NAME stored) (updateTemplateRole role domainName none))
        admin true) fun db db' => Administered domainName db → Administered domainName db' := by
      apply processRole_administered
      · exact hadmin
      · exact htrust hadmin
    exact hput _ _ h hadministered
  · refine administered_of_leaves fun hview => addTemplateRole_leaves config (fun roleName hname => ?_)
      admin
    apply hview.role
    rintro rfl
    exact hadmin hname

theorem addSolutionTemplate_administered {config : Config} {templateName : Str} (domainName : Str)
    (hkeeps : ∀ template, config.templates.lookup templateName = some template →
      template.KeepsAdmin domainName) (admin : Option Str) :
    Accepts (addSolutionTemplate config domainName templateName admin none) fun db db' =>
      Administered domainName db → Administered domainName db' := by
  unfold addSolutionTemplate
  cases htemplate : config.templates.lookup templateName with
  | none => exact Accepts.pure.mono fun _ _ hdb => hdb ▸ id
  | some template =>
    have hroles := Accepts.forAll_keeps fun role hmem =>
      addTemplateRole_administered config domainName (hkeeps template htemplate role hmem) admin
    have hpolicies := Accepts.forAll_keeps fun policy (_ : policy ∈ template.policies.getD []) =>
      addTemplatePolicy_administered domainName none policy
    have hothers : Accepts ((Tx.forAll (addTemplateServiceIdentity domainName none)
        (template.services.getD [])).both (listTemplate domainName templateName template))
        fun db db' => Administered domainName db → Administered domainName db' := by
      refine administered_of_leaves fun hview => Leaves.both ?_ (listTemplate_hidden hview.row _ _)
      exact .forAll fun _ _ =>
        (Leaves.query _).bind fun _ => processServiceIdentity_hidden hview.row _ _ _ true
    refine (hroles.both (hpolicies.both hothers)).mono ?_
    rintro db _ ⟨_, h₁, _, h₂, h₃⟩ hadministered
    exact h₃ (h₂ (h₁ hadministered))

end AdminTemplates

section Creation

variable [Collation]

theorem insertDomain_empty (domain : Domain) (policyName : Str) :
    Returns (insertDomain domain) fun _ _ db' => db'.policyRow domain.name policyName none = none := by
  refine (Returns.statement _).mono ?_
  rintro db a db' ⟨time, h⟩
  obtain ⟨_, _, h⟩ := Result.bind_eq_ok.1 h
  obtain ⟨_, _, h⟩ := Result.bind_eq_ok.1 h
  cases h
  unfold Database.policyRow
  rw [AList.lookup_insert]
  rfl

theorem processDomainTags_hidden {view : Database → β} (hview : RowHidden domainName view)
    (config : Config) (tags : Option Tags) :
    Leaves view (processDomainTags config tags none domainName false) := by
  have htagged : processDomainTags config tags none domainName false =
      if isEmptyTags tags then pure true
      else both (insertDomainTags config.domainTagsLimit domainName (tags.getD ∅)) (pure true) := rfl
  rw [htagged]
  refine .ite (.pure true) (Leaves.both ?_ (.pure true))
  refine onDomain_hidden hview fun row a row' h => ?_
  obtain ⟨_, _, h⟩ := Result.bind_eq_ok.1 h
  cases h
  exact ⟨rfl, rfl⟩

theorem processPolicy_creates (domainName : Str) (role : Role)
    (hrole : role.name = roleResourceName domainName ADMIN_ROLE_NAME) :
    Accepts (processPolicy none domainName ADMIN_POLICY_NAME (makeAdminPolicy domainName role) false)
      fun db db' => db.policyRow domainName ADMIN_POLICY_NAME none = none → ∃ policy,
        db'.policyRow domainName ADMIN_POLICY_NAME none = some policy ∧
          ∃ assertion ∈ policy.assertions, Grants domainName assertion := by
  have hgrows := processPolicy_grows domainName ADMIN_POLICY_NAME ADMIN_ROLE_NAME
    (show Assertion.role { role := role.name, resource := domainName ++ ":*".toList, action := "*",
                           effect := some .ALLOW } = domainName ++ ":role." ++ ADMIN_ROLE_NAME from hrole) none
  refine Accepts.mono hgrows fun db db' h hnone => ?_
  obtain ⟨id, hafter⟩ := h hnone
  exact ⟨_, hafter, _, List.mem_singleton_self _, rfl, rfl, rfl, rfl⟩

variable [CaseRules]

theorem processRole_creates (config : Config) (domainName : Str) (hadmins : adminUsers ≠ [])
    (admin : Option Str) :
    Accepts (processRole config none domainName ADMIN_ROLE_NAME (makeAdminRole domainName adminUsers)
      admin false) fun _ db' => roleTable.Holds domainName ADMIN_ROLE_NAME
        (fun stored => ∃ memberName, HasMember memberName stored) db' := by
  have hname : (makeAdminRole domainName adminUsers).name =
      roleResourceName domainName ADMIN_ROLE_NAME := rfl
  have htags : processRoleTags config (makeAdminRole domainName adminUsers) ADMIN_ROLE_NAME domainName
      none = pure true := rfl
  unfold processRole
  dsimp only
  rw [insertRole_eq (show { makeAdminRole domainName adminUsers with
    auditEnabled := some false }.name = _ from hname), htags]
  refine (Accepts.both (roleTable.insertRow_settles domainName ADMIN_ROLE_NAME _).toAccepts
    (Accepts.both (roleTable.insertMembers_alters domainName ADMIN_ROLE_NAME _ admin)
      Accepts.pure)).mono ?_
  rintro db db' ⟨db₁, ⟨stored, hstored, hsettings⟩, db₂, hjoins, rfl⟩
  obtain ⟨stored', hstored', hjoined⟩ := hjoins stored hstored
  obtain ⟨first, others, rfl⟩ := List.exists_cons_of_ne_nil hadmins
  refine ⟨stored', hstored', first, ?_, ?_⟩
  · rw [hjoined.settings, hsettings]
    rfl
  · exact hjoined.joined { memberName := first, active := some true, approved := some true }
      List.mem_cons_self nofun

/-- The creation of a domain with its admins, whose templates do not delegate the admin role. -/
theorem makeDomainBody_administers (config : Config) (ctx : Context) (domain : Domain)
    (hadmins : adminUsers ≠ [])
    (hkeeps : ∀ name ∈ solutionTemplates.getD [], ∀ template,
      config.templates.lookup name = some template → template.KeepsAdmin domain.name) :
    Returns (makeDomainBody config ctx domain adminUsers solutionTemplates)
      fun _ _ db' => Administered domain.name db' := by
  refine (checkSubdomainQuota_reading _ _).returns_bind fun _ => ?_
  intro c _ c' h
  obtain ⟨_, c₁, hdomain, h₁⟩ := bind_eq_ok.1 h
  obtain ⟨_, c₂, htags, h₂⟩ := bind_eq_ok.1 h₁
  obtain ⟨_, c₃, hinserted, h₃⟩ := bind_eq_ok.1 h₂
  obtain ⟨_, hc₃⟩ := Returns.ensure _ _ _ _ _ hinserted
  obtain ⟨_, c₄, hrole, h₄⟩ := bind_eq_ok.1 h₃
  obtain ⟨_, c₅, hroles, h₅⟩ := bind_eq_ok.1 h₄
  obtain ⟨rfl, hc₅⟩ := Returns.ensure _ _ _ _ _ hroles
  obtain ⟨_, c₆, hpolicy, h₆⟩ := bind_eq_ok.1 h₅
  obtain ⟨_, c₇, hpolicies, h₇⟩ := bind_eq_ok.1 h₆
  obtain ⟨rfl, hc₇⟩ := Returns.ensure _ _ _ _ _ hpolicies
  have hempty : c₅.working.policyRow domain.name ADMIN_POLICY_NAME none = none := by
    have hcreated := insertDomain_empty domain ADMIN_POLICY_NAME _ _ _ hdomain
    have htagged := processDomainTags_hidden (adminPolicy_view domain.name).row config domain.tags
      _ _ _ htags
    have hleft := processRole_leaves (roleTable_hidden_policyRow domain.name ADMIN_ROLE_NAME
      ADMIN_POLICY_NAME) rfl config none _ false _ _ _ hrole
    dsimp only at htagged hleft
    rw [hc₅, hleft, hc₃, htagged, hcreated]
  obtain ⟨policy, hpolicy', hgrants⟩ := processPolicy_creates domain.name _ rfl _ _ hpolicy hempty
  obtain ⟨stored, hstored, hmember⟩ := processRole_creates config domain.name hadmins _ _ _ hrole
  have hkept := processPolicy_leaves (policyHidden_find domain.name ADMIN_POLICY_NAME
    ADMIN_ROLE_NAME) rfl rfl none false _ _ _ hpolicy
  have hcreated : Administered domain.name c₇.working := by
    refine adminHolds_iff.2 ⟨⟨stored, ?_, hmember⟩, policy, ?_, hgrants⟩
    · dsimp only at hkept
      rw [hc₇, hkept, hc₅]
      exact hstored
    · rw [hc₇]
      exact hpolicy'
  have htemplates := Accepts.forAll_keeps fun name hmem =>
    addSolutionTemplate_administered domain.name (hkeeps name hmem)
      (ctx.principal.or (some "sys.auth.zms"))
  exact htemplates.ensure_bind _ _ _ _ h₇ hcreated

theorem makeDomain_administers {config : Config} (hadmins : adminUsers ≠ [])
    (hkeeps : ∀ name ∈ solutionTemplates.getD [], ∀ template,
      config.templates.lookup name = some template → template.KeepsAdmin domain.name)
    (h : makeDomain config ctx domain adminUsers solutionTemplates db events = (.ok (), db')) :
    Administered domain.name db' := by
  have hbody : Establishes (fun _ => True) (Administered domain.name)
      (Tx.saved (stampDomain domain.name)
        (makeDomainBody config ctx domain adminUsers solutionTemplates)) :=
    Establishes.saved ((makeDomainBody_administers config ctx domain hadmins hkeeps).mono
      fun _ _ _ h _ => h) fun time _ h => h.stamp adminRow_undated time
  exact attempts_establishes (fun _ _ _ => ⟨trivial, trivial⟩) hbody trivial h

end Creation

end Athenz.ZmsServer
