import Athenz.ProviderRolesRun

namespace Athenz.ZmsServer
open Lib Lib.Text Lib.Transaction
set_option autoImplicit true

section Names

/-- A provider service, or a resource group of one, that a tenant has signed up for. -/
structure Registration where
  provSvcDomain : Str
  provSvcName : Str
  resourceGroup : Option Str

/-- The names of the roles in the tenant domain begin with this. -/
def Registration.rolePrefix (r : Registration) : Str :=
  getProviderResourceGroupRolePrefix r.provSvcDomain r.provSvcName r.resourceGroup

theorem resourceGroupPart_eq (resourceGroup : Option Str) :
    resourceGroupPart resourceGroup = [] ∨
      ∃ group, emptyToNull resourceGroup = some group ∧
        resourceGroupPart resourceGroup = "res_group.".toList ++ group ++ ".".toList := by
  unfold resourceGroupPart
  cases emptyToNull resourceGroup with
  | none => exact .inl rfl
  | some group => exact .inr ⟨group, rfl, rfl⟩

theorem Registration.rolePrefix_dot (r : Registration) : ∃ base, r.rolePrefix = base ++ ['.'] := by
  unfold Registration.rolePrefix getProviderResourceGroupRolePrefix
  obtain hnone | ⟨group, _, hsome⟩ := resourceGroupPart_eq r.resourceGroup
  · rw [hnone, List.append_nil]
    exact ⟨_, rfl⟩
  · rw [hsome, ← List.append_assoc]
    exact ⟨_, rfl⟩

theorem validResourceGroupObjectToDelete_iff {name base : Str} :
    validResourceGroupObjectToDelete name base = true ↔
      ∃ action, '.' ∉ action ∧ name = base ++ action := by
  unfold validResourceGroupObjectToDelete
  rw [Bool.and_eq_true, decide_eq_true_eq, decide_eq_true_eq]
  constructor
  · rintro ⟨⟨action, rfl⟩, hdot⟩
    rw [List.drop_left] at hdot
    exact ⟨action, hdot, rfl⟩
  · rintro ⟨action, hdot, rfl⟩
    rw [List.drop_left]
    exact ⟨List.prefix_append _ _, hdot⟩

/-- Behind a dot there is an action on one side only. -/
theorem valid_append_iff {base other action : Str} (haction : '.' ∉ action) :
    validResourceGroupObjectToDelete (other ++ ['.'] ++ action) (base ++ ['.']) = true ↔
      other = base := by
  rw [validResourceGroupObjectToDelete_iff]
  constructor
  · rintro ⟨rest, hrest, heq⟩
    rw [List.append_assoc, List.append_assoc] at heq
    exact (append_cons_inj_last haction hrest heq).1
  · rintro rfl
    exact ⟨action, haction, rfl⟩

theorem valid_role_iff {r r' : Registration} (haction : '.' ∉ action) :
    validResourceGroupObjectToDelete (r'.rolePrefix ++ action) r.rolePrefix = true ↔
      r.rolePrefix = r'.rolePrefix := by
  obtain ⟨base, hbase⟩ := r.rolePrefix_dot
  obtain ⟨other, hother⟩ := r'.rolePrefix_dot
  rw [hbase, hother, valid_append_iff haction]
  constructor
  · rintro rfl
    rfl
  · exact fun h => (List.append_cancel_right h).symm

theorem valid_policy_iff {r r' : Registration} (haction : '.' ∉ action) :
    validResourceGroupObjectToDelete (tenancyPolicyName (r'.rolePrefix ++ action))
      ("tenancy.".toList ++ r.rolePrefix) = true ↔ r.rolePrefix = r'.rolePrefix := by
  refine Iff.trans ?_ (valid_role_iff haction)
  rw [validResourceGroupObjectToDelete_iff, validResourceGroupObjectToDelete_iff]
  unfold tenancyPolicyName
  generalize "tenancy.".toList = tenancy
  refine exists_congr fun rest => and_congr_right fun _ => ?_
  rw [List.append_assoc, List.append_cancel_left_eq]

end Names

section Frames

variable {view : Database → β}

/-- The versions of a policy. -/
def Database.policyVersions (db : Database) (domainName policyName : Str) : List PolicyRow :=
  ((db.domains.lookup domainName).elim [] (·.policies)).filter (·.name = policyName)

theorem forEach_leaves {step : α → Op Unit} {items : List α}
    (h : ∀ a ∈ items, Tx.Leaves view (step a)) : Tx.Leaves view (forEach step items) := by
  induction items with
  | nil => exact .pure ()
  | cons a items ih =>
    exact (h a List.mem_cons_self).bind fun _ => ih fun b hb => h b (List.mem_cons_of_mem a hb)

theorem deleteRole_leaves (hview : roleTable.Hidden domainName roleName view) :
    Tx.Leaves view (deleteRole domainName roleName) := by
  refine onDomain_leaves fun db row a row' hrow hf => ?_
  cases hf
  exact hview db row _ hrow fun other hother => AList.lookup_erase_ne hother

/-- A view that does not show whether a policy is there. -/
def PolicyUnseen (domainName policyName : Str) (view : Database → β) : Prop :=
  ∀ db row, db.domains.lookup domainName = some row →
    view { db with
      domains := db.domains.insert domainName
        { row with policies := row.policies.filter (·.name ≠ policyName) } } = view db

theorem deletePolicy_leaves (hview : PolicyUnseen domainName policyName view) :
    Tx.Leaves view (deletePolicy domainName policyName) := by
  refine onDomain_leaves fun db row a row' hrow hf => ?_
  cases hf
  exact hview db row hrow

theorem policyUnseen_find (domainName policyName roleName : Str) :
    PolicyUnseen domainName policyName fun db => roleTable.find db domainName roleName := by
  intro db row hrow
  dsimp only [Table.find]
  rw [AList.lookup_insert, hrow]
  rfl

theorem policyUnseen_policyVersions (domainName : Str) (h : other ≠ policyName) :
    PolicyUnseen domainName policyName fun db => db.policyVersions domainName other := by
  intro db row hrow
  dsimp only [Database.policyVersions]
  rw [AList.lookup_insert, hrow]
  dsimp only [Option.elim]
  rw [List.filter_filter]
  refine List.filter_congr fun policy _ => ?_
  rw [Bool.eq_iff_iff, Bool.and_eq_true, decide_eq_true_eq, decide_eq_true_eq]
  exact and_iff_left_of_imp fun hname hsame => h (hname.symm.trans hsame)

theorem roleTable_hidden_policyVersions (domainName roleName policyName : Str) :
    roleTable.Hidden domainName roleName fun db => db.policyVersions domainName policyName := by
  intro db row m hrow _
  dsimp only [Database.policyVersions]
  rw [AList.lookup_insert, hrow]
  rfl

theorem listRoles_reading (domainName : Str) : Tx.Reading (listRoles domainName) :=
  readDomain_reading _ _

theorem policyVersions_stampDomain (domainName : Str) (time : Int) (db : Database)
    (otherDomain policyName : Str) :
    (stampDomain domainName time db).policyVersions otherDomain policyName =
      db.policyVersions otherDomain policyName := by
  unfold Database.policyVersions
  rw [lookup_stampDomain]
  cases db.domains.lookup otherDomain with
  | none => rfl
  | some row =>
    dsimp only [Option.map_some, Option.elim]
    split
    · rfl
    · rfl

variable [Collation]

theorem listPolicies_reading (domainName : Str) (assertionRoleName : Option Str) :
    Tx.Reading (listPolicies domainName assertionRoleName) := readDomain_reading _ _

theorem deleteTenancyBody_leaves {config : Config} {ctx : Context} {tenantDomain : Str}
    {r : Registration}
    (hpolicy : ∀ name, validResourceGroupObjectToDelete name ("tenancy.".toList ++ r.rolePrefix) = true →
      PolicyUnseen tenantDomain name view)
    (hrole : ∀ name, validResourceGroupObjectToDelete name r.rolePrefix = true →
      roleTable.Hidden tenantDomain name view) :
    Tx.Leaves view (deleteTenancyBody config ctx tenantDomain r.provSvcDomain r.provSvcName
      r.resourceGroup) := by
  have hpolicies : ∀ name, Tx.Leaves view
      (deleteTenancyPolicy tenantDomain ("tenancy.".toList ++ r.rolePrefix) name) := by
    intro name
    unfold deleteTenancyPolicy
    split
    · rename_i hvalid
      exact (deletePolicy_leaves (hpolicy name hvalid)).bind fun _ => .pure ()
    · exact .pure ()
  have hroles : ∀ name, Tx.Leaves view (deleteTenancyRole tenantDomain r.rolePrefix name) := by
    intro name
    unfold deleteTenancyRole
    split
    · rename_i hvalid
      exact (Tx.Leaves.of_keeps (listPolicies_reading _ _).keeps).bind fun _ =>
        .ite ((deleteRole_leaves (hrole name hvalid)).bind fun _ => .pure ()) (.pure ())
    · exact .pure ()
  exact (Tx.Leaves.of_keeps (checkDomainAuditEnabled_reading _ _ _ _).keeps).bind fun _ =>
    (Tx.Leaves.of_keeps (listPolicies_reading _ _).keeps).bind fun _ =>
    (forEach_leaves fun name _ => hpolicies name).bind fun _ =>
    (Tx.Leaves.of_keeps (listRoles_reading _).keeps).bind fun _ =>
    forEach_leaves fun name _ => hroles name

theorem deleteTenancyBody_whole (config : Config) (ctx : Context) (tenantDomain provSvcDomain
    provSvcName : Str) (resourceGroup : Option Str) :
    Tx.Whole (deleteTenancyBody config ctx tenantDomain provSvcDomain provSvcName resourceGroup) := by
  have hpolicies : ∀ name, Tx.Writing (deleteTenancyPolicy tenantDomain
      ("tenancy.".toList ++ getProviderResourceGroupRolePrefix provSvcDomain provSvcName
        resourceGroup) name) :=
    fun _ => .ite ((onDomain_writing _ _).bind fun _ => .pure ()) (.pure ())
  have hroles : ∀ name, Tx.Writing (deleteTenancyRole tenantDomain
      (getProviderResourceGroupRolePrefix provSvcDomain provSvcName resourceGroup) name) :=
    fun _ => .ite ((readDomain_writing _ _).bind fun _ =>
      .ite ((onDomain_writing _ _).bind fun _ => .pure ()) (.pure ())) (.pure ())
  exact (checkDomainAuditEnabled_reading _ _ _ _).whole_bind fun _ =>
    (listPolicies_reading _ _).whole_bind fun _ =>
    ((forEach_writing hpolicies _).bind fun _ => (readDomain_writing _ _).bind fun _ =>
      forEach_writing hroles _).whole

/-- A role and the policy that goes with it are what they were. -/
def Untouched (tenantDomain roleName : Str) (db db' : Database) : Prop :=
  roleTable.find db' tenantDomain roleName = roleTable.find db tenantDomain roleName ∧
    db'.policyVersions tenantDomain (tenancyPolicyName roleName) =
      db.policyVersions tenantDomain (tenancyPolicyName roleName)

theorem deleteTenancyBody_untouched {r r' : Registration} (haction : '.' ∉ action)
    (hstarts : r.rolePrefix ≠ r'.rolePrefix) (config : Config) (ctx : Context) (tenantDomain : Str) :
    Tx.Returns (deleteTenancyBody config ctx tenantDomain r.provSvcDomain r.provSvcName
      r.resourceGroup) fun db _ db' => Untouched tenantDomain (r'.rolePrefix ++ action) db db' := by
  intro c a c' h
  constructor
  · have hleft := deleteTenancyBody_leaves (fun name _ => policyUnseen_find tenantDomain name
      (r'.rolePrefix ++ action)) (fun name hvalid => roleTable.hidden_find tenantDomain fun hname =>
        hstarts ((valid_role_iff haction).1 (hname ▸ hvalid))) c a c' h
    exact hleft
  · have hother : ∀ name,
        validResourceGroupObjectToDelete name ("tenancy.".toList ++ r.rolePrefix) = true →
        tenancyPolicyName (r'.rolePrefix ++ action) ≠ name := by
      rintro name hvalid rfl
      exact hstarts ((valid_policy_iff haction).1 hvalid)
    have hleft := deleteTenancyBody_leaves
      (fun name hvalid => policyUnseen_policyVersions tenantDomain (hother name hvalid))
      (fun name _ => roleTable_hidden_policyVersions tenantDomain name _) c a c' h
    exact hleft

/-- Whatever a deletion comes to, it leaves what belongs to other registrations. -/
theorem executeDeleteTenancy_untouched {r r' : Registration} (haction : '.' ∉ action)
    (hstarts : r.rolePrefix ≠ r'.rolePrefix) (config : Config) (ctx : Context) (tenantDomain : Str)
    (db : Database) (events : Nat → Event Failure) :
    Untouched tenantDomain (r'.rolePrefix ++ action) db (executeDeleteTenancy config ctx tenantDomain
      r.provSvcDomain r.provSvcName r.resourceGroup db events).2 := by
  refine Tx.attempts_saved_invariant (I := Untouched tenantDomain (r'.rolePrefix ++ action) db)
    (deleteTenancyBody_whole _ _ _ _ _ _).atomic ?_ ?_ ⟨rfl, rfl⟩
  · refine (deleteTenancyBody_untouched haction hstarts config ctx tenantDomain).mono ?_
    rintro found _ found' ⟨hrole, hpolicy⟩ ⟨hrole', hpolicy'⟩
    exact ⟨hrole.trans hrole', hpolicy.trans hpolicy'⟩
  · rintro time found ⟨hrole, hpolicy⟩
    refine ⟨?_, (policyVersions_stampDomain _ _ _ _ _).trans hpolicy⟩
    exact (Table.find_stampDomain roleTable_timeless _ _ _ _ _).trans hrole

end Frames

section Deletions

theorem deletePolicy_returns (domainName policyName : Str) :
    Tx.Returns (deletePolicy domainName policyName) fun _ _ db' =>
      db'.policyVersions domainName policyName = [] := by
  refine (onDomain_returns _).mono ?_
  rintro db a db' ⟨row, row', _, hf, rfl⟩
  cases hf
  have hrow' : ((domainFocus domainName).put db { row with
      policies := row.policies.filter (·.name ≠ policyName) }).domains.lookup domainName =
      some { row with policies := row.policies.filter (·.name ≠ policyName) } :=
    AList.lookup_insert _
  unfold Database.policyVersions
  rw [hrow']
  dsimp only [Option.elim]
  rw [List.filter_filter, List.filter_eq_nil_iff]
  intro policy _ hboth
  rw [Bool.and_eq_true, decide_eq_true_eq, decide_eq_true_eq] at hboth
  exact hboth.2 hboth.1

theorem deleteTenancyPolicy_returns (hvalid : validResourceGroupObjectToDelete name start = true)
    (tenantDomain pname : Str) :
    Tx.Returns (deleteTenancyPolicy tenantDomain start pname) fun db _ db' =>
      pname = name ∨ db.policyVersions tenantDomain name = [] →
        db'.policyVersions tenantDomain name = [] := by
  by_cases hname : pname = name
  · rw [hname, deleteTenancyPolicy, if_pos hvalid]
    refine (Tx.Returns.bind (deletePolicy_returns tenantDomain name) fun _ =>
      Tx.Returns.pure ()).mono ?_
    rintro db _ db' ⟨_, _, hgone, _, rfl⟩ _
    exact hgone
  · have hleaves : Tx.Leaves (fun db => db.policyVersions tenantDomain name)
        (deleteTenancyPolicy tenantDomain start pname) := by
      refine .ite ((deletePolicy_leaves (policyUnseen_policyVersions tenantDomain ?_)).bind fun _ =>
        .pure ()) (.pure ())
      exact Ne.symm hname
    refine hleaves.mono ?_
    intro db _ db' hleft h
    exact hleft.trans (h.resolve_left hname)

theorem forEach_deleteTenancyPolicy (hvalid : validResourceGroupObjectToDelete name start = true)
    (tenantDomain : Str) (pnames : List Str) :
    Tx.Returns (forEach (deleteTenancyPolicy tenantDomain start) pnames) fun db _ db' =>
      name ∈ pnames ∨ db.policyVersions tenantDomain name = [] →
        db'.policyVersions tenantDomain name = [] := by
  induction pnames with
  | nil =>
    refine (Tx.Returns.pure ()).mono fun db _ db' hdb h => ?_
    rw [hdb.2]
    exact h.resolve_left List.not_mem_nil
  | cons pname pnames ih =>
    refine (Tx.Returns.bind (deleteTenancyPolicy_returns hvalid tenantDomain pname) fun _ => ih).mono ?_
    rintro db _ db'' ⟨_, db', hfirst, hrest⟩ h
    apply hrest
    rw [List.mem_cons, or_assoc] at h
    obtain rfl | hmem | hgone := h
    · exact .inr (hfirst (.inl rfl))
    · exact .inl hmem
    · exact .inr (hfirst (.inr hgone))

variable [Collation]

/-- One version of the policy is active, or there is none at all. -/
def Listed (domainName policyName : Str) (db : Database) : Prop :=
  (db.policyRow domainName policyName none).isSome ∨ db.policyVersions domainName policyName = []

theorem listPolicies_returns (domainName : Str) :
    Tx.Returns (listPolicies domainName none) fun db names db' => db' = db ∧ ∀ name,
      (db.policyRow domainName name none).isSome → name ∈ names := by
  refine (readDomain_returns _).mono ?_
  rintro db names db' ⟨rfl, row, hrow, hnames⟩
  cases hnames
  refine ⟨rfl, fun name hsome => ?_⟩
  rw [policyRow_eq hrow] at hsome
  obtain ⟨policy, hpolicy⟩ := Option.isSome_iff_exists.1 hsome
  obtain ⟨hname, hactive⟩ := isVersion_none.1 (List.find?_some hpolicy)
  exact List.mem_map.2 ⟨policy, List.mem_filter.2 ⟨List.mem_of_find?_eq_some hpolicy, hactive⟩, hname⟩

theorem deleteTenancyBody_deletes {r : Registration}
    (hvalid : validResourceGroupObjectToDelete name ("tenancy.".toList ++ r.rolePrefix) = true)
    (config : Config) (ctx : Context) (tenantDomain : Str) :
    Tx.Returns (deleteTenancyBody config ctx tenantDomain r.provSvcDomain r.provSvcName
      r.resourceGroup) fun db _ db' =>
        Listed tenantDomain name db → db'.policyVersions tenantDomain name = [] := by
  have hroles : ∀ rnames, Tx.Leaves (fun db => db.policyVersions tenantDomain name)
      (forEach (deleteTenancyRole tenantDomain r.rolePrefix) rnames) := by
    refine fun rnames => forEach_leaves fun rname _ => ?_
    have hdelete : Tx.Leaves (fun db => db.policyVersions tenantDomain name)
        (deleteRole tenantDomain rname) :=
      deleteRole_leaves (roleTable_hidden_policyVersions tenantDomain rname name)
    exact .ite ((Tx.Leaves.of_keeps (listPolicies_reading _ _).keeps).bind fun _ =>
      .ite (hdelete.bind fun _ => .pure ()) (.pure ())) (.pure ())
  refine (checkDomainAuditEnabled_reading _ _ _ _).returns_bind fun _ => ?_
  refine (Tx.Returns.bind (listPolicies_returns tenantDomain) fun pnames =>
    Tx.Returns.bind (forEach_deleteTenancyPolicy hvalid tenantDomain pnames) fun _ =>
    (Tx.Leaves.of_keeps (listRoles_reading tenantDomain).keeps).bind hroles).mono ?_
  rintro db _ db'' ⟨pnames, _, ⟨rfl, hlisted⟩, _, db', hgone, hleft⟩ h
  refine (show db''.policyVersions tenantDomain name = db'.policyVersions tenantDomain name
    from hleft).trans (hgone ?_)
  exact h.imp_left (hlisted name)

end Deletions

section TenancyRuns

variable [Collation]

/-- A deletion that succeeds has deleted the policies of every registration with its prefix. -/
theorem executeDeleteTenancy_deletes {r : Registration}
    (hvalid : validResourceGroupObjectToDelete name ("tenancy.".toList ++ r.rolePrefix) = true)
    (hlisted : Listed tenantDomain name db)
    (h : executeDeleteTenancy config ctx tenantDomain r.provSvcDomain r.provSvcName r.resourceGroup
      db events = (.ok (), db')) :
    db'.policyVersions tenantDomain name = [] := by
  have hbody := deleteTenancyBody_deletes hvalid config ctx tenantDomain
  refine Tx.attempts_saved_reaches (I := Listed tenantDomain name)
    (deleteTenancyBody_whole _ _ _ _ _ _).atomic ?_ ?_ hbody ?_ hlisted h
  · exact hbody.mono fun _ _ _ hgone hfound => .inr (hgone hfound)
  · intro time found hfound
    rw [Listed, policyRow_stampDomain, policyVersions_stampDomain]
    exact hfound
  · intro time found hgone
    exact (policyVersions_stampDomain _ _ _ _ _).trans hgone

theorem mem_policyVersions_of_policyRow {db : Database}
    (h : db.policyRow domainName policyName none = some policy) :
    policy ∈ db.policyVersions domainName policyName := by
  obtain ⟨row, hrow, hfind⟩ := Option.bind_eq_some_iff.1 h
  unfold Database.policyVersions
  rw [hrow]
  refine List.mem_filter.2 ⟨List.mem_of_find?_eq_some hfind, ?_⟩
  rw [decide_eq_true_eq]
  exact (isVersion_none.1 (List.find?_some hfind)).1

/-- What has been created for a registration stays exactly when the deleted one has other names. -/
theorem executeDeleteTenancy_untouched_iff {r r' : Registration} (haction : '.' ∉ action)
    (hcreated : (db.policyRow tenantDomain (tenancyPolicyName (r'.rolePrefix ++ action))
      none).isSome)
    (h : executeDeleteTenancy config ctx tenantDomain r.provSvcDomain r.provSvcName r.resourceGroup
      db events = (.ok (), db')) :
    Untouched tenantDomain (r'.rolePrefix ++ action) db db' ↔ r.rolePrefix ≠ r'.rolePrefix := by
  constructor
  · intro hkept hsame
    have hgone := executeDeleteTenancy_deletes ((valid_policy_iff haction).2 hsame)
      (.inl hcreated) h
    obtain ⟨policy, hpolicy⟩ := Option.isSome_iff_exists.1 hcreated
    have hmem := mem_policyVersions_of_policyRow hpolicy
    rw [← hkept.2, hgone] at hmem
    exact List.not_mem_nil hmem
  · intro hstarts
    have hkept := executeDeleteTenancy_untouched haction hstarts config ctx tenantDomain db events
    rw [h] at hkept
    exact hkept

end TenancyRuns

section TenantRoles

/-- A role of the resource group that trusts the tenant. -/
def lent (rolePrefix tenantDomain name : Str) (stored : Option (Collection RoleSettings)) : Bool :=
  validResourceGroupObjectToDelete name rolePrefix &&
    stored.any fun stored => saveValue stored.settings.trust = some tenantDomain

theorem isTrustRoleForTenant_group (db : Database) (provSvcDomain name rolePrefix group
    tenantDomain : Str) :
    isTrustRoleForTenant db provSvcDomain name rolePrefix (some group) tenantDomain =
      lent rolePrefix tenantDomain name (roleTable.find db provSvcDomain name) := rfl

theorem deleteRole_returns (domainName roleName : Str) :
    Tx.Returns (deleteRole domainName roleName) fun db _ db' => ∀ name,
      roleTable.find db' domainName name =
        if name = roleName then none else roleTable.find db domainName name := by
  refine (onDomain_returns _).mono ?_
  rintro db a db' ⟨row, row', hrow, hf, rfl⟩ name
  cases hf
  have hrow' : ((domainFocus domainName).put db { row with
      roles := row.roles.erase roleName }).domains.lookup domainName =
      some { row with roles := row.roles.erase roleName } := AList.lookup_insert _
  have hrow : db.domains.lookup domainName = some row := hrow
  unfold Table.find
  rw [hrow', hrow]
  dsimp only [Option.bind_some]
  split
  · rename_i hname
    rw [hname]
    exact AList.lookup_erase _ _
  · rename_i hname
    exact AList.lookup_erase_ne hname

/-- What the deletion of the roles of a resource group makes of some of the names. -/
structure Taken (provSvcDomain rolePrefix tenantDomain : Str) (names : List Str)
    (db db' : Database) : Prop where
  gone : ∀ name ∈ names,
    lent rolePrefix tenantDomain name (roleTable.find db provSvcDomain name) = true →
    roleTable.find db' provSvcDomain name = none
  kept : ∀ name, (name ∈ names →
      lent rolePrefix tenantDomain name (roleTable.find db provSvcDomain name) = false) →
    roleTable.find db' provSvcDomain name = roleTable.find db provSvcDomain name

theorem lent_none (rolePrefix tenantDomain name : Str) :
    lent rolePrefix tenantDomain name none = false := by
  rw [lent, Option.any_none, Bool.and_false]

theorem Taken.refl (provSvcDomain rolePrefix tenantDomain : Str) (db : Database) :
    Taken provSvcDomain rolePrefix tenantDomain [] db db where
  gone _ h := nomatch h
  kept _ _ := rfl

theorem Taken.trans (h : Taken provSvcDomain rolePrefix tenantDomain names db db')
    (h' : Taken provSvcDomain rolePrefix tenantDomain names' db' db'') :
    Taken provSvcDomain rolePrefix tenantDomain (names ++ names') db db'' where
  gone name hmem hlent := by
    by_cases hfirst : name ∈ names
    · have hgone := h.gone name hfirst hlent
      rw [h'.kept name fun _ => by rw [hgone, lent_none]]
      exact hgone
    · have hkept := h.kept name fun hmem => absurd hmem hfirst
      apply h'.gone name ((List.mem_append.1 hmem).resolve_left hfirst)
      rw [hkept]
      exact hlent
  kept name hnot := by
    have hkept := h.kept name fun hmem => hnot (List.mem_append_left _ hmem)
    rw [h'.kept name, hkept]
    intro hmem
    rw [hkept]
    exact hnot (List.mem_append_right _ hmem)

theorem deleteTenantRole_takes (provSvcDomain rolePrefix group tenantDomain rname : Str) :
    Tx.Returns (deleteTenantRole provSvcDomain rolePrefix (some group) tenantDomain rname)
      fun db _ db' => Taken provSvcDomain rolePrefix tenantDomain [rname] db db' := by
  unfold deleteTenantRole
  refine (Tx.Returns.query_bind (T := fun before db _ db' => before = db →
    Taken provSvcDomain rolePrefix tenantDomain [rname] db db') fun before => ?_).mono
    fun _ _ _ h => h rfl
  rw [isTrustRoleForTenant_group]
  have hunseen : PolicyUnseen provSvcDomain rname fun db name =>
      roleTable.find db provSvcDomain name := fun db row hrow =>
    funext fun name => policyUnseen_find provSvcDomain rname name db row hrow
  split
  · rename_i hlent
    refine (Tx.Returns.bind (deleteRole_returns provSvcDomain rname) fun _ =>
      Tx.Returns.bind (deletePolicy_leaves hunseen) fun _ => Tx.Returns.pure ()).mono ?_
    · rintro db _ db'' ⟨_, db₁, herased, _, db₂, hleft, _, rfl⟩ rfl
      have hfind : ∀ name, roleTable.find db'' provSvcDomain name =
          if name = rname then none else roleTable.find before provSvcDomain name :=
        fun name => (congrFun hleft name).trans (herased name)
      constructor
      · intro name hmem _
        rw [hfind, if_pos (List.mem_singleton.1 hmem)]
      · intro name hnot
        rw [hfind, if_neg]
        rintro rfl
        rw [hnot (List.mem_singleton_self _)] at hlent
        cases hlent
  · rename_i hkept
    refine (Tx.Returns.pure ()).mono ?_
    rintro db _ db' ⟨_, rfl⟩ rfl
    constructor
    · intro name hmem hlent
      rw [List.mem_singleton.1 hmem] at hlent
      exact absurd hlent hkept
    · exact fun _ _ => rfl

theorem forEach_takes (provSvcDomain rolePrefix group tenantDomain : Str) (rnames : List Str) :
    Tx.Returns (forEach (deleteTenantRole provSvcDomain rolePrefix (some group) tenantDomain) rnames)
      fun db _ db' => Taken provSvcDomain rolePrefix tenantDomain rnames db db' := by
  induction rnames with
  | nil =>
    refine (Tx.Returns.pure ()).mono fun db _ db' h => ?_
    rw [h.2]
    exact .refl _ _ _ db
  | cons rname rnames ih =>
    refine (Tx.Returns.bind (deleteTenantRole_takes provSvcDomain rolePrefix group tenantDomain rname)
      fun _ => ih).mono ?_
    rintro db _ db'' ⟨_, db', hfirst, hrest⟩
    exact hfirst.trans hrest

theorem listRoles_returns (domainName : Str) :
    Tx.Returns (listRoles domainName) fun db names db' => db' = db ∧ ∀ name,
      (roleTable.find db domainName name).isSome → name ∈ names := by
  refine (readDomain_returns _).mono ?_
  rintro db names db' ⟨rfl, row, hrow, hnames⟩
  cases hnames
  refine ⟨rfl, fun name hsome => ?_⟩
  have hrow : db'.domains.lookup domainName = some row := hrow
  unfold Table.find at hsome
  rw [hrow] at hsome
  exact AList.mem_keys.1 (AList.lookup_isSome.1 hsome)

/-- What the deletion makes of all the roles of the provider. -/
def AllTaken (provSvcDomain rolePrefix tenantDomain : Str) (db db' : Database) : Prop :=
  ∀ name, roleTable.find db' provSvcDomain name =
    if lent rolePrefix tenantDomain name (roleTable.find db provSvcDomain name) then none
    else roleTable.find db provSvcDomain name

theorem Taken.all (h : Taken provSvcDomain rolePrefix tenantDomain names db db')
    (hall : ∀ name, (roleTable.find db provSvcDomain name).isSome → name ∈ names) :
    AllTaken provSvcDomain rolePrefix tenantDomain db db' := by
  intro name
  split
  · rename_i hlent
    refine h.gone name (hall name ?_) hlent
    rw [Option.isSome_iff_ne_none]
    intro hnone
    rw [hnone, lent_none] at hlent
    cases hlent
  · rename_i hkept
    exact h.kept name fun _ => Bool.eq_false_iff.2 hkept

theorem AllTaken.of_found (h : AllTaken provSvcDomain rolePrefix tenantDomain found db')
    (hfound : (∀ name, roleTable.find found provSvcDomain name = roleTable.find db provSvcDomain name) ∨
      AllTaken provSvcDomain rolePrefix tenantDomain db found) :
    AllTaken provSvcDomain rolePrefix tenantDomain db db' := by
  intro name
  rw [h name]
  obtain hsame | htaken := hfound
  · rw [hsame name]
  · rw [htaken name]
    split
    · rw [lent_none]
      rfl
    · rfl

theorem deleteTenantRolesBody_returns (config : Config) (ctx : Context) (provSvcDomain provSvcName
    tenantDomain group : Str) :
    Tx.Returns (deleteTenantRolesBody config ctx provSvcDomain provSvcName tenantDomain (some group))
      fun db _ db' => AllTaken provSvcDomain
        (getTenantResourceGroupRolePrefix provSvcName tenantDomain (some group)) tenantDomain db db' := by
  refine (checkDomainAuditEnabled_reading _ _ _ _).returns_bind fun _ => ?_
  refine (Tx.Returns.bind (listRoles_returns provSvcDomain) fun rnames =>
    forEach_takes provSvcDomain _ group tenantDomain rnames).mono ?_
  rintro db _ db' ⟨rnames, _, ⟨rfl, hall⟩, htaken⟩
  exact htaken.all hall

theorem deleteTenantRolesBody_whole (config : Config) (ctx : Context) (provSvcDomain provSvcName
    tenantDomain : Str) (resourceGroup : Option Str) :
    Tx.Whole (deleteTenantRolesBody config ctx provSvcDomain provSvcName tenantDomain
      resourceGroup) := by
  have hstep : ∀ rname, Tx.Writing (deleteTenantRole provSvcDomain
      (getTenantResourceGroupRolePrefix provSvcName tenantDomain resourceGroup) resourceGroup
      tenantDomain rname) :=
    fun _ => (Tx.Writing.query _).bind fun _ => .ite ((onDomain_writing _ _).bind fun _ =>
      (onDomain_writing _ _).bind fun _ => .pure ()) (.pure ())
  exact (checkDomainAuditEnabled_reading _ _ _ _).whole_bind fun _ =>
    (listRoles_reading _).whole_bind fun _ => (forEach_writing hstep _).whole

/-- A deletion for a resource group that succeeds takes its roles and no others. -/
theorem executeDeleteTenantRoles_takes {config : Config} {ctx : Context}
    {events : Nat → Event Failure}
    (h : executeDeleteTenantRoles config ctx provSvcDomain provSvcName tenantDomain (some group) db
      events = (.ok (), db')) :
    AllTaken provSvcDomain (getTenantResourceGroupRolePrefix provSvcName tenantDomain (some group))
      tenantDomain db db' := by
  have hbody := deleteTenantRolesBody_returns config ctx provSvcDomain provSvcName tenantDomain group
  have hfind := fun domainName time db =>
    Table.find_stampDomain roleTable_timeless domainName time db provSvcDomain
  have hstamp : ∀ time found, AllTaken provSvcDomain
      (getTenantResourceGroupRolePrefix provSvcName tenantDomain (some group)) tenantDomain db found →
      AllTaken provSvcDomain (getTenantResourceGroupRolePrefix provSvcName tenantDomain (some group))
        tenantDomain db (stampDomain provSvcDomain time found) := by
    intro time found hfound name
    rw [hfind]
    exact hfound name
  refine Tx.attempts_saved_reaches (I := fun found =>
      (∀ name, roleTable.find found provSvcDomain name = roleTable.find db provSvcDomain name) ∨
      AllTaken provSvcDomain (getTenantResourceGroupRolePrefix provSvcName tenantDomain (some group))
        tenantDomain db found)
    (deleteTenantRolesBody_whole _ _ _ _ _ _).atomic (hbody.mono ?_) ?_ (hbody.mono ?_) hstamp
    (.inl fun _ => rfl) h
  · intro found _ found' htaken hfound
    exact .inr (htaken.of_found hfound)
  · intro time found hfound
    refine hfound.imp (fun hsame name => ?_) (hstamp time found)
    rw [hfind]
    exact hsame name
  · intro found _ found' htaken hfound
    exact htaken.of_found hfound

end TenantRoles

section TrustRoles

/-- Programs that leave the settings of an object when they answer true. -/
def SameSettings (stored stored' : Collection S) : Prop := stored'.settings = stored.settings

theorem SameSettings.trans {stored stored' stored'' : Collection S} (h : SameSettings stored stored')
    (h' : SameSettings stored' stored'') : SameSettings stored stored'' := Eq.trans h' h

theorem Table.updateRow_settles (table : Table S) (domainName name : Str) (settings : S) :
    Tx.Returns (table.updateRow domainName name settings) fun _ _ db' =>
      ∃ stored, table.find db' domainName name = some stored ∧ stored.settings = settings := by
  refine (table.updateRow_returns settings).mono ?_
  rintro db a db' ⟨stored, hstored, rfl⟩
  exact ⟨_, (table.focus domainName name).get_put hstored _, rfl⟩

/-- An object has its settings from the first statement on. -/
theorem Table.Alters.settles {table : Table S} {p q : Op Bool} {settings : S}
    (hp : Tx.Returns p fun _ _ db' => ∃ stored, table.find db' domainName name = some stored ∧
      stored.settings = settings) (hq : table.Alters domainName name q SameSettings) :
    Tx.Accepts (Tx.both p q) fun _ db' => ∃ stored,
      table.find db' domainName name = some stored ∧ stored.settings = settings := by
  refine (Tx.Accepts.both hp.toAccepts hq).mono ?_
  rintro db db'' ⟨db', ⟨stored, hstored, hsettings⟩, halters⟩
  obtain ⟨stored', hstored', hsame⟩ := halters stored hstored
  exact ⟨stored', hstored', Eq.trans hsame hsettings⟩

variable [CaseRules] [Collation]

/-- The processing of a role without members and tags ends with a role of its trust. -/
theorem processRole_trusts {config : Config} {role : Role}
    (hname : role.name = domainName ++ ":role." ++ roleName) (hmembers : role.roleMembers = none)
    (htags : role.tags = none) (original : Option Role) (admin : Option Str) (ignoreDeletes : Bool) :
    Tx.Accepts (processRole config original domainName roleName role admin ignoreDeletes)
      fun _ db' => ∃ stored, roleTable.find db' domainName roleName = some stored ∧
        stored.settings.trust = processInsertValue role.trust := by
  have hidle : roleTable.Alters domainName roleName (pure true) SameSettings := .pure fun _ => rfl
  have htagged : processRoleTags config role roleName domainName original = pure true := by
    unfold processRoleTags processTags
    rw [htags]
    rfl
  cases original with
  | none =>
    rw [processRole, insertRole_eq (show { role with auditEnabled := some false }.name = _ from hname),
      htagged, hmembers]
    refine (Table.Alters.settles (roleTable.insertRow_settles domainName roleName _)
      (hidle.both hidle fun _ _ _ => SameSettings.trans)).mono ?_
    rintro db db' ⟨stored, hstored, hsettings⟩
    exact ⟨stored, hstored, congrArg RoleSettings.trust hsettings⟩
  | some original =>
    rw [processRole, updateRole_eq
      (show { role with auditEnabled := original.auditEnabled }.name = _ from hname), htagged, hmembers]
    have hdelete : roleTable.Alters domainName roleName (roleTable.processUpdateMembers
        original.roleMembers none ignoreDeletes domainName roleName admin) SameSettings := by
      unfold Table.processUpdateMembers
      refine Table.Alters.both ?_ hidle fun _ _ _ => SameSettings.trans
      split
      · exact hidle
      · exact (roleTable.deleteMembers_left domainName roleName _ admin).mono fun _ _ h => h.settings
    refine (Table.Alters.settles (roleTable.updateRow_settles domainName roleName _)
      (hdelete.both hidle fun _ _ _ => SameSettings.trans)).mono ?_
    rintro db db' ⟨stored, hstored, hsettings⟩
    exact ⟨stored, hstored, congrArg RoleSettings.trust hsettings⟩

end TrustRoles

section TenantRoleRuns

/-- The names of the trust roles of a tenant, or of a resource group of it. -/
def tenantRoleName (provSvcName tenantDomain : Str) (resourceGroup : Option Str) (role : Str) : Str :=
  provSvcName ++ ".tenant.".toList ++ tenantDomain ++ ".".toList ++ resourceGroupPart resourceGroup ++
    role

theorem trustedRole_eq (provSvcDomain provSvcName tenantDomain : Str) (resourceGroup : Option Str)
    (role : Str) :
    getTrustedResourceGroupRolePrefix provSvcDomain provSvcName tenantDomain resourceGroup ++ role =
      provSvcDomain ++ ":role.".toList ++
        tenantRoleName provSvcName tenantDomain resourceGroup role := by
  unfold getTrustedResourceGroupRolePrefix tenantRoleName
  simp only [List.append_assoc]

/-- A role that trusts the tenant. -/
def Trusting (provSvcDomain tenantDomain name : Str) (db : Database) : Prop :=
  ∃ stored, roleTable.find db provSvcDomain name = some stored ∧
    stored.settings.trust = processInsertValue (some tenantDomain)

variable [Collation]

theorem processOnePolicy_leaves {view : Database → β}
    (hview : PolicyHidden domainName policyName view) {assertion : Assertion}
    (original : Option Policy) (ignoreDeletes : Bool) :
    Tx.Leaves view (processPolicy original domainName policyName
      { name := policyResourceName domainName policyName, assertions := some [assertion] }
      ignoreDeletes) :=
  processPolicy_leaves hview rfl rfl original ignoreDeletes

variable [CaseRules]

theorem putTenantRole_trusts (config : Config) (ctx : Context) (provSvcDomain provSvcName
    tenantDomain : Str) (resourceGroup : Option Str) (ignoreDeletes : Bool)
    (roleAction : TenantRoleAction) :
    Tx.Returns (putTenantRole config ctx provSvcDomain provSvcName tenantDomain resourceGroup
      ignoreDeletes roleAction) fun db _ db' => ∀ name,
        name = tenantRoleName provSvcName tenantDomain resourceGroup roleAction.role ∨
          Trusting provSvcDomain tenantDomain name db →
        Trusting provSvcDomain tenantDomain name db' := by
  intro c a c' h name hname
  unfold putTenantRole at h
  rw [trustedRole_eq, List.drop_left] at h
  obtain ⟨original, d₁, hread, h₁⟩ := Tx.bind_eq_ok.1 h
  obtain ⟨_, _, rfl⟩ := Tx.query_eq_ok.1 hread
  obtain ⟨done, d₂, hrole, h₂⟩ := Tx.bind_eq_ok.1 h₁
  obtain ⟨_, d₃, hensure, h₃⟩ := Tx.bind_eq_ok.1 h₂
  obtain ⟨rfl, hd₃⟩ := Tx.Returns.ensure _ _ _ _ _ hensure
  obtain ⟨originalPolicy, d₄, hread', h₄⟩ := Tx.bind_eq_ok.1 h₃
  obtain ⟨_, _, rfl⟩ := Tx.query_eq_ok.1 hread'
  obtain ⟨done', d₅, hpolicy, hensure'⟩ := Tx.bind_eq_ok.1 h₄
  obtain ⟨rfl, hd₅⟩ := Tx.Returns.ensure _ _ _ _ _ hensure'
  have hkept : roleTable.find d₅.working provSvcDomain name =
      roleTable.find d₃.working provSvcDomain name := by
    have hleft := processOnePolicy_leaves (policyHidden_find provSvcDomain _ name) originalPolicy
      ignoreDeletes _ _ _ hpolicy
    exact hleft
  have htrusts : Trusting provSvcDomain tenantDomain name d₂.working := by
    by_cases hown : name = tenantRoleName provSvcName tenantDomain resourceGroup roleAction.role
    · rw [hown]
      exact processRole_trusts rfl rfl rfl original ctx.principal ignoreDeletes _ _ hrole
    · obtain ⟨stored, hstored, htrust⟩ := hname.resolve_left hown
      have hleft := processRole_leaves (roleTable.hidden_find provSvcDomain hown) rfl config original
        ctx.principal ignoreDeletes _ _ _ hrole
      exact ⟨stored, Eq.trans hleft hstored, htrust⟩
  obtain ⟨stored, hstored, htrust⟩ := htrusts
  refine ⟨stored, ?_, htrust⟩
  rw [hd₅, hkept, hd₃]
  exact hstored

theorem forEach_trusts (config : Config) (ctx : Context) (provSvcDomain provSvcName
    tenantDomain : Str) (resourceGroup : Option Str) (ignoreDeletes : Bool)
    (roles : List TenantRoleAction) :
    Tx.Returns (forEach (putTenantRole config ctx provSvcDomain provSvcName tenantDomain resourceGroup
      ignoreDeletes) roles) fun db _ db' => ∀ name,
        (∃ roleAction ∈ roles,
          name = tenantRoleName provSvcName tenantDomain resourceGroup roleAction.role) ∨
          Trusting provSvcDomain tenantDomain name db →
        Trusting provSvcDomain tenantDomain name db' := by
  induction roles with
  | nil =>
    refine (Tx.Returns.pure ()).mono ?_
    rintro db _ db' ⟨_, rfl⟩ name h
    apply h.resolve_left
    rintro ⟨_, hmem, _⟩
    cases hmem
  | cons roleAction roles ih =>
    refine (Tx.Returns.bind (putTenantRole_trusts config ctx provSvcDomain provSvcName tenantDomain
      resourceGroup ignoreDeletes roleAction) fun _ => ih).mono ?_
    rintro db _ db'' ⟨_, db', hfirst, hrest⟩ name h
    apply hrest
    obtain ⟨other, hmem, hname⟩ | htrusting := h
    · obtain rfl | hmem := List.mem_cons.1 hmem
      · exact .inr (hfirst name (.inl hname))
      · exact .inl ⟨other, hmem, hname⟩
    · exact .inr (hfirst name (.inr htrusting))

theorem putTenantRolesBody_trusts (config : Config) (ctx : Context) (provSvcDomain provSvcName
    tenantDomain : Str) (resourceGroup : Option Str) (roles : List TenantRoleAction)
    (ignoreDeletes : Bool) :
    Tx.Returns (putTenantRolesBody config ctx provSvcDomain provSvcName tenantDomain resourceGroup
      roles ignoreDeletes) fun _ _ db' => ∀ roleAction ∈ roles, Trusting provSvcDomain tenantDomain
        (tenantRoleName provSvcName tenantDomain resourceGroup roleAction.role) db' := by
  refine (checkDomainAuditEnabled_reading _ _ _ _).returns_bind fun _ => ?_
  intro c a c' h
  obtain ⟨domain, d, _, hrest⟩ := Tx.bind_eq_ok.1 h
  cases domain with
  | none => cases hrest
  | some domain =>
    intro roleAction hmem
    exact forEach_trusts config ctx provSvcDomain provSvcName tenantDomain resourceGroup ignoreDeletes
      roles d a c' hrest _ (.inl ⟨roleAction, hmem, rfl⟩)

theorem putTenantRole_writing (config : Config) (ctx : Context) (provSvcDomain provSvcName
    tenantDomain : Str) (resourceGroup : Option Str) (ignoreDeletes : Bool)
    (roleAction : TenantRoleAction) :
    Tx.Writing (putTenantRole config ctx provSvcDomain provSvcName tenantDomain resourceGroup
      ignoreDeletes roleAction) := by
  unfold putTenantRole
  refine (Tx.Writing.query _).bind fun original => (processRole_writing _ _ _ _ _ _ _).bind fun _ =>
    (Tx.Writing.ensure _ _).bind fun _ => Tx.Writing.query_bind fun db =>
    (processPolicy_writing (fun _ => .inl rfl) ?_ _ _ _).bind fun _ => .ensure _ _
  intro policy hpolicy
  obtain ⟨row, _, rfl⟩ := Option.map_eq_some_iff.1 hpolicy
  exact savePolicy_stored _ _

theorem putTenantRolesBody_whole (config : Config) (ctx : Context) (provSvcDomain provSvcName
    tenantDomain : Str) (resourceGroup : Option Str) (roles : List TenantRoleAction)
    (ignoreDeletes : Bool) :
    Tx.Whole (putTenantRolesBody config ctx provSvcDomain provSvcName tenantDomain resourceGroup
      roles ignoreDeletes) := by
  refine (checkDomainAuditEnabled_reading _ _ _ _).whole_bind fun _ =>
    (Tx.Reading.query _).whole_bind fun domain => ?_
  cases domain with
  | none => exact (Tx.Reading.abort _).whole
  | some domain => exact (forEach_writing (fun _ => putTenantRole_writing _ _ _ _ _ _ _ _) roles).whole

/-- The roles of a request that succeeds trust its tenant. -/
theorem executePutTenantRoles_trusts {config : Config} {ctx : Context} {resourceGroup : Option Str}
    {ignoreDeletes : Bool} {events : Nat → Event Failure}
    (h : executePutTenantRoles config ctx provSvcDomain provSvcName tenantDomain resourceGroup roles
      ignoreDeletes db events = (.ok (), db')) :
    ∀ roleAction ∈ roles, Trusting provSvcDomain tenantDomain
      (tenantRoleName provSvcName tenantDomain resourceGroup roleAction.role) db' := by
  refine Tx.attempts_saved_reaches (I := fun _ => True)
    (putTenantRolesBody_whole config ctx provSvcDomain provSvcName tenantDomain resourceGroup roles
      ignoreDeletes).atomic (fun _ _ _ _ _ => trivial) (fun _ _ _ => trivial)
    ((putTenantRolesBody_trusts config ctx provSvcDomain provSvcName tenantDomain resourceGroup roles
      ignoreDeletes).mono fun _ _ _ h _ => h) ?_ trivial h
  intro time found hfound roleAction hmem
  obtain ⟨stored, hstored, htrust⟩ := hfound roleAction hmem
  exact ⟨stored, (Table.find_stampDomain roleTable_timeless _ _ _ _ _).trans hstored, htrust⟩

end TenantRoleRuns

section Scope

theorem tenantGroup_inj {group role role' : Str} {resourceGroup : Option Str} (hrole : '.' ∉ role)
    (hrole' : '.' ∉ role')
    (h : resourceGroupPart resourceGroup ++ role = "res_group.".toList ++ group ++ ".".toList ++ role') :
    emptyToNull resourceGroup = some group ∧ role = role' := by
  obtain hnone | ⟨found, hfound, hpart⟩ := resourceGroupPart_eq resourceGroup
  · rw [hnone, List.nil_append] at h
    have hdot : '.' ∈ "res_group.".toList ++ group ++ ".".toList ++ role' :=
      List.mem_append_left _ (List.mem_append_right _ (List.mem_singleton_self _))
    exact absurd (h ▸ hdot) hrole
  · rw [hpart] at h
    have hcut : ("res_group.".toList ++ found) ++ '.' :: role =
        ("res_group.".toList ++ group) ++ '.' :: role' := by
      rw [List.append_assoc, List.append_assoc _ ".".toList] at h
      exact h
    obtain ⟨hgroup, hsame⟩ := append_cons_inj_last hrole hrole' hcut
    exact ⟨hfound.trans (congrArg some (List.append_cancel_left hgroup)), hsame⟩

theorem tenantRolePrefix_group (provSvcName tenantDomain : Str) {group : Str} (hgroup : group ≠ []) :
    getTenantResourceGroupRolePrefix provSvcName tenantDomain (some group) =
      provSvcName ++ ".tenant.".toList ++ tenantDomain ++ ".".toList ++
        ("res_group.".toList ++ group ++ ".".toList) := by
  cases group with
  | nil => exact absurd rfl hgroup
  | cons c group => rfl

/-- The trust roles of a resource group of a tenant are found by it and by nobody else. -/
theorem lent_iff {provSvcName provSvcName' tenantDomain tenantDomain' group role : Str}
    {resourceGroup : Option Str} {stored : Collection RoleSettings} (hservice : '.' ∉ provSvcName)
    (hservice' : '.' ∉ provSvcName') (hgroup : group ≠ []) (hrole : '.' ∉ role)
    (htenant : trim tenantDomain' = tenantDomain') (hne : tenantDomain' ≠ [])
    (htrust : stored.settings.trust = processInsertValue (some tenantDomain')) :
    lent (getTenantResourceGroupRolePrefix provSvcName tenantDomain (some group)) tenantDomain
        (tenantRoleName provSvcName' tenantDomain' resourceGroup role) (some stored) = true ↔
      provSvcName = provSvcName' ∧ tenantDomain = tenantDomain' ∧
        emptyToNull resourceGroup = some group := by
  have hvalue : saveValue stored.settings.trust = some tenantDomain' := by
    rw [htrust, saveValue, processInsertValue]
    change (if trim tenantDomain' = [] then none else some (trim tenantDomain')) = some tenantDomain'
    rw [htenant, if_neg hne]
  rw [lent, Bool.and_eq_true, Option.any_some, decide_eq_true_eq, hvalue,
    validResourceGroupObjectToDelete_iff, tenantRolePrefix_group _ _ hgroup]
  constructor
  · rintro ⟨⟨role', hrole', hname⟩, htenants⟩
    obtain rfl := Option.some.inj htenants
    have hcut : provSvcName' ++ '.' :: ("tenant.".toList ++ tenantDomain' ++ ".".toList ++
          (resourceGroupPart resourceGroup ++ role)) =
        provSvcName ++ '.' :: ("tenant.".toList ++ tenantDomain' ++ ".".toList ++
          ("res_group.".toList ++ group ++ ".".toList ++ role')) := by
      have hsep : ".tenant.".toList = '.' :: "tenant.".toList := rfl
      rw [tenantRoleName, hsep] at hname
      simp only [List.append_assoc, List.cons_append] at hname ⊢
      exact hname
    obtain ⟨hservices, hrest⟩ := append_cons_inj_first hservice' hservice hcut
    exact ⟨hservices.symm, rfl, (tenantGroup_inj hrole hrole' (List.append_cancel_left hrest)).1⟩
  · rintro ⟨rfl, rfl, hfound⟩
    refine ⟨⟨role, hrole, ?_⟩, rfl⟩
    rw [tenantRoleName, resourceGroupPart, hfound]

variable [Collation]

/-- A deletion of a tenancy leaves what another registration has created exactly when the names of
the two differ; the deletion of the roles of a resource group takes these and no others. -/
theorem tenancyDeletions_scoped_iff {r r' : Registration} {action : Str} (haction : '.' ∉ action)
    {config : Config} {ctx : Context} {db db' : Database} {events : Nat → Event Failure}
    (hcreated : (db.policyRow tenantDomain (tenancyPolicyName (r'.rolePrefix ++ action)) none).isSome)
    (h : executeDeleteTenancy config ctx tenantDomain r.provSvcDomain r.provSvcName r.resourceGroup
      db events = (.ok (), db'))
    {provSvcName provSvcName' group role : Str} {resourceGroup : Option Str} {store store' : Database}
    {events' : Nat → Event Failure} (hservice : '.' ∉ provSvcName) (hservice' : '.' ∉ provSvcName')
    (hgroup : group ≠ []) (hrole : '.' ∉ role) (htenant : trim tenantDomain' = tenantDomain')
    (hne : tenantDomain' ≠ [])
    (htrusting : Trusting provSvcDomain tenantDomain'
      (tenantRoleName provSvcName' tenantDomain' resourceGroup role) store)
    (hrun : executeDeleteTenantRoles config ctx provSvcDomain provSvcName tenantDomain (some group)
      store events' = (.ok (), store')) :
    (Untouched tenantDomain (r'.rolePrefix ++ action) db db' ↔ r.rolePrefix ≠ r'.rolePrefix) ∧
      (roleTable.find store' provSvcDomain
          (tenantRoleName provSvcName' tenantDomain' resourceGroup role) = none ↔
        provSvcName = provSvcName' ∧ tenantDomain = tenantDomain' ∧
          emptyToNull resourceGroup = some group) ∧
      AllTaken provSvcDomain (getTenantResourceGroupRolePrefix provSvcName tenantDomain (some group))
        tenantDomain store store' := by
  have htaken := executeDeleteTenantRoles_takes hrun
  refine ⟨executeDeleteTenancy_untouched_iff haction hcreated h, ?_, htaken⟩
  obtain ⟨stored, hstored, htrust⟩ := htrusting
  rw [← lent_iff hservice hservice' hgroup hrole htenant hne htrust, htaken, hstored]
  split
  · rename_i hlent
    exact iff_of_true rfl hlent
  · rename_i hkept
    exact iff_of_false nofun hkept

end Scope

section Example

local instance scopeCollation : Collation := .binary

local instance scopeCaseRules : CaseRules := .ascii

def scopeEvents (n : Nat) : Event Failure := ⟨n, none⟩

def scopeCaller : Context := { caller := "deletetenancy", principal := some "user.jane" }

def scopeStore : Database where
  domains :=
    let users : Map Str DomainRow := (∅ : Map Str DomainRow).insert "user"
      { settings := Domain.settings { name := "user" }, modified := 0 }
    let tenants : Map Str DomainRow := users.insert "media"
      { settings := Domain.settings { name := "media" }, modified := 0 }
    tenants.insert "sports" { settings := Domain.settings { name := "sports" }, modified := 0 }

/-- A registration of a tenant for the role of a reader. -/
def scopePut (r : Registration) : Except Failure Unit × Database :=
  executePutProviderRoles {} scopeCaller "media" r.provSvcDomain r.provSvcName r.resourceGroup
    ["reader"] none scopeStore scopeEvents

def scopeDelete (r r' : Registration) : Except Failure Unit × Database :=
  executeDeleteTenancy {} scopeCaller "media" r.provSvcDomain r.provSvcName r.resourceGroup
    (scopePut r').2 scopeEvents

def groupRegistration : Registration := ⟨"sports", "api", some "scores"⟩

/-- A service of a domain that is named like the resource groups of another service. -/
def serviceRegistration : Registration := ⟨"sports.api.res_group", "scores", none⟩

def otherRegistration : Registration := ⟨"weather", "api", none⟩

def scopeTenantPut : Except Failure Unit × Database :=
  executePutTenantRoles {} scopeCaller "sports" "api" "media" (some "scores") [⟨"reader", "read"⟩] false
    scopeStore scopeEvents

def scopeTenantDelete : Except Failure Unit × Database :=
  executeDeleteTenantRoles {} scopeCaller "sports" "api" "media" (some "scores") scopeTenantPut.2
    scopeEvents

theorem tenancyDeletions_scoped_other :
    (Untouched "media" "weather.api.reader" (scopePut otherRegistration).2
        (scopeDelete groupRegistration otherRegistration).2 ↔
      groupRegistration.rolePrefix ≠ otherRegistration.rolePrefix) ∧
    roleTable.find scopeTenantDelete.2 "sports" "api.tenant.media.res_group.scores.reader" = none := by
  have hok : (scopeDelete groupRegistration otherRegistration).1 = .ok () := by decide +kernel
  have hrun : scopeDelete groupRegistration otherRegistration =
      (.ok (), (scopeDelete groupRegistration otherRegistration).2) := by rw [← hok]
  have hok' : scopeTenantDelete.1 = .ok () := by decide +kernel
  have hrun' : scopeTenantDelete = (.ok (), scopeTenantDelete.2) := by rw [← hok']
  have hput : scopeTenantPut.1 = .ok () := by decide +kernel
  have hput' : scopeTenantPut = (.ok (), scopeTenantPut.2) := by rw [← hput]
  have htrusting := executePutTenantRoles_trusts hput' _ List.mem_cons_self
  have hcreated : ((scopePut otherRegistration).2.policyRow "media"
      (tenancyPolicyName (otherRegistration.rolePrefix ++ "reader".toList)) none).isSome := by
    decide +kernel
  have hscoped := tenancyDeletions_scoped_iff (r := groupRegistration) (by decide) hcreated hrun
    (by decide) (by decide) (by decide) (by decide) (by decide) (by decide) htrusting hrun'
  exact ⟨hscoped.1, hscoped.2.1.2 ⟨rfl, rfl, rfl⟩⟩

/-- Two registrations with the same names: the deletion of one takes the policy of the other. -/
theorem sameNames_notScoped :
    groupRegistration.provSvcDomain ≠ serviceRegistration.provSvcDomain ∧
    (scopePut serviceRegistration).1 = .ok () ∧
    (scopeDelete groupRegistration serviceRegistration).1 = .ok () ∧
    ¬ Untouched "media" (serviceRegistration.rolePrefix ++ "reader".toList)
      (scopePut serviceRegistration).2 (scopeDelete groupRegistration serviceRegistration).2 := by
  refine ⟨by decide, by decide +kernel, by decide +kernel, fun h => ?_⟩
  have hbefore : ((scopePut serviceRegistration).2.policyVersions "media"
      (tenancyPolicyName (serviceRegistration.rolePrefix ++ "reader".toList))).isEmpty = false := by
    decide +kernel
  have hafter : ((scopeDelete groupRegistration serviceRegistration).2.policyVersions "media"
      (tenancyPolicyName (serviceRegistration.rolePrefix ++ "reader".toList))).isEmpty = true := by
    decide +kernel
  rw [h.2, hbefore] at hafter
  cases hafter

end Example

end Athenz.ZmsServer
