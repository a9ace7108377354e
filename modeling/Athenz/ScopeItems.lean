import Athenz.OAuthTokenRequest

namespace Athenz.Zts
open Lib Lib.Text Lib.Result
set_option autoImplicit true

section Items

/-- What an item of a scope asks for. -/
inductive ScopeItem where
  | openid | groups | roles
  | service (domainName serviceName : Str)
  | domain (domainName : Str)
  | role (domainName roleName : Str)
  | group (domainName groupName : Str)
  | unknown
deriving DecidableEq

namespace ScopeItem

def domainName : ScopeItem → Option Str
  | .service domainName _ | .domain domainName | .role domainName _ | .group domainName _ =>
    some domainName
  | _ => none

def serviceName : ScopeItem → Option Str
  | .service _ serviceName => some serviceName
  | _ => none

def roleName : ScopeItem → Option Str
  | .role _ roleName => some roleName
  | _ => none

def groupName : ScopeItem → Option Str
  | .group _ groupName => some groupName
  | _ => none

/-- The item asks for a whole domain. -/
def isDomain : ScopeItem → Bool
  | .domain _ => true
  | _ => false

variable [CaseRules]

/-- The kind of an item is that of the first marker found in it. -/
def ofText (item : Str) : ScopeItem :=
  if equalsIgnoreCase "openid" item then .openid
  else if equalsIgnoreCase "groups" item then .groups
  else if equalsIgnoreCase "roles" item then .roles
  else
    match ScopeScan.splitItem ":service." item with
    | some (domainName, serviceName) => .service domainName serviceName
    | none =>
      if (":domain" : Str) <:+ item then
        .domain (item.take (item.length - (":domain" : Str).length))
      else
        match ScopeScan.splitItem ":role." item with
        | some (domainName, roleName) => .role domainName roleName
        | none =>
          match ScopeScan.splitItem ":group." item with
          | some (domainName, groupName) => .group domainName groupName
          | none => .unknown

end ScopeItem

/-- The items of a scope. -/
def Asked [CaseRules] (scope : Str) (item : ScopeItem) : Prop :=
  ∃ text ∈ splitTrim ' ' scope, ScopeItem.ofText text = item

/-- The items with a domain name one and the same, which is not empty, and at most one service. -/
structure GoTogether (I : ScopeItem → Prop) : Prop where
  named : ∀ item, I item → item.domainName ≠ some []
  domain : ∀ item other, I item → I other → ∀ name otherName, item.domainName = some name →
    other.domainName = some otherName → name = otherName
  service : ∀ item other, I item → I other → ∀ name otherName, item.serviceName = some name →
    other.serviceName = some otherName → name = otherName

theorem GoTogether.anti {I J : ScopeItem → Prop} (h : GoTogether J) (hIJ : ∀ item, I item → J item) :
    GoTogether I where
  named item hitem := h.named item (hIJ item hitem)
  domain item other hitem hother := h.domain item other (hIJ item hitem) (hIJ other hother)
  service item other hitem hother := h.service item other (hIJ item hitem) (hIJ other hother)

/-- A request says what items ask for. -/
structure Describes (I : ScopeItem → Prop) (request : OAuthTokenRequest) : Prop where
  domainName : ∀ name, request.domainName = some name ↔ ∃ item, I item ∧ item.domainName = some name
  serviceName : ∀ name, request.serviceName = some name ↔
    ∃ item, I item ∧ item.serviceName = some name
  sendScopeResponse : request.sendScopeResponse = true ↔ ∃ item, I item ∧ item.isDomain = true
  openIdScope : request.openIdScope = true ↔ I .openid
  rolesScope : request.rolesScope = true ↔
    I .roles ∨ request.sendScopeResponse = true ∧ ∃ name roleName, I (.role name roleName)
  groupsScope : request.groupsScope = true ↔
    I .groups ∨ request.sendScopeResponse = true ∧ ∃ name groupName, I (.group name groupName)
  roleNames : ∀ roleName, roleName ∈ request.roleNames.getD [] ↔
    request.sendScopeResponse = false ∧
      ∃ name, request.domainName = some name ∧ I (.role name roleName)
  groupNames : ∀ groupName, groupName ∈ request.groupNames.getD [] ↔
    request.sendScopeResponse = false ∧
      ∃ name, request.domainName = some name ∧ I (.group name groupName)
  rolesUnset : request.roleNames ≠ some []
  groupsUnset : request.groupNames ≠ some []

/-- Two requests with the same flags and names, the role and group names as sets. -/
structure SameRequest (a b : OAuthTokenRequest) : Prop where
  domainName : a.domainName = b.domainName
  serviceName : a.serviceName = b.serviceName
  sendScopeResponse : a.sendScopeResponse = b.sendScopeResponse
  openIdScope : a.openIdScope = b.openIdScope
  rolesScope : a.rolesScope = b.rolesScope
  groupsScope : a.groupsScope = b.groupsScope
  roleNames : ∀ name, name ∈ a.roleNames.getD [] ↔ name ∈ b.roleNames.getD []
  groupNames : ∀ name, name ∈ a.groupNames.getD [] ↔ name ∈ b.groupNames.getD []
  rolesSet : a.roleNames.isSome = b.roleNames.isSome
  groupsSet : a.groupNames.isSome = b.groupNames.isSome

end Items

section Scan

namespace ScopeScan

/-- A scan that has taken in an item. -/
def add (scan : ScopeScan) (item : ScopeItem) : ScopeScan where
  domainName := item.domainName.or scan.domainName
  serviceName := item.serviceName.or scan.serviceName
  roleNames := scan.roleNames
  groupNames := scan.groupNames
  sendScopeResponse := item.isDomain || scan.sendScopeResponse
  openIdScope := item = .openid || scan.openIdScope
  groupsScope := item = .groups || scan.groupsScope
  rolesScope := item = .roles || scan.rolesScope
  scopeRoleNames := (item.roleName.map scan.scopeRoleNames.insert).getD scan.scopeRoleNames
  scopeGroupNames := (item.groupName.map scan.scopeGroupNames.insert).getD scan.scopeGroupNames

/-- An item goes with the domain and the service of a scan. -/
structure Fits (scan : ScopeScan) (item : ScopeItem) : Prop where
  named : item.domainName ≠ some []
  domain : ∀ name other, item.domainName = some name → scan.domainName = some other → name = other
  service : ∀ name other, item.serviceName = some name → scan.serviceName = some other → name = other

theorem checkDomain_ok {scan : ScopeScan} :
    scan.checkDomain name missing = .ok () ↔
      name ≠ [] ∧ ∀ other, scan.domainName = some other → name = other := by
  simp only [checkDomain, bind_eq_ok, refuse_eq_ok, exists_unit]
  cases hdomain : scan.domainName with
  | none => simp only [Option.any_none, Bool.false_eq_true, not_false_eq_true, and_true, reduceCtorEq,
      false_imp_iff, implies_true]
  | some other =>
    simp only [Option.any_some, decide_eq_true_eq, ne_eq, Decidable.not_not, Option.some_inj,
      forall_eq', eq_comm (a := name) (b := other)]

/-- An item with a domain name and no service fits when the name does. -/
theorem fits_iff {scan : ScopeScan} {item : ScopeItem} (hdomain : item.domainName = some name)
    (hservice : item.serviceName = none) : scan.Fits item ↔
      name ≠ [] ∧ ∀ other, scan.domainName = some other → name = other := by
  constructor
  · intro h
    refine ⟨?_, fun other hother => h.domain name other hdomain hother⟩
    rintro rfl
    exact h.named hdomain
  · rintro ⟨hname, hother⟩
    refine ⟨?_, ?_, ?_⟩
    · rw [hdomain]
      exact fun h => hname (Option.some_inj.1 h)
    · intro name' other h h'
      rw [hdomain] at h
      cases h
      exact hother other h'
    · intro name' other h
      rw [hservice] at h
      cases h

theorem domainItem_ok {scan : ScopeScan} : scan.domainItem name = .ok scan' ↔
    scan.Fits (.domain name) ∧ scan' = scan.add (.domain name) := by
  rw [fits_iff rfl rfl, domainItem, bind_eq_ok, exists_unit, checkDomain_ok, pure_eq_ok, eq_comm]
  rfl

theorem roleItem_ok {scan : ScopeScan} : scan.roleItem name roleName = .ok scan' ↔
    scan.Fits (.role name roleName) ∧ scan' = scan.add (.role name roleName) := by
  rw [fits_iff rfl rfl, roleItem, bind_eq_ok, exists_unit, checkDomain_ok, pure_eq_ok, eq_comm]
  rfl

theorem groupItem_ok {scan : ScopeScan} : scan.groupItem name groupName = .ok scan' ↔
    scan.Fits (.group name groupName) ∧ scan' = scan.add (.group name groupName) := by
  rw [fits_iff rfl rfl, groupItem, bind_eq_ok, exists_unit, checkDomain_ok, pure_eq_ok, eq_comm]
  rfl

theorem serviceItem_ok {scan : ScopeScan} : scan.serviceItem name serviceName = .ok scan' ↔
    scan.Fits (.service name serviceName) ∧ scan' = scan.add (.service name serviceName) := by
  have hservice : ¬ scan.serviceName.any (· ≠ serviceName) = true ↔
      ∀ other, scan.serviceName = some other → serviceName = other := by
    cases hservice : scan.serviceName with
    | none => simp only [Option.any_none, Bool.false_eq_true, not_false_eq_true, reduceCtorEq,
        false_imp_iff, implies_true]
    | some other =>
      simp only [Option.any_some, decide_eq_true_eq, ne_eq, Decidable.not_not, Option.some_inj,
        forall_eq', eq_comm (a := serviceName) (b := other)]
  rw [serviceItem]
  simp only [bind_eq_ok, exists_unit, checkDomain_ok, refuse_eq_ok, hservice, pure_eq_ok]
  constructor
  · rintro ⟨⟨hname, hdomain⟩, hsame, rfl⟩
    refine ⟨⟨?_, ?_, ?_⟩, rfl⟩
    · exact fun h => hname (Option.some_inj.1 h)
    · intro name' other h h'
      cases h
      exact hdomain other h'
    · intro name' other h h'
      cases h
      exact hsame other h'
  · rintro ⟨h, rfl⟩
    refine ⟨⟨?_, fun other hother => h.domain name other rfl hother⟩,
      fun other hother => h.service serviceName other rfl hother, rfl⟩
    rintro rfl
    exact h.named rfl

/-- An item without a domain name always fits. -/
theorem flag_ok {scan scan' : ScopeScan} {item : ScopeItem} (hdomain : item.domainName = none)
    (hservice : item.serviceName = none) (hadd : scan.add item = added) :
    (Except.ok added : Except Failure ScopeScan) = .ok scan' ↔
      scan.Fits item ∧ scan' = scan.add item := by
  have hfits : scan.Fits item := by
    refine ⟨?_, ?_, ?_⟩
    · rw [hdomain]
      exact nofun
    · intro name other h
      rw [hdomain] at h
      cases h
    · intro name other h
      rw [hservice] at h
      cases h
  rw [Except.ok.injEq, hadd, eq_comm, and_iff_right hfits]

variable [CaseRules]

/-- An item is taken in when it fits. -/
theorem scanItem_ok_iff {scan : ScopeScan} {text : Str} :
    scan.scanItem text = .ok scan' ↔
      scan.Fits (ScopeItem.ofText text) ∧ scan' = scan.add (ScopeItem.ofText text) := by
  unfold scanItem ScopeItem.ofText
  by_cases hopenid : equalsIgnoreCase "openid" text = true
  · rw [if_pos hopenid, if_pos hopenid]
    exact flag_ok rfl rfl rfl
  rw [if_neg hopenid, if_neg hopenid]
  by_cases hgroups : equalsIgnoreCase "groups" text = true
  · rw [if_pos hgroups, if_pos hgroups]
    exact flag_ok rfl rfl rfl
  rw [if_neg hgroups, if_neg hgroups]
  by_cases hroles : equalsIgnoreCase "roles" text = true
  · rw [if_pos hroles, if_pos hroles]
    exact flag_ok rfl rfl rfl
  rw [if_neg hroles, if_neg hroles]
  cases splitItem ":service." text with
  | some parts => exact serviceItem_ok
  | none =>
    by_cases hdomain : (":domain" : Str) <:+ text
    · simp only [if_pos hdomain]
      exact domainItem_ok
    · simp only [if_neg hdomain]
      cases splitItem ":role." text with
      | some parts => exact roleItem_ok
      | none =>
        cases splitItem ":group." text with
        | some parts => exact groupItem_ok
        | none => exact flag_ok rfl rfl rfl

/-- A scan of items that go together. -/
structure Scanned (I : ScopeItem → Prop) (scan : ScopeScan) : Prop where
  together : GoTogether I
  domainName : ∀ name, scan.domainName = some name ↔ ∃ item, I item ∧ item.domainName = some name
  serviceName : ∀ name, scan.serviceName = some name ↔ ∃ item, I item ∧ item.serviceName = some name
  sendScopeResponse : scan.sendScopeResponse = true ↔ ∃ item, I item ∧ item.isDomain = true
  openIdScope : scan.openIdScope = true ↔ I .openid
  rolesScope : scan.rolesScope = true ↔ I .roles
  groupsScope : scan.groupsScope = true ↔ I .groups
  scopeRoleNames : ∀ name, name ∈ scan.scopeRoleNames ↔ ∃ item, I item ∧ item.roleName = some name
  scopeGroupNames : ∀ name, name ∈ scan.scopeGroupNames ↔
    ∃ item, I item ∧ item.groupName = some name
  roleNames : scan.roleNames = none
  groupNames : scan.groupNames = none

omit [CaseRules] in
theorem scanned_start : Scanned (fun _ => False) {} := by
  constructor
  · exact ⟨nofun, nofun, nofun⟩
  all_goals simp

omit [CaseRules] in
theorem exists_or_eq {I P : ScopeItem → Prop} {item : ScopeItem} :
    (∃ other, (I other ∨ other = item) ∧ P other) ↔ (∃ other, I other ∧ P other) ∨ P item := by
  simp only [or_and_right, exists_or, exists_eq_left]

omit [CaseRules] in
/-- What goes with a scan goes with the items it has taken in. -/
theorem fits_iff_together {scan : ScopeScan} (h : Scanned I scan) :
    scan.Fits item ↔ GoTogether fun other => I other ∨ other = item := by
  constructor
  · intro hfits
    refine ⟨?_, ?_, ?_⟩
    · rintro other (hother | rfl)
      · exact h.together.named other hother
      · exact hfits.named
    · rintro a b (ha | rfl) (hb | rfl) name name' hname hname'
      · exact h.together.domain a b ha hb name name' hname hname'
      · exact (hfits.domain name' name hname' ((h.domainName name).2 ⟨a, ha, hname⟩)).symm
      · exact hfits.domain name name' hname ((h.domainName name').2 ⟨b, hb, hname'⟩)
      · exact Option.some_inj.1 (hname.symm.trans hname')
    · rintro a b (ha | rfl) (hb | rfl) name name' hname hname'
      · exact h.together.service a b ha hb name name' hname hname'
      · exact (hfits.service name' name hname' ((h.serviceName name).2 ⟨a, ha, hname⟩)).symm
      · exact hfits.service name name' hname ((h.serviceName name').2 ⟨b, hb, hname'⟩)
      · exact Option.some_inj.1 (hname.symm.trans hname')
  · intro hwell
    refine ⟨hwell.named item (.inr rfl), ?_, ?_⟩
    · intro name other hname hother
      obtain ⟨earlier, hearlier, hdomain⟩ := (h.domainName other).1 hother
      exact hwell.domain item earlier (.inr rfl) (.inl hearlier) name other hname hdomain
    · intro name other hname hother
      obtain ⟨earlier, hearlier, hservice⟩ := (h.serviceName other).1 hother
      exact hwell.service item earlier (.inr rfl) (.inl hearlier) name other hname hservice

omit [CaseRules] in
/-- A value that agrees with the one there is either of the two. -/
theorem or_eq_some_iff {a b : Option Str} (h : ∀ name other, a = some name → b = some other →
    name = other) (name : Str) : a.or b = some name ↔ b = some name ∨ a = some name := by
  cases a with
  | none => simp only [Option.none_or, reduceCtorEq, or_false]
  | some found =>
    simp only [Option.some_or, Option.some_inj]
    constructor
    · exact .inr
    · rintro (hb | ha)
      · exact h found name rfl hb
      · exact ha

omit [CaseRules] in
theorem mem_insert_iff {names : List Str} (found : Option Str) (name : Str) :
    name ∈ (found.map names.insert).getD names ↔ name ∈ names ∨ found = some name := by
  cases found with
  | none => simp only [Option.map_none, Option.getD_none, reduceCtorEq, or_false]
  | some value =>
    rw [Option.map_some, Option.getD_some, List.mem_insert_iff, Option.some_inj, or_comm,
      eq_comm (a := name)]

omit [CaseRules] in
theorem Scanned.add {scan : ScopeScan} (h : Scanned I scan) (hfits : scan.Fits item) :
    Scanned (fun other => I other ∨ other = item) (scan.add item) where
  together := (fits_iff_together h).1 hfits
  domainName name := by
    rw [exists_or_eq, ← h.domainName]
    exact or_eq_some_iff hfits.domain name
  serviceName name := by
    rw [exists_or_eq, ← h.serviceName]
    exact or_eq_some_iff hfits.service name
  sendScopeResponse := by
    rw [exists_or_eq, ← h.sendScopeResponse, ScopeScan.add, Bool.or_eq_true, or_comm]
  openIdScope := by
    rw [← h.openIdScope, ScopeScan.add, Bool.or_eq_true, decide_eq_true_iff, or_comm,
      eq_comm (a := item)]
  rolesScope := by
    rw [← h.rolesScope, ScopeScan.add, Bool.or_eq_true, decide_eq_true_iff, or_comm,
      eq_comm (a := item)]
  groupsScope := by
    rw [← h.groupsScope, ScopeScan.add, Bool.or_eq_true, decide_eq_true_iff, or_comm,
      eq_comm (a := item)]
  scopeRoleNames name := by
    rw [exists_or_eq, ← h.scopeRoleNames]
    exact mem_insert_iff item.roleName name
  scopeGroupNames name := by
    rw [exists_or_eq, ← h.scopeGroupNames]
    exact mem_insert_iff item.groupName name
  roleNames := h.roleNames
  groupNames := h.groupNames

/-- Items taken in together with further ones. -/
def With (I : ScopeItem → Prop) (texts : List Str) (item : ScopeItem) : Prop :=
  I item ∨ ∃ text ∈ texts, ScopeItem.ofText text = item

theorem with_cons (I : ScopeItem → Prop) (text : Str) (texts : List Str) :
    With I (text :: texts) = With (fun other => I other ∨ other = ScopeItem.ofText text) texts := by
  funext item
  simp only [With, List.exists_mem_cons_iff, or_assoc, eq_comm (a := item)]

/-- The scan of items that go together succeeds and takes them in; any other scan fails. -/
theorem foldlM_scanItem {scan : ScopeScan} (h : Scanned I scan) (texts : List Str) :
    (GoTogether (With I texts) → ∃ scan', texts.foldlM scanItem scan = .ok scan') ∧
      ∀ scan', texts.foldlM scanItem scan = .ok scan' → Scanned (With I texts) scan' := by
  induction texts generalizing I scan with
  | nil =>
    have hnil : With I [] = I := by
      funext item
      simp only [With, List.not_mem_nil, false_and, exists_false, or_false]
    rw [hnil]
    refine ⟨fun _ => ⟨scan, rfl⟩, fun scan' hscan => ?_⟩
    cases hscan
    exact h
  | cons text texts ih =>
    rw [with_cons, List.foldlM_cons]
    constructor
    · intro hwell
      have hfits : scan.Fits (ScopeItem.ofText text) :=
        (fits_iff_together h).2 (hwell.anti fun _ => .inl)
      obtain ⟨scan', hscan⟩ := (ih (h.add hfits)).1 hwell
      exact ⟨scan', bind_eq_ok.2 ⟨_, scanItem_ok_iff.2 ⟨hfits, rfl⟩, hscan⟩⟩
    · intro scan' hscan
      obtain ⟨next, hnext, hrest⟩ := bind_eq_ok.1 hscan
      obtain ⟨hfits, rfl⟩ := scanItem_ok_iff.1 hnext
      exact (ih (h.add hfits)).2 scan' hrest

end ScopeScan

end Scan

section Scopes

open OAuthTokenRequest (ofScope)

theorem with_asked [CaseRules] (scope : Str) :
    ScopeScan.With (fun _ => False) (splitTrim ' ' scope) = Asked scope := by
  funext item
  simp only [ScopeScan.With, false_or, Asked]

/-- A role or group name of items with one domain is a name in that domain. -/
theorem exists_role_iff {I : ScopeItem → Prop} {scan : ScopeScan} (h : scan.Scanned I)
    (roleName : Str) : roleName ∈ scan.scopeRoleNames ↔
      ∃ name, scan.domainName = some name ∧ I (.role name roleName) := by
  rw [h.scopeRoleNames]
  constructor
  · rintro ⟨item, hitem, hname⟩
    cases item with
    | role name roleName' =>
      cases hname
      exact ⟨name, (h.domainName name).2 ⟨_, hitem, rfl⟩, hitem⟩
    | _ => cases hname
  · rintro ⟨name, _, hitem⟩
    exact ⟨_, hitem, rfl⟩

theorem exists_group_iff {I : ScopeItem → Prop} {scan : ScopeScan} (h : scan.Scanned I)
    (groupName : Str) : groupName ∈ scan.scopeGroupNames ↔
      ∃ name, scan.domainName = some name ∧ I (.group name groupName) := by
  rw [h.scopeGroupNames]
  constructor
  · rintro ⟨item, hitem, hname⟩
    cases item with
    | group name groupName' =>
      cases hname
      exact ⟨name, (h.domainName name).2 ⟨_, hitem, rfl⟩, hitem⟩
    | _ => cases hname
  · rintro ⟨name, _, hitem⟩
    exact ⟨_, hitem, rfl⟩

theorem exists_role_item {I : ScopeItem → Prop} {scan : ScopeScan} (h : scan.Scanned I) :
    scan.scopeRoleNames ≠ [] ↔ ∃ name roleName, I (.role name roleName) := by
  constructor
  · intro hsome
    obtain ⟨roleName, hmem⟩ := List.exists_mem_of_ne_nil _ hsome
    obtain ⟨name, _, hitem⟩ := (exists_role_iff h roleName).1 hmem
    exact ⟨name, roleName, hitem⟩
  · rintro ⟨name, roleName, hitem⟩
    exact List.ne_nil_of_mem ((h.scopeRoleNames roleName).2 ⟨_, hitem, rfl⟩)

theorem exists_group_item {I : ScopeItem → Prop} {scan : ScopeScan} (h : scan.Scanned I) :
    scan.scopeGroupNames ≠ [] ↔ ∃ name groupName, I (.group name groupName) := by
  constructor
  · intro hsome
    obtain ⟨groupName, hmem⟩ := List.exists_mem_of_ne_nil _ hsome
    obtain ⟨name, _, hitem⟩ := (exists_group_iff h groupName).1 hmem
    exact ⟨name, groupName, hitem⟩
  · rintro ⟨name, groupName, hitem⟩
    exact List.ne_nil_of_mem ((h.scopeGroupNames groupName).2 ⟨_, hitem, rfl⟩)

/-- A set of names that is left out when it is empty. -/
def namesIfAny (l : List Str) : Option (List Str) := if l = [] then none else some l

theorem getD_namesIfAny (l : List Str) : (namesIfAny l).getD [] = l := by
  unfold namesIfAny
  split
  · rename_i h
    exact h.symm
  · rfl

theorem namesIfAny_ne_some_nil (l : List Str) : namesIfAny l ≠ some [] := by
  unfold namesIfAny
  split
  · exact nofun
  · rename_i h
    exact fun hnil => h (Option.some_inj.1 hnil)

variable [CaseRules]

/-- The request that a finished scan is turned into. -/
theorem ofScope_ok_iff : ofScope scope = .ok request ↔
    ∃ scan, (splitTrim ' ' scope).foldlM ScopeScan.scanItem {} = .ok scan ∧
      request = if scan.sendScopeResponse then
        { scan.toOAuthTokenRequest with
          rolesScope := scan.rolesScope || scan.scopeRoleNames ≠ []
          groupsScope := scan.groupsScope || scan.scopeGroupNames ≠ [] }
      else
        { scan.toOAuthTokenRequest with
          roleNames := namesIfAny scan.scopeRoleNames
          groupNames := namesIfAny scan.scopeGroupNames } := by
  rw [ofScope, bind_eq_ok]
  apply exists_congr
  intro scan
  apply and_congr_right
  intro _
  cases scan.sendScopeResponse with
  | true => exact pure_eq_ok.trans eq_comm
  | false => exact pure_eq_ok.trans eq_comm

theorem describes_of_scanned {I : ScopeItem → Prop} {scan : ScopeScan} (h : scan.Scanned I)
    (hscan : (splitTrim ' ' scope).foldlM ScopeScan.scanItem {} = .ok scan)
    (hrequest : ofScope scope = .ok request) : Describes I request := by
  obtain ⟨scan', hscan', rfl⟩ := ofScope_ok_iff.1 hrequest
  rw [hscan] at hscan'
  cases hscan'
  cases hsend : scan.sendScopeResponse with
  | true =>
    rw [if_pos rfl]
    refine ⟨h.domainName, h.serviceName, h.sendScopeResponse, h.openIdScope, ?_, ?_, ?_, ?_, ?_, ?_⟩
    · dsimp only
      rw [Bool.or_eq_true, decide_eq_true_iff, h.rolesScope, exists_role_item h,
        and_iff_right hsend]
    · dsimp only
      rw [Bool.or_eq_true, decide_eq_true_iff, h.groupsScope, exists_group_item h,
        and_iff_right hsend]
    · intro roleName
      dsimp only
      rw [h.roleNames, hsend]
      simp
    · intro groupName
      dsimp only
      rw [h.groupNames, hsend]
      simp
    · dsimp only
      rw [h.roleNames]
      exact nofun
    · dsimp only
      rw [h.groupNames]
      exact nofun
  | false =>
    rw [if_neg Bool.false_ne_true]
    refine ⟨h.domainName, h.serviceName, h.sendScopeResponse, h.openIdScope, ?_, ?_, ?_, ?_, ?_, ?_⟩
    · dsimp only
      rw [h.rolesScope, hsend]
      simp
    · dsimp only
      rw [h.groupsScope, hsend]
      simp
    · intro roleName
      dsimp only
      rw [getD_namesIfAny, exists_role_iff h, and_iff_right hsend]
    · intro groupName
      dsimp only
      rw [getD_namesIfAny, exists_group_iff h, and_iff_right hsend]
    · exact namesIfAny_ne_some_nil _
    · exact namesIfAny_ne_some_nil _

theorem ofScope_describes (h : ofScope scope = .ok request) :
    GoTogether (Asked scope) ∧ Describes (Asked scope) request := by
  obtain ⟨scan, hscan, _⟩ := ofScope_ok_iff.1 h
  have hscanned := (ScopeScan.foldlM_scanItem ScopeScan.scanned_start (splitTrim ' ' scope)).2 scan hscan
  rw [with_asked] at hscanned
  exact ⟨hscanned.together, describes_of_scanned hscanned hscan h⟩

theorem ofScope_accepts (h : GoTogether (Asked scope)) : ∃ request, ofScope scope = .ok request := by
  rw [← with_asked] at h
  obtain ⟨scan, hscan⟩ :=
    (ScopeScan.foldlM_scanItem ScopeScan.scanned_start (splitTrim ' ' scope)).1 h
  exact ⟨_, ofScope_ok_iff.2 ⟨scan, hscan, rfl⟩⟩

end Scopes

section Results

theorem isSome_of_getD {a b : Option (List Str)} (ha : a ≠ some []) (hb : b ≠ some [])
    (h : ∀ name, name ∈ a.getD [] ↔ name ∈ b.getD []) : a.isSome = b.isSome := by
  have hset (c d : Option (List Str)) (hc : c ≠ some [])
      (hcd : ∀ name, name ∈ c.getD [] → name ∈ d.getD []) (hsome : c.isSome = true) :
      d.isSome = true := by
    obtain ⟨l, rfl⟩ := Option.isSome_iff_exists.1 hsome
    cases l with
    | nil => exact absurd rfl hc
    | cons name l =>
      have hmem := hcd name List.mem_cons_self
      cases d with
      | none => exact absurd hmem List.not_mem_nil
      | some _ => rfl
  exact Bool.eq_iff_iff.2 ⟨hset a b ha fun name => (h name).1, hset b a hb fun name => (h name).2⟩

/-- Items determine a request but for the order of its names. -/
theorem Describes.same {I : ScopeItem → Prop} {a b : OAuthTokenRequest} (ha : Describes I a)
    (hb : Describes I b) : SameRequest a b := by
  have hdomain : a.domainName = b.domainName :=
    Option.ext fun name => (ha.domainName name).trans (hb.domainName name).symm
  have hsend : a.sendScopeResponse = b.sendScopeResponse :=
    Bool.eq_iff_iff.2 (ha.sendScopeResponse.trans hb.sendScopeResponse.symm)
  have hroles (name : Str) : name ∈ a.roleNames.getD [] ↔ name ∈ b.roleNames.getD [] := by
    rw [ha.roleNames, hb.roleNames, hdomain, hsend]
  have hgroups (name : Str) : name ∈ a.groupNames.getD [] ↔ name ∈ b.groupNames.getD [] := by
    rw [ha.groupNames, hb.groupNames, hdomain, hsend]
  exact
    { domainName := hdomain
      serviceName := Option.ext fun name => (ha.serviceName name).trans (hb.serviceName name).symm
      sendScopeResponse := hsend
      openIdScope := Bool.eq_iff_iff.2 (ha.openIdScope.trans hb.openIdScope.symm)
      rolesScope := Bool.eq_iff_iff.2 (by rw [ha.rolesScope, hb.rolesScope, hsend])
      groupsScope := Bool.eq_iff_iff.2 (by rw [ha.groupsScope, hb.groupsScope, hsend])
      roleNames := hroles
      groupNames := hgroups
      rolesSet := isSome_of_getD ha.rolesUnset hb.rolesUnset hroles
      groupsSet := isSome_of_getD ha.groupsUnset hb.groupsUnset hgroups }

/-- A scope is accepted when its items go together; the request then says what they ask for, and
so it does for every order and repetition of the items. -/
structure ReadByItems [CaseRules] (scope : Str) : Prop where
  accepts : (∃ request, OAuthTokenRequest.ofScope scope = .ok request) ↔ GoTogether (Asked scope)
  describes : ∀ request, OAuthTokenRequest.ofScope scope = .ok request →
    Describes (Asked scope) request
  reordered : ∀ other, (∀ text, text ∈ splitTrim ' ' scope ↔ text ∈ splitTrim ' ' other) →
    ∀ request, OAuthTokenRequest.ofScope scope = .ok request →
      ∃ otherRequest, OAuthTokenRequest.ofScope other = .ok otherRequest ∧
        SameRequest request otherRequest

theorem scope_read_by_items [CaseRules] (scope : Str) : ReadByItems scope where
  accepts := by
    constructor
    · rintro ⟨request, h⟩
      exact (ofScope_describes h).1
    · exact ofScope_accepts
  describes request h := (ofScope_describes h).2
  reordered other hitems request h := by
    obtain ⟨hwell, hdescribes⟩ := ofScope_describes h
    have hasked : Asked scope = Asked other := by
      funext item
      simp only [Asked, hitems]
    rw [hasked] at hwell hdescribes
    obtain ⟨otherRequest, hother⟩ := ofScope_accepts hwell
    exact ⟨otherRequest, hother, hdescribes.same (ofScope_describes hother).2⟩

end Results

end Athenz.Zts
