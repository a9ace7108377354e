import Athenz.Loading

namespace Athenz.Zts
open Lib Lib.Text Lib.Result Lib.Index
set_option autoImplicit true

section Glob

/-- A glob matches a text: a star stands for any text, a question mark for any character. -/
inductive GlobMatch : Str → Str → Prop
  | nil : GlobMatch [] []
  | text (text : Str) : GlobMatch glob rest → GlobMatch ('*' :: glob) (text ++ rest)
  | char (c : Char) : GlobMatch glob rest → GlobMatch ('?' :: glob) (c :: rest)
  | literal : c ≠ '*' → c ≠ '?' → GlobMatch glob rest → GlobMatch (c :: glob) (c :: rest)

/-- A name without glob characters and line breaks. -/
def Plain (name : Str) : Prop :=
  ∀ c ∈ name, c ≠ '*' ∧ c ≠ '?' ∧ isLineTerminator c = false

instance : Decidable (Plain name) := List.decidableBAll _ name

theorem Plain.containsMatchCharacter (h : Plain name) :
    Zts.containsMatchCharacter name = false := by
  unfold Zts.containsMatchCharacter
  rw [Bool.or_eq_false_iff, decide_eq_false_iff_not, decide_eq_false_iff_not]
  exact ⟨fun hc => (h _ hc).1 rfl, fun hc => (h _ hc).2.1 rfl⟩

theorem globMatch_star : GlobMatch ('*' :: glob) s ↔ ∃ t rest, s = t ++ rest ∧ GlobMatch glob rest := by
  constructor
  · intro h
    cases h with
    | text t h => exact ⟨t, _, rfl, h⟩
    | literal hstar _ _ => exact absurd rfl hstar
  · rintro ⟨t, rest, rfl, h⟩
    exact .text t h

theorem globMatch_mark : GlobMatch ('?' :: glob) s ↔ ∃ c rest, s = c :: rest ∧ GlobMatch glob rest := by
  constructor
  · intro h
    cases h with
    | char c h => exact ⟨c, _, rfl, h⟩
    | literal _ hmark _ => exact absurd rfl hmark
  · rintro ⟨c, rest, rfl, h⟩
    exact .char c h

theorem globMatch_literal (hstar : d ≠ '*') (hmark : d ≠ '?') :
    GlobMatch (d :: glob) s ↔ ∃ rest, s = d :: rest ∧ GlobMatch glob rest := by
  constructor
  · intro h
    cases h with
    | text t h => exact absurd rfl hstar
    | char c h => exact absurd rfl hmark
    | literal _ _ h => exact ⟨_, rfl, h⟩
  · rintro ⟨rest, rfl, h⟩
    exact .literal hstar hmark h

/-- A text without line breaks. -/
def OneLine (s : Str) : Prop := ∀ c ∈ s, isLineTerminator c = false

instance : Decidable (OneLine s) := List.decidableBAll _ s

theorem OneLine.of_append_right (h : OneLine (s ++ t)) : OneLine t :=
  fun c hc => h c (List.mem_append_right s hc)

theorem Plain.oneLine (h : Plain s) : OneLine s := fun c hc => (h c hc).2.2

/-- On names without line breaks the pattern of a glob matches what the glob does. -/
theorem matchesPattern_iff (hs : OneLine s) :
    matchesPattern (patternFromGlob glob) s = true ↔ GlobMatch glob s := by
  induction glob generalizing s with
  | nil =>
    simp only [patternFromGlob, List.map_nil, matchesPattern, decide_eq_true_eq]
    constructor
    · rintro rfl
      exact .nil
    · intro h
      cases h
      rfl
  | cons d glob ih =>
    by_cases hstar : d = '*'
    · subst hstar
      have hpattern : patternFromGlob ('*' :: glob) = .anyText :: patternFromGlob glob := rfl
      rw [hpattern, globMatch_star]
      simp only [matchesPattern, List.any_eq_true, List.mem_range, Bool.and_eq_true]
      constructor
      · rintro ⟨i, _, _, h⟩
        rw [ih (OneLine.of_append_right ((List.take_append_drop i s).symm ▸ hs))] at h
        exact ⟨s.take i, s.drop i, (List.take_append_drop i s).symm, h⟩
      · rintro ⟨t, rest, rfl, h⟩
        refine ⟨t.length, ?_, ?_, ?_⟩
        · rw [List.length_append]
          omega
        · rw [List.take_left, List.all_eq_true]
          intro c hc
          rw [hs c (List.mem_append_left rest hc)]
          rfl
        · rw [List.drop_left]
          exact (ih hs.of_append_right).2 h
    by_cases hmark : d = '?'
    · subst hmark
      have hpattern : patternFromGlob ('?' :: glob) = .anyChar :: patternFromGlob glob := rfl
      rw [hpattern, globMatch_mark]
      cases s with
      | nil => simp [matchesPattern]
      | cons c t =>
        have hc := hs c List.mem_cons_self
        simp only [matchesPattern, hc, Bool.not_false, Bool.true_and, List.cons.injEq]
        rw [ih fun c hc => hs c (.tail _ hc)]
        simp only [↓existsAndEq, and_true, true_and]
    · have hpattern : patternFromGlob (d :: glob) = .literal d :: patternFromGlob glob := by
        simp only [patternFromGlob, List.map_cons, hstar, hmark, if_false]
      rw [hpattern, globMatch_literal hstar hmark]
      cases s with
      | nil => simp [matchesPattern]
      | cons c t =>
        simp only [matchesPattern, Bool.and_eq_true, decide_eq_true_eq, List.cons.injEq]
        rw [ih fun c hc => hs c (.tail _ hc)]
        constructor
        · rintro ⟨rfl, h⟩
          exact ⟨t, ⟨rfl, rfl⟩, h⟩
        · rintro ⟨rest, ⟨rfl, rfl⟩, h⟩
          exact ⟨rfl, h⟩

theorem globMatch_append (h : containsMatchCharacter start = false) :
    GlobMatch (start ++ glob) s ↔ ∃ rest, s = start ++ rest ∧ GlobMatch glob rest := by
  induction start generalizing s with
  | nil => simp only [List.nil_append, exists_eq_left']
  | cons d start ih =>
    simp only [containsMatchCharacter, Bool.or_eq_false_iff, decide_eq_false_iff_not,
      List.mem_cons, not_or] at h
    obtain ⟨⟨hstar, hstars⟩, hmark, hmarks⟩ := h
    have hrest : containsMatchCharacter start = false := by
      simp only [containsMatchCharacter, hstars, hmarks, decide_false, Bool.or_false]
    rw [List.cons_append, globMatch_literal (Ne.symm hstar) (Ne.symm hmark)]
    simp only [ih hrest]
    constructor
    · rintro ⟨_, rfl, rest, rfl, hmatch⟩
      exact ⟨rest, rfl, hmatch⟩
    · rintro ⟨rest, rfl, hmatch⟩
      exact ⟨_, rfl, rest, rfl, hmatch⟩

theorem globMatch_of_plain (hglob : containsMatchCharacter glob = false) :
    GlobMatch glob s ↔ s = glob := by
  rw [← List.append_nil glob, globMatch_append hglob]
  constructor
  · rintro ⟨rest, rfl, hrest⟩
    cases hrest
    rfl
  · rintro rfl
    exact ⟨[], rfl, .nil⟩

/-- A delegation names a role exactly when its glob matches the name. -/
theorem roleMatches_iff (hrole : Plain role) :
    DataStore.roleMatches role glob = true ↔ GlobMatch glob role := by
  unfold DataStore.roleMatches
  split
  · exact matchesPattern_iff hrole.oneLine
  · rename_i hglob
    rw [decide_eq_true_eq, globMatch_of_plain (eq_false_of_ne_true hglob)]

end Glob

section Semantics

open DataStore DataCache

/-- A member of a role that counts at some time. -/
def RoleHas (now : Int) (role : Role) (member : RoleMember) : Prop :=
  member ∈ role.roleMembers.getD [] ∧ isMemberDisabled member.systemDisabled = false ∧
    isMemberExpired member.expiration now = false

/-- A member name stands for a principal: it is its name, a wildcard that matches it or the name
of a group that has it. -/
inductive StandsFor (now : Int) (groups : List Group) (principal : Str) : Str → Prop
  | self : StandsFor now groups principal principal
  | all : StandsFor now groups principal ['*']
  | start : x <+: principal → StandsFor now groups principal (x ++ ['*'])
  | group : group ∈ groups → GroupHas now group member → member.memberName = principal →
      StandsFor now groups principal group.name

/-- A role has an entry for a principal. -/
def MemberOf (now : Int) (groups : List Group) (role : Role) (principal : Str) : Prop :=
  ∃ member, RoleHas now role member ∧ StandsFor now groups principal member.memberName

/-- The names of the roles that a principal has in a domain: as a member, by a delegation to
another domain that lets it assume the role, or by an assertion of the domain itself. -/
inductive Accessible (now : Int) (domains : List DomainData) (domainData : DomainData)
    (principal : Str) : Str → Prop
  | member : role ∈ domainData.roles.getD [] →
      MemberOf now (allGroups domains) role principal →
      Accessible now domains domainData principal role.name
  | trust : role ∈ domainData.roles.getD [] → trusted ∈ domains →
      role.trust = some trusted.name → Assumes trusted assertion assumed →
      MemberOf now (allGroups domains) assumed principal →
      GlobMatch assertion.resource role.name →
      Accessible now domains domainData principal role.name
  | assertion : Assumes domainData assertion role →
      MemberOf now (allGroups domains) role principal →
      Accessible now domains domainData principal assertion.resource

/-- What the names of the domains, roles and groups that are delivered have in common. -/
structure WellFormed (domains : List DomainData) : Prop where
  domainNames : (domains.map (·.name)).Nodup
  roleNames : ((allRoles domains).map (·.name)).Nodup
  groupNames : ((allGroups domains).map (·.name)).Nodup
  plainRoles : ∀ role ∈ allRoles domains, Plain role.name
  plainGroups : ∀ group ∈ allGroups domains, Plain group.name
  groupMembers : ∀ group ∈ allGroups domains, ∀ member ∈ group.groupMembers.getD [],
    member.groupName = group.name
  expirations : ∀ role ∈ allRoles domains, ∀ member ∈ role.roleMembers.getD [],
    member.expiration ≠ some 0

/-- A place of the indexes is looked at for a principal. -/
def KeyCovers (now : Int) (groups : List Group) (principal : Str) : MemberKey → Prop
  | .all => True
  | .start text => text <+: principal
  | .name text => text = principal ∨
      ∃ group ∈ groups, group.name = text ∧ ∃ member, GroupHas now group member ∧
        member.memberName = principal

theorem memberKey_append_star : memberKey (x ++ ['*']) = if x = [] then .all else .start x := by
  unfold memberKey
  by_cases hx : x = []
  · subst hx
    rfl
  · have hne : x ++ ['*'] ≠ "*".toList := by
      intro h
      exact hx (List.append_cancel_right (h.trans (List.nil_append ['*']).symm))
    rw [if_neg hne, if_pos (List.suffix_append x ['*']), List.dropLast_concat, if_neg hx]

theorem Plain.memberKey (h : Plain name) : Zts.memberKey name = .name name := by
  unfold Zts.memberKey
  have hne : name ≠ "*".toList := by
    rintro rfl
    exact (h '*' (by decide)).1 rfl
  have hsuffix : ¬ ['*'] <:+ name := by
    rintro ⟨x, rfl⟩
    exact (h '*' (List.mem_append_right x List.mem_cons_self)).1 rfl
  rw [if_neg hne, if_neg hsuffix]

theorem standsFor_iff (hgroups : ∀ group ∈ groups, Plain group.name) :
    StandsFor now groups principal memberName ↔
      KeyCovers now groups principal (memberKey memberName) := by
  constructor
  · intro h
    cases h with
    | self =>
      unfold memberKey
      split
      · trivial
      split
      · exact List.dropLast_prefix principal
      · exact .inl rfl
    | all => trivial
    | start hx =>
      rw [memberKey_append_star]
      split
      · trivial
      · exact hx
    | group hgroup hmember hname =>
      rw [(hgroups _ hgroup).memberKey]
      exact .inr ⟨_, hgroup, rfl, _, hmember, hname⟩
  · intro h
    unfold memberKey at h
    split at h
    · rename_i hall
      rw [hall]
      exact .all
    split at h
    · rename_i hsuffix
      obtain ⟨x, rfl⟩ := hsuffix
      rw [List.dropLast_concat] at h
      exact .start h
    · obtain rfl | ⟨group, hgroup, rfl, member, hmember, hname⟩ := h
      · exact .self
      · exact .group hgroup hmember hname

theorem isMemberExpired_of_le (hle : loaded ≤ now)
    (h : isMemberExpired expiration now = false) : isMemberExpired expiration loaded = false := by
  cases expiration with
  | none => rfl
  | some time =>
    simp only [isMemberExpired, Option.any_some, decide_eq_false_iff_not] at h ⊢
    omega

/-- The entries of the indexes that apply to a principal are those it is covered by. -/
theorem hasEntry_iff {store : DataStore} (hstore : GroupsLoaded loaded groups store)
    (hle : loaded ≤ now) (hnames : ∀ group ∈ groups, ∀ member ∈ group.groupMembers.getD [],
      member.groupName = group.name) :
    HasEntry store now cache principal entry ↔
      ∃ key, entry ∈ cache.entriesAt key ∧ KeyCovers now groups principal key := by
  constructor
  · rintro (h | h | ⟨start, entries, hlookup, hstart, hentry⟩ | ⟨member, hmember, hexpired, hentry⟩)
    · exact ⟨.name principal, h, .inl rfl⟩
    · exact ⟨.all, h, trivial⟩
    · refine ⟨.start start, ?_, hstart⟩
      simp only [entriesAt, Map.listAt, hlookup, Option.getD_some]
      exact hentry
    · obtain ⟨group, hgroup, hhas, hname⟩ := (hstore.entries _ _).1 hmember
      have hnow : GroupHas now group member :=
        ⟨hhas.1, Bool.or_eq_false_iff.2 ⟨(Bool.or_eq_false_iff.1 hhas.2).1, hexpired⟩⟩
      rw [hnames group hgroup member hhas.1] at hentry
      exact ⟨.name group.name, hentry, .inr ⟨group, hgroup, rfl, member, hnow, hname⟩⟩
  · rintro ⟨key, hentry, hcovers⟩
    cases key with
    | all => exact .inr (.inl hentry)
    | start start =>
      obtain ⟨entries, hlookup, hmem⟩ := Map.mem_listAt_iff.1 hentry
      exact .inr (.inr (.inl ⟨start, entries, hlookup, hcovers, hmem⟩))
    | name text =>
      obtain rfl | ⟨group, hgroup, rfl, member, hhas, hname⟩ := hcovers
      · exact .inl hentry
      · obtain ⟨hdisabled, hexpired⟩ := Bool.or_eq_false_iff.1 hhas.2
        have hloaded : GroupHas loaded group member :=
          ⟨hhas.1, Bool.or_eq_false_iff.2 ⟨hdisabled, isMemberExpired_of_le hle hexpired⟩⟩
        rw [← hnames group hgroup member hhas.1] at hentry
        exact .inr (.inr (.inr ⟨member, (hstore.entries _ _).2 ⟨group, hgroup, hloaded, hname⟩, hexpired,
          hentry⟩))

theorem isExpiredAt_iff (h : member.expiration ≠ some 0) :
    isExpiredAt (RoleMember.expirationMillis member) now =
      isMemberExpired member.expiration now := by
  unfold isExpiredAt RoleMember.expirationMillis isMemberExpired
  cases hexp : member.expiration with
  | none => rfl
  | some expiration =>
    have hne : expiration ≠ 0 := fun h0 => h (h0 ▸ hexp)
    simp [hne]

theorem mem_allRoles (hdomain : domainData ∈ domains) (hrole : role ∈ domainData.roles.getD []) :
    role ∈ allRoles domains :=
  List.mem_flatMap.2 ⟨domainData, hdomain, hrole⟩

theorem WellFormed.roleNames_of_mem (h : WellFormed domains) (hdomain : domainData ∈ domains) :
    ((domainData.roles.getD []).map (·.name)).Nodup := by
  obtain ⟨before, after, rfl⟩ := List.append_of_mem hdomain
  have hnodup := h.roleNames
  rw [allRoles, List.flatMap_append, List.flatMap_cons, List.map_append, List.map_append] at hnodup
  exact (List.nodup_append.1 (List.nodup_append.1 hnodup).2.1).1

/-- What the unexpired entries that apply to a principal say is what the roles of the domain say
about their members. -/
theorem exists_entry_iff {store : DataStore} {P : Str → Prop} (hwf : WellFormed domains)
    (hstore : Loaded codec loaded domains store) (hle : loaded ≤ now)
    (hdomain : domainData ∈ domains) (hbuild : buildCache codec loaded domainData = .ok cache) :
    (∃ entry, HasEntry store now cache principal entry ∧
        isExpiredAt entry.expiration now = false ∧ P entry.role) ↔
      ∃ role name, IndexedAs domainData role name ∧
        MemberOf now (allGroups domains) role principal ∧ P name := by
  have hunique := hwf.roleNames_of_mem hdomain
  constructor
  · rintro ⟨entry, hentry, hexpired, hP⟩
    obtain ⟨key, hmem, hcovers⟩ := (hasEntry_iff hstore.groups hle hwf.groupMembers).1 hentry
    obtain ⟨role, name, hindexed, member, hmember, hdisabled, _, hkey, rfl⟩ :=
      (mem_entriesAt_buildCache hbuild hunique).1 hmem
    have hrole := mem_allRoles hdomain hindexed.mem_roles
    rw [isExpiredAt_iff (hwf.expirations role hrole member hmember)] at hexpired
    refine ⟨role, name, hindexed, ⟨member, ⟨hmember, hdisabled, hexpired⟩, ?_⟩, hP⟩
    rw [standsFor_iff hwf.plainGroups, hkey]
    exact hcovers
  · rintro ⟨role, name, hindexed, ⟨member, ⟨hmember, hdisabled, hexpired⟩, hstands⟩, hP⟩
    have hzero := hwf.expirations role (mem_allRoles hdomain hindexed.mem_roles) member hmember
    have hloaded := isMemberExpired_of_le hle hexpired
    rw [← isExpiredAt_iff hzero] at hexpired hloaded
    have hmem := (mem_entriesAt_buildCache hbuild hunique).2
      ⟨role, name, hindexed, member, hmember, hdisabled, hloaded, rfl, rfl⟩
    exact ⟨_, (hasEntry_iff hstore.groups hle hwf.groupMembers).2
      ⟨_, hmem, (standsFor_iff hwf.plainGroups).1 hstands⟩, hexpired, hP⟩

theorem WellFormed.eq_of_name_eq (h : WellFormed domains) (hrole : role ∈ allRoles domains)
    (hrole' : role' ∈ allRoles domains) (hname : role.name = role'.name) : role = role' :=
  List.inj_on_of_nodup_map h.roleNames hrole hrole' hname

/-- The roles that the store holds for a principal are the accessible ones. -/
theorem holds_iff_accessible {store : DataStore} (hwf : WellFormed domains)
    (hstore : Loaded codec loaded domains store) (hle : loaded ≤ now)
    (hbuilt : ∀ domainData ∈ domains, ∃ cache, buildCache codec loaded domainData = .ok cache)
    (hdomain : domainData ∈ domains) (hbuild : buildCache codec loaded domainData = .ok cache) :
    store.Holds now cache principal name ↔ Accessible now domains domainData principal name := by
  constructor
  · rintro (⟨entry, hentry, hexpired, hname⟩ |
      ⟨domain, resources, trustedCache, htrust, hlookup, entry, hentry, hexpired, hmem, hmatch⟩)
    · obtain ⟨role, _, hindexed, hmember, rfl⟩ := (exists_entry_iff (P := (· = name)) hwf hstore
        hle hdomain hbuild).1 ⟨entry, hentry, hexpired, hname⟩
      obtain ⟨hrole, rfl⟩ | ⟨assertion, hassumes, rfl⟩ := hindexed
      · exact .member hrole hmember
      · exact .assertion hassumes hmember
    · obtain ⟨role, hrole, hroleTrust, rfl⟩ := (mem_trustCache_buildCache hbuild).1
        (Map.mem_listAt_iff.2 ⟨resources, htrust, hmem⟩)
      obtain ⟨trusted, htrusted, rfl, cache', hbuild', rfl⟩ := (hstore.caches _ _).1 hlookup
      have hplain := hwf.plainRoles role (mem_allRoles hdomain hrole)
      obtain ⟨assumed, resource, hindexed, hmember, hmatch⟩ := (exists_entry_iff
        (P := fun resource => roleMatches role.name resource = true) hwf hstore hle
        htrusted hbuild').1 ⟨entry, hentry, hexpired, hmatch⟩
      rw [roleMatches_iff hplain] at hmatch
      obtain ⟨hassumed, rfl⟩ | ⟨assertion, hassumes, rfl⟩ := hindexed
      · have hmem := mem_allRoles htrusted hassumed
        rw [globMatch_of_plain (hwf.plainRoles assumed hmem).containsMatchCharacter] at hmatch
        obtain rfl := hwf.eq_of_name_eq (mem_allRoles hdomain hrole) hmem hmatch
        exact .member hrole hmember
      · exact .trust hrole htrusted hroleTrust hassumes hmember hmatch
  · intro h
    cases h with
    | @member role hrole hmember =>
      exact .inl ((exists_entry_iff (P := (· = role.name)) hwf hstore hle hdomain hbuild).2
        ⟨role, role.name, .inl ⟨hrole, rfl⟩, hmember, rfl⟩)
    | @assertion assertion role hassumes hmember =>
      exact .inl ((exists_entry_iff (P := (· = assertion.resource)) hwf hstore hle hdomain hbuild).2
        ⟨role, assertion.resource, .inr ⟨assertion, hassumes, rfl⟩, hmember, rfl⟩)
    | @trust role trusted assertion assumed hrole htrusted hroleTrust hassumes hmember hmatch =>
      obtain ⟨cache', hbuild'⟩ := hbuilt trusted htrusted
      obtain ⟨resources, htrust, hmem⟩ := Map.mem_listAt_iff.1
        ((mem_trustCache_buildCache hbuild).2 ⟨role, hrole, hroleTrust, rfl⟩)
      rw [← roleMatches_iff (hwf.plainRoles role (mem_allRoles hdomain hrole))] at hmatch
      obtain ⟨entry, hentry, hexpired, hmatches⟩ := (exists_entry_iff
        (P := fun resource => roleMatches role.name resource = true) hwf hstore hle
        htrusted hbuild').2 ⟨assumed, assertion.resource, .inr ⟨assertion, hassumes, rfl⟩, hmember, hmatch⟩
      exact .inr ⟨trusted.name, resources, _, htrust,
        (hstore.caches _ _).2 ⟨trusted, htrusted, rfl, cache', hbuild', rfl⟩, entry, hentry, hexpired,
        hmem, hmatches⟩

/-- A store with all domains lists exactly the accessible roles of a domain. -/
theorem mem_getAccessibleRoles_iff {store : DataStore} (hwf : WellFormed domains)
    (hstore : Loaded codec loaded domains store) (hle : loaded ≤ now)
    (hbuilt : ∀ domainData ∈ domains, ∃ cache, buildCache codec loaded domainData = .ok cache)
    (hdomain : domainData ∈ domains) :
    name ∈ store.getAccessibleRoles now ⟨domainData.name, none, keepFullName⟩
        ((store.cacheStore.lookup domainData.name).map (·.toDataCache)) principal [] ↔
      ∃ roleName, Accessible now domains domainData principal
          (domainData.name ++ ":role.".toList ++ roleName) ∧
        name = if keepFullName then domainData.name ++ ":role.".toList ++ roleName
          else roleName := by
  obtain ⟨cache, hbuild⟩ := hbuilt domainData hdomain
  have hlookup := (hstore.caches domainData.name _).2
    ⟨domainData, hdomain, rfl, cache, hbuild, rfl⟩
  rw [hlookup, Option.map_some, mem_getAccessibleRoles]
  simp only [List.not_mem_nil, false_or, holds_iff_accessible hwf hstore hle hbuilt hdomain hbuild,
    RoleQuery.Lists, RoleQuery.requests, Option.all_none, true_and]
  constructor
  · rintro ⟨_, haccessible, ⟨roleName, rfl⟩, rfl⟩
    refine ⟨roleName, haccessible, ?_⟩
    unfold RoleQuery.listName
    split
    · rfl
    · exact List.drop_left
  · rintro ⟨roleName, haccessible, rfl⟩
    refine ⟨_, haccessible, List.prefix_append _ _, ?_⟩
    unfold RoleQuery.listName
    split
    · rfl
    · exact List.drop_left.symm

/-- The store with all domains answers with exactly the accessible roles of a domain. -/
theorem accessible_roles_exact [CaseRules] (codec : Codec) (now : Int) (domains : List DomainData)
    (domainData : DomainData) (principal : Str) (keepFullName : Bool) (name : Str)
    (hwf : WellFormed domains)
    (hbuilt : ∀ domainData ∈ domains, ∃ cache, buildCache codec now domainData = .ok cache)
    (hdomain : domainData ∈ domains) :
    name ∈ (loadDomains codec now domains {}).getAccessibleRoles now
        ⟨domainData.name, none, keepFullName⟩
        (((loadDomains codec now domains {}).cacheStore.lookup domainData.name).map
          (·.toDataCache)) principal [] ↔
      ∃ roleName, Accessible now domains domainData principal
          (domainData.name ++ ":role.".toList ++ roleName) ∧
        name = if keepFullName then domainData.name ++ ":role.".toList ++ roleName
          else roleName := by
  obtain ⟨hstore, _⟩ := Loaded.loadDomains (loaded_empty codec now) listsLoaded_empty
    hwf.domainNames hwf.groupNames hbuilt
  exact mem_getAccessibleRoles_iff hwf hstore (Int.le_refl now) hbuilt hdomain

end Semantics

section Sample

open DataStore

local instance membershipCaseRules : CaseRules := .ascii

def plainCodec : Codec where
  ybase64DecodeString := some
  readAuthzDetails _ := none

def staffGroup : Group where
  name := "sports:group.staff"
  groupMembers := some [{ memberName := "user.joe", groupName := "sports:group.staff" }]

def writersRole : Role where
  name := "sports:role.writers"
  roleMembers := some [{ memberName := "sports:group.staff" }]

def readersAssertion : Assertion where
  role := "sports:role.writers"
  resource := "sports:role.readers"
  action := "assume_role"
  effect := some .ALLOW

/-- A domain whose staff writes, and reads where the policy is active. -/
def writersDomain (active : Bool) : DomainData where
  name := "sports"
  roles := some [writersRole]
  groups := some [staffGroup]
  policies := some [{ active := some active, assertions := some [readersAssertion] }]

def writersRoles (active : Bool) : List Str :=
  (loadDomains plainCodec 100 [writersDomain active] {}).getAccessibleRoles 100
    ⟨"sports", none, true⟩
    (((loadDomains plainCodec 100 [writersDomain active] {}).cacheStore.lookup
      (↑"sports" : Str)).map (·.toDataCache)) "user.joe" []

theorem joe_writes (active : Bool) :
    MemberOf 100 (allGroups [writersDomain active]) writersRole "user.joe" := by
  have hstands : StandsFor 100 (allGroups [writersDomain active]) "user.joe" staffGroup.name :=
    .group List.mem_cons_self ⟨List.mem_cons_self, rfl⟩ rfl
  exact ⟨_, ⟨List.mem_cons_self, rfl, rfl⟩, hstands⟩

/-- The assertion of an inactive policy gives no role to the members of its role. -/
theorem inactive_policy_gives_no_role :
    (∃ policy ∈ (writersDomain false).policies.getD [],
      readersAssertion ∈ policy.assertions.getD []) ∧
    readersAssertion.action = "assume_role" ∧ readersAssertion.effect ≠ some .DENY ∧
    readersAssertion.resource = "sports:role.readers" ∧
    writersRole ∈ (writersDomain false).roles.getD [] ∧
    writersRole.name = readersAssertion.role ∧
    MemberOf 100 (allGroups [writersDomain false]) writersRole "user.joe" ∧
    "sports:role.readers".toList ∉ writersRoles false := by
  refine ⟨⟨_, List.mem_cons_self, List.mem_cons_self⟩, rfl, by decide, rfl, List.mem_cons_self, rfl,
    joe_writes false, ?_⟩
  decide +kernel

theorem active_policy_gives_role : "sports:role.readers".toList ∈ writersRoles true := by
  refine (accessible_roles_exact plainCodec 100 [writersDomain true] (writersDomain true) "user.joe"
    true "sports:role.readers" ?_ ?_ List.mem_cons_self).2 ⟨"readers", ?_, by decide +kernel⟩
  · constructor <;> decide +kernel
  · intro domainData hdomain
    rw [List.mem_singleton.1 hdomain]
    exact ⟨_, rfl⟩
  · have hassumes : Assumes (writersDomain true) readersAssertion writersRole :=
      ⟨⟨_, List.mem_cons_self, by decide, List.mem_cons_self⟩, rfl, by decide, List.mem_cons_self, rfl⟩
    exact .assertion hassumes (joe_writes true)

end Sample

end Athenz.Zts
