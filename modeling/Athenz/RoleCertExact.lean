import Athenz.RoleCertView
import Athenz.GroupIndex

namespace Athenz.Zts
open Lib Lib.Text Lib.Index Lib.Diff
set_option autoImplicit true

namespace RequireRoleCertCache

open RolePrefixTrie DataStore

section Versions

/-- The member lists that the cache keeps for a version of a role. -/
def cachedMembers : Option Role → List RoleMemberCache
  | none => []
  | some role => if isRoleCertRequired role then getRoleMembersForCache role else []

/-- The names of the members for which a version of a role requires certificates. -/
def requiredNames (now : Int) (version : Option Role) : List Str :=
  ((cachedMembers version).filter fun member => !shouldSkipRoleMember member now).map
    (·.roleMember.memberName)

/-- A role with names from a set, each member once and named as ZMS allows it. -/
structure GoodRole (names : Set Str) (role : Role) : Prop where
  name_mem : role.name ∈ names
  nodup : ((role.roleMembers.getD []).map (·.memberName)).Nodup
  members : ∀ member ∈ role.roleMembers.getD [],
    member.memberName ∈ names ∧ GoodMember member.memberName

/-- A fact about a role with a name from a set, in the trie at the path of a wildcard. -/
def Fact.Fits (names : Set Str) (fact : Fact) : Prop :=
  fact.role ∈ names ∧ ∀ path role, fact = .prefixed path role →
    ∃ wildcard, Wildcard wildcard ∧ ['*'] <:+ wildcard ∧ wildcard ≠ "*" ∧ path = triePath wildcard

/-- The cache keeps exactly what the latest versions of the roles require. -/
structure CertsExact (now : Int) (names : Set Str) (version : Str → Option Role)
    (cache : RequireRoleCertCache) : Prop where
  good : ∀ name role, version name = some role → role.name = name ∧ GoodRole names role
  cached : ∀ name, cache.roleMemberRequireCertCache.listAt name = cachedMembers (version name)
  fits : ∀ fact, cache.Holds fact → fact.Fits names
  entries : ∀ principal role, cache.Holds (.entry principal role) ↔
    principal ∈ requiredNames now (version role)
  registered : ∀ role name, GoodMember name → (cache.Registered role name ↔
    name ∈ requiredNames now (version role) ∧ ['*'] <:+ name)

theorem mem_requiredNames : name ∈ requiredNames now version ↔
    ∃ member ∈ cachedMembers version, shouldSkipRoleMember member now = false ∧
      member.roleMember.memberName = name := by
  simp only [requiredNames, List.mem_map, List.mem_filter, Bool.not_eq_true', and_assoc]

theorem map_getRoleMembersForCache (role : Role) :
    (getRoleMembersForCache role).map (·.roleMember.memberName) =
      (role.roleMembers.getD []).map (·.memberName) := by
  rw [getRoleMembersForCache, List.map_map]
  rfl

theorem mem_getRoleMembersForCache (h : member ∈ getRoleMembersForCache role) :
    member.role = role.name ∧ member.roleMember ∈ role.roleMembers.getD [] := by
  obtain ⟨roleMember, hmember, rfl⟩ := List.mem_map.1 h
  exact ⟨rfl, hmember⟩

/-- Replacing the version of one role keeps the cache exact when its facts change accordingly. -/
theorem CertsExact.replace {cache' : RequireRoleCertCache} {replacement : Option Role}
    (h : CertsExact now names version cache)
    (hgood : ∀ role, replacement = some role → role.name = roleName ∧ GoodRole names role)
    (hcached : ∀ name, cache'.roleMemberRequireCertCache.listAt name =
      if name = roleName then cachedMembers replacement
      else cache.roleMemberRequireCertCache.listAt name)
    (hfits : ∀ fact, cache'.Holds fact → fact.Fits names)
    (hother : ∀ fact : Fact, fact.role ∈ names → fact.role ≠ roleName →
      (cache'.Holds fact ↔ cache.Holds fact))
    (hentries : ∀ principal, cache'.Holds (.entry principal roleName) ↔
      principal ∈ requiredNames now replacement)
    (hregistered : ∀ name, GoodMember name → (cache'.Registered roleName name ↔
      name ∈ requiredNames now replacement ∧ ['*'] <:+ name)) :
    CertsExact now names (Function.update version roleName replacement) cache' where
  good := by
    intro name role hversion
    by_cases hname : name = roleName
    · subst hname
      rw [Function.update_self] at hversion
      exact hgood role hversion
    · rw [Function.update_of_ne hname] at hversion
      exact h.good name role hversion
  cached := by
    intro name
    rw [hcached]
    by_cases hname : name = roleName
    · subst hname
      rw [if_pos rfl, Function.update_self]
    · rw [if_neg hname, Function.update_of_ne hname]
      exact h.cached name
  fits := hfits
  entries := by
    intro principal role
    by_cases hname : role = roleName
    · subst hname
      rw [Function.update_self]
      exact hentries principal
    · rw [Function.update_of_ne hname, ← h.entries]
      by_cases hmem : role ∈ names
      · exact hother (.entry principal role) hmem hname
      · exact iff_of_false (fun hholds => hmem (hfits _ hholds).1)
          (fun hholds => hmem (h.fits _ hholds).1)
  registered := by
    intro role name hname
    by_cases hrole : role = roleName
    · subst hrole
      rw [Function.update_self]
      exact hregistered name hname
    · rw [Function.update_of_ne hrole, ← h.registered role name hname]
      by_cases hmem : role ∈ names
      · rw [Registered, Registered, hother (.wildcard role) hmem hrole,
          hother (.prefixed (triePath name) role) hmem hrole]
      · apply iff_of_false
        · rintro (⟨_, hholds⟩ | ⟨_, _, hholds⟩)
          · exact hmem (hfits _ hholds).1
          · exact hmem (hfits _ hholds).1
        · rintro (⟨_, hholds⟩ | ⟨_, _, hholds⟩)
          · exact hmem (h.fits _ hholds).1
          · exact hmem (h.fits _ hholds).1

end Versions

section Steps

variable [CaseRules] {cache : RequireRoleCertCache} {role : Role}

theorem processRoleCache_eq (now : Int) (role : Role) (cache : RequireRoleCertCache) :
    cache.processRoleCache now role =
      diffUpdate equalsIgnoreCase (·.roleMember.memberName) (updateMember now role.name)
        (addMember now role.name) (deleteMember role.name)
        (cache.roleMemberRequireCertCache.listAt role.name) (getRoleMembersForCache role)
        { cache with roleMemberRequireCertCache :=
            cache.roleMemberRequireCertCache.insert role.name (getRoleMembersForCache role) } := rfl

/-- A property that every member step of the processing of a role keeps. -/
theorem processRoleCache_induction {P : RequireRoleCertCache → Prop}
    (hstart : P { cache with roleMemberRequireCertCache :=
      cache.roleMemberRequireCertCache.insert role.name (getRoleMembersForCache role) })
    (hupdate : ∀ c, P c → ∀ member ∈ getRoleMembersForCache role,
      P (updateMember now role.name c member))
    (hadd : ∀ c, P c → ∀ member ∈ getRoleMembersForCache role, P (addMember now role.name c member))
    (hdelete : ∀ c member, P c → P (deleteMember role.name c member)) :
    P (cache.processRoleCache now role) := by
  rw [processRoleCache_eq, diffUpdate]
  refine foldl_invariant hdelete _ (List.foldlRecOn _ _ (List.foldlRecOn _ _ hstart ?_) ?_)
  · intro c hc member hmember
    exact hupdate c hc member (without_subset member hmember)
  · intro c hc member hmember
    exact hadd c hc member (without_subset member hmember)

theorem listAt_processRoleCache (name : Str) :
    (cache.processRoleCache now role).roleMemberRequireCertCache.listAt name =
      if name = role.name then getRoleMembersForCache role
      else cache.roleMemberRequireCertCache.listAt name := by
  have hkeep : (cache.processRoleCache now role).roleMemberRequireCertCache =
      cache.roleMemberRequireCertCache.insert role.name (getRoleMembersForCache role) := by
    refine processRoleCache_induction (P := fun c => c.roleMemberRequireCertCache =
      cache.roleMemberRequireCertCache.insert role.name (getRoleMembersForCache role)) rfl ?_ ?_ ?_
    · intro c hc member _
      rw [← hc]
      exact roleMemberRequireCertCache_updateMember
    · intro c hc member _
      rw [← hc]
      exact roleMemberRequireCertCache_addMember
    · intro c member hc
      rw [← hc]
      exact roleMemberRequireCertCache_deleteMember
  rw [hkeep, Map.listAt_insert]

/-- The facts after the processing of a role were there before, or are about one of its members. -/
theorem holds_processRoleCache (fact : Fact) (h : (cache.processRoleCache now role).Holds fact) :
    cache.Holds fact ∨ fact.role = role.name ∧
      ∃ member ∈ getRoleMembersForCache role, fact.At member.roleMember.memberName := by
  refine processRoleCache_induction (P := fun c => ∀ fact, c.Holds fact → cache.Holds fact ∨
    fact.role = role.name ∧ ∃ member ∈ getRoleMembersForCache role,
      fact.At member.roleMember.memberName) ?_ ?_ ?_ ?_ fact h
  · intro fact hfact
    exact .inl ((holds_roleMembers _).1 hfact)
  · intro c hc member hmember fact hfact
    obtain hbefore | ⟨hrole, hat⟩ := holds_updateMember (mem_getRoleMembersForCache hmember).1 hfact
    · exact hc fact hbefore
    · exact .inr ⟨hrole, member, hmember, hat⟩
  · intro c hc member hmember fact hfact
    obtain hbefore | ⟨hrole, hat⟩ := holds_addMember (mem_getRoleMembersForCache hmember).1 hfact
    · exact hc fact hbefore
    · exact .inr ⟨hrole, member, hmember, hat⟩
  · intro c member hc fact hfact
    exact hc fact (holds_deleteMember.1 hfact).1

theorem holds_processRoleCache_of_other {fact : Fact}
    (hother : equalsIgnoreCase fact.role role.name = false) (h : cache.Holds fact) :
    (cache.processRoleCache now role).Holds fact := by
  refine processRoleCache_induction (P := fun c => c.Holds fact) ((holds_roleMembers _).2 h) ?_ ?_ ?_
  · exact fun c hc member _ => holds_updateMember_of_other hother hc
  · exact fun c hc member _ => holds_addMember_of_holds hc
  · exact fun c member hc => holds_deleteMember_of_other hother hc

theorem view_entry_iff (hsafe : CaseSafe names) (hname : roleName ∈ names)
    (hfits : ∀ fact, cache.Holds fact → fact.Fits names) :
    (view roleName name cache).entry ↔ cache.Holds (.entry name roleName) := by
  rw [Holds, List.mem_map]
  refine exists_congr fun item => and_congr_right fun hitem => hsafe.iff ?_ hname
  exact (hfits (.entry name item.role) (List.mem_map_of_mem hitem)).1

omit [CaseRules] in
theorem CertsExact.cached_good (h : CertsExact now names version cache) (name : Str) :
    ((cache.roleMemberRequireCertCache.listAt name).map (·.roleMember.memberName)).Nodup ∧
      ∀ member ∈ cache.roleMemberRequireCertCache.listAt name,
        member.roleMember.memberName ∈ names ∧ GoodMember member.roleMember.memberName := by
  rw [h.cached]
  cases hversion : version name with
  | none => exact ⟨List.nodup_nil, fun _ hm => absurd hm List.not_mem_nil⟩
  | some role =>
    have hgood := (h.good name role hversion).2
    rw [cachedMembers]
    split
    · refine ⟨?_, ?_⟩
      · rw [map_getRoleMembersForCache]
        exact hgood.nodup
      · intro member hmember
        exact hgood.members _ (mem_getRoleMembersForCache hmember).2
    · exact ⟨List.nodup_nil, fun _ hm => absurd hm List.not_mem_nil⟩

omit [CaseRules] in
/-- A name for which a certificate is required is listed in the cached version of the role. -/
theorem CertsExact.mem_cached (h : CertsExact now names version cache)
    (hname : name ∈ requiredNames now (version roleName)) :
    name ∈ (cache.roleMemberRequireCertCache.listAt roleName).map (·.roleMember.memberName) := by
  rw [h.cached]
  obtain ⟨member, hmember, _, rfl⟩ := mem_requiredNames.1 hname
  exact List.mem_map_of_mem hmember

/-- What the processing of a role must find: a tagged role re-enables only members that have their
entry, or no list and no wildcard, and disables no wildcard that has its entry; a role without the
tag lists every member that has an entry. -/
def UpdateFits (now : Int) (role : Role) (cache : RequireRoleCertCache) : Prop :=
  if isRoleCertRequired role then
    ∀ member ∈ getRoleMembersForCache role,
      member.roleMember.memberName ∈
        (cache.roleMemberRequireCertCache.listAt role.name).map (·.roleMember.memberName) →
      if shouldSkipRoleMember member now then
        ['*'] <:+ member.roleMember.memberName →
          ¬ cache.Holds (.entry member.roleMember.memberName role.name)
      else cache.Holds (.entry member.roleMember.memberName role.name) ∨
        ¬ cache.Keyed member.roleMember.memberName ∧ ¬ ['*'] <:+ member.roleMember.memberName
  else ∀ principal, cache.Holds (.entry principal role.name) →
    principal ∈ (role.roleMembers.getD []).map (·.memberName)

theorem updates_processRoleCache (now : Int) (hsafe : CaseSafe names)
    (h : CertsExact now names version cache) (hgood : GoodRole names role) (hname : GoodMember name) :
    Updates equalsIgnoreCase (·.roleMember.memberName) name (view role.name name)
      (updateMember now role.name) (addMember now role.name) (deleteMember role.name)
      (updateView now) (addView now) (fun _ => deleteView)
      (cache.roleMemberRequireCertCache.listAt role.name) (getRoleMembersForCache role) := by
  obtain ⟨hnodup, hcached⟩ := h.cached_good role.name
  have hmembers : ∀ member ∈ getRoleMembersForCache role,
      member.roleMember.memberName ∈ names ∧ GoodMember member.roleMember.memberName :=
    fun member hmember => hgood.members _ (mem_getRoleMembersForCache hmember).2
  exact
    { old_new := fun a ha b hb => hsafe.iff (hcached a ha).1 (hmembers b hb).1
      new_old := fun a ha b hb => hsafe.iff (hmembers a ha).1 (hcached b hb).1
      new_new := fun a ha b hb => hsafe.iff (hmembers a ha).1 (hmembers b hb).1
      nodup_old := hnodup
      nodup_new := by
        rw [map_getRoleMembersForCache]
        exact hgood.nodup
      upd := stepsAt_updateMember fun member hmember => (mem_getRoleMembersForCache hmember).1
      add := stepsAt_addMember hname fun member hmember =>
        ⟨(mem_getRoleMembersForCache hmember).1, (hmembers member hmember).2⟩
      del := stepsAt_deleteMember hname fun member hmember => (hcached member hmember).2 }

omit [CaseRules] in
/-- A listed member requires a certificate when it is not skipped. -/
theorem mem_requiredNames_of_listed (hgood : GoodRole names role)
    (htag : isRoleCertRequired role = true) (hmember : member ∈ getRoleMembersForCache role) :
    member.roleMember.memberName ∈ requiredNames now (some role) ↔
      shouldSkipRoleMember member now = false := by
  have hnodup : ((getRoleMembersForCache role).map (·.roleMember.memberName)).Nodup := by
    rw [map_getRoleMembersForCache]
    exact hgood.nodup
  rw [mem_requiredNames, cachedMembers, if_pos htag]
  constructor
  · rintro ⟨other, hother, hskip, hsame⟩
    rw [← List.inj_on_of_nodup_map hnodup hother hmember hsame]
    exact hskip
  · intro hskip
    exact ⟨member, hmember, hskip, rfl⟩

omit [CaseRules] in
theorem notMem_requiredNames (h : name ∉ (getRoleMembersForCache role).map (·.roleMember.memberName)) :
    name ∉ requiredNames now (some role) := by
  intro hname
  obtain ⟨member, hmember, _, rfl⟩ := mem_requiredNames.1 hname
  rw [cachedMembers] at hmember
  split at hmember
  · exact h (List.mem_map_of_mem hmember)
  · exact absurd hmember List.not_mem_nil

/-- The view that the processing of a tagged role leaves at the name of a member. -/
theorem view_processRoleCache (hsafe : CaseSafe names) (h : CertsExact now names version cache)
    (hgood : GoodRole names role) (htag : isRoleCertRequired role = true)
    (hfits : UpdateFits now role cache) (hname : GoodMember name) :
    ((view role.name name (cache.processRoleCache now role)).entry ↔
      name ∈ requiredNames now (some role)) ∧
    ((view role.name name (cache.processRoleCache now role)).registered ↔
      name ∈ requiredNames now (some role) ∧ ['*'] <:+ name) := by
  have hupdates := updates_processRoleCache now hsafe h hgood hname
  have hentry : (view role.name name cache).entry ↔ name ∈ requiredNames now (version role.name) :=
    (view_entry_iff hsafe hgood.name_mem h.fits).trans (h.entries name role.name)
  have hregistered : (view role.name name cache).registered ↔
      name ∈ requiredNames now (version role.name) ∧ ['*'] <:+ name :=
    h.registered role.name name hname
  have hholds : cache.Holds (.entry name role.name) ↔ (view role.name name cache).entry :=
    (view_entry_iff hsafe hgood.name_mem h.fits).symm
  have hunknown : name ∉ (cache.roleMemberRequireCertCache.listAt role.name).map
      (·.roleMember.memberName) → name ∉ requiredNames now (version role.name) :=
    fun hnot hrequired => hnot (h.mem_cached hrequired)
  rw [processRoleCache_eq]
  by_cases hlisted : name ∈ (getRoleMembersForCache role).map (·.roleMember.memberName)
  · obtain ⟨member, hmember, rfl⟩ := List.mem_map.1 hlisted
    rw [mem_requiredNames_of_listed hgood htag hmember]
    by_cases hcached : member.roleMember.memberName ∈
        (cache.roleMemberRequireCertCache.listAt role.name).map (·.roleMember.memberName)
    · rw [hupdates.of_both hmember rfl hcached, updateView]
      rw [UpdateFits, if_pos htag] at hfits
      have hfit := hfits member hmember hcached
      cases hskip : shouldSkipRoleMember member now with
      | true =>
        rw [hskip, if_pos rfl, hholds, hentry] at hfit
        rw [if_pos rfl]
        refine ⟨iff_of_false id Bool.false_ne_true.symm, hregistered.trans ?_⟩
        exact iff_of_false (fun hboth => hfit hboth.2 hboth.1) fun hboth => Bool.false_ne_true hboth.1.symm
      | false =>
        rw [hskip, if_neg Bool.false_ne_true, hholds] at hfit
        rw [if_neg Bool.false_ne_true]
        refine ⟨iff_of_true (hfit.imp_right And.left) rfl, hregistered.trans ?_⟩
        rw [← hentry]
        constructor
        · exact fun hboth => ⟨rfl, hboth.2⟩
        · exact fun hboth => ⟨hfit.resolve_right fun hnot => hnot.2 hboth.2, hboth.2⟩
    · rw [hupdates.of_new hmember rfl hcached, addView]
      cases hskip : shouldSkipRoleMember member now with
      | true =>
        rw [if_pos rfl]
        refine ⟨hentry.trans (iff_of_false (hunknown hcached) Bool.false_ne_true.symm),
          hregistered.trans (iff_of_false (fun hboth => hunknown hcached hboth.1)
            fun hboth => Bool.false_ne_true hboth.1.symm)⟩
      | false =>
        rw [if_neg Bool.false_ne_true]
        refine ⟨iff_of_true trivial rfl, (or_iff_right ?_).trans (and_iff_right rfl).symm⟩
        exact fun hreg => hunknown hcached (hregistered.1 hreg).1
  · have hnot : name ∉ requiredNames now (some role) := notMem_requiredNames hlisted
    by_cases hcached : name ∈
        (cache.roleMemberRequireCertCache.listAt role.name).map (·.roleMember.memberName)
    · obtain ⟨member, hmember, hsame⟩ := List.mem_map.1 hcached
      rw [hupdates.of_old hmember hsame hlisted, deleteView]
      refine ⟨iff_of_false id hnot, iff_of_false ?_ fun hboth => hnot hboth.1⟩
      rintro ⟨hreg, hkeyed⟩
      apply hkeyed
      obtain ⟨items, hitems, _⟩ := holds_entry_iff.1 (hholds.2 (hentry.2 (hregistered.1 hreg).1))
      exact (view_of_lookup_some role.name hitems).2
    · rw [hupdates.of_neither hcached hlisted]
      exact ⟨hentry.trans (iff_of_false (hunknown hcached) hnot),
        hregistered.trans (iff_of_false (fun hboth => hunknown hcached hboth.1)
          fun hboth => hnot hboth.1)⟩

omit [CaseRules] in
theorem GoodRole.fits_at {fact : Fact} (hgood : GoodRole names role) (hrole : fact.role = role.name)
    (hmember : member ∈ getRoleMembersForCache role) (hat : fact.At member.roleMember.memberName) :
    fact.Fits names := by
  refine ⟨by rw [hrole]; exact hgood.name_mem, ?_⟩
  rintro path roleName rfl
  obtain ⟨hall, hstar, hpath⟩ := hat
  have hname := (hgood.members _ (mem_getRoleMembersForCache hmember).2).2
  exact ⟨_, hname hstar hall, hstar, hall, hpath⟩

theorem CaseSafe.other (hsafe : CaseSafe names) (hname : role.name ∈ names) {fact : Fact}
    (hmem : fact.role ∈ names) (hne : fact.role ≠ role.name) :
    equalsIgnoreCase fact.role role.name = false :=
  eq_false_of_ne_true fun hsame => hne (hsafe _ hmem _ hname hsame)

/-- The processing of a tagged role leaves the cache exact. -/
theorem CertsExact.processRoleCache (hsafe : CaseSafe names) (h : CertsExact now names version cache)
    (hgood : GoodRole names role) (htag : isRoleCertRequired role = true)
    (hfits : UpdateFits now role cache) :
    CertsExact now names (Function.update version role.name (some role))
      (cache.processRoleCache now role) := by
  have hfit : ∀ fact, (cache.processRoleCache now role).Holds fact → fact.Fits names := by
    intro fact hfact
    obtain hbefore | ⟨hrole, member, hmember, hat⟩ := holds_processRoleCache fact hfact
    · exact h.fits fact hbefore
    · exact hgood.fits_at hrole hmember hat
  refine h.replace ?_ ?_ hfit ?_ ?_ ?_
  · rintro _ ⟨⟩
    exact ⟨rfl, hgood⟩
  · intro name
    rw [listAt_processRoleCache, cachedMembers, if_pos htag]
  · intro fact hmem hne
    have hother := CaseSafe.other hsafe hgood.name_mem hmem hne
    refine ⟨fun hfact => ?_, holds_processRoleCache_of_other hother⟩
    obtain hbefore | ⟨hrole, _⟩ := holds_processRoleCache fact hfact
    · exact hbefore
    · exact absurd hrole hne
  · intro principal
    by_cases hprincipal : GoodMember principal
    · rw [← view_entry_iff hsafe hgood.name_mem hfit]
      exact (view_processRoleCache hsafe h hgood htag hfits hprincipal).1
    · apply iff_of_false
      · intro hholds
        obtain hbefore | ⟨_, member, hmember, hat⟩ := holds_processRoleCache _ hholds
        · have hcached := h.mem_cached ((h.entries principal role.name).1 hbefore)
          obtain ⟨member, hmember, rfl⟩ := List.mem_map.1 hcached
          exact hprincipal ((h.cached_good role.name).2 member hmember).2
        · obtain rfl : principal = member.roleMember.memberName := hat
          exact hprincipal (hgood.members _ (mem_getRoleMembersForCache hmember).2).2
      · intro hrequired
        obtain ⟨member, hmember, _, rfl⟩ := mem_requiredNames.1 hrequired
        rw [cachedMembers, if_pos htag] at hmember
        exact hprincipal (hgood.members _ (mem_getRoleMembersForCache hmember).2).2
  · intro name hname
    exact (view_processRoleCache hsafe h hgood htag hfits hname).2

omit [CaseRules] in
theorem keyed_of_holds_entry (h : cache.Holds (.entry principal roleName)) :
    cache.Keyed principal := by
  obtain ⟨items, hitems, _⟩ := holds_entry_iff.1 h
  rw [Keyed, hitems]
  rfl

/-- The deletion of a role whose members cover its entries takes all of its facts. -/
theorem CertsExact.removesRole (h : CertsExact now names version cache)
    (hcovers : ∀ principal, cache.Holds (.entry principal role.name) →
      principal ∈ (role.roleMembers.getD []).map (·.memberName))
    {fact : Fact} (hfact : cache.Holds fact) (hrole : fact.role = role.name) :
    RemovesRole cache.Keyed role fact := by
  have hlisted : ∀ name, cache.Holds (.entry name role.name) →
      ∃ member ∈ role.roleMembers.getD [], member.memberName = name ∧ cache.Keyed name := by
    intro name hentry
    obtain ⟨member, hmember, hname⟩ := List.mem_map.1 (hcovers name hentry)
    exact ⟨member, hmember, hname, keyed_of_holds_entry hentry⟩
  have hwildcard : ∀ name, GoodMember name → cache.Registered role.name name →
      cache.Holds (.entry name role.name) := by
    intro name hname hregistered
    exact (h.entries name role.name).2 ((h.registered role.name name hname).1 hregistered).1
  cases fact with
  | entry principal roleName =>
    obtain rfl : roleName = role.name := hrole
    obtain ⟨member, hmember, hname, _⟩ := hlisted principal hfact
    exact ⟨member, hmember, hname.symm, equalsIgnoreCase_refl _⟩
  | wildcard roleName =>
    obtain rfl : roleName = role.name := hrole
    have hentry := hwildcard "*" (fun _ hne => absurd rfl hne) (.inl ⟨rfl, hfact⟩)
    obtain ⟨member, hmember, hname, hkeyed⟩ := hlisted _ hentry
    exact ⟨member, hmember, hname, hname ▸ hkeyed, rfl⟩
  | prefixed path roleName =>
    obtain rfl : roleName = role.name := hrole
    obtain ⟨wildcard, hgood, hstar, hall, rfl⟩ := (h.fits _ hfact).2 path _ rfl
    have hentry := hwildcard wildcard (fun _ _ => hgood) (.inr ⟨hall, hstar, hfact⟩)
    obtain ⟨member, hmember, rfl, hkeyed⟩ := hlisted _ hentry
    exact ⟨member, hmember, hall, hstar, hkeyed, rfl, rfl⟩

/-- The deletion of a role whose members cover its entries leaves the cache exact. -/
theorem CertsExact.processRoleCacheDelete (hsafe : CaseSafe names)
    (h : CertsExact now names version cache) (hname : role.name ∈ names)
    (hcovers : ∀ principal, cache.Holds (.entry principal role.name) →
      principal ∈ (role.roleMembers.getD []).map (·.memberName))
    {replacement : Option Role} (hgood : ∀ role', replacement = some role' →
      role'.name = role.name ∧ GoodRole names role')
    (hnone : cachedMembers replacement = []) :
    CertsExact now names (Function.update version role.name replacement)
      (cache.processRoleCacheDelete role) := by
  have hgone : ∀ fact : Fact, fact.role = role.name →
      ¬ (cache.processRoleCacheDelete role).Holds fact := by
    intro fact hrole hfact
    obtain ⟨hbefore, hnot⟩ := holds_processRoleCacheDelete.1 hfact
    exact hnot (h.removesRole hcovers hbefore hrole)
  have hrequired : requiredNames now replacement = [] := by
    rw [requiredNames, hnone]
    rfl
  refine h.replace hgood ?_ ?_ ?_ ?_ ?_
  · intro name
    rw [Map.listAt, Map.listAt, lookup_processRoleCacheDelete, hnone]
    split
    · rfl
    · rfl
  · intro fact hfact
    exact h.fits fact (holds_processRoleCacheDelete.1 hfact).1
  · intro fact hmem hne
    have hother := CaseSafe.other hsafe hname hmem hne
    rw [holds_processRoleCacheDelete, and_iff_left_iff_imp]
    rintro _ ⟨member, _, hremoves⟩
    cases fact with
    | entry principal roleName => exact Bool.false_ne_true (hother.symm.trans hremoves.2)
    | wildcard roleName => exact hne hremoves.2.2
    | prefixed path roleName => exact hne hremoves.2.2.2.2
  · intro principal
    rw [hrequired]
    exact iff_of_false (hgone _ rfl) List.not_mem_nil
  · intro name _
    rw [hrequired]
    refine iff_of_false ?_ fun hboth => absurd hboth.1 List.not_mem_nil
    rintro (⟨_, hholds⟩ | ⟨_, _, hholds⟩)
    · exact hgone _ rfl hholds
    · exact hgone _ rfl hholds

/-- One role of an update. -/
theorem CertsExact.processRoleCert (hsafe : CaseSafe names) (h : CertsExact now names version cache)
    (hgood : GoodRole names role) (hfits : UpdateFits now role cache) :
    CertsExact now names (Function.update version role.name (some role))
      (DataStore.processRoleCert now cache role) := by
  rw [DataStore.processRoleCert]
  split
  · rename_i htag
    exact h.processRoleCache hsafe hgood htag hfits
  · rename_i htag
    rw [UpdateFits, if_neg htag] at hfits
    refine h.processRoleCacheDelete hsafe hgood.name_mem hfits ?_ ?_
    · rintro _ ⟨⟩
      exact ⟨rfl, hgood⟩
    · rw [cachedMembers, if_neg htag]

end Steps

end RequireRoleCertCache

end Athenz.Zts
