import Athenz.AccessToken
import Athenz.RoleCertificate

namespace Athenz.Zts
open Lib Lib.Text Lib.Result
set_option autoImplicit true

section Least

/-- The smallest positive value with a property, or zero when there is none. -/
def LeastPositive (P : Int → Prop) (n : Int) : Prop :=
  (n = 0 ∧ ∀ v, P v → v ≤ 0) ∨ (0 < n ∧ P n ∧ ∀ v, P v → 0 < v → n ≤ v)

theorem LeastPositive.congr (h : LeastPositive P n) (hPQ : ∀ v, P v ↔ Q v) : LeastPositive Q n := by
  have heq : P = Q := funext fun v => propext (hPQ v)
  exact heq ▸ h

theorem leastPositive_zero : LeastPositive (fun _ => False) 0 := .inl ⟨rfl, fun _ h => h.elim⟩

theorem leastPositive_value (n : Int) : LeastPositive (some n = some ·) (tighten 0 (some n)) := by
  by_cases hn : 0 < n
  · refine .inr ?_
    simp only [tighten, hn, true_or, and_self, if_true, true_and]
    intro v hv _
    cases hv
    exact Int.le_refl n
  · refine .inl ?_
    simp only [tighten, gt_iff_lt, hn, false_and, if_false, true_and]
    intro v hv
    cases hv
    omega

theorem tighten_tighten (limit value : Int) :
    tighten limit (some value) = tighten limit (some (tighten 0 (some value))) := by
  by_cases hvalue : 0 < value
  · have hset : tighten 0 (some value) = value := if_pos ⟨hvalue, .inl rfl⟩
    rw [hset]
  · have hunset : tighten 0 (some value) = 0 := if_neg (by omega)
    rw [hunset, tighten, tighten]
    rw [if_neg (by omega), if_neg (by omega)]

/-- Tightening a limit by another one takes the smaller of the two that are set. -/
theorem LeastPositive.tighten (h : LeastPositive P limit) (h' : LeastPositive Q value) :
    LeastPositive (fun v => P v ∨ Q v) (tighten limit (some value)) := by
  unfold Zts.tighten
  dsimp only
  rcases h with ⟨rfl, hnone⟩ | ⟨hpos, hmem, hleast⟩ <;>
    rcases h' with ⟨rfl, hnone'⟩ | ⟨hpos', hmem', hleast'⟩
  · rw [if_neg (by omega)]
    exact .inl ⟨rfl, fun v hv => hv.elim (hnone v) (hnone' v)⟩
  · rw [if_pos ⟨hpos', .inl rfl⟩]
    refine .inr ⟨hpos', .inr hmem', fun v hv hv' => ?_⟩
    rcases hv with hv | hv
    · exact absurd (hnone v hv) (by omega)
    · exact hleast' v hv hv'
  · rw [if_neg (by omega)]
    refine .inr ⟨hpos, .inl hmem, fun v hv hv' => ?_⟩
    rcases hv with hv | hv
    · exact hleast v hv hv'
    · exact absurd (hnone' v hv) (by omega)
  · split
    · refine .inr ⟨hpos', .inr hmem', fun v hv hv' => ?_⟩
      rcases hv with hv | hv
      · have hle := hleast v hv hv'
        omega
      · exact hleast' v hv hv'
    · refine .inr ⟨hpos, .inl hmem, fun v hv hv' => ?_⟩
      rcases hv with hv | hv
      · exact hleast v hv hv'
      · have hle := hleast' v hv hv'
        omega

/-- A limit is tightened by each of the values that are set. -/
theorem LeastPositive.foldl (f : α → Option Int) (items : List α) (h : LeastPositive P limit) :
    LeastPositive (fun v => P v ∨ ∃ item ∈ items, f item = some v)
      (items.foldl (fun limit item => Zts.tighten limit (f item)) limit) := by
  induction items generalizing P limit with
  | nil => exact h.congr fun v => by simp only [List.not_mem_nil, false_and, exists_false, or_false]
  | cons item items ih =>
    rw [List.foldl_cons]
    have hstep : LeastPositive (fun v => P v ∨ f item = some v) (Zts.tighten limit (f item)) := by
      cases hitem : f item with
      | none => exact h.congr fun v => by simp only [reduceCtorEq, or_false]
      | some value =>
        rw [tighten_tighten]
        exact h.tighten (leastPositive_value value)
    exact (ih hstep).congr fun v => by rw [List.exists_mem_cons_iff, or_assoc]

/-- The smallest of the smallest values is the smallest of all values. -/
theorem LeastPositive.union {ι : Type} {I : ι → Prop} {F : ι → Int → Prop} {least : ι → Int}
    (hleast : ∀ i, LeastPositive (F i) (least i))
    (h : LeastPositive (fun v => ∃ i, I i ∧ least i = v) n) :
    LeastPositive (fun v => ∃ i, I i ∧ F i v) n := by
  rcases h with ⟨rfl, hnone⟩ | ⟨hpos, ⟨i, hi, rfl⟩, hbound⟩
  · refine .inl ⟨rfl, ?_⟩
    rintro v ⟨i, hi, hv⟩
    rcases hleast i with ⟨_, hlow⟩ | ⟨hset, _, _⟩
    · exact hlow v hv
    · exact absurd (hnone _ ⟨i, hi, rfl⟩) (by omega)
  · refine .inr ⟨hpos, ⟨i, hi, ?_⟩, ?_⟩
    · rcases hleast i with ⟨hzero, _⟩ | ⟨_, hmem, _⟩
      · omega
      · exact hmem
    · rintro v ⟨j, hj, hv⟩ hv'
      rcases hleast j with ⟨_, hlow⟩ | ⟨hset, _, hsmall⟩
      · exact absurd (hlow v hv) (by omega)
      · exact Int.le_trans (hbound _ ⟨j, hj, rfl⟩ hset) (hsmall v hv hv')

end Least

section Limits

/-- Some role of the set has a limit. -/
def RoleLimit (read : RoleMeta → Option Int) (data : PublishedCache) (roles : List Str) (v : Int) :
    Prop :=
  ∃ role ∈ roles, (data.roleMetaCache.lookup role).bind read = some v

/-- The limits of a set of roles, or that of the domain when no role has a positive one. -/
def ConfiguredLimit (read : RoleMeta → Option Int) (domainLimit : Option Int)
    (data : PublishedCache) (roles : List Str) (v : Int) : Prop :=
  0 < v ∧ (RoleLimit read data roles v ∨
    (∀ w, RoleLimit read data roles w → w ≤ 0) ∧ domainLimit = some v)

theorem configuredExpiryMins_least (read : RoleMeta → Option Int) (domainLimit : Option Int)
    (data : PublishedCache) (roles : List Str) :
    LeastPositive (ConfiguredLimit read domainLimit data roles)
      (configuredExpiryMins read domainLimit data roles) := by
  have hroles : LeastPositive (RoleLimit read data roles) (roles.foldl
      (fun limit role => tighten limit ((data.roleMetaCache.lookup role).bind read)) 0) :=
    (leastPositive_zero.foldl _ roles).congr fun v => by rw [false_or, RoleLimit]
  unfold configuredExpiryMins
  dsimp only
  rcases hroles with ⟨hzero, hnone⟩ | ⟨hpos, hmem, hleast⟩
  · rw [if_pos hzero]
    cases domainLimit with
    | none =>
      refine .inl ⟨rfl, ?_⟩
      rintro v ⟨_, hv | ⟨_, hv⟩⟩
      · exact hnone v hv
      · cases hv
    | some limit =>
      rcases leastPositive_value limit with ⟨hunset, hlow⟩ | ⟨hset, hlimit, hbound⟩
      · refine .inl ⟨hunset, ?_⟩
        rintro v ⟨_, hv | ⟨_, hv⟩⟩
        · exact hnone v hv
        · exact hlow v hv
      · refine .inr ⟨hset, ⟨hset, .inr ⟨hnone, hlimit⟩⟩, ?_⟩
        rintro v ⟨_, hv | ⟨_, hv⟩⟩ hv'
        · exact absurd (hnone v hv) (by omega)
        · exact hbound v hv hv'
  · rw [if_neg (by omega)]
    refine .inr ⟨hpos, ⟨hpos, .inl hmem⟩, ?_⟩
    rintro v ⟨_, hv | ⟨hnone, _⟩⟩ hv'
    · exact hleast v hv hv'
    · exact absurd (hnone _ hmem) (by omega)

end Limits

section Certificates

/-- The limit over the requested roles of several domains; unknown domains have none. -/
def getConfiguredRoleListExpiryTimeMins (store : DataStore) (requestedRoleList : Map Str (List Str)) :
    Int :=
  requestedRoleList.entries.foldl (fun maxAllowedExpiry entry =>
    tighten maxAllowedExpiry ((store.cacheStore.lookup entry.1).map fun data =>
      getConfiguredRoleCertExpiryTimeMins data entry.2)) 0

def determineRoleCertTimeoutOfList (store : DataStore) (requestedRoleList : Map Str (List Str))
    (reqTime : Int) : Int :=
  tighten (getConfiguredRoleListExpiryTimeMins store requestedRoleList) (some reqTime)

/-- The limits of role certificates in one domain. -/
def CertLimit (data : PublishedCache) (roles : List Str) : Int → Prop :=
  ConfiguredLimit (·.certExpiryMins) data.domainData.roleCertExpiryMins data roles

theorem roleCertTimeout_least (data : PublishedCache) (roles : List Str) (reqTime : Int) :
    LeastPositive (fun v => v = reqTime ∨ CertLimit data roles v)
      (determineRoleCertTimeout data roles reqTime) := by
  rw [determineRoleCertTimeout, tighten_tighten]
  apply ((configuredExpiryMins_least _ _ data roles).tighten (leastPositive_value reqTime)).congr
  intro v
  rw [Option.some_inj, or_comm, eq_comm, CertLimit]

theorem roleListExpiry_least (store : DataStore) (requestedRoleList : Map Str (List Str)) :
    LeastPositive (fun v => ∃ request : Str × List Str × PublishedCache,
      (requestedRoleList.lookup request.1 = some request.2.1 ∧
        store.cacheStore.lookup request.1 = some request.2.2) ∧
          CertLimit request.2.2 request.2.1 v)
      (getConfiguredRoleListExpiryTimeMins store requestedRoleList) := by
  apply LeastPositive.union fun request : Str × List Str × PublishedCache =>
    configuredExpiryMins_least _ _ request.2.2 request.2.1
  apply (leastPositive_zero.foldl _ requestedRoleList.entries).congr
  intro v
  rw [false_or]
  constructor
  · rintro ⟨⟨domainName, roles⟩, hentry, hv⟩
    obtain ⟨data, hdata, rfl⟩ := Option.map_eq_some_iff.1 hv
    exact ⟨(domainName, roles, data), ⟨Map.mem_entries_iff.1 hentry, hdata⟩, rfl⟩
  · rintro ⟨⟨domainName, roles, data⟩, ⟨hroles, hdata⟩, rfl⟩
    refine ⟨⟨domainName, roles⟩, Map.mem_entries_iff.2 hroles, ?_⟩
    rw [hdata]
    rfl

theorem roleListCertTimeout_least (store : DataStore) (requestedRoleList : Map Str (List Str))
    (reqTime : Int) :
    LeastPositive (fun v => v = reqTime ∨ ∃ domainName roles data,
      requestedRoleList.lookup domainName = some roles ∧
        store.cacheStore.lookup domainName = some data ∧ CertLimit data roles v)
      (determineRoleCertTimeoutOfList store requestedRoleList reqTime) := by
  rw [determineRoleCertTimeoutOfList, tighten_tighten]
  apply ((roleListExpiry_least store requestedRoleList).tighten (leastPositive_value reqTime)).congr
  intro v
  rw [Option.some_inj, or_comm, eq_comm]
  apply or_congr_right
  constructor
  · rintro ⟨⟨domainName, roles, data⟩, ⟨hroles, hdata⟩, hlimit⟩
    exact ⟨domainName, roles, data, hroles, hdata, hlimit⟩
  · rintro ⟨domainName, roles, data, hroles, hdata, hlimit⟩
    exact ⟨(domainName, roles, data), ⟨hroles, hdata⟩, hlimit⟩

end Certificates

section Tokens

/-- The limits of tokens in a domain. -/
def TokenLimit (data : PublishedCache) (roles : List Str) : Int → Prop :=
  ConfiguredLimit (·.tokenExpiryMins) data.domainData.tokenExpiryMins data roles

theorem determineTokenTimeout_le_max (config : TokenConfig) (data : PublishedCache)
    (roles : List Str) (minExpiryTime maxExpiryTime : Option Int) :
    determineTokenTimeout config data roles minExpiryTime maxExpiryTime ≤
      config.roleTokenMaxTimeout := by
  unfold determineTokenTimeout
  dsimp only
  split <;> omega

theorem determineTokenTimeout_pos (hdefault : 0 < config.roleTokenDefaultTimeout)
    (hmax : 0 < config.roleTokenMaxTimeout) (data : PublishedCache) (roles : List Str)
    (minExpiryTime maxExpiryTime : Option Int) :
    0 < determineTokenTimeout config data roles minExpiryTime maxExpiryTime := by
  unfold determineTokenTimeout
  dsimp only
  split_ifs with hlimit
  · exact hlimit.1
  · refine Int.lt_min.2 ⟨?_, hmax⟩
    split
    · rename_i maxExpiry h
      exact of_decide_eq_true (Option.filter_eq_some_iff.1 h).2
    · cases hmin : minExpiryTime.filter (· > config.roleTokenDefaultTimeout) with
      | none => exact hdefault
      | some minExpiry =>
        have habove := of_decide_eq_true (Option.filter_eq_some_iff.1 hmin).2
        exact Int.lt_trans hdefault habove

/-- No token outlives the limit in seconds: one that does not fit in 32 bits is above every
timeout. -/
theorem determineTokenTimeout_le_limit (hmax : config.roleTokenMaxTimeout < 2 ^ 31)
    (data : PublishedCache) (roles : List Str) (minExpiryTime maxExpiryTime : Option Int)
    (hlimit : TokenLimit data roles v) :
    determineTokenTimeout config data roles minExpiryTime maxExpiryTime ≤ 60 * v := by
  have hserver := determineTokenTimeout_le_max config data roles minExpiryTime maxExpiryTime
  obtain ⟨hset, hle⟩ : 0 < configuredExpiryMins (·.tokenExpiryMins)
      data.domainData.tokenExpiryMins data roles ∧
      configuredExpiryMins (·.tokenExpiryMins) data.domainData.tokenExpiryMins data roles ≤ v := by
    rcases configuredExpiryMins_least (·.tokenExpiryMins) data.domainData.tokenExpiryMins data
      roles with ⟨_, hnone⟩ | ⟨hset, _, hleast⟩
    · exact absurd hlimit.1 (Int.not_lt.2 (hnone v hlimit))
    · exact ⟨hset, hleast v hlimit hlimit.1⟩
  generalize hmins : configuredExpiryMins (·.tokenExpiryMins)
    data.domainData.tokenExpiryMins data roles = mins at hset hle
  by_cases hsmall : 60 * mins < 2 ^ 31
  · have hexact : (60 * mins).bmod (2 ^ 32) = 60 * mins := Int.bmod_eq_of_le (by omega) (by omega)
    unfold determineTokenTimeout
    rw [hmins, hexact]
    dsimp only
    split
    · omega
    · omega
  · omega

end Tokens

section Lifetimes

/-- The lifetimes of tokens and of role certificates respect the limits of the server, of the
request, of the roles and of the domains. -/
structure RespectsLimits (config : TokenConfig) (store : DataStore) : Prop where
  serverMaximum : ∀ data roles minExpiryTime maxExpiryTime,
    determineTokenTimeout config data roles minExpiryTime maxExpiryTime ≤ config.roleTokenMaxTimeout
  configured : ∀ data roles minExpiryTime maxExpiryTime v, TokenLimit data roles v →
    determineTokenTimeout config data roles minExpiryTime maxExpiryTime ≤ 60 * v
  positive : 0 < config.roleTokenDefaultTimeout → 0 < config.roleTokenMaxTimeout →
    ∀ data roles minExpiryTime maxExpiryTime,
      0 < determineTokenTimeout config data roles minExpiryTime maxExpiryTime
  certificate : ∀ data roles reqTime,
    LeastPositive (fun v => v = reqTime ∨ CertLimit data roles v)
      (determineRoleCertTimeout data roles reqTime)
  certificates : ∀ requestedRoleList reqTime,
    LeastPositive (fun v => v = reqTime ∨ ∃ domainName roles data,
      requestedRoleList.lookup domainName = some roles ∧
        store.cacheStore.lookup domainName = some data ∧ CertLimit data roles v)
      (determineRoleCertTimeoutOfList store requestedRoleList reqTime)

theorem lifetimes_respect_limits (config : TokenConfig) (store : DataStore)
    (hmax : config.roleTokenMaxTimeout < 2 ^ 31) : RespectsLimits config store where
  serverMaximum := determineTokenTimeout_le_max config
  configured data roles minExpiryTime maxExpiryTime _ hlimit :=
    determineTokenTimeout_le_limit hmax data roles minExpiryTime maxExpiryTime hlimit
  positive := determineTokenTimeout_pos
  certificate := roleCertTimeout_least
  certificates := roleListCertTimeout_least store

theorem default_lifetimes : RespectsLimits {} {} := lifetimes_respect_limits {} {} (by decide)

end Lifetimes

end Athenz.Zts
