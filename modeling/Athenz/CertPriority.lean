import Athenz.RoleCertificate
import Mathlib.Algebra.Order.Field.Rat
import Mathlib.Data.Rat.Cast.Order

namespace Athenz.Zts
open Lib Lib.Result
set_option autoImplicit true

def Priority.urgency : Priority → Nat
  | .Low => 0
  | .Medium => 1
  | .High => 2

/-- The dates of a certificate and the time at which they are looked at, in milliseconds. -/
structure Validity where
  now : Int64
  notBefore : Int64
  notAfter : Int64

namespace Validity

def priority (config : ZtsConfig) (v : Validity) : Except Failure Priority :=
  getCertRequestPriority config v.now.toInt v.notBefore.toInt v.notAfter.toInt

def certDuration (v : Validity) : Int := v.notAfter.toInt - v.notBefore.toInt

def howLongStillValid (v : Validity) : Int := v.notAfter.toInt - v.now.toInt

def remainingFraction (v : Validity) : ℚ := v.howLongStillValid / v.certDuration

/-- The percentage can be computed with 64 bits. -/
def Fits (v : Validity) : Prop :=
  -2 ^ 63 ≤ v.howLongStillValid ∧ v.howLongStillValid * 100 < 2 ^ 63 ∧ v.certDuration < 2 ^ 63

/-- All times lie at most so far from the epoch. -/
def Within (bound : Int) (v : Validity) : Prop :=
  ∀ time ∈ [v.now, v.notBefore, v.notAfter], -bound ≤ time.toInt ∧ time.toInt ≤ bound

/-- The certificate with less of its lifetime left is not the less urgent one. -/
def Ordered (config : ZtsConfig) (v w : Validity) : Prop :=
  v.notBefore < v.notAfter → w.notBefore < w.notAfter →
    v.remainingFraction < w.remainingFraction →
      ∀ p q, v.priority config = .ok p → w.priority config = .ok q → q.urgency ≤ p.urgency

/-- The priority of a certificate that has a percentage of its lifetime left. -/
def percentagePriority (config : ZtsConfig) (percentage : Int) : Priority :=
  if percentage ≥ config.certPriorityMinPercentLowPriority then .Low
  else if percentage ≤ config.certPriorityMaxPercentHighPriority then .High
  else .Medium

theorem percentagePriority_antitone (h : percentage ≤ other) :
    (percentagePriority config other).urgency ≤ (percentagePriority config percentage).urgency := by
  unfold percentagePriority
  split
  · exact Nat.zero_le _
  · rename_i hother
    rw [if_neg fun hlow => hother (Int.le_trans hlow h)]
    split
    · rename_i hhigh
      rw [if_pos (Int.le_trans h hhigh)]
    · split
      · decide
      · exact Nat.le_refl _

theorem priority_eq (config : ZtsConfig) (v : Validity) : v.priority config =
    if (v.notAfter - v.now).toInt ≤ 0 then .ok .High
    else if (v.notAfter - v.notBefore).toInt = 0 then .error .arithmetic
    else .ok (percentagePriority config
      ((((v.notAfter - v.now).toInt * 100).bmod (2 ^ 64)).tdiv
        (v.notAfter - v.notBefore).toInt |>.bmod (2 ^ 64))) := by
  rw [priority, getCertRequestPriority, Int64.toInt_sub, Int64.toInt_sub]
  split
  · rfl
  · unfold refuse percentagePriority
    split
    · rfl
    · dsimp only [bind, Except.bind, pure, Except.pure]
      split
      · rfl
      · split <;> rfl

theorem sub_eq_zero_iff (a b : Int64) : (a - b).toInt = 0 ↔ a = b := by
  have hzero : (0 : Int64).toInt = 0 := rfl
  rw [← hzero, Int64.toInt_inj, Int64.sub_eq_iff_eq_add, Int64.zero_add]

/-- A priority comes back unless an unexpired certificate starts when it ends. -/
theorem priority_returns (config : ZtsConfig) (v : Validity) :
    (∃ p, v.priority config = .ok p) ↔ v.notBefore ≠ v.notAfter ∨ v.notAfter - v.now ≤ 0 := by
  have hexpired : v.notAfter - v.now ≤ 0 ↔ (v.notAfter - v.now).toInt ≤ 0 := Int64.le_iff_toInt_le
  rw [priority_eq, hexpired]
  by_cases hleft : (v.notAfter - v.now).toInt ≤ 0
  · rw [if_pos hleft]
    exact iff_of_true ⟨_, rfl⟩ (.inr hleft)
  · rw [if_neg hleft, or_iff_left hleft]
    by_cases hsame : v.notAfter = v.notBefore
    · rw [if_pos ((sub_eq_zero_iff _ _).2 hsame)]
      exact iff_of_false (fun ⟨p, hp⟩ => by cases hp) fun hne => hne hsame.symm
    · rw [if_neg fun hzero => hsame ((sub_eq_zero_iff _ _).1 hzero)]
      exact iff_of_true ⟨_, rfl⟩ fun h => hsame h.symm

theorem bmod_eq_self (hlow : -2 ^ 63 ≤ n) (hhigh : n < 2 ^ 63) : n.bmod (2 ^ 64) = n :=
  Int.bmod_eq_of_le hlow hhigh

theorem certDuration_pos {v : Validity} : v.notBefore < v.notAfter ↔ 0 < v.certDuration := by
  rw [Int64.lt_iff_toInt_lt, certDuration, Int.sub_pos]

/-- Without overflow the percentage is the exact one, rounded down. -/
theorem Fits.priority_eq (h : Fits v) (hdates : 0 < v.certDuration) (config : ZtsConfig) :
    v.priority config = .ok (if v.howLongStillValid ≤ 0 then .High
      else percentagePriority config (v.howLongStillValid * 100 / v.certDuration)) := by
  obtain ⟨hlow, hhigh, hduration⟩ := h
  have hlast : v.howLongStillValid < 2 ^ 63 := by omega
  have hfirst : -2 ^ 63 ≤ v.certDuration := by omega
  have hvalid : (v.notAfter - v.now).toInt = v.howLongStillValid :=
    (Int64.toInt_sub _ _).trans (bmod_eq_self hlow hlast)
  have hlength : (v.notAfter - v.notBefore).toInt = v.certDuration :=
    (Int64.toInt_sub _ _).trans (bmod_eq_self hfirst hduration)
  rw [Validity.priority_eq, hvalid, hlength]
  by_cases hexpired : v.howLongStillValid ≤ 0
  · rw [if_pos hexpired, if_pos hexpired]
  · have hproduct : 0 ≤ v.howLongStillValid * 100 := by omega
    have hquotient : v.howLongStillValid * 100 / v.certDuration ≤ v.howLongStillValid * 100 :=
      Int.ediv_le_self _ hproduct
    have hnonneg : 0 ≤ v.howLongStillValid * 100 / v.certDuration :=
      Int.ediv_nonneg hproduct (Int.le_of_lt hdates)
    rw [if_neg hexpired, if_neg hexpired, if_neg (Int.ne_of_gt hdates),
      bmod_eq_self (by omega) hhigh, Int.tdiv_eq_ediv_of_nonneg hproduct,
      bmod_eq_self (by omega) (by omega)]

theorem remainingFraction_lt {v w : Validity} (hv : 0 < v.certDuration) (hw : 0 < w.certDuration) :
    v.remainingFraction < w.remainingFraction ↔
      v.howLongStillValid * w.certDuration < w.howLongStillValid * v.certDuration := by
  rw [remainingFraction, remainingFraction,
    div_lt_div_iff₀ (Int.cast_pos.2 hv) (Int.cast_pos.2 hw), ← Int.cast_mul, ← Int.cast_mul,
    Int.cast_lt]

/-- A smaller fraction rounds down to no larger percentage. -/
theorem percentage_le {v w : Validity} (hv : 0 < v.certDuration) (hw : 0 < w.certDuration)
    (h : v.howLongStillValid * w.certDuration < w.howLongStillValid * v.certDuration) :
    v.howLongStillValid * 100 / v.certDuration ≤ w.howLongStillValid * 100 / w.certDuration := by
  rw [Int.le_ediv_iff_mul_le hw]
  apply Int.le_of_mul_le_mul_right _ hv
  calc v.howLongStillValid * 100 / v.certDuration * w.certDuration * v.certDuration
      = v.howLongStillValid * 100 / v.certDuration * v.certDuration * w.certDuration := Int.mul_right_comm _ _ _
    _ ≤ v.howLongStillValid * 100 * w.certDuration :=
      Int.mul_le_mul_of_nonneg_right (Int.ediv_mul_le _ (Int.ne_of_gt hv)) (Int.le_of_lt hw)
    _ = v.howLongStillValid * w.certDuration * 100 := Int.mul_right_comm _ _ _
    _ ≤ w.howLongStillValid * v.certDuration * 100 :=
      Int.mul_le_mul_of_nonneg_right (Int.le_of_lt h) (by decide)
    _ = w.howLongStillValid * 100 * v.certDuration := Int.mul_right_comm _ _ _

/-- Without overflow the certificate with less of its lifetime left is not the less urgent one. -/
theorem Fits.ordered (hv : Fits v) (hw : Fits w) (config : ZtsConfig) : Ordered config v w := by
  intro hvdates hwdates hless p q hp hq
  rw [certDuration_pos] at hvdates hwdates
  rw [remainingFraction_lt hvdates hwdates] at hless
  rw [hv.priority_eq hvdates, Except.ok.injEq] at hp
  rw [hw.priority_eq hwdates, Except.ok.injEq] at hq
  subst hp hq
  by_cases hexpired : v.howLongStillValid ≤ 0
  · rw [if_pos hexpired]
    generalize (if w.howLongStillValid ≤ 0 then Priority.High
      else percentagePriority config (w.howLongStillValid * 100 / w.certDuration)) = q
    cases q <;> decide
  · have hleft : 0 < v.howLongStillValid * w.certDuration :=
      Int.mul_pos (Int.not_le.1 hexpired) hwdates
    have hother : 0 < w.howLongStillValid :=
      Int.pos_of_mul_pos_left (Int.lt_trans hleft hless) hvdates
    rw [if_neg hexpired, if_neg (Int.not_le.2 hother)]
    exact percentagePriority_antitone (percentage_le hvdates hwdates hless)

theorem Within.fits (h : Within bound v) (hbound : 200 * bound < 2 ^ 63) : Fits v := by
  have hnow := h v.now List.mem_cons_self
  have hnotBefore := h v.notBefore (List.mem_cons_of_mem _ List.mem_cons_self)
  have hnotAfter := h v.notAfter (List.mem_cons_of_mem _ (List.mem_cons_of_mem _ List.mem_cons_self))
  unfold Fits howLongStillValid certDuration
  omega

/-- The longest remaining time whose percentage still fits, at the earliest clock that allows it. -/
def longest : Validity where
  now := -46116860184273879
  notBefore := 46116860184273878
  notAfter := 46116860184273879

/-- One millisecond more. -/
def tooLong : Validity where
  now := -46116860184273879
  notBefore := 46116860184273879
  notAfter := 46116860184273880

theorem within_longest (h : 2 ^ 63 ≤ 200 * bound) : Within bound longest ∧ Within bound tooLong := by
  have hnow : (-46116860184273879 : Int64).toInt = -46116860184273879 := rfl
  have hstart : (46116860184273878 : Int64).toInt = 46116860184273878 := rfl
  have hmiddle : (46116860184273879 : Int64).toInt = 46116860184273879 := rfl
  have hend : (46116860184273880 : Int64).toInt = 46116860184273880 := rfl
  simp only [Within, longest, tooLong, List.forall_mem_cons, hnow, hstart, hmiddle, hend,
    List.not_mem_nil, false_implies, implies_true, and_true]
  omega

/-- The percentage of one wraps around to a negative number. -/
theorem not_ordered_longest (hlow : 0 < config.certPriorityMinPercentLowPriority)
    (hhigh : config.certPriorityMinPercentLowPriority ≤ 100) :
    ¬ Ordered config longest tooLong := by
  intro hordered
  have hlong : longest.priority config =
      .ok (percentagePriority config 9223372036854775800) := priority_eq config longest
  have hwrapped : tooLong.priority config =
      .ok (percentagePriority config (-9223372036854775716)) := priority_eq config tooLong
  have hless : longest.remainingFraction < tooLong.remainingFraction :=
    (remainingFraction_lt (by decide) (by decide)).2 (by decide)
  have hurgency := hordered (by decide) (by decide) hless _ _ hlong hwrapped
  unfold percentagePriority at hurgency
  rw [if_pos (show (9223372036854775800 : Int) ≥ _ by omega), if_neg (by omega)] at hurgency
  split at hurgency
  · cases hurgency
  · cases hurgency

end Validity

open Validity

/-- A priority comes back exactly when the dates differ or the certificate is over. Priorities
follow the remaining fractions where nothing overflows, and the times this allows are exactly
those up to `2 ^ 63 / 200` milliseconds from the epoch. -/
theorem certificate_priority_iff (config : ZtsConfig) :
    (∀ v : Validity, (∃ p, v.priority config = .ok p) ↔
      v.notBefore ≠ v.notAfter ∨ v.notAfter - v.now ≤ 0) ∧
    (∀ v w, Fits v → Fits w → Ordered config v w) ∧
    (0 < config.certPriorityMinPercentLowPriority →
      config.certPriorityMinPercentLowPriority ≤ 100 →
      ∀ bound, (∀ v w, Within bound v → Within bound w → Ordered config v w) ↔
        200 * bound < 2 ^ 63) := by
  refine ⟨priority_returns config, fun v w hv hw => hv.ordered hw config, ?_⟩
  intro hlow hhigh bound
  constructor
  · intro hordered
    by_contra hlarge
    obtain ⟨hlongest, htooLong⟩ := within_longest (Int.not_lt.1 hlarge)
    exact not_ordered_longest hlow hhigh (hordered longest tooLong hlongest htooLong)
  · intro hbound v w hv hw
    exact (hv.fits hbound).ordered (hw.fits hbound) config

/-- Up to the last millisecond of the year 9999, with the default percentages. -/
theorem dates_of_certificates_ordered :
    (∀ v w, Within 253402300799999 v → Within 253402300799999 w → Ordered {} v w) ∧
    ∃ p, priority {} { now := 10, notBefore := 0, notAfter := 30 } = .ok p :=
  ⟨((certificate_priority_iff {}).2.2 (by decide) (by decide) 253402300799999).2 (by decide),
    ((certificate_priority_iff {}).1 _).2 (.inl (by decide))⟩

/-- A request states a previous certificate that ends when it starts, in the future. -/
theorem empty_validity_throws :
    requestPriority {} 0 {
      csr := "csr"
      prevCertNotBefore := some 1000
      prevCertNotAfter := some 1000 } = .error .arithmetic ∧
    ¬ ∀ v : Validity, ∃ p, v.priority {} = .ok p := by
  refine ⟨rfl, ?_⟩
  intro hreturns
  obtain ⟨p, hp⟩ := hreturns { now := 0, notBefore := 1000, notAfter := 1000 }
  cases hp

end Athenz.Zts
