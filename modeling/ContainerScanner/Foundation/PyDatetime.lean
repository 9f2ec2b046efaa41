import Mathlib.Data.Int.Log
import Mathlib.Algebra.Order.Ring.Rat
import Mathlib.Data.Rat.Floor
import Mathlib.Tactic.FieldSimp
import Mathlib.Tactic.Linarith
import Mathlib.Tactic.Positivity

/-!
# Python's dates in seconds

`datetime` and `timedelta` hold whole microseconds; their seconds are a `float`. A number of seconds
is the quotient by a million rounded to a double, and `int` of it drops the fraction of what the
rounding has left, so that far from the epoch a date late in one second counts for the next. Adding
seconds to a date raises where the delay is no `timedelta` or the sum no `datetime`.

Of a double only the 53 bits of the significand matter here. No date is near the limits of the
exponent.

## Main definitions

* `roundHalfEven`, `toDouble` — rounding to a double
* `totalSeconds`, `wholeSeconds` — `total_seconds()`, and `int` of it
* `Representable`, `addSeconds` — `t + timedelta(seconds=n)`

## Main results

* `toDouble_mono` — rounding keeps the order
* `wholeSeconds_mono` — and so do whole seconds
* `wholeSeconds_of_lt` — the whole second, as long as a double tells microseconds apart
-/

namespace Foundation

namespace PyDatetime

variable {x y q : ℚ} {t u : ℤ}

/-! ### Rounding to an integer -/

/-- The nearest integer, and the even one of two that are as near. -/
def roundHalfEven (q : ℚ) : ℤ :=
  if q - ⌊q⌋ < 1 / 2 ∨ (q - ⌊q⌋ = 1 / 2 ∧ Even ⌊q⌋) then ⌊q⌋ else ⌊q⌋ + 1

theorem floor_le_roundHalfEven (q : ℚ) : ⌊q⌋ ≤ roundHalfEven q := by
  rw [roundHalfEven]
  split
  · exact le_rfl
  · exact (lt_add_one _).le

theorem roundHalfEven_le (q : ℚ) : roundHalfEven q ≤ ⌊q⌋ + 1 := by
  rw [roundHalfEven]
  split
  · exact (lt_add_one _).le
  · exact le_rfl

@[simp] theorem roundHalfEven_intCast (n : ℤ) : roundHalfEven n = n := by
  rw [roundHalfEven, Int.floor_intCast, if_pos (Or.inl (by norm_num))]

theorem roundHalfEven_mono (h : x ≤ y) : roundHalfEven x ≤ roundHalfEven y := by
  obtain hlt | heq := (Int.floor_le_floor h).lt_or_eq
  · exact (roundHalfEven_le x).trans ((Int.add_one_le_of_lt hlt).trans (floor_le_roundHalfEven y))
  · by_cases hup : x - ⌊x⌋ < 1 / 2 ∨ (x - ⌊x⌋ = 1 / 2 ∧ Even ⌊x⌋)
    · have hx : roundHalfEven x = ⌊x⌋ := if_pos hup
      exact hx.trans_le (heq.trans_le (floor_le_roundHalfEven y))
    · -- both are in the upper half between the same two integers
      push Not at hup
      obtain ⟨hhalf, htie⟩ := hup
      rw [heq] at hhalf htie
      have hdown : ¬ (y - ⌊y⌋ < 1 / 2 ∨ (y - ⌊y⌋ = 1 / 2 ∧ Even ⌊y⌋)) := by
        rintro (hlow | ⟨htie', heven⟩)
        · linarith
        · exact htie (le_antisymm (by linarith) hhalf) heven
      have hy : roundHalfEven y = ⌊y⌋ + 1 := if_neg hdown
      rw [hy, ← heq]
      exact roundHalfEven_le x

theorem roundHalfEven_sub_le (q : ℚ) : (roundHalfEven q : ℚ) - q ≤ 1 / 2 := by
  rw [roundHalfEven]
  split
  · have hfloor := Int.floor_le q
    linarith
  · next hup =>
    push Not at hup
    have hhalf := hup.1
    push_cast
    linarith

/-! ### Rounding to a double -/

/-- The distance of neighbouring doubles about `q`. -/
def ulp (q : ℚ) : ℚ := 2 ^ (Int.log 2 q - 52)

theorem ulp_pos (q : ℚ) : 0 < ulp q := zpow_pos (by norm_num) _

/-- The magnitude of a double. -/
def roundMagnitude (q : ℚ) : ℚ := roundHalfEven (q / ulp q) * ulp q

/-- The double nearest to `q`. -/
def toDouble (q : ℚ) : ℚ := if q < 0 then -roundMagnitude (-q) else roundMagnitude q

/-- The magnitude stays between the powers of two. -/
theorem le_roundMagnitude (hq : 0 < q) : 2 ^ Int.log 2 q ≤ roundMagnitude q := by
  have hpow : (2 : ℚ) ^ Int.log 2 q = ((2 ^ 52 : ℤ) : ℚ) * ulp q := by
    rw [ulp, zpow_sub₀ (by norm_num)]
    norm_num
    field_simp
  have hle : ((2 ^ 52 : ℤ) : ℚ) ≤ q / ulp q := by
    rw [le_div_iff₀ (ulp_pos q), ← hpow]
    exact_mod_cast Int.zpow_log_le_self (R := ℚ) (b := 2) (by norm_num) hq
  have hround := roundHalfEven_mono hle
  rw [roundHalfEven_intCast] at hround
  rw [hpow, roundMagnitude]
  exact mul_le_mul_of_nonneg_right (by exact_mod_cast hround) (ulp_pos q).le

theorem roundMagnitude_le (q : ℚ) : roundMagnitude q ≤ 2 ^ (Int.log 2 q + 1) := by
  have hpow : (2 : ℚ) ^ (Int.log 2 q + 1) = ((2 ^ 53 : ℤ) : ℚ) * ulp q := by
    rw [ulp, zpow_sub₀ (by norm_num), zpow_add₀ (by norm_num)]
    norm_num
    field_simp
    norm_num
  have hle : q / ulp q ≤ ((2 ^ 53 : ℤ) : ℚ) := by
    rw [div_le_iff₀ (ulp_pos q), ← hpow]
    exact_mod_cast (Int.lt_zpow_succ_log_self (R := ℚ) (b := 2) (by norm_num) q).le
  have hround := roundHalfEven_mono hle
  rw [roundHalfEven_intCast] at hround
  rw [hpow, roundMagnitude]
  exact mul_le_mul_of_nonneg_right (by exact_mod_cast hround) (ulp_pos q).le

theorem roundMagnitude_nonneg (hq : 0 ≤ q) : 0 ≤ roundMagnitude q := by
  have hround : 0 ≤ roundHalfEven (q / ulp q) :=
    (Int.floor_nonneg.mpr (div_nonneg hq (ulp_pos q).le)).trans (floor_le_roundHalfEven _)
  exact mul_nonneg (by exact_mod_cast hround) (ulp_pos q).le

theorem roundMagnitude_mono (hx : 0 ≤ x) (h : x ≤ y) : roundMagnitude x ≤ roundMagnitude y := by
  obtain rfl | hpos := hx.eq_or_lt
  · have hzero : roundMagnitude 0 = 0 := by
      have hround : roundHalfEven 0 = 0 := roundHalfEven_intCast 0
      rw [roundMagnitude, zero_div, hround, Int.cast_zero, zero_mul]
    rw [hzero]
    exact roundMagnitude_nonneg h
  obtain hlt | heq := (Int.log_mono_right (b := 2) hpos h).lt_or_eq
  · -- a power of two lies between
    calc roundMagnitude x ≤ 2 ^ (Int.log 2 x + 1) := roundMagnitude_le x
      _ ≤ 2 ^ Int.log 2 y := zpow_le_zpow_right₀ (by norm_num) hlt
      _ ≤ roundMagnitude y := le_roundMagnitude (hpos.trans_le h)
  · have hulp : ulp x = ulp y := by rw [ulp, ulp, heq]
    rw [roundMagnitude, roundMagnitude, hulp]
    refine mul_le_mul_of_nonneg_right ?_ (ulp_pos y).le
    exact_mod_cast roundHalfEven_mono (div_le_div_of_nonneg_right h (ulp_pos y).le)

/-- **Rounding keeps the order.** -/
theorem toDouble_mono (h : x ≤ y) : toDouble x ≤ toDouble y := by
  rw [toDouble, toDouble]
  by_cases hx : x < 0
  · rw [if_pos hx]
    by_cases hy : y < 0
    · rw [if_pos hy]
      exact neg_le_neg (roundMagnitude_mono (by linarith) (neg_le_neg h))
    · rw [if_neg hy]
      have hleft := roundMagnitude_nonneg (q := -x) (by linarith)
      have hright := roundMagnitude_nonneg (q := y) (by linarith)
      linarith
  · rw [if_neg hx, if_neg (by linarith)]
    exact roundMagnitude_mono (by linarith) h

/-- An integer that rounding does not pass. -/
theorem intCast_le_roundMagnitude {n : ℤ} (h : (n : ℚ) ≤ q) (hlog : Int.log 2 q ≤ 52) :
    (n : ℚ) ≤ roundMagnitude q := by
  obtain ⟨k, hk⟩ := Int.eq_ofNat_of_zero_le (Int.sub_nonneg_of_le hlog)
  have hulp : ((n * 2 ^ k : ℤ) : ℚ) * ulp q = n := by
    have hexponent : Int.log 2 q - 52 = -(k : ℤ) := by omega
    rw [ulp, hexponent, zpow_neg, zpow_natCast]
    push_cast
    field_simp
  have hle : ((n * 2 ^ k : ℤ) : ℚ) ≤ q / ulp q := by
    rw [le_div_iff₀ (ulp_pos q), hulp]
    exact h
  have hround := roundHalfEven_mono hle
  rw [roundHalfEven_intCast] at hround
  rw [← hulp, roundMagnitude]
  exact mul_le_mul_of_nonneg_right (by exact_mod_cast hround) (ulp_pos q).le

/-- Rounding adds at most half a distance. -/
theorem roundMagnitude_sub_le (q : ℚ) : roundMagnitude q - q ≤ ulp q / 2 := by
  have hround := mul_le_mul_of_nonneg_right (roundHalfEven_sub_le (q / ulp q)) (ulp_pos q).le
  have hcancel : q / ulp q * ulp q = q := div_mul_cancel₀ q (ulp_pos q).ne'
  rw [sub_mul, hcancel] at hround
  rw [roundMagnitude]
  linarith

/-! ### Seconds -/

/-- Microseconds in a second. -/
def perSecond : ℤ := 1000000

/-- `timedelta(microseconds=t).total_seconds()`, and `timestamp()` of the date `t` microseconds
after the epoch. -/
def totalSeconds (t : ℤ) : ℚ := toDouble (t / perSecond)

/-- `int(x)`. -/
def truncate (q : ℚ) : ℤ := if q < 0 then ⌈q⌉ else ⌊q⌋

/-- `int` of the seconds. -/
def wholeSeconds (t : ℤ) : ℤ := truncate (totalSeconds t)

theorem truncate_mono (h : x ≤ y) : truncate x ≤ truncate y := by
  rw [truncate, truncate]
  by_cases hx : x < 0
  · rw [if_pos hx]
    by_cases hy : y < 0
    · rw [if_pos hy]
      exact Int.ceil_le_ceil h
    · rw [if_neg hy]
      exact (Int.ceil_le.mpr (by exact_mod_cast hx.le)).trans (Int.floor_nonneg.mpr (not_lt.mp hy))
  · rw [if_neg hx, if_neg (by linarith)]
    exact Int.floor_le_floor h

/-- **Whole seconds keep the order.** -/
theorem wholeSeconds_mono (h : t ≤ u) : wholeSeconds t ≤ wholeSeconds u := by
  have hperSecond : (0 : ℚ) < perSecond := by norm_num [perSecond]
  refine truncate_mono (toDouble_mono (div_le_div_of_nonneg_right ?_ hperSecond.le))
  exact_mod_cast h

/-- **The whole second, as long as a double tells microseconds apart**: up to the year 2514. -/
theorem wholeSeconds_of_lt (ht : 0 ≤ t) (hlt : t < 2 ^ 34 * perSecond) :
    wholeSeconds t = t / perSecond := by
  obtain ⟨q, hq⟩ : ∃ q : ℚ, q = t / perSecond := ⟨_, rfl⟩
  have hmicros : (t : ℚ) = q * 1000000 := by
    rw [hq, perSecond]
    push_cast
    field_simp
  have hnonneg : 0 ≤ q := by
    have ht' : (0 : ℚ) ≤ t := by exact_mod_cast ht
    linarith
  have hround : totalSeconds t = roundMagnitude q := by
    rw [totalSeconds, ← hq, toDouble, if_neg hnonneg.not_gt]
  have hsmall : q < 2 ^ 34 := by
    have hlt' : (t : ℚ) < 2 ^ 34 * 1000000 := by exact_mod_cast hlt
    linarith
  have hlog : Int.log 2 q ≤ 33 := by
    obtain hzero | hpos := hnonneg.eq_or_lt
    · rw [← hzero, Int.log_zero_right]
      norm_num
    · have hpow : Int.log 2 q < 34 :=
        (Int.lt_zpow_iff_log_lt (by norm_num) hpos).mp (by exact_mod_cast hsmall)
      omega
  obtain ⟨n, hn⟩ : ∃ n : ℤ, n = t / perSecond := ⟨_, rfl⟩
  have hdivision := Int.mul_ediv_add_emod t perSecond
  have hrest := Int.emod_lt_of_pos t (b := perSecond) (by decide)
  have hrest' := Int.emod_nonneg t (b := perSecond) (by decide)
  rw [← hn, perSecond] at hdivision
  rw [perSecond] at hrest hrest'
  have hlower : (n : ℚ) ≤ q := by
    have hle : (n * 1000000 : ℚ) ≤ t := by exact_mod_cast (by omega : n * 1000000 ≤ t)
    linarith
  have hupper : q + 1 / 1000000 ≤ n + 1 := by
    have hle : (t + 1 : ℚ) ≤ (n + 1) * 1000000 := by
      exact_mod_cast (by omega : t + 1 ≤ (n + 1) * 1000000)
    linarith
  have hulp : ulp q ≤ 2 ^ (-19 : ℤ) := zpow_le_zpow_right₀ (by norm_num) (by omega)
  have herror := roundMagnitude_sub_le q
  have hvalue : (2 : ℚ) ^ (-19 : ℤ) = 1 / 524288 := by norm_num
  rw [hvalue] at hulp
  rw [wholeSeconds, hround, truncate, if_neg (roundMagnitude_nonneg hnonneg).not_gt, ← hn,
    Int.floor_eq_iff]
  exact ⟨intCast_le_roundMagnitude hlower (hlog.trans (by norm_num)), by linarith⟩

/-- Far enough from the epoch the last microsecond of a second counts for the next. -/
example : wholeSeconds 19880899200999999 = 19880899201 := by decide +kernel

/-! ### Adding seconds -/

/-- `datetime.min` and `datetime.max`, in UTC. -/
def earliest : ℤ := -62135596800000000

def latest : ℤ := 253402300799999999

/-- Is `t + timedelta(seconds=n)` a `datetime`? A `timedelta` has fewer than a billion days. -/
def Representable (t n : ℤ) : Prop :=
  (-86399999913600 ≤ n ∧ n ≤ 86399999999999) ∧
    earliest ≤ t + n * perSecond ∧ t + n * perSecond ≤ latest

instance (t n : ℤ) : Decidable (Representable t n) := inferInstanceAs (Decidable (_ ∧ _))

/-- `t + timedelta(seconds=n)`, `none` standing for the `OverflowError`. -/
def addSeconds (t n : ℤ) : Option ℤ :=
  if Representable t n then some (t + n * perSecond) else none

theorem addSeconds_eq_some {t n u : ℤ} :
    addSeconds t n = some u ↔ Representable t n ∧ u = t + n * perSecond := by
  rw [addSeconds]
  split
  · next h =>
    rw [Option.some.injEq, eq_comm]
    exact (and_iff_right h).symm
  · next h =>
    constructor
    · intro hnone
      cases hnone
    · rintro ⟨hrepresentable, -⟩
      exact absurd hrepresentable h

end PyDatetime

end Foundation
