import ContainerScanner.Domain.Seed
import ContainerScanner.Scheduler.Tick

/-!
# When the backoff delays

`next_due_at` as a function of the failure streak. A streak doubles the interval up to the cap, a
streak of zero leaves the interval as it is; so the delay grows with the streak wherever the two
branches meet in order, and they do exactly when the interval is below the cap. Whether there is a
due time at all is another matter: a delay can be longer than a `timedelta`, or lead past the last
`datetime`.

## Main definitions

* `backoffDelay` — the delay after a streak of failures
* `DueInOrder` — the longer of two streaks is due no earlier

## Main results

* `nextDueAt_eq_some` — a scanned image is due one delay after its last scan
* `backoffDelay_le_iff` — which streaks delay at most as much as a longer one
* `dueInOrder_iff` — the same of the due times
-/

namespace ContainerScanner

open Foundation Queue

open PyDatetime (Representable addSeconds addSeconds_eq_some)

namespace Tick

/-- The seconds between a scan and the next, after a streak of failures. -/
def backoffDelay (interval cap : ℤ) (streak : ℕ) : ℤ :=
  if streak = 0 then interval else min (interval * 2 ^ streak) cap

/-- The image with another failure streak. -/
def withStreak (image : Image) (streak : ℕ) : Image :=
  { image with consecutiveFailures := streak }

/-- With a streak of `f` the image has a due time, and none earlier with a streak of `g`. -/
def DueInOrder (image : Image) (settings : Settings) (f g : ℕ) : Prop :=
  ∃ a ∈ nextDueAt (withStreak image f) settings.defaultScanIntervalSeconds
      settings.maxFailureBackoffSeconds,
    ∃ b ∈ nextDueAt (withStreak image g) settings.defaultScanIntervalSeconds
        settings.maxFailureBackoffSeconds, a ≤ b

variable {image : Image} {interval cap : ℤ} {f g : ℕ}

@[simp] theorem backoffDelay_zero (interval cap : ℤ) : backoffDelay interval cap 0 = interval :=
  if_pos rfl

theorem backoffDelay_of_pos (h : 0 < f) :
    backoffDelay interval cap f = min (interval * 2 ^ f) cap :=
  if_neg (by omega)

/-- Intervals of images are not negative, so that the default decides. -/
theorem baseInterval_nonneg (image : Image) (h : 0 ≤ interval) :
    0 ≤ baseInterval image interval := by
  rw [baseInterval]
  cases image.scanIntervalSeconds.filter fun n => n ≠ 0 with
  | none => exact h
  | some n => exact Int.natCast_nonneg n

/-- **A scanned image is due one delay after its last scan.** -/
theorem nextDueAt_eq_some {lastScanAt : Timestamp} (h : image.lastScanAt = some lastScanAt)
    (defaultInterval cap : ℤ) (t : Timestamp) :
    nextDueAt image defaultInterval cap = some t ↔
      Representable lastScanAt
          (backoffDelay (baseInterval image defaultInterval) cap image.consecutiveFailures) ∧
        t = lastScanAt +
          seconds (backoffDelay (baseInterval image defaultInterval) cap
            image.consecutiveFailures) := by
  rw [nextDueAt, h]
  exact addSeconds_eq_some

theorem nextDueAt_withStreak {lastScanAt : Timestamp} (h : image.lastScanAt = some lastScanAt)
    (defaultInterval cap : ℤ) (f : ℕ) (t : Timestamp) :
    nextDueAt (withStreak image f) defaultInterval cap = some t ↔
      Representable lastScanAt (backoffDelay (baseInterval image defaultInterval) cap f) ∧
        t = lastScanAt + seconds (backoffDelay (baseInterval image defaultInterval) cap f) := by
  have hlast : (withStreak image f).lastScanAt = some lastScanAt := h
  exact nextDueAt_eq_some hlast defaultInterval cap t

theorem le_mul_two_pow (h : 0 ≤ interval) (f : ℕ) : interval ≤ interval * 2 ^ f :=
  le_mul_of_one_le_right h (one_le_pow₀ (by decide))

/-- Among failing images the longer streak waits at least as long. -/
theorem backoffDelay_mono_of_pos (h : 0 ≤ interval) (hf : 0 < f) (hfg : f ≤ g) :
    backoffDelay interval cap f ≤ backoffDelay interval cap g := by
  have hpow : interval * 2 ^ f ≤ interval * 2 ^ g :=
    mul_le_mul_of_nonneg_left (pow_le_pow_right₀ (by decide) hfg) h
  rw [backoffDelay_of_pos hf, backoffDelay_of_pos (hf.trans_le hfg)]
  exact min_le_min_right cap hpow

/-- A first failure lengthens the wait unless the cap is below the interval itself. -/
theorem interval_le_backoffDelay_iff (h : 0 ≤ interval) (hg : 0 < g) :
    interval ≤ backoffDelay interval cap g ↔ interval ≤ cap := by
  rw [backoffDelay_of_pos hg, le_min_iff]
  exact and_iff_right (le_mul_two_pow h g)

theorem backoffDelay_le_iff (h : 0 ≤ interval) (hfg : f ≤ g) :
    backoffDelay interval cap f ≤ backoffDelay interval cap g ↔
      (f = 0 ∧ 0 < g → interval ≤ cap) := by
  by_cases hf : f = 0
  · subst hf
    by_cases hg : g = 0
    · subst hg
      simp
    · have hpos : 0 < g := by omega
      rw [backoffDelay_zero, interval_le_backoffDelay_iff h hpos]
      constructor
      · intro hle _
        exact hle
      · intro hle
        exact hle ⟨rfl, hpos⟩
  · have hmono : backoffDelay interval cap f ≤ backoffDelay interval cap g :=
      backoffDelay_mono_of_pos h (Nat.pos_of_ne_zero hf) hfg
    constructor
    · rintro - ⟨hzero, -⟩
      exact absurd hzero hf
    · intro _
      exact hmono

/-- **The longer of two streaks is due no earlier, exactly when both have a due time and no first
failure is capped below the interval of the healthy image.** -/
theorem dueInOrder_iff {lastScanAt : Timestamp} (hscanned : image.lastScanAt = some lastScanAt)
    {settings : Settings} (hdefault : 0 < settings.defaultScanIntervalSeconds) (hfg : f ≤ g) :
    DueInOrder image settings f g ↔
      (Representable lastScanAt
          (backoffDelay (baseInterval image settings.defaultScanIntervalSeconds)
            settings.maxFailureBackoffSeconds f) ∧
        Representable lastScanAt
          (backoffDelay (baseInterval image settings.defaultScanIntervalSeconds)
            settings.maxFailureBackoffSeconds g)) ∧
      (f = 0 ∧ 0 < g →
        baseInterval image settings.defaultScanIntervalSeconds ≤
          settings.maxFailureBackoffSeconds) := by
  have hinterval : 0 ≤ baseInterval image settings.defaultScanIntervalSeconds :=
    baseInterval_nonneg image hdefault.le
  rw [← backoffDelay_le_iff hinterval hfg, ← seconds_le_seconds]
  constructor
  · rintro ⟨a, ha, b, hb, hab⟩
    obtain ⟨hf, rfl⟩ := (nextDueAt_withStreak hscanned _ _ f a).mp ha
    obtain ⟨hg, rfl⟩ := (nextDueAt_withStreak hscanned _ _ g b).mp hb
    exact ⟨⟨hf, hg⟩, (add_le_add_iff_left lastScanAt).mp hab⟩
  · rintro ⟨⟨hf, hg⟩, hdelay⟩
    refine ⟨_, (nextDueAt_withStreak hscanned _ _ f _).mpr ⟨hf, rfl⟩, _,
      (nextDueAt_withStreak hscanned _ _ g _).mpr ⟨hg, rfl⟩, ?_⟩
    exact (add_le_add_iff_left lastScanAt).mpr hdelay

/-- An image rescanned every two days, last scanned at the epoch. -/
def everyOtherDay : Image :=
  { Image.registered 0 ("nginx", "1.19") with
    scanIntervalSeconds := some 172800
    lastScanAt := some 0 }

theorem dueInOrder_everyOtherDay :
    DueInOrder everyOtherDay {} 1 2 ↔
      (Representable 0 (backoffDelay (baseInterval everyOtherDay 900) 86400 1) ∧
        Representable 0 (backoffDelay (baseInterval everyOtherDay 900) 86400 2)) ∧
      ((1 : ℕ) = 0 ∧ 0 < 2 → baseInterval everyOtherDay 900 ≤ 86400) :=
  dueInOrder_iff rfl (by decide) (by decide)

/-- With the default cap of a day, its first failure makes it due a day early. -/
theorem not_dueInOrder_everyOtherDay :
    ¬ DueInOrder everyOtherDay {} 0 1 ∧
      nextDueAt (withStreak everyOtherDay 0) 900 86400 = some (seconds 172800) ∧
      nextDueAt (withStreak everyOtherDay 1) 900 86400 = some (seconds 86400) := by
  refine ⟨?_, by decide, by decide⟩
  rintro ⟨a, ha, b, hb, hab⟩
  have ha' : nextDueAt (withStreak everyOtherDay 0) 900 86400 = some (seconds 172800) := by decide
  have hb' : nextDueAt (withStreak everyOtherDay 1) 900 86400 = some (seconds 86400) := by decide
  obtain rfl := Option.some.inj (ha'.symm.trans ha)
  obtain rfl := Option.some.inj (hb'.symm.trans hb)
  exact absurd (seconds_le_seconds.mp hab) (by decide)

end Tick

end ContainerScanner
