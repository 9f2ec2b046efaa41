import ContainerScanner.Jobs.Workers

/-!
# Throttling and urgency

What keeps a deferred job from being claimed before the registry's delay is over. While a job is
pending the index admits no other job of its image, and a pending job that is not due is not
claimed; so the embargo holds as long as nothing takes the row out of that state. Two things can: a
promotion, which makes the job due at once, and a worker that claimed the job before, was reaped,
and reports on it now.

## Main definitions

* `Deferred` — a state in which a job has just been deferred
* `Undisturbed` — a step that is neither of the two before the delay is over

## Main results

* `embargo_run` — in a run of undisturbed steps nobody claims a job of the image before the end
-/

namespace ContainerScanner

open Foundation Queue

namespace Workers

variable {settings : Settings} {s s' t u : State} {at_ now expiry : Timestamp} {w : WorkerId}
  {j j' : JobId} {i : ImageId} {h : Held}

/-! ### What a worker holds -/

/-- No row goes, and none moves to another image. -/
def KeepsImages (jobs jobs' : Jobs) : Prop :=
  ∀ j row, jobs.get? j = some row →
    ∃ row', jobs'.get? j = some row' ∧ row'.imageId = row.imageId

theorem keepsImages_enqueue (jobs : Jobs) (i : ImageId) (priority : ℤ)
    (scheduledFor : Timestamp) : KeepsImages jobs (enqueue jobs i priority scheduledFor).1 :=
  fun _ row hrow => ⟨row, get?_enqueue hrow i priority scheduledFor, rfl⟩

theorem keepsImages_mapRows (jobs : Jobs) {f : ScanJob → ScanJob}
    (hf : ∀ row, (f row).imageId = row.imageId) : KeepsImages jobs (jobs.mapRows f) :=
  Serial.carries_mapRows jobs hf

theorem keepsImages_update (jobs : Jobs) (j : JobId) {f : ScanJob → ScanJob}
    (hf : ∀ row, (f row).imageId = row.imageId) : KeepsImages jobs (jobs.update j f) :=
  Serial.carries_update (fun row => Eq.refl row.imageId) jobs j hf

theorem KeepsImages.trans {jobs jobs' jobs'' : Jobs} (h : KeepsImages jobs jobs')
    (h' : KeepsImages jobs' jobs'') : KeepsImages jobs jobs'' :=
  Serial.Carries.trans h (fun _ _ _ himage himage' => himage'.trans himage) h'

theorem keepsImages_requestScan (jobs : Jobs) (i : ImageId) (timeSensitive : Bool)
    (now : Timestamp) : KeepsImages jobs (requestScan jobs i timeSensitive now).1 := by
  obtain heq | ⟨-, heq⟩ := requestScan_jobs jobs i timeSensitive now
  · rw [heq]
    exact keepsImages_enqueue jobs i _ now
  · rw [heq]
    exact (keepsImages_enqueue jobs i _ now).trans
      (keepsImages_mapRows _ (imageId_promoteRow i now))

theorem keepsImages_reportJobs (settings : Settings) (jobs : Jobs) (h : Held) (outcome : Outcome) :
    KeepsImages jobs (reportJobs settings jobs h outcome) :=
  keepsImages_update jobs h.job fun row => imageId_flush_change settings outcome _ row

theorem keepsImages_step {e : Timestamp × Event} (hstep : step settings s e = some s') :
    KeepsImages s.jobs s'.jobs := by
  obtain ⟨at_, event⟩ := e
  have hstep := stepAt_of_step hstep
  cases event with
  | enqueue i priority scheduledFor =>
    cases hstep
    exact keepsImages_enqueue _ _ _ _
  | promote i now =>
    cases hstep
    exact keepsImages_mapRows _ (imageId_promoteRow i now)
  | requestScan i timeSensitive now =>
    cases hstep
    exact keepsImages_requestScan _ _ _ _
  | claim w j locked now =>
    obtain ⟨-, -, -, -, -, hjobs, -⟩ := stepAt_claim hstep
    rw [hjobs]
    exact keepsImages_update _ j fun _ => rfl
  | report w outcome =>
    obtain ⟨held, -, -, -, -, -, ⟨-, hjobs, -⟩ | ⟨-, hjobs, -⟩⟩ := stepAt_report hstep
    · rw [hjobs]
      exact keepsImages_reportJobs settings _ held outcome
    · rw [hjobs]
      exact fun j row hrow => ⟨row, hrow, rfl⟩
  | reap =>
    cases hstep
    exact keepsImages_mapRows _ (imageId_reapRow settings.maxAttempts at_)
  | abandon w =>
    cases hstep
    exact fun j row hrow => ⟨row, hrow, rfl⟩

/-- The clock moves to the event, and not back. -/
theorem clock_step {e : Timestamp × Event} (hstep : step settings s e = some s') :
    s'.clock = e.1 ∧ s.clock ≤ e.1 := by
  have hle : s.clock ≤ e.1 := by
    rw [step] at hstep
    split at hstep
    · cases hstep
    · next hlt => exact not_lt.mp hlt
  refine ⟨?_, hle⟩
  obtain ⟨at_, event⟩ := e
  have hstep := stepAt_of_step hstep
  cases event with
  | claim w j locked now =>
    obtain ⟨-, -, -, -, -, -, -, hclock, -⟩ := stepAt_claim hstep
    exact hclock
  | report w outcome =>
    obtain ⟨-, -, -, hclock, -⟩ := stepAt_report hstep
    exact hclock
  | _ =>
    cases hstep
    rfl

/-- What a worker holds it held before, or it is the job just claimed. -/
theorem held_step {e : Timestamp × Event} (hstep : step settings s e = some s')
    (hheld : s'.held w = some h) :
    s.held w = some h ∨ ∃ job locked now, e.2 = .claim w h.job locked now ∧
      s.jobs.get? h.job = some job ∧ job.scheduledFor ≤ e.1 ∧
      h.loaded = takeLease now settings.leaseSeconds job := by
  obtain ⟨at_, event⟩ := e
  have hstep := stepAt_of_step hstep
  cases event with
  | claim w' j locked now =>
    obtain ⟨-, job, hjob, -, hdue, -, hheld', -⟩ := stepAt_claim hstep
    rw [hheld'] at hheld
    obtain ⟨rfl, rfl⟩ | ⟨-, hheld⟩ := update_some_eq_some.mp hheld
    · exact Or.inr ⟨job, locked, now, rfl, hjob, hdue, rfl⟩
    · exact Or.inl hheld
  | report w' outcome =>
    obtain ⟨-, -, hheld', -⟩ := stepAt_report hstep
    rw [hheld'] at hheld
    exact Or.inl (update_none_eq_some.mp hheld).2
  | abandon w' =>
    cases hstep
    exact Or.inl (update_none_eq_some.mp hheld).2
  | _ =>
    cases hstep
    exact Or.inl hheld

/-- A worker holds a running object that was due when it was claimed, of a row that is still
there and still of that image. -/
structure Holding (s : State) : Prop where
  running : ∀ w h, s.held w = some h → h.loaded.status = .running
  due : ∀ w h, s.held w = some h → h.loaded.scheduledFor ≤ s.clock
  row : ∀ w h, s.held w = some h →
    ∃ row, s.jobs.get? h.job = some row ∧ row.imageId = h.loaded.imageId

theorem holding_start (jobs : Jobs) (hu : UniqueActive jobs) (clock : Timestamp) :
    Holding (State.start jobs hu clock) where
  running := fun _ _ hw => by cases hw
  due := fun _ _ hw => by cases hw
  row := fun _ _ hw => by cases hw

theorem Holding.step (hs : Holding s) {e : Timestamp × Event}
    (hstep : Workers.step settings s e = some s') : Holding s' := by
  obtain ⟨hclock, hle⟩ := clock_step hstep
  have himages := keepsImages_step hstep
  refine ⟨?_, ?_, ?_⟩
  · intro w h hw
    obtain hw | ⟨job, locked, now, -, -, -, hloaded⟩ := held_step hstep hw
    · exact hs.running w h hw
    · rw [hloaded]
      rfl
  · intro w h hw
    rw [hclock]
    obtain hw | ⟨job, locked, now, -, -, hdue, hloaded⟩ := held_step hstep hw
    · exact (hs.due w h hw).trans hle
    · rw [hloaded]
      exact hdue
  · intro w h hw
    obtain hw | ⟨job, locked, now, -, hjob, -, hloaded⟩ := held_step hstep hw
    · obtain ⟨row, hrow, himage⟩ := hs.row w h hw
      obtain ⟨row', hrow', himage'⟩ := himages h.job row hrow
      exact ⟨row', hrow', himage'.trans himage⟩
    · obtain ⟨row', hrow', himage'⟩ := himages h.job job hjob
      rw [hloaded]
      exact ⟨row', hrow', himage'⟩

/-! ### The embargo -/

/-- The delay is over, or the job is pending and due only then. -/
def Embargoed (j : JobId) (i : ImageId) (expiry : Timestamp) (s : State) : Prop :=
  expiry ≤ s.clock ∨ ∃ row, s.jobs.get? j = some row ∧ row.imageId = i ∧ row.status = .pending ∧
    expiry ≤ row.scheduledFor

/-- A run in which a worker has just deferred its job: the job, its image and the end of the
delay. -/
inductive Deferred (settings : Settings) : State → JobId → ImageId → Timestamp → Prop where
  | intro {jobs : Jobs} {hu : UniqueActive jobs} {clock : Timestamp} {s s' : State}
      {at_ now : Timestamp} {w : WorkerId} {h : Held} {delaySeconds : ℕ} {reason : String}
      {refreshed : Bool}
      (hrun : Reaches (step settings) (fun _ _ => True) (State.start jobs hu clock) s)
      (hheld : s.held w = some h)
      -- the index does not refuse the row, so the transaction commits
      (hcommits : UniqueActive
        (reportJobs settings s.jobs h (.defer delaySeconds reason refreshed now)))
      (hstep : step settings s (at_, .report w (.defer delaySeconds reason refreshed now)) =
        some s') :
      Deferred settings s' h.job h.loaded.imageId (now + seconds delaySeconds)

/-- The image whose pending job the event promotes, and when it makes it due. -/
def promotes (i : ImageId) : Event → Option Timestamp
  | .promote i' now => if i' = i then some now else none
  | .requestScan i' true now => if i' = i then some now else none
  | _ => none

/-- Before the delay is over, no worker with an earlier claim of the job reports on it, and no
promotion finds the job below the time-sensitive lane and makes it due before then. -/
def Undisturbed (j : JobId) (i : ImageId) (expiry : Timestamp) (s : State)
    (e : Timestamp × Event) : Prop :=
  e.1 < expiry → (∀ h ∈ reportsOn s e.2, h.job ≠ j) ∧
    ∀ now ∈ promotes i e.2, now < expiry →
      ∀ row ∈ s.jobs.get? j, priorityTimeSensitive ≤ row.priority

instance (j : JobId) (i : ImageId) (expiry : Timestamp) (s : State) (e : Timestamp × Event) :
    Decidable (Undisturbed j i expiry s e) :=
  inferInstanceAs (Decidable (_ → _))

theorem embargoed_of_deferred (hd : Deferred settings s j i expiry) : Embargoed j i expiry s := by
  cases hd with
  | @intro jobs hu clock s₀ _ at_ now w h delaySeconds reason refreshed hrun hheld hcommits hstep =>
    have hs : Holding s₀ := hrun.invariant (fun _ _ _ hs _ hstep => hs.step hstep)
      (holding_start jobs hu clock)
    obtain ⟨hclock, hle⟩ := clock_step hstep
    obtain ⟨held, hheld', -, -, -, -, hcases⟩ := stepAt_report (stepAt_of_step hstep)
    obtain rfl : held = h := Option.some.inj (hheld'.symm.trans hheld)
    obtain ⟨-, hjobs, -⟩ | ⟨hviolated, -⟩ := hcases
    swap
    · exact absurd hcommits hviolated
    obtain ⟨row, hrow, himage⟩ := hs.row w held hheld
    -- the object a column is compared with: what the claim loaded, or the row
    have hrow' : s.jobs.get? held.job = some (flush (if refreshed then row else held.loaded)
        (Queue.defer delaySeconds reason now (if refreshed then row else held.loaded)) row) := by
      rw [hjobs, reportJobs, Serial.get?_update_self, hrow]
      rfl
    by_cases hover : now + seconds delaySeconds ≤ at_
    · exact Or.inl (hover.trans_eq hclock.symm)
    refine Or.inr ⟨_, hrow', ?_, ?_, ?_⟩
    · exact (imageId_flush_change settings (.defer delaySeconds reason refreshed now) _ row).trans
        himage
    · cases refreshed with
      | true =>
        rw [if_pos rfl, flush_self]
        rfl
      | false =>
        show flushColumn held.loaded.status .pending row.status = .pending
        rw [flushColumn, hs.running w held hheld, if_neg (by decide)]
    · cases refreshed with
      | true =>
        rw [if_pos rfl, flush_self]
        exact le_rfl
      | false =>
        -- the column differs: the claimed job was due, and the end of the delay is not here yet
        have hdue : held.loaded.scheduledFor ≤ at_ := (hs.due w held hheld).trans hle
        have hne : now + seconds delaySeconds ≠ held.loaded.scheduledFor := by
          rintro heq
          exact hover (heq.trans_le hdue)
        show now + seconds delaySeconds ≤
          flushColumn held.loaded.scheduledFor (now + seconds delaySeconds) row.scheduledFor
        rw [flushColumn, if_neg hne]

/-- A promotion that the embargo admits leaves the job pending and not due. -/
theorem promoteRow_embargoed {row : ScanJob} {i' : ImageId} (hpending : row.status = .pending)
    (hdue : expiry ≤ row.scheduledFor)
    (hnow : i' = row.imageId → row.priority < priorityTimeSensitive → expiry ≤ now) :
    (promoteRow i' now row).status = .pending ∧
      expiry ≤ (promoteRow i' now row).scheduledFor := by
  rw [promoteRow]
  split
  · next hpromotable =>
    simp only [promotable, decide_eq_true_eq] at hpromotable
    exact ⟨hpending, hnow hpromotable.1.symm hpromotable.2.2⟩
  · exact ⟨hpending, hdue⟩

/-- An undisturbed step keeps the embargo. -/
theorem Embargoed.step (hs : Embargoed j i expiry s) {e : Timestamp × Event}
    (hq : Undisturbed j i expiry s e) (hstep : Workers.step settings s e = some s') :
    Embargoed j i expiry s' := by
  obtain ⟨hclock, hle⟩ := clock_step hstep
  by_cases hover : expiry ≤ e.1
  · exact Or.inl (hover.trans_eq hclock.symm)
  obtain hearly | ⟨row, hrow, himage, hpending, hdue⟩ := hs
  · exact absurd (hearly.trans hle) hover
  obtain ⟨hreports, hpromotes⟩ := hq (not_le.mp hover)
  -- a row that stays the same is as good as before
  have hkept : s'.jobs.get? j = some row → Embargoed j i expiry s' :=
    fun hrow' => Or.inr ⟨row, hrow', himage, hpending, hdue⟩
  have hpromoted : ∀ i' now, (i' = i → row.priority < priorityTimeSensitive → expiry ≤ now) →
      s'.jobs.get? j = some (promoteRow i' now row) → Embargoed j i expiry s' := by
    intro i' now hnow hrow'
    obtain ⟨hpending', hdue'⟩ := promoteRow_embargoed hpending hdue (by rwa [himage])
    exact Or.inr ⟨_, hrow', (imageId_promoteRow i' now row).trans himage, hpending', hdue'⟩
  -- a promotion of this image that finds the job below the lane does not make it due early
  have hlate : ∀ now ∈ promotes i e.2, row.priority < priorityTimeSensitive → expiry ≤ now := by
    intro now hnow hlow
    by_contra hsoon
    exact absurd (hpromotes now hnow (not_le.mp hsoon) row hrow) (not_le.mpr hlow)
  obtain ⟨at_, event⟩ := e
  have hstep := stepAt_of_step hstep
  cases event with
  | enqueue i' priority scheduledFor =>
    cases hstep
    exact hkept (get?_enqueue hrow _ _ _)
  | promote i' now =>
    cases hstep
    refine hpromoted i' now (fun heq => hlate now (by rw [heq]; exact if_pos rfl)) ?_
    exact (Serial.get?_mapRows _ _ _).trans (by rw [hrow]; rfl)
  | requestScan i' timeSensitive now =>
    cases hstep
    obtain heq | ⟨rfl, heq⟩ := requestScan_jobs s.jobs i' timeSensitive now
    · exact hkept ((congrArg (Serial.get? · j) heq).trans (get?_enqueue hrow _ _ _))
    · refine hpromoted i' now (fun heq => hlate now (by rw [heq]; exact if_pos rfl)) ?_
      refine (congrArg (Serial.get? · j) heq).trans ?_
      show (Serial.mapRows _ _).get? j = _
      rw [Serial.get?_mapRows, get?_enqueue hrow]
      rfl
  | claim w j' locked now =>
    obtain ⟨-, job, hjob, -, hjobdue, hjobs, -⟩ := stepAt_claim hstep
    refine hkept ?_
    rw [hjobs, Serial.get?_update_of_ne]
    · exact hrow
    · rintro rfl
      rw [hrow] at hjob
      rw [← Option.some.inj hjob] at hjobdue
      exact hover (hdue.trans hjobdue)
  | report w outcome =>
    obtain ⟨held, hheld, -, -, -, -, ⟨-, hjobs, -⟩ | ⟨-, hjobs, -⟩⟩ := stepAt_report hstep
    · refine hkept ?_
      rw [hjobs, reportJobs, Serial.get?_update_of_ne _ (hreports held hheld).symm]
      exact hrow
    · rw [hjobs] at hkept
      exact hkept hrow
  | reap =>
    cases hstep
    refine hkept ((Serial.get?_mapRows _ _ _).trans ?_)
    rw [hrow, Option.map_some, reapRow, if_neg]
    rintro hreap
    rw [(reapable_iff.mp hreap).1] at hpending
    cases hpending
  | abandon w =>
    cases hstep
    exact hkept hrow

/-- Nobody claims an embargoed job, nor another one of its image. -/
theorem Embargoed.expiry_le (hs : Embargoed j i expiry s) {locked : List JobId}
    (hstep : Workers.step settings s (at_, .claim w j' locked now) = some s')
    (hsame : j' = j ∨ ∃ row, s.jobs.get? j' = some row ∧ row.imageId = i) : expiry ≤ at_ := by
  obtain ⟨-, hle⟩ := clock_step hstep
  obtain hover | ⟨row, hrow, himage, hpending, hdue⟩ := hs
  · exact hover.trans hle
  obtain ⟨-, job, hjob, hjobpending, hjobdue, -⟩ := stepAt_claim (stepAt_of_step hstep)
  -- the index: a pending job of the image is that job
  have hj : j' = j := by
    obtain heq | ⟨row', hrow', himage'⟩ := hsame
    · exact heq
    · rw [hjob] at hrow'
      obtain rfl := Option.some.inj hrow'
      exact s.uniqueActive j' j job row hjob hrow (isActive_of_pending hjobpending)
        (isActive_of_pending hpending) (himage'.trans himage.symm)
  rw [hj, hrow] at hjob
  rw [← Option.some.inj hjob] at hjobdue
  exact hdue.trans hjobdue

/-- **Urgency and backpressure.** Once a worker has deferred a job, in every further run whose
steps do not disturb the embargo no worker claims that job, or another job of its image, before the
delay is over. -/
theorem embargo_run {locked : List JobId} (hd : Deferred settings s j i expiry)
    (hrun : Reaches (step settings) (Undisturbed j i expiry) s t)
    (hclaim : step settings t (at_, .claim w j' locked now) = some u)
    (hsame : j' = j ∨ ∃ row, t.jobs.get? j' = some row ∧ row.imageId = i) : expiry ≤ at_ := by
  have ht : Embargoed j i expiry t := hrun.invariant (fun _ _ _ hs hq hstep => hs.step hq hstep)
    (embargoed_of_deferred hd)
  exact ht.expiry_le hclaim hsame

/-- The claim of the only job, which the registry then throttles for five minutes. -/
def throttled : List (Timestamp × Event) :=
  [(0, .enqueue 1 priorityScheduled 0), (0, .claim 1 1 [] 0)]

def throttle : Timestamp × Event :=
  (seconds 10, .report 1 (.defer 300 "RateLimited" false (seconds 10)))

theorem deferred_throttled {s₀ s : State}
    (hs₀ : execute (restrict (step {}) fun _ _ => True) emptyQueue throttled = some s₀)
    (hs : step {} s₀ throttle = some s) : Deferred {} s 1 1 (seconds 10 + seconds 300) := by
  have hrun : ((execute (restrict (step {}) fun _ _ => True) emptyQueue throttled).bind fun s =>
      (s.held 1).bind fun h => some (h, decide (UniqueActive (reportJobs {} s.jobs h
        (.defer 300 "RateLimited" false (seconds 10)))))) =
      some (⟨1, takeLease 0 1200 (newJob 1 priorityScheduled 0), 0⟩, true) := by decide
  rw [hs₀, Option.bind_some] at hrun
  obtain ⟨h, hheld, hrun⟩ := Option.bind_eq_some_iff.mp hrun
  obtain ⟨rfl, hcommits⟩ := Prod.mk.inj (Option.some.inj hrun)
  exact Deferred.intro (reaches_of_execute hs₀) hheld (of_decide_eq_true hcommits) hs

/-- A request that is not urgent changes nothing, and the job is claimed when the delay is over. -/
theorem embargo_run_throttled :
    ∃ s t u, Deferred {} s 1 1 (seconds 310) ∧
      step {} t (seconds 311, .claim 2 1 [] (seconds 311)) = some u ∧
      seconds 310 ≤ seconds 311 := by
  have hrun : ((execute (restrict (step {}) fun _ _ => True) emptyQueue throttled).bind fun s₀ =>
      (step {} s₀ throttle).bind fun s => (execute
        (restrict (step {}) (Undisturbed 1 1 (seconds 310))) s
          [(seconds 20, .requestScan 1 false (seconds 20))]).bind fun t =>
        step {} t (seconds 311, .claim 2 1 [] (seconds 311))).isSome := by decide
  obtain ⟨u, hrun⟩ := Option.isSome_iff_exists.mp hrun
  obtain ⟨s₀, hs₀, hrun⟩ := Option.bind_eq_some_iff.mp hrun
  obtain ⟨s, hs, hrun⟩ := Option.bind_eq_some_iff.mp hrun
  obtain ⟨t, ht, hu⟩ := Option.bind_eq_some_iff.mp hrun
  have hd := deferred_throttled hs₀ hs
  exact ⟨s, t, u, hd, hu, embargo_run hd (reaches_of_execute ht) hu (Or.inl rfl)⟩

/-- A time-sensitive request makes the throttled job due at once. -/
theorem not_embargo_timeSensitive :
    ¬ ∀ (settings : Settings) (s t u : State) (j j' : JobId) (i : ImageId)
      (expiry at_ now : Timestamp) (w : WorkerId) (locked : List JobId),
      Deferred settings s j i expiry → Reaches (step settings) (fun _ _ => True) s t →
        step settings t (at_, .claim w j' locked now) = some u →
          (j' = j ∨ ∃ row, t.jobs.get? j' = some row ∧ row.imageId = i) → expiry ≤ at_ := by
  intro hall
  have hrun : ((execute (restrict (step {}) fun _ _ => True) emptyQueue throttled).bind fun s₀ =>
      (step {} s₀ throttle).bind fun s => (execute (restrict (step {}) fun _ _ => True) s
          [(seconds 20, .requestScan 1 true (seconds 20))]).bind fun t =>
        step {} t (seconds 30, .claim 2 1 [] (seconds 30))).isSome := by decide
  obtain ⟨u, hrun⟩ := Option.isSome_iff_exists.mp hrun
  obtain ⟨s₀, hs₀, hrun⟩ := Option.bind_eq_some_iff.mp hrun
  obtain ⟨s, hs, hrun⟩ := Option.bind_eq_some_iff.mp hrun
  obtain ⟨t, ht, hu⟩ := Option.bind_eq_some_iff.mp hrun
  have hlate := hall {} s t u 1 1 1 _ _ _ _ _ (deferred_throttled hs₀ hs) (reaches_of_execute ht) hu
    (Or.inl rfl)
  exact absurd hlate (by decide)

end Workers

end ContainerScanner
