import ContainerScanner.Jobs.Workers
import ContainerScanner.Foundation.Journal
import Mathlib.Algebra.BigOperators.Intervals
import Mathlib.Algebra.Order.BigOperators.Group.Finset
import Mathlib.Algebra.Order.Ring.Int

/-!
# How long a job waits

A job that is due waits for the jobs ahead of it in the order of the queue. The order by itself
bounds nothing: a job that fails comes back, a job that is deferred comes back, and urgent requests
keep arriving. What bounds the wait is that a job has so many attempts. Every claim that passes the
waiting job over is paid for by an attempt of a job ahead of it, by a deferral, or by an arrival
ahead of it.

## Main definitions

* `claimsLeft` — how often a job may still be claimed ahead of another
* `Move`, `moves` — the claims that overtake, the deferrals and the arrivals of a step
* `arrives` — another job comes to stand ahead, which a refused request does not do
* `Waits` — the job waits, and whoever reports has a clock that is past its due time

## Main results

* `Budget.step` — active jobs have attempts left
* `ahead_step` — what a step does to the claims left ahead of a job
* `overtakes_bounded` — how often a waiting job is overtaken, in every run
-/

namespace ContainerScanner

open Foundation Queue

namespace Workers

/-- How often `job` may still be claimed ahead of `r`, were it never deferred. -/
def claimsLeft (settings : Settings) (r job : ScanJob) : ℕ :=
  if claimedBefore r job then 0
  else
    match job.status with
    | .pending => (settings.maxAttempts - job.attempts).toNat
    | .running => (settings.maxAttempts - job.attempts - 1).toNat
    | .done | .failed => 0

/-- The claims left to all jobs ahead of the job `b`, whose row is `r`. -/
def claimsAhead (settings : Settings) (b : JobId) (r : ScanJob) (jobs : Jobs) : ℕ :=
  ∑ j ∈ Finset.range jobs.next,
    if j = b then 0 else (jobs.get? j).elim 0 (claimsLeft settings r)

/-- What a step means to a job that waits. -/
inductive Move where
  | overtake
  | deferral
  | arrival
  deriving DecidableEq

/-- Does a job come to stand ahead of the job `b` that was behind it, or not there? -/
def arrives (b : JobId) (r : ScanJob) (jobs jobs' : Jobs) : Bool :=
  jobs'.rows.entries.any fun e =>
    e.1 ≠ b && !claimedBefore r e.2 && (jobs.get? e.1).all (claimedBefore r)

/-- The moves of a step. A claim that finds the row locked does not overtake it. -/
def moves (b : JobId) (r : ScanJob) (s : State) : Timestamp × Event → List Move
  | (_, .claim _ j locked _) => if j ≠ b ∧ b ∉ locked then [.overtake] else []
  | (_, .report _ (.defer _ _ _ _)) => [.deferral]
  | (_, .enqueue i priority scheduledFor) =>
    if arrives b r s.jobs (enqueue s.jobs i priority scheduledFor).1 then [.arrival] else []
  | (_, .promote i now) => if arrives b r s.jobs (promote s.jobs i now).1 then [.arrival] else []
  | (_, .requestScan i timeSensitive now) =>
    if arrives b r s.jobs (requestScan s.jobs i timeSensitive now).1 then [.arrival] else []
  | _ => []

/-- The clock of whoever puts a job back. -/
def reportClock : Event → Option Timestamp
  | .report _ (.fail _ _ _ now) => some now
  | .report _ (.defer _ _ _ now) => some now
  | _ => none

/-- The job waits, no worker reports on a claim that the reaper has ended, and a worker that puts a
job back does so by a clock that has passed the time the waiting job was due. -/
def Waits (b : JobId) (r : ScanJob) (s : State) (e : Timestamp × Event) : Prop :=
  s.jobs.get? b = some r ∧ Fenced s e ∧ ∀ now ∈ reportClock e.2, r.scheduledFor < now

instance (b : JobId) (r : ScanJob) (s : State) (e : Timestamp × Event) :
    Decidable (Waits b r s e) :=
  inferInstanceAs (Decidable (_ ∧ _ ∧ ∀ now ∈ reportClock e.2, r.scheduledFor < now))

variable {settings : Settings} {s s' : State} {at_ : Timestamp} {w : WorkerId} {j b : JobId}
  {r job : ScanJob} {jobs : Jobs}

/-! ### Attempts left -/

/-- A job that is not over has attempts left. -/
def Budget (settings : Settings) (jobs : Jobs) : Prop :=
  jobs.All fun _ job => isActive job → job.attempts < settings.maxAttempts

/-- A failure ends the job, or puts it back with one attempt less and a delay. -/
theorem fail_cases (error : String) (allowed backoffBaseSeconds backoffMaxSeconds : ℤ)
    (now : Timestamp) (job : ScanJob) :
    (fail error allowed backoffBaseSeconds backoffMaxSeconds now job).status = .failed ∨
      ∃ job', fail error allowed backoffBaseSeconds backoffMaxSeconds now job = job' ∧
        job'.status = .pending ∧ job'.attempts = job.attempts + 1 ∧ job'.attempts < allowed ∧
        job'.priority = job.priority ∧ job'.scheduledFor =
          now + seconds (min (backoffBaseSeconds * 2 ^ job.attempts) backoffMaxSeconds) := by
  rw [fail]
  split
  · exact Or.inl rfl
  · next hretry => exact Or.inr ⟨_, rfl, rfl, rfl, not_le.mp hretry, rfl, rfl⟩

theorem budget_change (h : isActive job → job.attempts < settings.maxAttempts)
    (hrunning : job.status = .running) (outcome : Outcome) :
    isActive (outcome.change settings job) →
      (outcome.change settings job).attempts < settings.maxAttempts := by
  have hleft : job.attempts < settings.maxAttempts := h (by simp [isActive, hrunning])
  cases outcome with
  | complete => simp [Outcome.change, complete, isActive]
  | fail error permanent refreshed now =>
    have hallowed : (if permanent then 1 else settings.maxAttempts) ≤ settings.maxAttempts := by
      split
      · omega
      · exact le_rfl
    rw [Outcome.change]
    obtain hfailed | ⟨job', heq, -, hattempts, hretry, -⟩ :=
      fail_cases error (if permanent then 1 else settings.maxAttempts) settings.backoffBaseSeconds
        settings.backoffMaxSeconds now job
    · simp [isActive, hfailed]
    · rw [heq]
      exact fun _ => hretry.trans_le hallowed
  | defer delaySeconds reason refreshed now => exact fun _ => hleft

theorem budget_reapRow (h : isActive job → job.attempts < settings.maxAttempts) (now : Timestamp) :
    isActive (reapRow settings.maxAttempts now job) →
      (reapRow settings.maxAttempts now job).attempts < settings.maxAttempts := by
  rw [reapRow]
  split
  · by_cases hlast : settings.maxAttempts ≤ job.attempts + 1
    · simp [isActive, hlast]
    · exact fun _ => not_le.mp hlast
  · exact h

/-- **Every fenced step keeps the budget.** -/
theorem Budget.step (h : Budget settings s.jobs) (hmax : 1 ≤ settings.maxAttempts)
    (hs : Fencing s) {e : Timestamp × Event} (hf : Fenced s e)
    (hstep : step settings s e = some s') : Budget settings s'.jobs := by
  obtain ⟨at_, event⟩ := e
  have hstep := stepAt_of_step hstep
  have hpromote : ∀ i now (j : JobId) job, (isActive job → job.attempts < settings.maxAttempts) →
      isActive (promoteRow i now job) →
        (promoteRow i now job).attempts < settings.maxAttempts := by
    intro i now _ job hjob
    rw [promoteRow]
    split
    · exact hjob
    · exact hjob
  cases event with
  | enqueue i priority scheduledFor =>
    cases hstep
    exact all_enqueue h fun _ => hmax
  | promote i now =>
    cases hstep
    exact Serial.All.mapRows h (hpromote i now)
  | requestScan i timeSensitive now =>
    cases hstep
    exact all_requestScan h (fun _ _ => hmax) (hpromote i now) timeSensitive
  | claim w j locked now =>
    obtain ⟨-, job, hjob, hpending, -, hjobs, -⟩ := stepAt_claim hstep
    rw [hjobs]
    intro k row hrow
    rw [Serial.get?_update] at hrow
    split at hrow
    · next hk =>
      rw [hjob] at hrow
      cases hrow
      exact fun _ => h j job hjob (by simp [isActive, hpending])
    · exact h k row hrow
  | report w outcome =>
    obtain ⟨held, -, hloaded, hrunning, -, hget, -⟩ := hs.report hf hstep
    exact Serial.All.of_get? h hget
      (budget_change (h held.job held.loaded hloaded) hrunning outcome)
  | reap =>
    cases hstep
    exact Serial.All.mapRows h fun _ _ hjob => budget_reapRow hjob at_
  | abandon w =>
    cases hstep
    exact h

/-! ### What a row may still cost -/

theorem claimsLeft_le (settings : Settings) (r job : ScanJob) :
    claimsLeft settings r job ≤ settings.maxAttempts.toNat := by
  rw [claimsLeft]
  split
  · exact Nat.zero_le _
  · split <;> omega

theorem claimsLeft_of_behind (h : claimedBefore r job = true) : claimsLeft settings r job = 0 := by
  rw [claimsLeft, if_pos h]

theorem claimsLeft_of_over (h : job.status = .done ∨ job.status = .failed) :
    claimsLeft settings r job = 0 := by
  rw [claimsLeft]
  obtain h | h := h <;> rw [h, ite_self]

theorem claimsLeft_of_running (hrunning : job.status = .running)
    (h : ¬ claimedBefore r job = true) :
    claimsLeft settings r job = (settings.maxAttempts - job.attempts - 1).toNat := by
  rw [claimsLeft, if_neg h, hrunning]

/-- A claim uses one up. -/
theorem claimsLeft_takeLease (hpending : job.status = .pending)
    (hleft : job.attempts < settings.maxAttempts) (hahead : claimedBefore r job = false)
    (now : Timestamp) (leaseSeconds : ℤ) :
    claimsLeft settings r (takeLease now leaseSeconds job) + 1 = claimsLeft settings r job := by
  have hahead' : claimedBefore r (takeLease now leaseSeconds job) = false := hahead
  rw [claimsLeft, claimsLeft, hahead, hahead', hpending]
  show (settings.maxAttempts - job.attempts - 1).toNat + 1 =
    (settings.maxAttempts - job.attempts).toNat
  omega

theorem claimsLeft_takeLease_le (hpending : job.status = .pending) (now : Timestamp)
    (leaseSeconds : ℤ) :
    claimsLeft settings r (takeLease now leaseSeconds job) ≤ claimsLeft settings r job := by
  have hsame : claimedBefore r (takeLease now leaseSeconds job) = claimedBefore r job := rfl
  rw [claimsLeft, claimsLeft, hsame, hpending]
  split
  · exact le_rfl
  · exact Int.toNat_le_toNat (Int.sub_le_self _ (by decide))

/-- A running job that is put back by a clock past `r`'s due time stays behind `r`, or is of a
higher lane. -/
theorem claimedBefore_of_later {job' : ScanJob} (hpriority : job'.priority = job.priority)
    (hlater : r.scheduledFor < job'.scheduledFor) (h : claimedBefore r job = true) :
    claimedBefore r job' = true := by
  simp only [claimedBefore, decide_eq_true_eq] at h ⊢
  rw [hpriority]
  exact h.imp id fun htie => ⟨htie.1, hlater⟩

theorem scheduledFor_lt_delayed {now : Timestamp} (h : r.scheduledFor < now) {delay : ℤ}
    (hdelay : 0 ≤ delay) : r.scheduledFor < now + seconds delay := by
  have hseconds : 0 ≤ seconds delay := by
    rw [seconds, second]
    omega
  exact h.trans_le (le_add_of_nonneg_right hseconds)

/-- No retry is scheduled before the failure. -/
def DelaysForward (settings : Settings) : Prop :=
  0 ≤ settings.backoffBaseSeconds ∧ 0 ≤ settings.backoffMaxSeconds

instance (settings : Settings) : Decidable (DelaysForward settings) :=
  inferInstanceAs (Decidable (_ ∧ _))

/-- A report costs nothing, except that a deferral gives a claim back. -/
theorem claimsLeft_change (hforward : DelaysForward settings) (hrunning : job.status = .running)
    (outcome : Outcome)
    (hclock : ∀ now ∈ reportClock (.report w outcome), r.scheduledFor < now) :
    claimsLeft settings r (outcome.change settings job) ≤ claimsLeft settings r job +
      ((moves b r s (at_, .report w outcome)).count .deferral) := by
  cases outcome with
  | complete =>
    rw [claimsLeft_of_over (Or.inl rfl)]
    exact Nat.zero_le _
  | fail error permanent refreshed now =>
    have hlater := hclock now rfl
    rw [Outcome.change]
    obtain hfailed | ⟨job', heq, hpending, hattempts, -, hpriority, hscheduled⟩ :=
      fail_cases error (if permanent then 1 else settings.maxAttempts) settings.backoffBaseSeconds
        settings.backoffMaxSeconds now job
    · rw [claimsLeft_of_over (Or.inr hfailed)]
      exact Nat.zero_le _
    · rw [heq]
      by_cases hbehind : claimedBefore r job = true
      · have hdelay : 0 ≤ min (settings.backoffBaseSeconds * 2 ^ job.attempts)
            settings.backoffMaxSeconds :=
          le_min (mul_nonneg hforward.1 (pow_nonneg (by decide : (0 : ℤ) ≤ 2) _)) hforward.2
        have hlate : r.scheduledFor < job'.scheduledFor := by
          rw [hscheduled]
          exact scheduledFor_lt_delayed hlater hdelay
        rw [claimsLeft_of_behind (claimedBefore_of_later hpriority hlate hbehind)]
        exact Nat.zero_le _
      · have hleft : settings.maxAttempts - ((job.attempts + 1 : ℕ) : ℤ) =
            settings.maxAttempts - job.attempts - 1 := by omega
        rw [claimsLeft_of_running hrunning hbehind, claimsLeft, hpending, hattempts, hleft]
        split
        · exact Nat.zero_le _
        · exact Nat.le_add_right _ _
  | defer delaySeconds reason refreshed now =>
    have hlater := hclock now rfl
    by_cases hbehind : claimedBefore r job = true
    · have hpriority : (defer delaySeconds reason now job).priority = job.priority := rfl
      have hlate := scheduledFor_lt_delayed hlater (Int.natCast_nonneg delaySeconds)
      have hstays : claimedBefore r (defer delaySeconds reason now job) = true :=
        claimedBefore_of_later hpriority hlate hbehind
      rw [Outcome.change, claimsLeft_of_behind hstays]
      exact Nat.zero_le _
    · rw [claimsLeft_of_running hrunning hbehind, Outcome.change, claimsLeft]
      show _ ≤ (settings.maxAttempts - job.attempts - 1).toNat + 1
      split
      · exact Nat.zero_le _
      · show (settings.maxAttempts - job.attempts).toNat ≤ _
        omega

theorem claimsLeft_reapRow_le (now : Timestamp) :
    claimsLeft settings r (reapRow settings.maxAttempts now job) ≤ claimsLeft settings r job := by
  rw [reapRow]
  split
  · next hreap =>
    have hrunning := (reapable_iff.mp hreap).1
    rw [claimsLeft, claimsLeft]
    have hsame : claimedBefore r { job with
        status := if settings.maxAttempts ≤ job.attempts + 1 then .failed else .pending
        leaseUntil := none
        attempts := job.attempts + 1
        lastError := some leaseExpiredError } = claimedBefore r job := rfl
    rw [hsame, hrunning]
    split
    · exact le_rfl
    · by_cases hlast : settings.maxAttempts ≤ job.attempts + 1
      · simp [hlast]
      · simp only [if_neg hlast]
        omega
  · exact le_rfl

/-! ### What all rows may still cost -/

/-- One index may grow, and the others do not. -/
theorem sum_range_le_of_one {f g : ℕ → ℕ} {n k a m : ℕ} (hk : k < n)
    (hle : ∀ i, i ≠ k → f i ≤ g i) (hone : f k + a ≤ g k + m) :
    ∑ i ∈ Finset.range n, f i + a ≤ ∑ i ∈ Finset.range n, g i + m := by
  have hmem : k ∈ Finset.range n := Finset.mem_range.mpr hk
  have hrest : ∑ i ∈ (Finset.range n).erase k, f i ≤ ∑ i ∈ (Finset.range n).erase k, g i :=
    Finset.sum_le_sum fun i hi => hle i (Finset.mem_erase.mp hi).1
  rw [← Finset.add_sum_erase _ f hmem, ← Finset.add_sum_erase _ g hmem]
  omega

/-- What the row of a job may still cost. -/
def rowLeft (settings : Settings) (b : JobId) (r : ScanJob) (jobs : Jobs) (j : JobId) : ℕ :=
  if j = b then 0 else (jobs.get? j).elim 0 (claimsLeft settings r)

theorem claimsAhead_eq (settings : Settings) (b : JobId) (r : ScanJob) (jobs : Jobs) :
    claimsAhead settings b r jobs =
      ∑ j ∈ Finset.range jobs.next, rowLeft settings b r jobs j := rfl

theorem rowLeft_eq_zero (h : jobs.get? j = none) : rowLeft settings b r jobs j = 0 := by
  rw [rowLeft, h, Option.elim_none, ite_self]

theorem claimsAhead_mono {jobs' : Jobs} (hnext : jobs'.next = jobs.next)
    (h : ∀ j, rowLeft settings b r jobs' j ≤ rowLeft settings b r jobs j) :
    claimsAhead settings b r jobs' ≤ claimsAhead settings b r jobs := by
  rw [claimsAhead_eq, claimsAhead_eq, hnext]
  exact Finset.sum_le_sum fun j _ => h j

/-- One row changes. -/
theorem claimsAhead_of_one {jobs' : Jobs} {k : JobId} {a m : ℕ} (hnext : jobs'.next = jobs.next)
    (hk : k < jobs.next) (hother : ∀ j, j ≠ k → jobs'.get? j = jobs.get? j)
    (hone : rowLeft settings b r jobs' k + a ≤ rowLeft settings b r jobs k + m) :
    claimsAhead settings b r jobs' + a ≤ claimsAhead settings b r jobs + m := by
  rw [claimsAhead_eq, claimsAhead_eq, hnext]
  refine sum_range_le_of_one hk (fun j hj => ?_) hone
  rw [rowLeft, rowLeft, hother j hj]

theorem claimsAhead_allocate (settings : Settings) (b : JobId) (r : ScanJob) (jobs : Jobs) :
    claimsAhead settings b r jobs.allocate = claimsAhead settings b r jobs := by
  rw [claimsAhead_eq, claimsAhead_eq, Serial.next_allocate, Finset.sum_range_succ]
  rw [rowLeft_eq_zero ((Serial.get?_allocate jobs _).trans (Serial.get?_next jobs)), Nat.add_zero]
  rfl

theorem claimsAhead_mapRows_le {f : ScanJob → ScanJob}
    (h : ∀ job, claimsLeft settings r (f job) ≤ claimsLeft settings r job) :
    claimsAhead settings b r (jobs.mapRows f) ≤ claimsAhead settings b r jobs := by
  refine claimsAhead_mono rfl fun j => ?_
  rw [rowLeft, rowLeft, Serial.get?_mapRows]
  split
  · exact le_rfl
  · cases jobs.get? j with
    | none => exact le_rfl
    | some job => exact h job

/-- What an arrival may cost. -/
def arrivalCost (settings : Settings) (b : JobId) (r : ScanJob) (jobs jobs' : Jobs) : ℕ :=
  if arrives b r jobs jobs' then settings.maxAttempts.toNat else 0

/-- A row that is new, or moves, costs something if it arrives. -/
theorem rowLeft_le_arrivalCost {jobs' : Jobs} {k : JobId} {job' : ScanJob}
    (hjob' : jobs'.get? k = some job')
    (hsame : ∀ job, jobs.get? k = some job → job'.status = job.status ∧
      job'.attempts = job.attempts) :
    rowLeft settings b r jobs' k ≤
      rowLeft settings b r jobs k + arrivalCost settings b r jobs jobs' := by
  rw [rowLeft, rowLeft, hjob']
  by_cases hk : k = b
  · rw [if_pos hk]
    exact Nat.zero_le _
  rw [if_neg hk, if_neg hk, Option.elim_some]
  cases hbehind : claimedBefore r job' with
  | true =>
    rw [claimsLeft_of_behind hbehind]
    exact Nat.zero_le _
  | false =>
    by_cases hwas : (jobs.get? k).all (claimedBefore r) = true
    · have harrives : arrives b r jobs jobs' = true := by
        refine List.any_eq_true.mpr ⟨(k, job'), Dict.get?_eq_some_iff.mp hjob', ?_⟩
        rw [hbehind, hwas]
        simpa using hk
      rw [arrivalCost, if_pos harrives]
      exact (claimsLeft_le settings r job').trans (Nat.le_add_left _ _)
    · cases hjob : jobs.get? k with
      | none =>
        rw [hjob] at hwas
        exact absurd rfl hwas
      | some job =>
        rw [hjob, Option.all_some, Bool.not_eq_true] at hwas
        obtain ⟨hstatus, hattempts⟩ := hsame job hjob
        rw [Option.elim_some, claimsLeft, claimsLeft, hbehind, hwas, hstatus, hattempts]
        exact Nat.le_add_right _ _

theorem claimsAhead_enqueue_le (i : ImageId) (priority : ℤ) (scheduledFor : Timestamp) :
    claimsAhead settings b r (enqueue jobs i priority scheduledFor).1 ≤
      claimsAhead settings b r jobs +
        arrivalCost settings b r jobs (enqueue jobs i priority scheduledFor).1 := by
  rw [enqueue]
  split
  · exact (claimsAhead_allocate settings b r jobs).le.trans (Nat.le_add_right _ _)
  · rw [claimsAhead_eq, claimsAhead_eq, Serial.next_insert, Finset.sum_range_succ]
    refine Nat.add_le_add (Finset.sum_le_sum fun j hj => ?_) ?_
    · rw [rowLeft, rowLeft, Serial.get?_insert_of_ne _ (Finset.mem_range.mp hj).ne]
    · rw [← Nat.zero_add (arrivalCost _ _ _ _ _), ← rowLeft_eq_zero (Serial.get?_next jobs)]
      refine rowLeft_le_arrivalCost (Serial.get?_insert_next jobs _) fun job hjob => ?_
      exact absurd (hjob.symm.trans (Serial.get?_next jobs)) (Option.some_ne_none job)

theorem claimsAhead_promote_le (hu : UniqueActive jobs) (i : ImageId) (now : Timestamp) :
    claimsAhead settings b r (promote jobs i now).1 ≤
      claimsAhead settings b r jobs + arrivalCost settings b r jobs (promote jobs i now).1 := by
  by_cases hsome : ∃ k job, jobs.get? k = some job ∧ promotable i job = true
  · obtain ⟨k, job, hjob, hpromotable⟩ := hsome
    have hactive : ∀ job, promotable i job = true → isActive job = true ∧ job.imageId = i := by
      intro job hjob
      simp only [promotable, decide_eq_true_eq] at hjob
      exact ⟨by simp [isActive, hjob.2.1], hjob.1⟩
    have hrow : (promote jobs i now).1.get? k = some (promoteRow i now job) := by
      rw [promote, Serial.get?_mapRows, hjob, Option.map_some]
    refine claimsAhead_of_one (k := k) (a := 0) rfl (Serial.lt_next hjob) (fun j hj => ?_) ?_
    · -- the image has no other active job
      show (jobs.mapRows (promoteRow i now)).get? j = _
      rw [Serial.get?_mapRows]
      cases hother : jobs.get? j with
      | none => rfl
      | some job' =>
        rw [Option.map_some, promoteRow, if_neg]
        intro hpromotable'
        obtain ⟨hact, himage⟩ := hactive job hpromotable
        obtain ⟨hact', himage'⟩ := hactive job' hpromotable'
        exact hj (hu j k job' job hother hjob hact' hact (himage'.trans himage.symm))
    · refine rowLeft_le_arrivalCost hrow fun job' hjob' => ?_
      obtain rfl := Option.some.inj (hjob.symm.trans hjob')
      rw [promoteRow]
      split <;> exact ⟨rfl, rfl⟩
  · have hsame : claimsAhead settings b r (promote jobs i now).1 ≤
        claimsAhead settings b r jobs := by
      refine claimsAhead_mono rfl fun j => ?_
      show rowLeft settings b r (jobs.mapRows (promoteRow i now)) j ≤ _
      rw [rowLeft, rowLeft, Serial.get?_mapRows]
      cases hjob : jobs.get? j with
      | none => exact le_rfl
      | some job =>
        rw [Option.map_some, promoteRow,
          if_neg fun hpromotable => hsome ⟨j, job, hjob, hpromotable⟩]
    exact hsame.trans (Nat.le_add_right _ _)

/-- A request puts a job in, or pulls forward the one that is there, and not both. -/
theorem requestScan_cases (jobs : Jobs) (i : ImageId) (timeSensitive : Bool) (now : Timestamp) :
    (requestScan jobs i timeSensitive now).1 = (enqueue jobs i
        (if timeSensitive then priorityTimeSensitive else priorityScheduled) now).1 ∨
      timeSensitive = true ∧ (requestScan jobs i timeSensitive now).1 =
        (promote jobs.allocate i now).1 := by
  by_cases hactive : hasActive jobs i = true
  · have hrefused : ∀ priority, enqueue jobs i priority now = (jobs.allocate, none) := by
      intro priority
      rw [enqueue, if_pos hactive]
    obtain heq | ⟨htrue, heq⟩ := requestScan_jobs jobs i timeSensitive now
    · exact Or.inl heq
    · rw [hrefused] at heq
      exact Or.inr ⟨htrue, heq⟩
  · left
    rw [requestScan]
    simp only [enqueue, if_neg hactive]

theorem claimsAhead_requestScan_le (hu : UniqueActive jobs) (i : ImageId) (timeSensitive : Bool)
    (now : Timestamp) :
    claimsAhead settings b r (requestScan jobs i timeSensitive now).1 ≤
      claimsAhead settings b r jobs +
        arrivalCost settings b r jobs (requestScan jobs i timeSensitive now).1 := by
  obtain heq | ⟨rfl, heq⟩ := requestScan_cases jobs i timeSensitive now
  · rw [heq]
    exact claimsAhead_enqueue_le i _ now
  · rw [heq, ← claimsAhead_allocate settings b r jobs]
    have hallocated : UniqueActive jobs.allocate := hu
    exact claimsAhead_promote_le hallocated i now

/-! ### Runs -/

/-- What a move spends of the claims left. -/
def Move.spent : Move → ℕ
  | overtake => 1
  | deferral | arrival => 0

/-- What a move may add to them. -/
def Move.earned (settings : Settings) : Move → ℕ
  | overtake => 0
  | deferral => 1
  | arrival => settings.maxAttempts.toNat

theorem earned_arrival (settings : Settings) (b : JobId) (r : ScanJob) (jobs jobs' : Jobs) :
    arrivalCost settings b r jobs jobs' =
      ((if arrives b r jobs jobs' then [Move.arrival] else []).map (Move.earned settings)).sum := by
  rw [arrivalCost]
  split
  · exact (List.sum_singleton).symm
  · rfl

theorem spent_arrival (arrived : Bool) :
    ((if arrived then [Move.arrival] else []).map Move.spent).sum = 0 := by
  cases arrived <;> rfl

/-- A claim that does not find the waiting job locked is of a job ahead of it. -/
theorem not_behind_of_claim {locked : List JobId} {now : Timestamp}
    (h : claimJob jobs locked at_ now settings.leaseSeconds j = some (jobs', object))
    (hb : jobs.get? b = some r) (hpending : r.status = .pending) (hdue : r.scheduledFor ≤ at_)
    (hfree : b ∉ locked) (hjob : jobs.get? j = some job) : claimedBefore r job = false := by
  rw [claimJob] at h
  split at h
  · next hnext =>
    rw [isNextJob, hjob] at hnext
    obtain ⟨-, hall⟩ := Bool.and_eq_true_iff.mp hnext
    have hentry := List.all_eq_true.mp hall (b, r) (Dict.get?_eq_some_iff.mp hb)
    have hclaimable : claimable locked at_ (b, r) = true := by
      rw [claimable, decide_eq_true_eq]
      exact ⟨hpending, hdue, hfree⟩
    rw [hclaimable, Bool.true_and, Bool.not_eq_true'] at hentry
    exact hentry
  · cases h

theorem claimJob_of_stepAt {locked : List JobId} {now : Timestamp}
    (h : stepAt settings s at_ (.claim w j locked now) = some s') :
    ∃ jobs' object, claimJob s.jobs locked at_ now settings.leaseSeconds j =
      some (jobs', object) := by
  simp only [stepAt] at h
  split at h
  · split at h
    · cases h
    · next jobs' object hclaim => exact ⟨jobs', object, hclaim⟩
  · cases h

theorem ahead_claim {locked : List JobId} {now : Timestamp} (hbudget : Budget settings s.jobs)
    (hpending : r.status = .pending) (hdue : r.scheduledFor ≤ at_) (hb : s.jobs.get? b = some r)
    (hstep : stepAt settings s at_ (.claim w j locked now) = some s') :
    claimsAhead settings b r s'.jobs +
        ((moves b r s (at_, .claim w j locked now)).map Move.spent).sum ≤
      claimsAhead settings b r s.jobs +
        ((moves b r s (at_, .claim w j locked now)).map (Move.earned settings)).sum := by
  obtain ⟨-, job, hjob, hjobPending, -, hjobs, -⟩ := stepAt_claim hstep
  obtain ⟨_, _, hclaim⟩ := claimJob_of_stepAt hstep
  have hother : ∀ k, k ≠ j →
      (s.jobs.update j (takeLease now settings.leaseSeconds)).get? k = s.jobs.get? k :=
    fun k hk => Serial.get?_update_of_ne _ hk _
  have hrow : (s.jobs.update j (takeLease now settings.leaseSeconds)).get? j =
      some (takeLease now settings.leaseSeconds job) := by
    rw [Serial.get?_update_self, hjob, Option.map_some]
  rw [hjobs, moves]
  split
  · next hovertakes =>
    -- the job was ahead of the one that waits, and has a claim less left
    refine claimsAhead_of_one rfl (Serial.lt_next hjob) hother ?_
    rw [rowLeft, rowLeft, if_neg hovertakes.1, if_neg hovertakes.1, hrow, hjob]
    have hactive : isActive job = true := by simp [isActive, hjobPending]
    exact (claimsLeft_takeLease hjobPending (hbudget j job hjob hactive)
      (not_behind_of_claim hclaim hb hpending hdue hovertakes.2 hjob) now _).le
  · refine claimsAhead_of_one rfl (Serial.lt_next hjob) hother ?_
    rw [rowLeft, rowLeft, hrow, hjob]
    split
    · exact le_rfl
    · exact claimsLeft_takeLease_le hjobPending now _

theorem next_of_report {outcome : Outcome}
    (hstep : stepAt settings s at_ (.report w outcome) = some s') :
    s'.jobs.next = s.jobs.next := by
  obtain ⟨_, -, -, -, -, -, ⟨-, hjobs, -⟩ | ⟨-, hjobs, -⟩⟩ := stepAt_report hstep
  · rw [hjobs, reportJobs, Serial.next_update]
  · rw [hjobs]

/-- A report is no arrival, and overtakes nobody. -/
theorem moves_report (settings : Settings) (b : JobId) (r : ScanJob) (s : State) (at_ : Timestamp)
    (w : WorkerId) (outcome : Outcome) :
    ((moves b r s (at_, .report w outcome)).map Move.spent).sum = 0 ∧
      ((moves b r s (at_, .report w outcome)).map (Move.earned settings)).sum =
        (moves b r s (at_, .report w outcome)).count .deferral := by
  cases outcome with
  | complete | fail | defer => exact ⟨rfl, rfl⟩

theorem ahead_report {outcome : Outcome} (hforward : DelaysForward settings) (hs : Fencing s)
    (hf : Fenced s (at_, .report w outcome))
    (hclock : ∀ now ∈ reportClock (.report w outcome), r.scheduledFor < now)
    (hstep : stepAt settings s at_ (.report w outcome) = some s') :
    claimsAhead settings b r s'.jobs +
        ((moves b r s (at_, .report w outcome)).map Move.spent).sum ≤
      claimsAhead settings b r s.jobs +
        ((moves b r s (at_, .report w outcome)).map (Move.earned settings)).sum := by
  obtain ⟨held, -, hloaded, hrunning, -, hget, -⟩ := hs.report hf hstep
  obtain ⟨hspent, hearned⟩ := moves_report settings b r s at_ w outcome
  rw [hspent, hearned]
  refine claimsAhead_of_one (next_of_report hstep) (Serial.lt_next hloaded)
    (fun k hk => (hget k).trans (if_neg hk)) ?_
  rw [rowLeft, rowLeft, hget, if_pos rfl, hloaded]
  split
  · exact Nat.zero_le _
  · exact claimsLeft_change hforward hrunning outcome hclock

/-- **What a step does to the claims left ahead of a job that waits.** -/
theorem ahead_step (hforward : DelaysForward settings) (hs : Fencing s)
    (hbudget : Budget settings s.jobs) (hpending : r.status = .pending)
    (hdue : r.scheduledFor ≤ s.clock) {e : Timestamp × Event} (hwaits : Waits b r s e)
    (hstep : step settings s e = some s') :
    claimsAhead settings b r s'.jobs + ((moves b r s e).map Move.spent).sum ≤
      claimsAhead settings b r s.jobs + ((moves b r s e).map (Move.earned settings)).sum := by
  obtain ⟨hb, hf, hclock⟩ := hwaits
  obtain ⟨at_, event⟩ := e
  have hlater : s.clock ≤ at_ := (clock_le_of_step hstep).1
  have hstep := stepAt_of_step hstep
  cases event with
  | enqueue i priority scheduledFor =>
    cases hstep
    rw [moves, spent_arrival, ← earned_arrival]
    exact claimsAhead_enqueue_le i priority scheduledFor
  | promote i now =>
    cases hstep
    rw [moves, spent_arrival, ← earned_arrival]
    exact claimsAhead_promote_le s.uniqueActive i now
  | requestScan i timeSensitive now =>
    cases hstep
    rw [moves, spent_arrival, ← earned_arrival]
    exact claimsAhead_requestScan_le s.uniqueActive i timeSensitive now
  | claim w j locked now => exact ahead_claim hbudget hpending (hdue.trans hlater) hb hstep
  | report w outcome =>
    exact ahead_report hforward hs hf hclock hstep
  | reap =>
    cases hstep
    exact claimsAhead_mapRows_le fun _ => claimsLeft_reapRow_le at_
  | abandon w =>
    cases hstep
    exact le_rfl

theorem sum_earned (settings : Settings) (log : List Move) :
    (log.map (Move.earned settings)).sum =
      log.count .deferral + settings.maxAttempts.toNat * log.count .arrival := by
  induction log with
  | nil => rfl
  | cons move log ih =>
    rw [List.map_cons, List.sum_cons, ih]
    cases move with
    | overtake => simp [Move.earned]
    | deferral =>
      simp only [Move.earned, List.count_cons_self, ne_eq, reduceCtorEq, not_false_eq_true,
        List.count_cons_of_ne]
      omega
    | arrival =>
      simp only [Move.earned, List.count_cons_self, ne_eq, reduceCtorEq, not_false_eq_true,
        List.count_cons_of_ne, Nat.mul_add]
      omega

theorem sum_spent (log : List Move) : (log.map Move.spent).sum = log.count .overtake := by
  induction log with
  | nil => rfl
  | cons move log ih =>
    rw [List.map_cons, List.sum_cons, ih, List.count_cons]
    cases move with
    | overtake => exact Nat.add_comm _ _
    | deferral | arrival => exact Nat.zero_add _

/-- **A waiting job is overtaken boundedly often.** From any state that a fenced run reaches, and in
every run in which the job `b` waits, the claims that pass it over are no more than the claims left
to the jobs ahead of it, one for every deferral, and an allowance of attempts for every arrival. -/
theorem overtakes_bounded {jobs : Jobs} {hu : UniqueActive jobs} {clock : Timestamp}
    (hmax : 1 ≤ settings.maxAttempts) (hforward : DelaysForward settings)
    (hbudget : Budget settings jobs)
    (hreach : Reaches (step settings) Fenced (State.start jobs hu clock) s)
    (hpending : r.status = .pending) (hdue : r.scheduledFor ≤ s.clock)
    {es : List (Timestamp × Event)}
    (hrun : execute (restrict (step settings) (Waits b r)) s es = some t) :
    let log := journal (restrict (step settings) (Waits b r)) (moves b r) s es
    log.count .overtake ≤ claimsAhead settings b r s.jobs + log.count .deferral +
      settings.maxAttempts.toNat * log.count .arrival := by
  intro log
  let I (s : State) : Prop := Fencing s ∧ Budget settings s.jobs ∧ r.scheduledFor ≤ s.clock
  have hstep : ∀ s e t, I s → restrict (step settings) (Waits b r) s e = some t → I t ∧
      claimsAhead settings b r t.jobs + ((moves b r s e).map Move.spent).sum ≤
        claimsAhead settings b r s.jobs + ((moves b r s e).map (Move.earned settings)).sum := by
    rintro s e t ⟨hs, hbudget, hdue⟩ hrestricted
    obtain ⟨hwaits, hstep⟩ := restrict_eq_some.mp hrestricted
    obtain ⟨hlater, hclock⟩ := clock_le_of_step hstep
    refine ⟨⟨hs.step hwaits.2.1 hstep, hbudget.step hmax hs hwaits.2.1 hstep, ?_⟩,
      ahead_step hforward hs hbudget hpending hdue hwaits hstep⟩
    rw [hclock]
    exact hdue.trans hlater
  have hbudgeted : Fencing s ∧ Budget settings s.jobs :=
    hreach.invariant (I := fun s => Fencing s ∧ Budget settings s.jobs)
      (fun _ _ _ hs hf h => ⟨hs.1.step hf h, hs.2.step hmax hs.1 hf h⟩)
      ⟨fencing_start jobs hu clock, hbudget⟩
  have hpaid : claimsAhead settings b r t.jobs + (log.map Move.spent).sum ≤
      claimsAhead settings b r s.jobs + (log.map (Move.earned settings)).sum :=
    potential_rule hstep ⟨hbudgeted.1, hbudgeted.2, hdue⟩ hrun
  rw [sum_spent, sum_earned] at hpaid
  exact (Nat.le_add_left _ _).trans (hpaid.trans_eq (Nat.add_assoc _ _ _).symm)

/-- A time-sensitive job, and a scheduled one that waits. -/
def urgentFirst : Jobs :=
  (Serial.empty.insert (newJob 1 priorityTimeSensitive 0)).insert (newJob 2 priorityScheduled 0)

theorem uniqueActive_urgentFirst : UniqueActive urgentFirst := by decide

/-- The time-sensitive job fails and is claimed again. -/
def claimedTwice : List (Timestamp × Event) :=
  [(0, .claim 1 1 [] 0), (seconds 1, .report 1 (.fail "timeout" false false (seconds 1))),
    (seconds 90, .claim 1 1 [] (seconds 90))]

theorem overtakes_bounded_claimedTwice :
    let s := State.start urgentFirst uniqueActive_urgentFirst 0
    let r := newJob 2 priorityScheduled 0
    let log := journal (restrict (step {}) (Waits 2 r)) (moves 2 r) s claimedTwice
    log.count .overtake = 2 ∧ log.count .overtake ≤ claimsAhead {} 2 r urgentFirst := by
  intro s r log
  have hrun : (execute (restrict (step {}) (Waits 2 r)) s claimedTwice).isSome := by decide +kernel
  obtain ⟨t, ht⟩ := Option.isSome_iff_exists.mp hrun
  have hbudget : Budget {} urgentFirst := by
    intro j job hjob _
    have hfresh : ∀ e ∈ urgentFirst.rows.entries, e.2.attempts = 0 := by decide
    rw [hfresh (j, job) (Dict.get?_eq_some_iff.mp hjob)]
    decide
  have hcounts : log.count .overtake = 2 ∧ log.count .deferral = 0 ∧ log.count .arrival = 0 := by
    decide +kernel
  have hbound := overtakes_bounded (by decide) (by decide) hbudget (Reaches.refl s) rfl le_rfl ht
  refine ⟨hcounts.1, hbound.trans_eq ?_⟩
  show claimsAhead {} 2 r urgentFirst + log.count .deferral + _ * log.count .arrival = _
  rw [hcounts.2.1, hcounts.2.2, Nat.mul_zero]
  rfl

end Workers

end ContainerScanner
