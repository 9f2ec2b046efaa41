import ContainerScanner.Jobs.Queue
import ContainerScanner.Foundation.Machine

/-!
# Workers and the queue

The queue with everyone who writes it: the scheduler enqueues and reaps, the API enqueues and
promotes, workers claim one job at a time and report on it, die, or report long after they were
presumed dead. Each event is a transaction; any order of them is a run.

A claim gets a number. Which claim a job is running under, and how each claim ended, is recorded
beside the table and read by no step.

## Main definitions

* `State`, `Event`, `step` — the machine
* `Fenced` — a step on which no worker reports on a claim that the reaper has ended

## Main results

* `Fencing.step` — what a fenced step keeps
* `fenced_run` — in a fenced run reports meet the job as it was claimed, claims end once, and
  finished jobs stay finished
-/

namespace ContainerScanner

open Foundation Queue

namespace Workers

abbrev WorkerId : Type := ℕ

/-- The number of a claim. -/
abbrev ClaimId : Type := ℕ

/-- What a worker keeps of the job it claimed. -/
structure Held where
  job : JobId
  /-- The ORM object, as loaded by the claim. -/
  loaded : ScanJob
  claim : ClaimId
  deriving DecidableEq

/-- The ways a job ends for its worker. A rollback that ends an open transaction also expires the
object, so that it is read again (`refreshed`) before it is changed. -/
inductive Outcome where
  | complete
  | fail (error : String) (permanent refreshed : Bool) (now : Timestamp)
  | defer (delaySeconds : ℕ) (reason : String) (refreshed : Bool) (now : Timestamp)

/-- What the outcome does to the object. -/
def Outcome.change (settings : Settings) : Outcome → ScanJob → ScanJob
  | complete => Queue.complete
  | fail error permanent _ now =>
    Queue.fail error (if permanent then 1 else settings.maxAttempts) settings.backoffBaseSeconds
      settings.backoffMaxSeconds now
  | defer delaySeconds reason _ now => Queue.defer delaySeconds reason now

def Outcome.refreshed : Outcome → Bool
  | complete => false
  | fail _ _ refreshed _ => refreshed
  | defer _ _ refreshed _ => refreshed

inductive Event where
  /-- `queue.enqueue`, by the scheduler or anyone else. -/
  | enqueue (imageId : ImageId) (priority : ℤ) (scheduledFor : Timestamp)
  | promote (imageId : ImageId) (now : Timestamp)
  | requestScan (imageId : ImageId) (timeSensitive : Bool) (now : Timestamp)
  | claim (worker : WorkerId) (job : JobId) (locked : List JobId) (now : Timestamp)
  | report (worker : WorkerId) (outcome : Outcome)
  | reap
  /-- The worker dies, or its loop gives the job up after an error of its own. -/
  | abandon (worker : WorkerId)

structure State where
  jobs : Jobs
  /-- The index is never violated: a transaction that would is aborted. -/
  uniqueActive : UniqueActive jobs
  /-- What each worker is working on. -/
  held : WorkerId → Option Held
  /-- The database's clock at its last statement. -/
  clock : Timestamp
  nextClaim : ClaimId
  /-- The claim a job is running under. -/
  runningUnder : JobId → Option ClaimId
  /-- The claims the reaper has ended. -/
  reaped : List ClaimId
  /-- The claims that ended, one entry an outcome. -/
  outcomes : List ClaimId

/-- A queue that nobody is working on. -/
def State.start (jobs : Jobs) (h : UniqueActive jobs) (clock : Timestamp) : State where
  jobs := jobs
  uniqueActive := h
  held := fun _ => none
  clock := clock
  nextClaim := 0
  runningUnder := fun _ => none
  reaped := []
  outcomes := []

/-- The claims a reap at `now` ends. -/
def reapedClaims (s : State) (now : Timestamp) : List ClaimId :=
  (s.jobs.rows.entries.filter fun e => reapable now e.2).filterMap fun e => s.runningUnder e.1

/-- The jobs a reap at `now` returns. -/
def isReaped (s : State) (now : Timestamp) (j : JobId) : Bool :=
  match s.jobs.get? j with
  | none => false
  | some job => reapable now job

/-- The table after a report: the object's changes are flushed over the row as it is now. -/
def reportJobs (settings : Settings) (jobs : Jobs) (h : Held) (outcome : Outcome) : Jobs :=
  jobs.update h.job fun row =>
    let loaded := if outcome.refreshed then row else h.loaded
    flush loaded (outcome.change settings loaded) row

def stepAt (settings : Settings) (s : State) (at_ : Timestamp) : Event → Option State
  | .enqueue imageId priority scheduledFor =>
    some { s with
      clock := at_
      jobs := (enqueue s.jobs imageId priority scheduledFor).1
      uniqueActive := uniqueActive_enqueue s.uniqueActive imageId priority scheduledFor }
  | .promote imageId now =>
    some { s with
      clock := at_
      jobs := (promote s.jobs imageId now).1
      uniqueActive := uniqueActive_promote s.uniqueActive imageId now }
  | .requestScan imageId timeSensitive now =>
    some { s with
      clock := at_
      jobs := (requestScan s.jobs imageId timeSensitive now).1
      uniqueActive := uniqueActive_requestScan s.uniqueActive imageId timeSensitive now }
  | .claim w j locked now =>
    if s.held w = none then
      match h : claimJob s.jobs locked at_ now settings.leaseSeconds j with
      | none => none
      | some (jobs, object) =>
        some { s with
          clock := at_
          jobs := jobs
          uniqueActive := uniqueActive_claim s.uniqueActive h
          held := Function.update s.held w (some ⟨j, object, s.nextClaim⟩)
          nextClaim := s.nextClaim + 1
          runningUnder := Function.update s.runningUnder j (some s.nextClaim) }
    else none
  | .report w outcome =>
    match s.held w with
    | none => none
    | some h =>
      if hu : UniqueActive (reportJobs settings s.jobs h outcome) then
        some { s with
          clock := at_
          jobs := reportJobs settings s.jobs h outcome
          uniqueActive := hu
          held := Function.update s.held w none
          runningUnder := Function.update s.runningUnder h.job none
          outcomes := h.claim :: s.outcomes }
      else some { s with clock := at_, held := Function.update s.held w none }
  | .reap =>
    some { s with
      clock := at_
      jobs := (reapExpiredLeases s.jobs settings.maxAttempts at_).1
      uniqueActive := uniqueActive_reap s.uniqueActive settings.maxAttempts at_
      runningUnder := fun j => if isReaped s at_ j then none else s.runningUnder j
      reaped := reapedClaims s at_ ++ s.reaped
      outcomes := reapedClaims s at_ ++ s.outcomes }
  | .abandon w => some { s with clock := at_, held := Function.update s.held w none }

/-- One event at a time of the database's clock, which never goes back. -/
def step (settings : Settings) (s : State) (e : Timestamp × Event) : Option State :=
  if e.1 < s.clock then none else stepAt settings s e.1 e.2

/-- What the worker holds that reports. -/
def reportsOn (s : State) : Event → Option Held
  | .report w _ => s.held w
  | _ => none

/-- No worker reports on a claim that the reaper has already ended. -/
def Fenced (s : State) (e : Timestamp × Event) : Prop :=
  ∀ h ∈ reportsOn s e.2, h.claim ∉ s.reaped

instance (s : State) (e : Timestamp × Event) : Decidable (Fenced s e) :=
  inferInstanceAs (Decidable (∀ h ∈ reportsOn s e.2, h.claim ∉ s.reaped))

/-- What the queue promises about a step: a report changes a job only while the job is running under
the claim of the worker that reports, a claim ends once, a finished job stays finished, and a report
leaves alone a job that runs under another claim. -/
structure StepFenced (s : State) (e : Event) (s' : State) : Prop where
  report : ∀ h ∈ reportsOn s e, s'.jobs ≠ s.jobs →
    (∃ row, s.jobs.get? h.job = some row ∧ row.status = .running) ∧
      s.runningUnder h.job = some h.claim
  once : s'.outcomes.Nodup
  finished : ∀ j row, s.jobs.get? j = some row → row.status = .done ∨ row.status = .failed →
    ∃ row', s'.jobs.get? j = some row' ∧ row'.status = row.status
  other : ∀ h ∈ reportsOn s e, ∀ j k, s.runningUnder j = some k → k ≠ h.claim →
    s'.jobs.get? j = s.jobs.get? j

variable {settings : Settings} {s s' : State} {at_ : Timestamp} {w : WorkerId} {j : JobId}

/-! ### What a step does -/

/-- A claim takes a pending job that is due, for a worker that holds none. -/
theorem stepAt_claim {locked : List JobId} {now : Timestamp}
    (h : stepAt settings s at_ (.claim w j locked now) = some s') :
    s.held w = none ∧ ∃ job, s.jobs.get? j = some job ∧ job.status = .pending ∧
      job.scheduledFor ≤ at_ ∧
      s'.jobs = s.jobs.update j (takeLease now settings.leaseSeconds) ∧
      s'.held = Function.update s.held w
        (some ⟨j, takeLease now settings.leaseSeconds job, s.nextClaim⟩) ∧
      s'.clock = at_ ∧ s'.nextClaim = s.nextClaim + 1 ∧
      s'.runningUnder = Function.update s.runningUnder j (some s.nextClaim) ∧
      s'.reaped = s.reaped ∧ s'.outcomes = s.outcomes := by
  simp only [stepAt] at h
  split at h
  · next hidle =>
    split at h
    · cases h
    · next jobs object hclaim =>
      obtain ⟨job, hjob, hpending, hdue, hjobs, hobject⟩ := claimJob_eq_some hclaim
      subst hobject
      cases h
      exact ⟨hidle, job, hjob, hpending, hdue, hjobs, rfl, rfl, rfl, rfl, rfl, rfl⟩
  · cases h

/-- A report flushes what the worker changed, unless the index forbids it. -/
theorem stepAt_report {outcome : Outcome}
    (h : stepAt settings s at_ (.report w outcome) = some s') :
    ∃ held, s.held w = some held ∧ s'.held = Function.update s.held w none ∧ s'.clock = at_ ∧
      s'.nextClaim = s.nextClaim ∧ s'.reaped = s.reaped ∧
      ((UniqueActive (reportJobs settings s.jobs held outcome) ∧
          s'.jobs = reportJobs settings s.jobs held outcome ∧
          s'.runningUnder = Function.update s.runningUnder held.job none ∧
          s'.outcomes = held.claim :: s.outcomes) ∨
        (¬ UniqueActive (reportJobs settings s.jobs held outcome) ∧ s'.jobs = s.jobs ∧
          s'.runningUnder = s.runningUnder ∧ s'.outcomes = s.outcomes)) := by
  simp only [stepAt] at h
  split at h
  · cases h
  · next held hheld =>
    refine ⟨held, hheld, ?_⟩
    split at h
    · next hu =>
      cases h
      exact ⟨rfl, rfl, rfl, rfl, Or.inl ⟨hu, rfl, rfl, rfl⟩⟩
    · next hu =>
      cases h
      exact ⟨rfl, rfl, rfl, rfl, Or.inr ⟨hu, rfl, rfl, rfl⟩⟩

/-- The rows that are not pending stay as they are. -/
def KeepsClaimed (jobs jobs' : Jobs) : Prop :=
  ∀ j job, jobs.get? j = some job → job.status ≠ .pending → jobs'.get? j = some job

theorem keepsClaimed_enqueue (jobs : Jobs) (i : ImageId) (priority : ℤ)
    (scheduledFor : Timestamp) : KeepsClaimed jobs (enqueue jobs i priority scheduledFor).1 :=
  fun _ _ hj _ => get?_enqueue hj i priority scheduledFor

theorem promoteRow_of_ne {i : ImageId} {now : Timestamp} {job : ScanJob}
    (h : job.status ≠ .pending) : promoteRow i now job = job := by
  have hnot : promotable i job = false := by simp [promotable, h]
  rw [promoteRow, hnot]
  rfl

theorem keepsClaimed_promote (jobs : Jobs) (i : ImageId) (now : Timestamp) :
    KeepsClaimed jobs (promote jobs i now).1 := by
  intro j job hj hne
  show (jobs.mapRows (promoteRow i now)).get? j = some job
  rw [Serial.get?_mapRows, hj, Option.map_some, promoteRow_of_ne hne]

theorem KeepsClaimed.trans {jobs jobs' jobs'' : Jobs} (h : KeepsClaimed jobs jobs')
    (h' : KeepsClaimed jobs' jobs'') : KeepsClaimed jobs jobs'' :=
  fun j job hj hne => h' j job (h j job hj hne) hne

theorem keepsClaimed_requestScan (jobs : Jobs) (i : ImageId) (timeSensitive : Bool)
    (now : Timestamp) : KeepsClaimed jobs (requestScan jobs i timeSensitive now).1 := by
  obtain heq | ⟨-, heq⟩ := requestScan_jobs jobs i timeSensitive now
  · rw [heq]
    exact keepsClaimed_enqueue jobs i _ now
  · rw [heq]
    exact (keepsClaimed_enqueue jobs i _ now).trans (keepsClaimed_promote _ i now)

/-! ### The invariant -/

/-- Workers whose claim the reaper has not ended hold the job as it is in the table; claims are
numbered apart, and end once. -/
structure Fencing (s : State) : Prop where
  /-- Claims in use were handed out. -/
  claim_lt : ∀ w h, s.held w = some h → h.claim < s.nextClaim
  /-- No two workers share a claim. -/
  claim_inj : ∀ w w' h h', s.held w = some h → s.held w' = some h' → h.claim = h'.claim → w = w'
  /-- A claim the reaper has not ended is the one its job is running under. -/
  live : ∀ w h, s.held w = some h → h.claim ∉ s.reaped →
    s.jobs.get? h.job = some h.loaded ∧ h.loaded.status = .running ∧
      s.runningUnder h.job = some h.claim
  /-- A job that runs under a claim is running, and the claim has not ended. -/
  under : ∀ j k, s.runningUnder j = some k →
    (∃ job, s.jobs.get? j = some job ∧ job.status = .running) ∧ k ∉ s.outcomes ∧ k < s.nextClaim
  /-- A claim is of one job. -/
  under_inj : ∀ j j' k, s.runningUnder j = some k → s.runningUnder j' = some k → j = j'
  /-- A reaped claim has ended. -/
  reaped_subset : s.reaped ⊆ s.outcomes
  /-- Ended claims were handed out. -/
  outcomes_lt : ∀ k ∈ s.outcomes, k < s.nextClaim
  /-- A claim ends once. -/
  outcomes_nodup : s.outcomes.Nodup

theorem fencing_start (jobs : Jobs) (h : UniqueActive jobs) (clock : Timestamp) :
    Fencing (State.start jobs h clock) where
  claim_lt := fun _ _ hw => by cases hw
  claim_inj := fun _ _ _ _ hw => by cases hw
  live := fun _ _ hw => by cases hw
  under := fun _ _ hj => by cases hj
  under_inj := fun _ _ _ hj => by cases hj
  reaped_subset := List.nil_subset _
  outcomes_lt := fun _ hk => by cases hk
  outcomes_nodup := List.nodup_nil

/-- A step that writes pending rows only keeps the invariant. -/
theorem Fencing.of_keepsClaimed (hs : Fencing s) (hjobs : KeepsClaimed s.jobs s'.jobs)
    (hheld : s'.held = s.held) (hnext : s'.nextClaim = s.nextClaim)
    (hunder : s'.runningUnder = s.runningUnder) (hreaped : s'.reaped = s.reaped)
    (houtcomes : s'.outcomes = s.outcomes) : Fencing s' where
  claim_lt := by
    rw [hheld, hnext]
    exact hs.claim_lt
  claim_inj := by
    rw [hheld]
    exact hs.claim_inj
  live := by
    intro w h hw hlive
    rw [hheld] at hw
    rw [hreaped] at hlive
    obtain ⟨hrow, hrunning, hclaim⟩ := hs.live w h hw hlive
    rw [hunder]
    exact ⟨hjobs _ _ hrow (by rw [hrunning]; decide), hrunning, hclaim⟩
  under := by
    intro j k hj
    rw [hunder] at hj
    obtain ⟨⟨job, hrow, hrunning⟩, hk, hlt⟩ := hs.under j k hj
    rw [houtcomes, hnext]
    exact ⟨⟨job, hjobs _ _ hrow (by rw [hrunning]; decide), hrunning⟩, hk, hlt⟩
  under_inj := by
    rw [hunder]
    exact hs.under_inj
  reaped_subset := by
    rw [hreaped, houtcomes]
    exact hs.reaped_subset
  outcomes_lt := by
    rw [houtcomes, hnext]
    exact hs.outcomes_lt
  outcomes_nodup := by
    rw [houtcomes]
    exact hs.outcomes_nodup

theorem Fencing.abandon (hs : Fencing s) (w : WorkerId) (at_ : Timestamp) :
    Fencing { s with clock := at_, held := Function.update s.held w none } where
  claim_lt := fun w' h hw => hs.claim_lt w' h (update_none_eq_some.mp hw).2
  claim_inj := fun w₁ w₂ h₁ h₂ hw₁ hw₂ heq =>
    hs.claim_inj w₁ w₂ h₁ h₂ (update_none_eq_some.mp hw₁).2 (update_none_eq_some.mp hw₂).2 heq
  live := fun w' h hw hlive => hs.live w' h (update_none_eq_some.mp hw).2 hlive
  under := hs.under
  under_inj := hs.under_inj
  reaped_subset := hs.reaped_subset
  outcomes_lt := hs.outcomes_lt
  outcomes_nodup := hs.outcomes_nodup

/-! ### Claims -/

/-- A claim takes a job nobody runs, under a number nobody has. -/
theorem Fencing.claim (hs : Fencing s) {locked : List JobId} {now : Timestamp}
    (h : stepAt settings s at_ (.claim w j locked now) = some s') : Fencing s' := by
  obtain ⟨-, job, hjob, hpending, -, hjobs, hheld, -, hnext, hunder, hreaped, houtcomes⟩ :=
    stepAt_claim h
  have hnot : ∀ j' row, s.jobs.get? j' = some row → row.status = .running → j' ≠ j := by
    intro j' row hrow hrunning heq
    rw [heq, hjob] at hrow
    rw [← Option.some.inj hrow, hpending] at hrunning
    cases hrunning
  have hrow : ∀ j' row, s.jobs.get? j' = some row → row.status = .running →
      s'.jobs.get? j' = some row := by
    intro j' row hrow hrunning
    rw [hjobs, Serial.get?_update_of_ne _ (hnot j' row hrow hrunning)]
    exact hrow
  have hself : s'.jobs.get? j = some (takeLease now settings.leaseSeconds job) := by
    rw [hjobs, Serial.get?_update_self, hjob]
    rfl
  have hfresh : ∀ w' h', s.held w' = some h' → h'.claim ≠ s.nextClaim :=
    fun w' h' hw => Nat.ne_of_lt (hs.claim_lt w' h' hw)
  refine ⟨?_, ?_, ?_, ?_, ?_, ?_, ?_, ?_⟩
  · intro w' h' hw
    rw [hheld] at hw
    rw [hnext]
    obtain ⟨-, rfl⟩ | ⟨-, hw⟩ := update_some_eq_some.mp hw
    · exact Nat.lt_succ_self s.nextClaim
    · exact Nat.lt_succ_of_lt (hs.claim_lt w' h' hw)
  · intro w₁ w₂ h₁ h₂ hw₁ hw₂ heq
    rw [hheld] at hw₁ hw₂
    obtain ⟨rfl, rfl⟩ | ⟨-, hold₁⟩ := update_some_eq_some.mp hw₁ <;>
      obtain ⟨rfl, rfl⟩ | ⟨-, hold₂⟩ := update_some_eq_some.mp hw₂
    · rfl
    · exact absurd heq.symm (hfresh w₂ h₂ hold₂)
    · exact absurd heq (hfresh w₁ h₁ hold₁)
    · exact hs.claim_inj w₁ w₂ h₁ h₂ hold₁ hold₂ heq
  · intro w' h' hw hlive
    rw [hheld] at hw
    rw [hreaped] at hlive
    obtain ⟨-, rfl⟩ | ⟨-, hw⟩ := update_some_eq_some.mp hw
    · exact ⟨hself, rfl, by rw [hunder, Function.update_self]⟩
    · obtain ⟨hloaded, hrunning, hclaim⟩ := hs.live w' h' hw hlive
      refine ⟨hrow _ _ hloaded hrunning, hrunning, ?_⟩
      rw [hunder, Function.update_of_ne (hnot _ _ hloaded hrunning)]
      exact hclaim
  · intro j' k hj'
    rw [hunder] at hj'
    rw [houtcomes, hnext]
    obtain ⟨rfl, rfl⟩ | ⟨-, hj'⟩ := update_some_eq_some.mp hj'
    · exact ⟨⟨_, hself, rfl⟩, fun hk => Nat.lt_irrefl _ (hs.outcomes_lt _ hk), Nat.lt_succ_self _⟩
    · obtain ⟨⟨row, hrow', hrunning⟩, hk, hlt⟩ := hs.under j' k hj'
      exact ⟨⟨row, hrow _ _ hrow' hrunning, hrunning⟩, hk, Nat.lt_succ_of_lt hlt⟩
  · intro j₁ j₂ k hj₁ hj₂
    rw [hunder] at hj₁ hj₂
    obtain ⟨rfl, rfl⟩ | ⟨-, hold₁⟩ := update_some_eq_some.mp hj₁ <;>
      obtain ⟨rfl, heq⟩ | ⟨-, hold₂⟩ := update_some_eq_some.mp hj₂
    · rfl
    · exact absurd (hs.under j₂ _ hold₂).2.2 (Nat.lt_irrefl _)
    · rw [heq] at hold₁
      exact absurd (hs.under j₁ _ hold₁).2.2 (Nat.lt_irrefl _)
    · exact hs.under_inj j₁ j₂ k hold₁ hold₂
  · rw [hreaped, houtcomes]
    exact hs.reaped_subset
  · intro k hk
    rw [houtcomes] at hk
    rw [hnext]
    exact Nat.lt_succ_of_lt (hs.outcomes_lt k hk)
  · rw [houtcomes]
    exact hs.outcomes_nodup

/-! ### Reports -/

theorem imageId_change (settings : Settings) (outcome : Outcome) (job : ScanJob) :
    (outcome.change settings job).imageId = job.imageId := by
  cases outcome with
  | complete => rfl
  | defer => rfl
  | fail error permanent refreshed now => exact imageId_fail _ _ _ _ _ _

/-- No flush moves a job to another image. -/
theorem imageId_flush_change (settings : Settings) (outcome : Outcome) (loaded row : ScanJob) :
    (flush loaded (outcome.change settings loaded) row).imageId = row.imageId := by
  show flushColumn loaded.imageId (outcome.change settings loaded).imageId row.imageId = row.imageId
  rw [imageId_change, flushColumn, if_pos rfl]

/-- A worker that holds the row as it is writes the row it means to. -/
theorem get?_reportJobs {jobs : Jobs} {held : Held} (h : jobs.get? held.job = some held.loaded)
    (outcome : Outcome) (j : JobId) :
    (reportJobs settings jobs held outcome).get? j =
      if j = held.job then some (outcome.change settings held.loaded) else jobs.get? j := by
  rw [reportJobs, Serial.get?_update]
  split
  · have hsame : (if outcome.refreshed then held.loaded else held.loaded) = held.loaded :=
      ite_self _
    rw [h, Option.map_some]
    simp only [hsame, flush_self]
  · rfl

theorem uniqueActive_reportJobs {jobs : Jobs} (hu : UniqueActive jobs) {held : Held}
    (h : jobs.get? held.job = some held.loaded) (hrunning : held.loaded.status = .running)
    (outcome : Outcome) : UniqueActive (reportJobs settings jobs held outcome) := by
  have hsame : (if outcome.refreshed then held.loaded else held.loaded) = held.loaded :=
    ite_self _
  refine hu.update (fun row hrow => ?_) fun row hrow _ => ?_
  · rw [h] at hrow
    rw [← Option.some.inj hrow]
    simp only [hsame, flush_self]
    exact imageId_change settings outcome held.loaded
  · rw [h] at hrow
    rw [← Option.some.inj hrow]
    exact isActive_of_running hrunning

/-- Without the claim that was reported on, the fences still stand. -/
theorem Fencing.of_report (hs : Fencing s) {held : Held} {new : ScanJob}
    (hw : s.held w = some held) (hclaim : s.runningUnder held.job = some held.claim)
    (hget : ∀ j, s'.jobs.get? j = if j = held.job then some new else s.jobs.get? j)
    (hheld : s'.held = Function.update s.held w none) (hnext : s'.nextClaim = s.nextClaim)
    (hunder : s'.runningUnder = Function.update s.runningUnder held.job none)
    (hreaped : s'.reaped = s.reaped) (houtcomes : s'.outcomes = held.claim :: s.outcomes) :
    Fencing s' := by
  have hended : held.claim ∉ s.outcomes := (hs.under _ _ hclaim).2.1
  refine ⟨?_, ?_, ?_, ?_, ?_, ?_, ?_, ?_⟩
  · intro w' h' hw'
    rw [hheld] at hw'
    rw [hnext]
    exact hs.claim_lt w' h' (update_none_eq_some.mp hw').2
  · intro w₁ w₂ h₁ h₂ hw₁ hw₂ heq
    rw [hheld] at hw₁ hw₂
    exact hs.claim_inj w₁ w₂ h₁ h₂ (update_none_eq_some.mp hw₁).2 (update_none_eq_some.mp hw₂).2
      heq
  · intro w' h' hw' hlive
    rw [hheld] at hw'
    rw [hreaped] at hlive
    obtain ⟨hne, hw'⟩ := update_none_eq_some.mp hw'
    obtain ⟨hloaded', hrunning', hclaim'⟩ := hs.live w' h' hw' hlive
    -- another worker's job runs under another claim
    have hjob : h'.job ≠ held.job := by
      intro heq
      rw [heq, hclaim] at hclaim'
      exact hne (hs.claim_inj w' w h' held hw' hw (Option.some.inj hclaim').symm)
    rw [hget, if_neg hjob, hunder, Function.update_of_ne hjob]
    exact ⟨hloaded', hrunning', hclaim'⟩
  · intro j k hj
    rw [hunder] at hj
    obtain ⟨hne, hj⟩ := update_none_eq_some.mp hj
    obtain ⟨hrow, hk, hlt⟩ := hs.under j k hj
    rw [hget, if_neg hne, houtcomes, hnext]
    refine ⟨hrow, ?_, hlt⟩
    rw [List.mem_cons, not_or]
    refine ⟨fun heq => hne (hs.under_inj j held.job k hj ?_), hk⟩
    rw [heq]
    exact hclaim
  · intro j₁ j₂ k hj₁ hj₂
    rw [hunder] at hj₁ hj₂
    exact hs.under_inj j₁ j₂ k (update_none_eq_some.mp hj₁).2 (update_none_eq_some.mp hj₂).2
  · rw [hreaped, houtcomes]
    exact List.subset_cons_of_subset _ hs.reaped_subset
  · intro k hk
    rw [houtcomes, List.mem_cons] at hk
    rw [hnext]
    obtain rfl | hk := hk
    · exact hs.claim_lt w held hw
    · exact hs.outcomes_lt k hk
  · rw [houtcomes]
    exact List.nodup_cons.mpr ⟨hended, hs.outcomes_nodup⟩

/-- A report on a claim that the reaper has not ended ends that claim, and writes the row of its
job only. -/
theorem Fencing.report (hs : Fencing s) {outcome : Outcome}
    (hf : ∀ h ∈ s.held w, h.claim ∉ s.reaped)
    (hstep : stepAt settings s at_ (.report w outcome) = some s') :
    ∃ held, s.held w = some held ∧ s.jobs.get? held.job = some held.loaded ∧
      held.loaded.status = .running ∧ s.runningUnder held.job = some held.claim ∧
      (∀ j, s'.jobs.get? j = if j = held.job then some (outcome.change settings held.loaded)
        else s.jobs.get? j) ∧ Fencing s' := by
  obtain ⟨held, hw, hheld, -, hnext, hreaped, hcases⟩ := stepAt_report hstep
  obtain ⟨hloaded, hrunning, hclaim⟩ := hs.live w held hw (hf held hw)
  obtain ⟨-, hjobs, hunder, houtcomes⟩ | ⟨hviolated, -⟩ := hcases
  · have hget : ∀ j, s'.jobs.get? j =
        if j = held.job then some (outcome.change settings held.loaded) else s.jobs.get? j := by
      intro j
      rw [hjobs]
      exact get?_reportJobs hloaded outcome j
    exact ⟨held, hw, hloaded, hrunning, hclaim, hget,
      hs.of_report hw hclaim hget hheld hnext hunder hreaped houtcomes⟩
  · exact absurd (uniqueActive_reportJobs s.uniqueActive hloaded hrunning outcome) hviolated

/-! ### Reaping -/

theorem mem_reapedClaims {now : Timestamp} {k : ClaimId} :
    k ∈ reapedClaims s now ↔
      ∃ j job, s.jobs.get? j = some job ∧ reapable now job ∧ s.runningUnder j = some k := by
  simp only [reapedClaims, List.mem_filterMap, List.mem_filter, Prod.exists, and_assoc]
  refine exists_congr fun j => exists_congr fun job => and_congr_left fun _ => ?_
  exact Dict.get?_eq_some_iff.symm

theorem nodup_reapedClaims (hs : Fencing s) (now : Timestamp) : (reapedClaims s now).Nodup := by
  have hkeys : (s.jobs.rows.entries.map Prod.fst).Nodup := s.jobs.rows.nodup_keys
  refine List.pairwise_filterMap.mpr ?_
  refine ((List.pairwise_map.mp hkeys).filter _).imp fun hne k hk k' hk' heq => hne ?_
  rw [← heq] at hk'
  exact hs.under_inj _ _ k hk hk'

/-- The reaper ends the claims whose leases have expired, and no other. -/
theorem Fencing.reap (hs : Fencing s) (h : stepAt settings s at_ .reap = some s') :
    Fencing s' := by
  cases h
  have hrow : ∀ j, (reapExpiredLeases s.jobs settings.maxAttempts at_).1.get? j =
      (s.jobs.get? j).map (reapRow settings.maxAttempts at_) :=
    fun j => Serial.get?_mapRows _ _ j
  have hkept : ∀ j job, s.jobs.get? j = some job → reapable at_ job ≠ true →
      (reapExpiredLeases s.jobs settings.maxAttempts at_).1.get? j = some job := by
    intro j job hj hnot
    rw [hrow, hj, Option.map_some, reapRow, if_neg hnot]
  have hunder : ∀ j k, (if isReaped s at_ j then none else s.runningUnder j) = some k →
      isReaped s at_ j ≠ true ∧ s.runningUnder j = some k := by
    intro j k hj
    split at hj
    · cases hj
    · next hnot => exact ⟨hnot, hj⟩
  refine ⟨hs.claim_lt, hs.claim_inj, ?_, ?_, ?_, ?_, ?_, ?_⟩
  · intro w h hw hlive
    rw [List.mem_append, not_or] at hlive
    obtain ⟨hloaded, hrunning, hclaim⟩ := hs.live w h hw hlive.2
    have hnot : reapable at_ h.loaded ≠ true :=
      fun hreap => hlive.1 (mem_reapedClaims.mpr ⟨h.job, h.loaded, hloaded, hreap, hclaim⟩)
    refine ⟨hkept _ _ hloaded hnot, hrunning, ?_⟩
    show (if isReaped s at_ h.job then none else s.runningUnder h.job) = some h.claim
    rw [isReaped, hloaded, if_neg hnot]
    exact hclaim
  · intro j k hj
    obtain ⟨hnot, hj⟩ := hunder j k hj
    obtain ⟨⟨job, hjob, hrunning⟩, hk, hlt⟩ := hs.under j k hj
    rw [isReaped, hjob] at hnot
    refine ⟨⟨job, hkept j job hjob hnot, hrunning⟩, ?_, hlt⟩
    rw [List.mem_append, not_or]
    refine ⟨fun hmem => ?_, hk⟩
    obtain ⟨j', job', hjob', hreap, hj'⟩ := mem_reapedClaims.mp hmem
    rw [hs.under_inj j' j k hj' hj, hjob] at hjob'
    rw [← Option.some.inj hjob'] at hreap
    exact hnot hreap
  · intro j j' k hj hj'
    exact hs.under_inj j j' k (hunder j k hj).2 (hunder j' k hj').2
  · exact List.append_subset.mpr ⟨List.subset_append_left _ _,
      List.subset_append_of_subset_right _ hs.reaped_subset⟩
  · intro k hk
    obtain hk | hk := List.mem_append.mp hk
    · obtain ⟨j, -, -, -, hj⟩ := mem_reapedClaims.mp hk
      exact (hs.under j k hj).2.2
    · exact hs.outcomes_lt k hk
  · refine List.nodup_append'.mpr ⟨nodup_reapedClaims hs at_, hs.outcomes_nodup, ?_⟩
    intro k hk hended
    obtain ⟨j, -, -, -, hj⟩ := mem_reapedClaims.mp hk
    exact (hs.under j k hj).2.1 hended

/-! ### Runs -/

theorem stepAt_of_step {e : Timestamp × Event} (h : step settings s e = some s') :
    stepAt settings s e.1 e.2 = some s' := by
  rw [step] at h
  split at h
  · cases h
  · exact h

theorem clock_of_stepAt {event : Event} (h : stepAt settings s at_ event = some s') :
    s'.clock = at_ := by
  cases event with
  | claim =>
    obtain ⟨-, -, -, -, -, -, -, hclock, -⟩ := stepAt_claim h
    exact hclock
  | report =>
    obtain ⟨-, -, -, hclock, -⟩ := stepAt_report h
    exact hclock
  | enqueue | promote | requestScan | reap | abandon =>
    cases h
    rfl

/-- The clock never goes back. -/
theorem clock_le_of_step {e : Timestamp × Event} (h : step settings s e = some s') :
    s.clock ≤ e.1 ∧ s'.clock = e.1 := by
  refine ⟨?_, clock_of_stepAt (stepAt_of_step h)⟩
  rw [step] at h
  split at h
  · cases h
  · next hclock => exact not_lt.mp hclock

/-- A fenced event keeps the invariant. -/
theorem Fencing.stepAt (hs : Fencing s) {event : Event}
    (hf : ∀ h ∈ reportsOn s event, h.claim ∉ s.reaped)
    (h : Workers.stepAt settings s at_ event = some s') : Fencing s' := by
  cases event with
  | enqueue i priority scheduledFor =>
    cases h
    exact hs.of_keepsClaimed (keepsClaimed_enqueue _ _ _ _) rfl rfl rfl rfl rfl
  | promote i now =>
    cases h
    exact hs.of_keepsClaimed (keepsClaimed_promote _ _ _) rfl rfl rfl rfl rfl
  | requestScan i timeSensitive now =>
    cases h
    exact hs.of_keepsClaimed (keepsClaimed_requestScan _ _ _ _) rfl rfl rfl rfl rfl
  | claim w j locked now => exact hs.claim h
  | report w outcome =>
    obtain ⟨_, _, _, _, _, _, hs'⟩ := hs.report hf h
    exact hs'
  | reap => exact hs.reap h
  | abandon w =>
    cases h
    exact hs.abandon w at_

/-- A fenced step keeps the invariant. -/
theorem Fencing.step (hs : Fencing s) {e : Timestamp × Event} (hf : Fenced s e)
    (h : Workers.step settings s e = some s') : Fencing s' :=
  hs.stepAt hf (stepAt_of_step h)

/-- A job that is done or failed is left alone by every fenced step. -/
theorem finished_step (hs : Fencing s) {e : Timestamp × Event} (hf : Fenced s e)
    (h : Workers.step settings s e = some s') {row : ScanJob} (hrow : s.jobs.get? j = some row)
    (hfinished : row.status = .done ∨ row.status = .failed) : s'.jobs.get? j = some row := by
  obtain ⟨at_, event⟩ := e
  have h := stepAt_of_step h
  have hpending : row.status ≠ .pending := by
    rintro heq
    rw [heq] at hfinished
    obtain hdone | hfailed := hfinished
    · cases hdone
    · cases hfailed
  have hrunning : row.status ≠ .running := by
    rintro heq
    rw [heq] at hfinished
    obtain hdone | hfailed := hfinished
    · cases hdone
    · cases hfailed
  cases event with
  | enqueue i priority scheduledFor =>
    cases h
    exact keepsClaimed_enqueue _ _ _ _ j row hrow hpending
  | promote i now =>
    cases h
    exact keepsClaimed_promote _ _ _ j row hrow hpending
  | requestScan i timeSensitive now =>
    cases h
    exact keepsClaimed_requestScan _ _ _ _ j row hrow hpending
  | claim w j' locked now =>
    obtain ⟨-, job, hjob, hjobpending, -, hjobs, -⟩ := stepAt_claim h
    rw [hjobs, Serial.get?_update_of_ne]
    · exact hrow
    · rintro rfl
      rw [hrow] at hjob
      rw [Option.some.inj hjob] at hpending
      exact hpending hjobpending
  | report w outcome =>
    obtain ⟨held, -, hloaded, hrun, -, hget, -⟩ :=
      hs.report hf h
    rw [hget, if_neg]
    · exact hrow
    · rintro rfl
      rw [hrow] at hloaded
      rw [Option.some.inj hloaded] at hrunning
      exact hrunning hrun
  | reap =>
    cases h
    show (s.jobs.mapRows (reapRow settings.maxAttempts at_)).get? j = some row
    rw [Serial.get?_mapRows, hrow, Option.map_some, reapRow, if_neg]
    exact fun hreap => hrunning (reapable_iff.mp hreap).1
  | abandon w =>
    cases h
    exact hrow

theorem fencing_of_reaches {jobs : Jobs} {hu : UniqueActive jobs} {clock : Timestamp}
    (hrun : Reaches (step settings) Fenced (State.start jobs hu clock) s) : Fencing s :=
  hrun.invariant (fun _ _ _ hs hf h => hs.step hf h) (fencing_start jobs hu clock)

/-- **Fencing.** In every run on which no worker reports on a claim that the reaper has ended, every
step keeps what the queue promises. -/
theorem fenced_run {jobs : Jobs} {hu : UniqueActive jobs} {clock : Timestamp}
    {e : Timestamp × Event}
    (hrun : Reaches (step settings) Fenced (State.start jobs hu clock) s) (hf : Fenced s e)
    (h : step settings s e = some s') : StepFenced s e.2 s' := by
  have hs := fencing_of_reaches hrun
  obtain ⟨at_, event⟩ := e
  refine ⟨?_, (hs.step hf h).outcomes_nodup, ?_, ?_⟩
  · intro held hheld _
    cases event with
    | report w outcome =>
      obtain ⟨hloaded, hrunning, hclaim⟩ := hs.live w held hheld (hf held hheld)
      exact ⟨⟨held.loaded, hloaded, hrunning⟩, hclaim⟩
    | _ => cases hheld
  · intro j row hrow hfinished
    exact ⟨row, finished_step hs hf h hrow hfinished, rfl⟩
  · intro held hheld j k hj hne
    cases event with
    | report w outcome =>
      obtain ⟨held', hheld', -, -, hclaim, hget, -⟩ := hs.report hf (stepAt_of_step h)
      have hsame : held' = held := Option.some.inj (hheld'.symm.trans hheld)
      rw [hget, if_neg]
      rintro rfl
      rw [hclaim, hsame] at hj
      exact hne (Option.some.inj hj).symm
    | _ => cases hheld

/-- No job at all. -/
def emptyQueue : State :=
  State.start Serial.empty (fun _ _ _ _ h => by cases h) 0

/-- Two claims of one job: the first worker's lease expires, and a second worker takes over. -/
def takeover : List (Timestamp × Event) :=
  [(0, .enqueue 1 priorityScheduled 0), (0, .claim 1 1 [] 0), (seconds 1201, .reap),
    (seconds 1201, .claim 2 1 [] (seconds 1201))]

/-- The second worker completes, the first one never reports. -/
theorem fenced_run_takeover :
    ∃ s s', step {} s (seconds 1300, .report 2 .complete) = some s' ∧
      s'.jobs.get? 1 ≠ s.jobs.get? 1 ∧ StepFenced s (.report 2 .complete) s' := by
  have hdone : ((execute (restrict (step {}) Fenced) emptyQueue takeover).bind fun s =>
      (restrict (step {}) Fenced s (seconds 1300, .report 2 .complete)).bind fun s' =>
        some (decide (s'.jobs.get? 1 ≠ s.jobs.get? 1))) = some true := by decide
  obtain ⟨s, hs, hdone⟩ := Option.bind_eq_some_iff.mp hdone
  obtain ⟨s', hs', hdone⟩ := Option.bind_eq_some_iff.mp hdone
  obtain ⟨hf, hstep⟩ := restrict_eq_some.mp hs'
  exact ⟨s, s', hstep, of_decide_eq_true (Option.some.inj hdone),
    fenced_run (reaches_of_execute hs) hf hstep⟩

/-- When the first worker reports after all, it finishes the second one's job, and the second one
then puts the finished job back in the queue. -/
theorem not_stepFenced_takeover :
    ¬ ∀ (settings : Settings) (jobs : Jobs) (hu : UniqueActive jobs) (clock : Timestamp)
      (s s' : State) (e : Timestamp × Event),
      Reaches (step settings) (fun _ _ => True) (State.start jobs hu clock) s →
        step settings s e = some s' → StepFenced s e.2 s' := by
  intro hall
  have hrun : ((execute (restrict (step {}) fun _ _ => True) emptyQueue
      (takeover ++ [(seconds 1202, .report 1 .complete)])).bind fun s =>
      (step {} s
        (seconds 1300, .report 2 (.fail "killed" false false (seconds 1300)))).bind fun s' =>
        some ((s.jobs.get? 1).map ScanJob.status, (s'.jobs.get? 1).map ScanJob.status)) =
      some (some .done, some .pending) := by decide
  obtain ⟨s, hs, hrun⟩ := Option.bind_eq_some_iff.mp hrun
  obtain ⟨s', hs', hrun⟩ := Option.bind_eq_some_iff.mp hrun
  obtain ⟨hdone, hpending⟩ := Prod.mk.inj (Option.some.inj hrun)
  obtain ⟨row, hrow, hstatus⟩ := Option.map_eq_some_iff.mp hdone
  have hfenced := hall {} _ _ _ s s' _ (reaches_of_execute hs) hs'
  obtain ⟨row', hrow', hsame⟩ := hfenced.finished 1 row hrow (Or.inl hstatus)
  rw [hrow', Option.map_some, hsame, hstatus] at hpending
  cases hpending

end Workers

end ContainerScanner
