import ContainerScanner.Lifecycle.Invariant
import ContainerScanner.Scheduler.Pass

/-!
# The housekeeping of a scheduling pass

What a pass may rely on in any state, also where workers report on claims that the reaper has
ended: the image of a job exists, one job of an image is active at most, and only a running job has
a lease. Then nobody is forgotten, however the API's requests fall between the statements.

## Main definitions

* `Sound`, `Consistent` — what holds of every row, and of every state
* `ForgetsNobody` — what a pass that commits has done

## Main results

* `consistent_of_reaches`
* `forgetsNobody` — for every reachable state and every pass
-/

namespace ContainerScanner

open Foundation Queue

namespace Lifecycle

open Workers (WorkerId Held)

variable {settings : Settings} {s s' : State} {jobs jobs' : Jobs} {job : ScanJob} {j : JobId}
  {imageIds : List ImageId} {i : ImageId} {at_ now : Timestamp}

/-! ### Rows -/

/-- A row of an image there is, that has a lease only while it is running. -/
structure Sound (imageIds : List ImageId) (job : ScanJob) : Prop where
  imageId : job.imageId ∈ imageIds
  leaseUntil : job.leaseUntil ≠ none → job.status = .running

theorem Sound.of_none (himage : job.imageId ∈ imageIds) (hlease : job.leaseUntil = none) :
    Sound imageIds job := ⟨himage, fun hne => absurd hlease hne⟩

theorem Sound.promoteRow (h : Sound imageIds job) (i : ImageId) (now : Timestamp) :
    Sound imageIds (promoteRow i now job) := by
  rw [Queue.promoteRow]
  split
  · exact ⟨h.imageId, h.leaseUntil⟩
  · exact h

theorem Sound.reapRow (h : Sound imageIds job) (maxAttempts : ℤ) (now : Timestamp) :
    Sound imageIds (reapRow maxAttempts now job) := by
  rw [Queue.reapRow]
  split
  · exact .of_none h.imageId rfl
  · exact h

theorem leaseUntil_fail (error : String) (maxAttempts backoffBaseSeconds backoffMaxSeconds : ℤ)
    (now : Timestamp) (job : ScanJob) :
    (Queue.fail error maxAttempts backoffBaseSeconds backoffMaxSeconds now job).leaseUntil =
      none := by
  rw [Queue.fail]
  split <;> rfl

/-- Whatever is reported, the lease is given up. -/
theorem leaseUntil_change (settings : Settings) (outcome : Workers.Outcome) (job : ScanJob) :
    (outcome.change settings job).leaseUntil = none := by
  cases outcome with
  | complete => rfl
  | defer => rfl
  | fail error permanent refreshed now => exact leaseUntil_fail _ _ _ _ _ _

theorem leaseUntil_flush {loaded row : ScanJob} (outcome : Workers.Outcome)
    (h : loaded.leaseUntil ≠ none ∨ loaded = row) :
    (flush loaded (outcome.change settings loaded) row).leaseUntil = none := by
  show flushColumn loaded.leaseUntil (outcome.change settings loaded).leaseUntil row.leaseUntil =
    none
  rw [leaseUntil_change]
  obtain hsome | rfl := h
  · exact if_neg hsome.symm
  · exact flushColumn_self _ _

def AllSound (jobs : Jobs) (imageIds : List ImageId) : Prop :=
  ∀ j job, jobs.get? j = some job → Sound imageIds job

/-- A worker's flush, late or not. -/
theorem AllSound.report (h : AllSound jobs imageIds) {held : Held}
    (hheld : held.loaded.leaseUntil ≠ none) (outcome : Workers.Outcome) :
    AllSound (Workers.reportJobs settings jobs held outcome) imageIds := by
  refine Serial.All.update h fun row hrow => ?_
  dsimp only
  refine .of_none ?_ (leaseUntil_flush outcome ?_)
  · rw [Workers.imageId_flush_change]
    exact hrow.imageId
  · split
    · exact Or.inr rfl
    · exact Or.inl hheld

/-! ### States -/

/-- What holds of every state, fenced or not. -/
structure Consistent (s : State) : Prop where
  jobs : AllSound s.queue.jobs s.db.image.keys
  held : ∀ w held, s.queue.held w = some held → held.loaded.leaseUntil ≠ none

/-- No report makes an image or loses one. -/
theorem keys_image_commitReport {db db' : Db} {held : Held} {loaded : Option Image}
    {report : Report} (h : commitReport settings db held loaded report = some db') :
    db'.image.keys = db.image.keys := by
  cases report with
  | success report metadata =>
    obtain ⟨image, -, rfl⟩ := Option.map_eq_some_iff.mp h
    exact Dict.keys_update _ _ _
  | skip metadata =>
    obtain ⟨image, -, rfl⟩ := Option.map_eq_some_iff.mp h
    exact Dict.keys_update _ _ _
  | fail error permanent refreshed now startedAt completedAt =>
    simp only [commitReport] at h
    split at h
    · cases h
      rfl
    · cases h
      exact Dict.keys_update _ _ _
  | defer delaySeconds reason refreshed now =>
    cases h
    rfl

theorem held_of_update {w w' : WorkerId} {held : Held} {all : WorkerId → Option Held}
    (hall : ∀ w held, all w = some held → held.loaded.leaseUntil ≠ none)
    (h : Function.update all w none w' = some held) : held.loaded.leaseUntil ≠ none :=
  hall w' held (update_none_eq_some.mp h).2

theorem Consistent.report (hs : Consistent s) {w : WorkerId} {report : Report}
    (h : stepAt settings s at_ (.report w report) = some s') : Consistent s' := by
  obtain ⟨held, db, queue, hheld, hcommit, hqueue, rfl⟩ := stepAt_report h
  obtain ⟨held', hheld', hidle, -, -, -, hjobs⟩ := Workers.stepAt_report hqueue
  rw [hheld] at hheld'
  obtain rfl := Option.some.inj hheld'
  have hqueued : AllSound queue.jobs s.db.image.keys := by
    obtain ⟨-, heq, -⟩ | ⟨-, heq, -⟩ := hjobs
    · rw [heq]
      exact hs.jobs.report (hs.held w held hheld) _
    · rw [heq]
      exact hs.jobs
  refine ⟨?_, ?_⟩
  · show AllSound queue.jobs (ite _ db s.db).image.keys
    split
    · rw [keys_image_commitReport hcommit]
      exact hqueued
    · exact hqueued
  · show ∀ w held, queue.held w = some held → held.loaded.leaseUntil ≠ none
    rw [hidle]
    exact fun _ _ => held_of_update hs.held

theorem Consistent.of_ticks {clock : Tick.Clock} {due : List ImageId} (hs : Consistent s)
    (h : Ticks settings s at_ clock due s') : Consistent s' := by
  refine ⟨?_, ?_⟩
  · rw [h.keys_image]
    exact h.all_jobs hs.jobs (fun _ _ hjob => hjob.reapRow _ at_) fun i hi _ => .of_none hi rfl
  · rw [h.held]
    exact hs.held

theorem Consistent.step (hs : Consistent s) {e : Timestamp × Event}
    (h : step settings s e = some s') : Consistent s' := by
  obtain ⟨at_, event⟩ := e
  have h : stepAt settings s at_ event = some s' := stepAt_of_step h
  cases event with
  | requestScan i timeSensitive now =>
    obtain ⟨hi, queue, hqueue, rfl⟩ := stepAt_requestScan h
    obtain rfl := Option.some.inj hqueue
    have hjobs := all_requestScan hs.jobs (fun _ => .of_none hi rfl)
      (fun _ _ hjob => hjob.promoteRow i now) timeSensitive
    exact ⟨hjobs, hs.held⟩
  | claim w j locked now =>
    obtain ⟨queue, hqueue, rfl⟩ := Option.map_eq_some_iff.mp h
    obtain ⟨-, job, -, -, -, hjobs, hheld, -⟩ := Workers.stepAt_claim hqueue
    refine ⟨?_, ?_⟩
    · show AllSound queue.jobs s.db.image.keys
      rw [hjobs]
      exact Serial.All.update hs.jobs fun job hjob => ⟨hjob.imageId, fun _ => rfl⟩
    · show ∀ w held, queue.held w = some held → _
      rw [hheld]
      intro w' held hheld'
      obtain ⟨-, rfl⟩ | ⟨-, hold⟩ := update_some_eq_some.mp hheld'
      · exact Option.some_ne_none _
      · exact hs.held w' held hold
  | load w =>
    obtain ⟨held, image, -, -, rfl⟩ := stepAt_load h
    exact ⟨hs.jobs, hs.held⟩
  | report w report => exact hs.report h
  | tick clock =>
    obtain ⟨due, hticks, -⟩ := tick_cases h
    exact hs.of_ticks hticks
  | abandon w =>
    simp only [stepAt] at h
    obtain ⟨queue, hqueue, rfl⟩ := Option.map_eq_some_iff.mp h
    obtain rfl := Option.some.inj hqueue
    exact ⟨hs.jobs, fun _ _ => held_of_update hs.held⟩
  | rollback working =>
    obtain rfl := Option.some.inj h
    exact ⟨hs.jobs, hs.held⟩

theorem consistent_of_reaches {P : State → Timestamp × Event → Prop} {db : Db}
    (hrun : Reaches (step settings) P (State.start db now) s) : Consistent s :=
  hrun.invariant (fun _ _ _ hs _ h => hs.step h) ⟨nofun, nofun⟩

/-! ### A pass -/

/-- What a pass over `db` has done when it commits: it reaped at `at_`, and read the clock at `now`
in the state `selected`. -/
structure ForgetsNobody (settings : Settings) (db : Db) (at_ now : Timestamp)
    (selected committed : Pass.State) : Prop where
  /-- Every job whose lease had expired was reaped, and its failure recorded. -/
  reaped : ∀ j job, db.scanJob.get? j = some job → job.status = .running →
    (∃ lease, job.leaseUntil = some lease ∧ lease < at_) →
    (∃ job', committed.db.scanJob.get? j = some job' ∧
      (job'.status = .pending ∨ job'.status = .failed)) ∧
    ∃ run, ((db.scanRun.added committed.db.scanRun).filter fun run =>
      decide (run.scanJobId = some j)) = [run] ∧ run.status = .failed
  /-- Every image that was due has one active job. -/
  due : ∀ i, Pass.Due settings selected.db now i →
    ∃! j, ∃ job, committed.db.scanJob.get? j = some job ∧ job.imageId = i ∧ isActive job = true
  /-- No job was created but for an image that was due and had none. -/
  created : ∀ t t' e j job,
    Reaches (Pass.step settings) (fun _ _ => True) ⟨db, .begun⟩ t → e.ByTick →
    Pass.step settings t e = some t' → t.db.scanJob.get? j = none →
    t'.db.scanJob.get? j = some job →
    ∃ clock due, t.phase = .enqueueing clock due ∧ Pass.Due settings t.db clock job.imageId ∧
      hasActive t.db.scanJob job.imageId = false
  /-- A lease that has not expired is respected. -/
  leased : ∀ j job lease, db.scanJob.get? j = some job → job.leaseUntil = some lease →
    at_ ≤ lease → committed.db.scanJob.get? j = some job

/-- **A scheduling pass forgets nobody.** -/
theorem forgetsNobody {P : State → Timestamp × Event → Prop} {db : Db}
    {selected committed : Pass.State} {start : Timestamp}
    (hrun : Reaches (step settings) P (State.start db start) s)
    (hpass : Pass.Commits settings s.database at_ now selected committed) :
    ForgetsNobody settings s.database at_ now selected committed := by
  have hs := consistent_of_reaches hrun
  have hunique : UniqueActive s.database.scanJob := s.queue.uniqueActive
  have hplaced : Pass.Placed s.database := fun j job hj => (hs.jobs j job hj).imageId
  refine ⟨fun j job hj hrunning hexpired => ?_, fun i hdue => ?_, ?_, ?_⟩
  · have hreapable : reapable at_ job = true := reapable_iff.mpr ⟨hrunning, hexpired⟩
    exact ⟨hpass.status_reaped hunique hplaced hj hreapable,
      hpass.run_reaped hunique hplaced hj hreapable⟩
  · exact hpass.active_of_due hunique hplaced hdue
  · exact fun t t' e j job ht he hstep hnone hj => Pass.created_of_reaches ht he hstep hnone hj
  · intro j job lease hj hlease hunexpired
    have hrunning : job.status = .running := (hs.jobs j job hj).leaseUntil (by rw [hlease]; nofun)
    refine hpass.get?_of_not_reapable hunique hplaced hj ?_ (by rw [hrunning]; nofun)
    rw [Bool.eq_false_iff]
    intro hreapable
    obtain ⟨-, lease', hlease', hexpired⟩ := reapable_iff.mp hreapable
    rw [hlease] at hlease'
    cases hlease'
    exact absurd hexpired hunexpired.not_gt

/-- The worker that claimed the job of `nginx:1.19` dies. -/
def workerDies : List (Timestamp × Event) :=
  [(0, .requestScan 1 false 0), (seconds 1, .claim 1 1 [] (seconds 1))]

/-- The pass finds its lease expired and `redis:6.0` due, and the API is asked for a scan of the
latter just before the pass puts a job in for it. -/
theorem forgetsNobody_race :
    ∃ s selected committed job,
      execute (step {}) (State.start (Db.seeded 0 [("nginx", "1.19"), ("redis", "6.0")]) 0)
        workerDies = some s ∧
      Pass.Commits {} s.database (seconds 2000) (seconds 2000) selected committed ∧
      (s.database.scanJob.get? 1 = some job ∧ job.status = .running ∧
        ∃ lease, job.leaseUntil = some lease ∧ lease < seconds 2000) ∧
      Pass.Due {} selected.db (seconds 2000) 2 ∧
      ForgetsNobody {} s.database (seconds 2000) (seconds 2000) selected committed := by
  have hrun : ((execute (restrict (step {}) fun _ _ => True)
      (State.start (Db.seeded 0 [("nginx", "1.19"), ("redis", "6.0")]) 0) workerDies).bind fun s =>
    (s.database.scanJob.get? 1).bind fun job => job.leaseUntil.bind fun lease =>
    (Pass.step {} ⟨s.database, .begun⟩ (.reap (seconds 2000))).bind fun reaped =>
    (execute (restrict (Pass.step {}) fun _ _ => True) reaped
      [.record (seconds 2000), .select]).bind fun selected =>
    (selected.db.image.get? 2).bind fun image =>
    (Pass.step {} selected (.readClock (seconds 2000))).bind fun read =>
    (execute (restrict (Pass.step {}) fun _ _ => True) read
      [.request 2 priorityTimeSensitive (seconds 2000), .enqueue (seconds 2000)]).bind fun done =>
    (Pass.step {} done .commit).map fun _ =>
      decide ((job.status = .running ∧ lease < seconds 2000) ∧
        image.enabled = true ∧ Tick.isDue {} (seconds 2000) image = true)) = some true := by
    decide +kernel
  obtain ⟨s, hs, hrun⟩ := Option.bind_eq_some_iff.mp hrun
  obtain ⟨job, hjob, hrun⟩ := Option.bind_eq_some_iff.mp hrun
  obtain ⟨lease, hlease, hrun⟩ := Option.bind_eq_some_iff.mp hrun
  obtain ⟨reaped, hreap, hrun⟩ := Option.bind_eq_some_iff.mp hrun
  obtain ⟨selected, hselected, hrun⟩ := Option.bind_eq_some_iff.mp hrun
  obtain ⟨image, himage, hrun⟩ := Option.bind_eq_some_iff.mp hrun
  obtain ⟨read, hread, hrun⟩ := Option.bind_eq_some_iff.mp hrun
  obtain ⟨done, hdone, hrun⟩ := Option.bind_eq_some_iff.mp hrun
  obtain ⟨committed, hcommit, hfacts⟩ := Option.map_eq_some_iff.mp hrun
  obtain ⟨⟨hrunning, hexpired⟩, hdue⟩ := of_decide_eq_true hfacts
  have hpass : Pass.Commits {} s.database (seconds 2000) (seconds 2000) selected committed :=
    ⟨⟨reaped, hreap, reaches_of_execute hselected⟩,
      ⟨read, done, hread, reaches_of_execute hdone, hcommit⟩⟩
  exact ⟨s, selected, committed, job, execute_of_restrict hs, hpass,
    ⟨hjob, hrunning, lease, hlease, hexpired⟩, ⟨image, himage, hdue⟩,
    forgetsNobody (reaches_of_execute hs) hpass⟩

end Lifecycle

end ContainerScanner
