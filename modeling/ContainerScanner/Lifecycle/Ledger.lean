import ContainerScanner.Lifecycle.Invariant

/-!
# The attempt ledger

Attempts are counted in two places, by `queue.fail` on the object a worker holds and by the reaper's
`UPDATE`, and the failed runs that go with them are written in two others. The ledger is that they
stay in step: what a job's row says of its attempts is what `scan_run` says of them.

## Main definitions

* `Accounted` — a row of the queue agrees with the runs of its job
* `Books` — every row does
* `Violates` — an event whose transaction the index aborts

## Main results

* `Accounted.fail`, `Accounted.reapRow`, … — what each operation does to one row and its runs
* `Books.step` — what a step does to all of them
* `ledger_run` — the ledger, in every run on which no reaped worker reports
-/

namespace ContainerScanner

open Foundation Queue

namespace Lifecycle

open Workers (WorkerId Held Fencing)

variable {settings : Settings} {s s' : State} {job : ScanJob} {jobs jobs' : Jobs}
  {runs : Serial ScanRun} {failed finished : ℕ} {j : JobId} {run : ScanRun} {at_ : Timestamp}
  {clock : Tick.Clock} {due : List ImageId}

/-! ### One row -/

/-- The `FAILED` runs of a job. -/
def failedRuns (runs : Serial ScanRun) (j : JobId) : ℕ :=
  runs.count fun run => decide (run.scanJobId = some j ∧ run.status = .failed)

/-- The `SUCCESS` and `SKIPPED` runs of a job. -/
def finishedRuns (runs : Serial ScanRun) (j : JobId) : ℕ :=
  runs.count fun run =>
    decide (run.scanJobId = some j ∧ (run.status = .success ∨ run.status = .skipped))

/-- A row of the queue, beside the number of failed and of finished runs of its job. -/
structure Accounted (settings : Settings) (job : ScanJob) (failed finished : ℕ) : Prop where
  /-- A lease is held while the job runs. -/
  lease : job.leaseUntil ≠ none ↔ job.status = .running
  /-- A job that is not over has attempts left. -/
  left : job.status = .pending ∨ job.status = .running → job.attempts < settings.maxAttempts
  /-- Every attempt left a failed run. -/
  attempts : job.attempts = failed
  /-- A job that is done has the run that finished it. -/
  finished : finished = if job.status = .done then 1 else 0

theorem accounted_newJob (hmax : 1 ≤ settings.maxAttempts) (i : ImageId) (priority : ℤ)
    (scheduledFor : Timestamp) : Accounted settings (newJob i priority scheduledFor) 0 0 where
  lease := by simp [newJob]
  left := fun _ => hmax
  attempts := rfl
  finished := rfl

theorem Accounted.promoteRow (h : Accounted settings job failed finished) (i : ImageId)
    (now : Timestamp) : Accounted settings (promoteRow i now job) failed finished := by
  rw [Queue.promoteRow]
  split
  · exact ⟨h.lease, h.left, h.attempts, h.finished⟩
  · exact h

theorem Accounted.takeLease (h : Accounted settings job failed finished)
    (hpending : job.status = .pending) (now : Timestamp) (leaseSeconds : ℤ) :
    Accounted settings (takeLease now leaseSeconds job) failed finished where
  lease := by simp [Queue.takeLease]
  left := fun _ => h.left (Or.inl hpending)
  attempts := h.attempts
  finished := by
    rw [h.finished, hpending]
    rfl

theorem Accounted.complete (h : Accounted settings job failed finished)
    (hrunning : job.status = .running) :
    Accounted settings (complete job) failed (finished + 1) where
  lease := by simp [Queue.complete]
  left := by simp [Queue.complete]
  attempts := h.attempts
  finished := by
    rw [h.finished, hrunning]
    rfl

theorem Accounted.defer (h : Accounted settings job failed finished)
    (hrunning : job.status = .running) (delaySeconds : ℕ) (reason : String) (now : Timestamp) :
    Accounted settings (defer delaySeconds reason now job) failed finished where
  lease := by simp [Queue.defer]
  left := fun _ => h.left (Or.inr hrunning)
  attempts := h.attempts
  finished := by
    rw [h.finished, hrunning]
    rfl

/-- A failure costs an attempt, and the job is over when none is left, or none was allowed. -/
theorem Accounted.fail (h : Accounted settings job failed finished)
    (hrunning : job.status = .running) {allowed : ℤ} (hallowed : allowed ≤ settings.maxAttempts)
    (error : String) (backoffBase backoffMax : ℤ) (now : Timestamp) :
    Accounted settings (fail error allowed backoffBase backoffMax now job) (failed + 1)
      finished := by
  have hattempts : job.attempts + 1 = failed + 1 := congrArg (· + 1) h.attempts
  have hfinished : finished = 0 := by
    rw [h.finished, hrunning]
    rfl
  rw [Queue.fail]
  split
  · exact ⟨by simp, by simp, hattempts, hfinished⟩
  · next hretry =>
    refine ⟨by simp, fun _ => ?_, hattempts, hfinished⟩
    exact (Int.not_le.mp hretry).trans_le hallowed

/-- A reaped attempt counts like one a worker lived to report. -/
theorem Accounted.reapRow (h : Accounted settings job failed finished) (now : Timestamp) :
    Accounted settings (reapRow settings.maxAttempts now job)
      (failed + if reapable now job then 1 else 0) finished := by
  rw [Queue.reapRow]
  split
  · next hreapable =>
    have hrunning := (reapable_iff.mp hreapable).1
    have hfinished : finished = 0 := by
      rw [h.finished, hrunning]
      rfl
    by_cases hlast : settings.maxAttempts ≤ job.attempts + 1
    · refine ⟨?_, ?_, congrArg (· + 1) h.attempts, ?_⟩ <;> simp [hlast, hfinished]
    · refine ⟨?_, fun _ => ?_, congrArg (· + 1) h.attempts, ?_⟩
      · simp [hlast]
      · exact Int.not_le.mp hlast
      · simp [hlast, hfinished]
  · exact h

/-! ### All rows -/

/-- Every row of the queue agrees with the runs of its job, and every run is of a job there is. -/
structure Books (settings : Settings) (jobs : Jobs) (runs : Serial ScanRun) : Prop where
  accounted : ∀ j job, jobs.get? j = some job →
    Accounted settings job (failedRuns runs j) (finishedRuns runs j)
  known : ∀ r run j, runs.get? r = some run → run.scanJobId = some j →
    ∃ job, jobs.get? j = some job

/-- A job that is not there has no runs. -/
theorem Books.runs_eq_zero (h : Books settings jobs runs) (hj : jobs.get? j = none) :
    failedRuns runs j = 0 ∧ finishedRuns runs j = 0 := by
  have hnone : ∀ r run, runs.get? r = some run → run.scanJobId ≠ some j := by
    intro r run hr hjob
    obtain ⟨job, hrow⟩ := h.known r run j hr hjob
    rw [hj] at hrow
    cases hrow
  refine ⟨Serial.count_eq_zero fun r run hr => ?_, Serial.count_eq_zero fun r run hr => ?_⟩
  · simp [hnone r run hr]
  · simp [hnone r run hr]

theorem Books.enqueue (h : Books settings jobs runs) (hmax : 1 ≤ settings.maxAttempts)
    (i : ImageId) (priority : ℤ) (scheduledFor : Timestamp) :
    Books settings (enqueue jobs i priority scheduledFor).1 runs := by
  refine ⟨all_enqueue h.accounted ?_, fun r run j hr hjob => ?_⟩
  · obtain ⟨hfailed, hfinished⟩ := h.runs_eq_zero (Serial.get?_next jobs)
    rw [hfailed, hfinished]
    exact accounted_newJob hmax i priority scheduledFor
  · obtain ⟨job, hrow⟩ := h.known r run j hr hjob
    exact ⟨job, get?_enqueue hrow i priority scheduledFor⟩

/-- A change of rows that keeps every row accounted for. -/
theorem Books.mapRows (h : Books settings jobs runs) {f : ScanJob → ScanJob}
    (hf : ∀ job failed finished, Accounted settings job failed finished →
      Accounted settings (f job) failed finished) : Books settings (jobs.mapRows f) runs := by
  refine ⟨Serial.All.mapRows h.accounted fun j job => hf job _ _, fun r run j hr hjob => ?_⟩
  · obtain ⟨job, hrow⟩ := h.known r run j hr hjob
    exact ⟨f job, by rw [Serial.get?_mapRows, hrow]; rfl⟩

theorem Books.requestScan (h : Books settings jobs runs) (hmax : 1 ≤ settings.maxAttempts)
    (i : ImageId) (timeSensitive : Bool) (now : Timestamp) :
    Books settings (requestScan jobs i timeSensitive now).1 runs := by
  obtain heq | ⟨-, heq⟩ := requestScan_jobs jobs i timeSensitive now
  · rw [heq]
    exact h.enqueue hmax i _ now
  · rw [heq]
    exact (h.enqueue hmax i _ now).mapRows fun job _ _ hjob => hjob.promoteRow i now

theorem Books.enqueueAll (h : Books settings jobs runs) (hmax : 1 ≤ settings.maxAttempts)
    (clock : Tick.Clock) (imageIds : List ImageId) :
    Books settings (Tick.enqueueAll clock jobs imageIds) runs := by
  induction imageIds generalizing jobs with
  | nil => exact h
  | cons i imageIds ih => exact ih (h.enqueue hmax i _ _)

/-- One row is changed, and as many runs added as it accounts for. -/
theorem Books.update (h : Books settings jobs runs) {runs' : Serial ScanRun} {new : ScanJob}
    (hjobs : ∀ j', jobs'.get? j' = if j' = j then some new else jobs.get? j')
    (hknown : ∀ r run j', runs'.get? r = some run → run.scanJobId = some j' →
      j' = j ∨ ∃ r', runs.get? r' = some run)
    (hself : Accounted settings new (failedRuns runs' j) (finishedRuns runs' j))
    (hother : ∀ j' ≠ j, failedRuns runs' j' = failedRuns runs j' ∧
      finishedRuns runs' j' = finishedRuns runs j') : Books settings jobs' runs' := by
  refine ⟨fun j' row hrow => ?_, fun r run j' hr hjob => ?_⟩
  · rw [hjobs] at hrow
    by_cases heq : j' = j
    · rw [if_pos heq] at hrow
      rw [heq, ← Option.some.inj hrow]
      exact hself
    · rw [if_neg heq] at hrow
      rw [(hother j' heq).1, (hother j' heq).2]
      exact h.accounted j' row hrow
  · rw [hjobs]
    by_cases heq : j' = j
    · exact ⟨new, if_pos heq⟩
    · obtain hsame | ⟨r', hr'⟩ := hknown r run j' hr hjob
      · exact absurd hsame heq
      · rw [if_neg heq]
        exact h.known r' run j' hr' hjob

theorem failedRuns_insert (runs : Serial ScanRun) (run : ScanRun) (j : JobId) :
    failedRuns (runs.insert run) j =
      failedRuns runs j + if run.scanJobId = some j ∧ run.status = .failed then 1 else 0 := by
  simp [failedRuns, Serial.count_insert]

theorem finishedRuns_insert (runs : Serial ScanRun) (run : ScanRun) (j : JobId) :
    finishedRuns (runs.insert run) j = finishedRuns runs j +
      if run.scanJobId = some j ∧ (run.status = .success ∨ run.status = .skipped) then 1
      else 0 := by
  simp [finishedRuns, Serial.count_insert]

/-- A row is changed and a run of its job recorded. -/
theorem Books.record (h : Books settings jobs runs) {new : ScanJob}
    (hjobs : ∀ j', jobs'.get? j' = if j' = j then some new else jobs.get? j')
    (hrun : run.scanJobId = some j)
    (hself : Accounted settings new
      (failedRuns runs j + if run.status = .failed then 1 else 0)
      (finishedRuns runs j + if run.status = .success ∨ run.status = .skipped then 1 else 0)) :
    Books settings jobs' (runs.insert run) := by
  refine h.update hjobs ?_ ?_ ?_
  · intro r run' j' hr hjob
    rw [Serial.get?_insert] at hr
    split at hr
    · rw [← Option.some.inj hr, hrun] at hjob
      exact Or.inl (Option.some.inj hjob).symm
    · exact Or.inr ⟨r, hr⟩
  · rw [failedRuns_insert, finishedRuns_insert]
    simpa only [hrun, true_and] using hself
  · intro j' hne
    have hnot : run.scanJobId ≠ some j' := by
      rw [hrun]
      exact fun heq => hne (Option.some.inj heq).symm
    simp [failedRuns_insert, finishedRuns_insert, hnot]

/-- The runs of the reaped jobs are one for each job that is reaped. -/
theorem countP_reapedRun (jobs : Jobs) (maxAttempts : ℤ) (at_ : Timestamp) (clock : Tick.Clock)
    (hj : jobs.get? j = some job) :
    ((reapExpiredLeases jobs maxAttempts at_).2.map (Tick.reapedRun clock)).countP
        (fun run => decide (run.scanJobId = some j)) = if reapable at_ job then 1 else 0 := by
  have hentries : ((reapExpiredLeases jobs maxAttempts at_).2.map (Tick.reapedRun clock)).countP
      (fun run => decide (run.scanJobId = some j)) =
      jobs.rows.entries.countP fun e => decide (e.1 = j) && reapable at_ e.2 := by
    rw [reapExpiredLeases, List.map_map, List.countP_map, List.countP_filter]
    refine List.countP_congr fun e _ => ?_
    simp [Tick.reapedRun, Persist.newRun]
  have hkey : ∀ e ∈ jobs.rows.entries, (decide (e.1 = j) && reapable at_ e.2) = true →
      e.1 = j := by
    intro e _ he
    simp only [Bool.and_eq_true, decide_eq_true_eq] at he
    exact he.1
  have hrow : jobs.rows.get? j = some job := hj
  rw [hentries, Dict.countP_of_key jobs.rows hkey, hrow]
  simp

theorem runs_reaped (runs : Serial ScanRun) (maxAttempts : ℤ) (at_ : Timestamp)
    (clock : Tick.Clock) (hj : jobs.get? j = some job) :
    let runs' := runs.insertAll
      ((reapExpiredLeases jobs maxAttempts at_).2.map (Tick.reapedRun clock))
    failedRuns runs' j = failedRuns runs j + (if reapable at_ job then 1 else 0) ∧
      finishedRuns runs' j = finishedRuns runs j := by
  have hfailed : ∀ run ∈ (reapExpiredLeases jobs maxAttempts at_).2.map (Tick.reapedRun clock),
      run.status = .failed := by
    intro run hrun
    obtain ⟨entry, -, rfl⟩ := List.mem_map.mp hrun
    rfl
  constructor
  · rw [failedRuns, Serial.count_insertAll, ← countP_reapedRun jobs maxAttempts at_ clock hj]
    refine congrArg (_ + ·) (List.countP_congr fun run hrun => ?_)
    simp [hfailed run hrun]
  · rw [finishedRuns, Serial.count_insertAll, List.countP_eq_zero.mpr]
    · rfl
    · intro run hrun
      simp [hfailed run hrun]

/-- Reaped jobs, with the runs that are recorded for them. -/
theorem Books.reap (h : Books settings jobs runs) (at_ : Timestamp) (clock : Tick.Clock) :
    Books settings (reapExpiredLeases jobs settings.maxAttempts at_).1
      (runs.insertAll
        ((reapExpiredLeases jobs settings.maxAttempts at_).2.map (Tick.reapedRun clock))) := by
  have hrow : ∀ j, (reapExpiredLeases jobs settings.maxAttempts at_).1.get? j =
      (jobs.get? j).map (reapRow settings.maxAttempts at_) :=
    fun j => Serial.get?_mapRows _ _ j
  refine ⟨fun j row hj => ?_, fun r run j hr hjob => ?_⟩
  · rw [hrow] at hj
    obtain ⟨job, hjob, rfl⟩ := Option.map_eq_some_iff.mp hj
    obtain ⟨hfailed, hfinished⟩ := runs_reaped runs settings.maxAttempts at_ clock hjob
    rw [hfailed, hfinished]
    exact (h.accounted j job hjob).reapRow at_
  · have hjob : ∃ job, jobs.get? j = some job := by
      obtain hold | hnew := Serial.of_get?_insertAll hr
      · exact h.known r run j hold hjob
      · obtain ⟨entry, hentry, rfl⟩ := List.mem_map.mp hnew
        obtain ⟨job, hrow, -⟩ := Tick.mem_reaped.mp hentry
        exact ⟨job, Option.some.inj hjob ▸ hrow⟩
    obtain ⟨job, hj⟩ := hjob
    exact ⟨_, by rw [hrow, hj]; rfl⟩

/-! ### Steps -/

/-- What a report does to the row of its job. -/
theorem Accounted.change (h : Accounted settings job failed finished)
    (hmax : 1 ≤ settings.maxAttempts) (hrunning : job.status = .running) (report : Report) :
    Accounted settings (report.outcome.change settings job)
      (failed + if report.status = some .failed then 1 else 0)
      (finished + if report.status = some .success ∨ report.status = some .skipped then 1
        else 0) := by
  cases report with
  | success report metadata => exact h.complete hrunning
  | skip metadata => exact h.complete hrunning
  | fail error permanent refreshed now startedAt completedAt =>
    refine h.fail hrunning ?_ error _ _ now
    split
    · exact hmax
    · exact le_rfl
  | defer delaySeconds reason refreshed now => exact h.defer hrunning delaySeconds reason now

theorem Books.of_report (hbooks : Books settings s.queue.jobs s.db.scanRun)
    (hmax : 1 ≤ settings.maxAttempts) {w : WorkerId} {report : Report} {held : Held} {db : Db}
    (himage : held.loaded.imageId ∈ s.db.image.keys)
    (h : Reports settings s w report held db s') :
    Books settings s'.queue.jobs s'.db.scanRun := by
  have hrow := (hbooks.accounted _ _ h.loaded).change hmax h.running report
  have hdb : s'.db = db := congrArg State.db h.state
  rw [hdb]
  obtain ⟨hstatus, rfl⟩ | ⟨run, image, new, hrecords⟩ :=
    commitReport_cases h.commits h.loaded himage
  · refine hbooks.update h.jobs (fun r run j hr _ => Or.inr ⟨r, hr⟩) ?_ fun _ _ => ⟨rfl, rfl⟩
    simpa [hstatus, State.database] using hrow
  · rw [hrecords.scanRun]
    refine hbooks.record h.jobs hrecords.job ?_
    simpa [hrecords.status] using hrow

theorem Books.of_ticks (hbooks : Books settings s.queue.jobs s.db.scanRun)
    (hmax : 1 ≤ settings.maxAttempts) (hplaced : Placed s.queue.jobs s.db.image.keys)
    (h : Ticks settings s at_ clock due s') : Books settings s'.queue.jobs s'.db.scanRun := by
  rw [h.jobs, h.scanRun hplaced]
  exact (hbooks.reap at_ clock).enqueueAll hmax clock _

theorem Books.step (hbooks : Books settings s.queue.jobs s.db.scanRun) (hs : Kept s)
    (hmax : 1 ≤ settings.maxAttempts) {e : Timestamp × Event} (hf : Fenced s e)
    (h : step settings s e = some s') : Books settings s'.queue.jobs s'.db.scanRun := by
  cases step_cases hs.fencing hf h with
  | requestScan i timeSensitive now himage hjobs hheld hreaped =>
    rw [State.advance, hjobs]
    exact hbooks.requestScan hmax i timeSensitive now
  | claim w j now held hrow hpending hjobs hholds hreaped =>
    refine hbooks.update hjobs (fun r run j hr _ => Or.inr ⟨r, hr⟩) ?_ fun _ _ => ⟨rfl, rfl⟩
    exact (hbooks.accounted j _ hrow).takeLease hpending now settings.leaseSeconds
  | load w hholds hrow => exact hbooks
  | report hfenced hreports => exact hbooks.of_report hmax (hs.placed _ _ hreports.loaded) hreports
  | tick hticks => exact hbooks.of_ticks hmax hs.placed hticks
  | abandon w hjobs hheld hreaped =>
    rw [State.advance, hjobs]
    exact hbooks
  | rollback working => exact ⟨hbooks.accounted, hbooks.known⟩

/-! ### The ledger -/

theorem books_start {db : Db} (hdb : Registered db) (now : Timestamp) :
    Books settings (State.start db now).queue.jobs (State.start db now).db.scanRun := by
  refine ⟨fun j job hj => ?_, fun r run j hr _ => ?_⟩
  · cases hj
  · have hr : db.scanRun.get? r = some run := hr
    rw [hdb.scanRun] at hr
    cases hr

theorem books_of_reaches (hmax : 1 ≤ settings.maxAttempts) {db : Db} (hdb : Registered db)
    {now : Timestamp} (hrun : Reaches (step settings) Fenced (State.start db now) s) :
    Books settings s.queue.jobs s.db.scanRun := by
  have hinv : Kept s ∧ Books settings s.queue.jobs s.db.scanRun :=
    hrun.invariant (I := fun s => Kept s ∧ Books settings s.queue.jobs s.db.scanRun)
      (fun _ _ _ hs hf h => ⟨hs.1.step hf h, hs.2.step hs.1 hmax hf h⟩)
      ⟨kept_start db now, books_start hdb now⟩
  exact hinv.2

/-- Would the index abort the transaction of this event? -/
def Violates (settings : Settings) (s : State) (at_ : Timestamp) : Event → Prop
  | .report w report => ∃ held, s.queue.held w = some held ∧
      ¬ UniqueActive (Workers.reportJobs settings s.queue.jobs held report.outcome)
  | .tick _ => ¬ UniqueActive (reapExpiredLeases s.queue.jobs settings.maxAttempts at_).1
  | _ => False

/-- The ledger: what the rows of the queue say of their jobs is what `scan_run` says of them, and no
image has two jobs that are not over. -/
structure Ledger (settings : Settings) (s : State) : Prop where
  accounted : ∀ j job, s.queue.jobs.get? j = some job →
    Accounted settings job (failedRuns s.db.scanRun j) (finishedRuns s.db.scanRun j)
  unique : UniqueActive s.queue.jobs
  /-- No report and no reap runs into the index. -/
  admitted : ∀ e, Fenced s e → ¬ Violates settings s e.1 e.2

/-- **The attempt ledger.** In every run on which no worker reports on a claim that the reaper has
ended, attempts, leases and runs agree in every state, and the index of active jobs is never run
into. -/
theorem ledger_run (hmax : 1 ≤ settings.maxAttempts) {db : Db} (hdb : Registered db)
    {now : Timestamp} (hrun : Reaches (step settings) Fenced (State.start db now) s) :
    Ledger settings s := by
  have hs := kept_of_reaches hrun
  refine ⟨(books_of_reaches hmax hdb hrun).accounted, s.queue.uniqueActive, ?_⟩
  rintro ⟨at_, event⟩ hf hviolates
  cases event with
  | report w report =>
    obtain ⟨held, hheld, hviolated⟩ := hviolates
    obtain ⟨hloaded, hrunning, -⟩ := hs.fencing.live w held hheld (hf held hheld)
    exact hviolated
      (Workers.uniqueActive_reportJobs s.queue.uniqueActive hloaded hrunning report.outcome)
  | tick clock => exact hviolates (uniqueActive_reap s.queue.uniqueActive _ _)
  | requestScan i timeSensitive now => exact hviolates
  | claim w j locked now => exact hviolates
  | load w => exact hviolates
  | abandon w => exact hviolates
  | rollback working => exact hviolates

/-- One image, put in and claimed twice: its first worker reports a failure, and the second dies. -/
def failedAndReaped : List (Timestamp × Event) :=
  let clock (t : Timestamp) : Tick.Clock := ⟨fun _ => t, t, fun _ => t⟩
  [(0, .tick (clock 0)), (0, .claim 1 1 [] 0), (0, .load 1),
    (seconds 9, .report 1 (.fail "timeout" false false (seconds 9) 0 (seconds 9))),
    (seconds 90, .claim 2 1 [] (seconds 90)), (seconds 95, .abandon 2),
    (seconds 2000, .tick (clock (seconds 2000)))]

theorem ledger_run_failedAndReaped :
    ∃ s, execute (restrict (step {}) Fenced) (State.start (Db.seeded 0 [("nginx", "1.19")]) 0)
        failedAndReaped = some s ∧
      failedRuns s.db.scanRun 1 = 2 ∧ Ledger {} s := by
  have hrun : (execute (restrict (step {}) Fenced)
      (State.start (Db.seeded 0 [("nginx", "1.19")]) 0) failedAndReaped).map
        (fun s => failedRuns s.db.scanRun 1) = some 2 := by decide +kernel
  obtain ⟨s, hs, hfailed⟩ := Option.map_eq_some_iff.mp hrun
  exact ⟨s, hs, hfailed, ledger_run (by decide) (registered_seeded 0 _) (reaches_of_execute hs)⟩

end Lifecycle

end ContainerScanner
