import ContainerScanner.Domain.Seed
import ContainerScanner.Jobs.Workers
import ContainerScanner.Scanner.RunOnce
import ContainerScanner.Scheduler.Tick

/-!
# The life of jobs and images

Everyone who writes `scan_job`, `scan_run` and `image`, together: the queue with its workers, what a
worker records when it reports, the scheduling pass, and the API's requests. A worker loads its
image some time after the claim and writes the columns in which its object then differs from what
it loaded.

Beside the tables stands a history: of every transaction, the runs it added and the images of the
jobs that became `FAILED` in it, read off the tables before and after. No step reads it.

## Main definitions

* `Report`, `commitReport` — what a worker's last transaction writes
* `Entry`, `entriesOf` — the history
* `State`, `Event`, `step` — the machine
* `Fenced` — a step on which no worker reports on a claim that the reaper has ended

## Main results

* `recordSuccess_eq`, `recordSkip_eq`, `recordFailure_eq` — on a fresh object, the recorders of
  `persist`
* `report_cases`, `tick_cases`, `step_cases` — what a report, a scheduling pass and any step do
* `Fencing.lifecycle` — the queue's own invariant
-/

namespace ContainerScanner

open Foundation Queue

namespace Lifecycle

open Workers (WorkerId Held Fencing)

/-! ### What a worker writes -/

/-- What comes of a job that is not abandoned. -/
inductive Report where
  | success (report : AcceptedReport) (metadata : Persist.RunMetadata)
  | skip (metadata : Persist.RunMetadata)
  /-- With a rollback that expired the session's objects, or not. -/
  | fail (error : String) (permanent refreshed : Bool) (now startedAt completedAt : Timestamp)
  | defer (delaySeconds : ℕ) (reason : String) (refreshed : Bool) (now : Timestamp)

/-- What the report means for the job. -/
def Report.outcome : Report → Workers.Outcome
  | success _ _ => .complete
  | skip _ => .complete
  | fail error permanent refreshed now _ _ => .fail error permanent refreshed now
  | defer delaySeconds reason refreshed now => .defer delaySeconds reason refreshed now

/-- Flush an image object. -/
def writeImage (db : Db) (i : ImageId) (loaded new : Image) : Db :=
  { db with image := db.image.update i (RunOnce.flushImage loaded new) }

/-- `record_success`, on the image as it was loaded. -/
def recordSuccess (db : Db) (i : ImageId) (loaded : Image) (job : JobId) (report : ParsedReport)
    (metadata : Persist.RunMetadata) : Db :=
  let affected := Persist.affectedCves db i loaded report
  let written := Persist.writeFindings db i (some job) report metadata
  let flushed := { written with
    image := (writeImage db i loaded (Persist.pointTo db.scanRun.next metadata loaded)).image }
  Persist.recomputeCveRollup flushed affected

/-- `record_skip`. -/
def recordSkip (db : Db) (i : ImageId) (loaded : Image) (job : JobId)
    (metadata : Persist.RunMetadata) : Db :=
  writeImage (Persist.insertRun db (Persist.newRun i (some job) .skipped metadata none)) i loaded
    (Persist.skipImage metadata loaded)

/-- The run of a failed attempt. -/
def failedRun (i : ImageId) (job : JobId) (startedAt completedAt : Timestamp) (error : String) :
    ScanRun :=
  Persist.newRun i (some job) .failed (Worker.failedMetadata startedAt completedAt)
    (some (PyStr.truncate 4000 error))

/-- `record_failure`. -/
def recordFailure (db : Db) (i : ImageId) (loaded : Image) (job : JobId)
    (startedAt completedAt : Timestamp) (error : String) (exhausted : Bool) : Db :=
  writeImage (Persist.insertRun db (failedRun i job startedAt completedAt error)) i loaded
    (Persist.failImage (Worker.failedMetadata startedAt completedAt) exhausted loaded)

section Recorders

variable {db : Db} {i : ImageId} {loaded : Image}

/-- An object that is the row is flushed like a change of the row. -/
theorem writeImage_eq (h : db.image.get? i = some loaded) (f : Image → Image) :
    writeImage db i loaded (f loaded) = { db with image := db.image.update i f } := by
  have hrows : db.image.update i (RunOnce.flushImage loaded (f loaded)) = db.image.update i f := by
    refine Dict.update_congr fun row hrow => ?_
    rw [← Option.some.inj (h.symm.trans hrow), RunOnce.flushImage_self]
  rw [writeImage, hrows]

/-- On a fresh object the recorders of the machine are those of `persist`. -/
theorem recordSuccess_eq (h : db.image.get? i = some loaded) (job : JobId) (report : ParsedReport)
    (metadata : Persist.RunMetadata) : recordSuccess db i loaded job report metadata =
      Persist.recordSuccess db i loaded (some job) report metadata := by
  simp only [recordSuccess, writeImage_eq h]
  rfl

theorem recordSkip_eq (h : db.image.get? i = some loaded) (job : JobId)
    (metadata : Persist.RunMetadata) : recordSkip db i loaded job metadata =
      Persist.recordSkip db i (some job) metadata := by
  have hrow : (Persist.insertRun db
      (Persist.newRun i (some job) .skipped metadata none)).image.get? i = some loaded := h
  rw [recordSkip, writeImage_eq hrow]
  rfl

theorem recordFailure_eq (h : db.image.get? i = some loaded) (job : JobId)
    (startedAt completedAt : Timestamp) (error : String) (exhausted : Bool) :
    recordFailure db i loaded job startedAt completedAt error exhausted =
      Persist.recordFailure db i (some job) (Worker.failedMetadata startedAt completedAt) error
        exhausted := by
  have hrow : (Persist.insertRun db
      (failedRun i job startedAt completedAt error)).image.get? i = some loaded := h
  rw [recordFailure, writeImage_eq hrow]
  rfl

end Recorders

/-- What a worker's last transaction writes beside its job. Success and skip need the image loaded;
the handler of a failure loads it when it has none. -/
def commitReport (settings : Settings) (db : Db) (held : Held) (loaded : Option Image)
    (report : Report) : Option Db :=
  let i := held.loaded.imageId
  match report with
  | .success report metadata =>
    loaded.map fun image => recordSuccess db i image held.job report.report metadata
  | .skip metadata => loaded.map fun image => recordSkip db i image held.job metadata
  | .fail error _ refreshed _ startedAt completedAt =>
    let job := if refreshed then (db.scanJob.get? held.job).getD held.loaded else held.loaded
    let exhausted := decide ((report.outcome.change settings job).status = .failed)
    match (if refreshed then none else loaded).or (db.image.get? i) with
    | none => some db
    | some image => some (recordFailure db i image held.job startedAt completedAt error exhausted)
  | .defer _ _ _ _ => some db

/-! ### The history -/

inductive Entry where
  | recorded (run : ScanRun)
  /-- A job of the image became `FAILED`. -/
  | gaveUp (imageId : ImageId)
  deriving DecidableEq

/-- Is this a job that has become `FAILED` since? -/
def becameFailed (jobs : Jobs) (e : JobId × ScanJob) : Bool :=
  decide (e.2.status = .failed) &&
    !(jobs.get? e.1).any fun job => decide (job.status = .failed)

/-- The images of the jobs that became `FAILED`. -/
def newlyFailed (jobs jobs' : Jobs) : List ImageId :=
  (jobs'.rows.entries.filter (becameFailed jobs)).map fun e => e.2.imageId

/-- What a transaction did to the tables, newest first. -/
def entriesOf (jobs jobs' : Jobs) (runs runs' : Serial ScanRun) : List Entry :=
  (newlyFailed jobs jobs').map .gaveUp ++ ((runs.added runs').map .recorded).reverse

/-! ### The machine -/

structure State where
  queue : Workers.State
  /-- The tables other than the queue's. -/
  db : Db
  /-- The image objects of the workers. -/
  images : WorkerId → Option Image
  history : List Entry

/-- All tables. -/
def State.database (s : State) : Db := { s.db with scanJob := s.queue.jobs }

/-- Commit a transaction. -/
def State.advance (s : State) (queue : Workers.State) (db : Db)
    (images : WorkerId → Option Image) : State where
  queue := queue
  db := db
  images := images
  history := entriesOf s.queue.jobs queue.jobs s.db.scanRun db.scanRun ++ s.history

/-- A transaction is rolled back: the numbers it drew are not handed out again. -/
def State.rollback (s : State) (working : Db) : State :=
  { s with
    queue := { s.queue with
      jobs := s.queue.jobs.advance working.scanJob.next
      uniqueActive := s.queue.uniqueActive }
    db := RunOnce.restore s.db working }

inductive Event where
  | requestScan (imageId : ImageId) (timeSensitive : Bool) (now : Timestamp)
  | claim (worker : WorkerId) (job : JobId) (locked : List JobId) (now : Timestamp)
  /-- The worker loads the image of its job. -/
  | load (worker : WorkerId)
  | report (worker : WorkerId) (report : Report)
  | tick (clock : Tick.Clock)
  /-- The worker dies, or its loop gives the job up after an error of its own. -/
  | abandon (worker : WorkerId)
  /-- Somebody's transaction, as far as it got. -/
  | rollback (working : Db)

/-- What a scheduling pass that finds `due` does to the queue. -/
def tickQueue (settings : Settings) (clock : Tick.Clock) (at_ : Timestamp) (due : List ImageId)
    (s : State) : Option Workers.State :=
  execute (fun queue event => Workers.stepAt settings queue at_ event) s.queue
    (.reap :: due.map fun i => .enqueue i priorityScheduled (clock.scheduled i))

def stepAt (settings : Settings) (s : State) (at_ : Timestamp) : Event → Option State
  | .requestScan i timeSensitive now =>
    if (s.db.image.get? i).isSome then
      (Workers.stepAt settings s.queue at_ (.requestScan i timeSensitive now)).map fun queue =>
        s.advance queue s.db s.images
    else none
  | .claim w j locked now =>
    (Workers.stepAt settings s.queue at_ (.claim w j locked now)).map fun queue =>
      s.advance queue s.db (Function.update s.images w none)
  | .load w =>
    match s.queue.held w, s.images w with
    | some held, none =>
      (s.db.image.get? held.loaded.imageId).map fun image =>
        { s with images := Function.update s.images w (some image) }
    | _, _ => none
  | .report w report =>
    match s.queue.held w with
    | none => none
    | some held =>
      (commitReport settings s.database held (s.images w) report).bind fun db =>
        (Workers.stepAt settings s.queue at_ (.report w report.outcome)).map fun queue =>
          -- a transaction that would violate the index is rolled back
          if UniqueActive (Workers.reportJobs settings s.queue.jobs held report.outcome) then
            s.advance queue db (Function.update s.images w none)
          else s.advance queue s.db (Function.update s.images w none)
  | .tick clock => do
    let due ← Tick.dueImages settings (Tick.afterReap settings clock at_ s.database) clock.due
    let db ← Tick.tick settings clock at_ s.database
    let queue ← tickQueue settings clock at_ due s
    some (s.advance queue db s.images)
  | .abandon w =>
    (Workers.stepAt settings s.queue at_ (.abandon w)).map fun queue =>
      s.advance queue s.db (Function.update s.images w none)
  | .rollback working => some (s.rollback working)

/-- One event at a time of the database's clock, which never goes back. -/
def step (settings : Settings) (s : State) (e : Timestamp × Event) : Option State :=
  if e.1 < s.queue.clock then none else stepAt settings s e.1 e.2

/-- What the worker holds that reports. -/
def reportsOn (s : State) : Event → Option Held
  | .report w _ => s.queue.held w
  | _ => none

/-- No worker reports on a claim that the reaper has already ended. -/
def Fenced (s : State) (e : Timestamp × Event) : Prop :=
  ∀ held ∈ reportsOn s e.2, held.claim ∉ s.queue.reaped

instance (s : State) (e : Timestamp × Event) : Decidable (Fenced s e) :=
  inferInstanceAs (Decidable (∀ held ∈ reportsOn s e.2, held.claim ∉ s.queue.reaped))

/-- A database that was set up: images are registered, and nothing was queued or scanned. -/
structure Registered (db : Db) : Prop where
  scanJob : db.scanJob = Serial.empty
  scanRun : ∀ r, db.scanRun.get? r = none
  image : ∀ i image, db.image.get? i = some image →
    image.lastScanAt = none ∧ image.lastScanStatus = none ∧ image.consecutiveFailures = 0

theorem registered_seeded (createdAt : Timestamp) (references : List (String × String)) :
    Registered (Db.seeded createdAt references) := by
  refine ⟨rfl, fun _ => rfl, fun i image himage => ?_⟩
  obtain ⟨e, -, he⟩ := List.mem_map.mp (Dict.get?_eq_some_iff.mp himage)
  obtain rfl := (Prod.mk.inj he).2
  exact ⟨rfl, rfl, rfl⟩

/-- Nobody is working yet. -/
def State.start (db : Db) (clock : Timestamp) : State where
  queue := Workers.State.start Serial.empty uniqueActive_empty clock
  db := db
  images := fun _ => none
  history := []

/-! ### What a step does -/

variable {settings : Settings} {s s' : State} {at_ : Timestamp} {w : WorkerId} {report : Report}
  {clock : Tick.Clock} {due : List ImageId}

theorem stepAt_requestScan {i : ImageId} {timeSensitive : Bool} {now : Timestamp}
    (h : stepAt settings s at_ (.requestScan i timeSensitive now) = some s') :
    i ∈ s.db.image.keys ∧ ∃ queue,
      Workers.stepAt settings s.queue at_ (.requestScan i timeSensitive now) = some queue ∧
      s' = s.advance queue s.db s.images := by
  simp only [stepAt] at h
  split at h
  · next himage =>
    obtain ⟨queue, hqueue, rfl⟩ := Option.map_eq_some_iff.mp h
    exact ⟨Dict.mem_keys_iff.mpr (Option.isSome_iff_exists.mp himage), queue, hqueue, rfl⟩
  · cases h

theorem stepAt_load (h : stepAt settings s at_ (.load w) = some s') :
    ∃ held image, s.queue.held w = some held ∧
      s.db.image.get? held.loaded.imageId = some image ∧
      s' = { s with images := Function.update s.images w (some image) } := by
  simp only [stepAt] at h
  split at h
  · next held hheld _ =>
    obtain ⟨image, himage, rfl⟩ := Option.map_eq_some_iff.mp h
    exact ⟨held, image, hheld, himage, rfl⟩
  · cases h

/-- A report is committed, unless it would violate the index. -/
theorem stepAt_report (h : stepAt settings s at_ (.report w report) = some s') :
    ∃ held db queue, s.queue.held w = some held ∧
      commitReport settings s.database held (s.images w) report = some db ∧
      Workers.stepAt settings s.queue at_ (.report w report.outcome) = some queue ∧
      s' = s.advance queue
        (if UniqueActive (Workers.reportJobs settings s.queue.jobs held report.outcome) then db
          else s.db) (Function.update s.images w none) := by
  cases hheld : s.queue.held w with
  | none =>
    simp only [stepAt, hheld] at h
    cases h
  | some held =>
    simp only [stepAt, hheld] at h
    obtain ⟨db, hcommit, h⟩ := Option.bind_eq_some_iff.mp h
    obtain ⟨queue, hqueue, rfl⟩ := Option.map_eq_some_iff.mp h
    refine ⟨held, db, queue, rfl, hcommit, hqueue, ?_⟩
    split <;> rfl

/-- A report on a claim that the reaper has not ended: the worker holds the job as it is stored, and
its transaction is committed. -/
structure Reports (settings : Settings) (s : State) (w : WorkerId) (report : Report) (held : Held)
    (db : Db) (s' : State) : Prop where
  holds : s.queue.held w = some held
  loaded : s.queue.jobs.get? held.job = some held.loaded
  running : held.loaded.status = .running
  under : s.queue.runningUnder held.job = some held.claim
  commits : commitReport settings s.database held (s.images w) report = some db
  state : s' = s.advance s'.queue db (Function.update s.images w none)
  jobs : ∀ j, s'.queue.jobs.get? j =
    if j = held.job then some (report.outcome.change settings held.loaded)
    else s.queue.jobs.get? j
  idle : s'.queue.held = Function.update s.queue.held w none
  reaped : s'.queue.reaped = s.queue.reaped

theorem report_cases (hs : Fencing s.queue)
    (hf : ∀ held ∈ s.queue.held w, held.claim ∉ s.queue.reaped)
    (h : stepAt settings s at_ (.report w report) = some s') :
    ∃ held db, Reports settings s w report held db s' := by
  obtain ⟨held, db, queue, hheld, hcommit, hqueue, rfl⟩ := stepAt_report h
  obtain ⟨held', hheld', hloaded, hrunning, hunder, hjobs, -⟩ := hs.report hf hqueue
  obtain ⟨-, -, hidle, -, -, hreaped, -⟩ := Workers.stepAt_report hqueue
  rw [hheld] at hheld'
  obtain rfl := Option.some.inj hheld'
  rw [if_pos (Workers.uniqueActive_reportJobs s.queue.uniqueActive hloaded hrunning _)]
  exact ⟨held, db, hheld, hloaded, hrunning, hunder, hcommit, rfl, hjobs, hidle, hreaped⟩

/-- The status of the run a report records. -/
def Report.status : Report → Option RunStatus
  | success _ _ => some .success
  | skip _ => some .skipped
  | fail _ _ _ _ _ _ => some .failed
  | defer _ _ _ _ => none

/-- A report that records a run: the run, and the image columns it writes over the object
`image`. -/
structure Records (settings : Settings) (db : Db) (held : Held) (loaded : Option Image)
    (report : Report) (db' : Db) (run : ScanRun) (image new : Image) : Prop where
  status : report.status = some run.status
  job : run.scanJobId = some held.job
  imageId : run.imageId = held.loaded.imageId
  /-- The object was loaded earlier, or is now. -/
  object : loaded = some image ∨ db.image.get? held.loaded.imageId = some image
  scanRun : db'.scanRun = db.scanRun.insert run
  row : db'.image = (writeImage db held.loaded.imageId image new).image
  lastScanAt : new.lastScanAt = run.completedAt
  lastScanStatus : new.lastScanStatus = some run.status
  consecutiveFailures : new.consecutiveFailures =
    if run.status = .failed then
      if (report.outcome.change settings held.loaded).status = .failed then
        image.consecutiveFailures + 1
      else image.consecutiveFailures
    else 0

theorem scanRun_recordSuccess (db : Db) (i : ImageId) (loaded : Image) (job : JobId)
    (report : ParsedReport) (metadata : Persist.RunMetadata) :
    (recordSuccess db i loaded job report metadata).scanRun =
      db.scanRun.insert (Persist.withCounts
        (Persist.countBySeverity (Persist.writtenRows db i report))
        (Persist.newRun i (some job) .success metadata none)) :=
  Serial.update_insert_next db.scanRun _ _

/-- What a worker's last transaction writes beside its job: a run and its image, or nothing. -/
theorem commitReport_cases {db db' : Db} {held : Held} {loaded : Option Image}
    (h : commitReport settings db held loaded report = some db')
    (hrow : db.scanJob.get? held.job = some held.loaded)
    (himage : held.loaded.imageId ∈ db.image.keys) :
    report.status = none ∧ db' = db ∨
      ∃ run image new, Records settings db held loaded report db' run image new := by
  cases report with
  | success report metadata =>
    obtain ⟨image, hloaded, rfl⟩ := Option.map_eq_some_iff.mp h
    exact Or.inr ⟨_, image, _, rfl, rfl, rfl, Or.inl hloaded,
      scanRun_recordSuccess db _ image held.job report.report metadata, rfl, rfl, rfl, rfl⟩
  | skip metadata =>
    obtain ⟨image, hloaded, rfl⟩ := Option.map_eq_some_iff.mp h
    exact Or.inr ⟨_, image, _, rfl, rfl, rfl, Or.inl hloaded, rfl, rfl, rfl, rfl, rfl⟩
  | fail error permanent refreshed now startedAt completedAt =>
    obtain ⟨row, hget⟩ := Dict.mem_keys_iff.mp himage
    have hsame : (if refreshed then (db.scanJob.get? held.job).getD held.loaded
        else held.loaded) = held.loaded := by
      rw [hrow]
      exact ite_self _
    simp only [commitReport, hsame] at h
    split at h
    · next hnone =>
      rw [Option.or_eq_none_iff, hget] at hnone
      cases hnone.2
    · next image hobject =>
      obtain rfl := Option.some.inj h
      refine Or.inr ⟨_, image, _, rfl, rfl, rfl, ?_, rfl, rfl, rfl, rfl, ?_⟩
      · obtain hloaded | ⟨-, hloaded⟩ := Option.or_eq_some_iff.mp hobject
        · cases refreshed with
          | true => cases hloaded
          | false => exact Or.inl hloaded
        · exact Or.inr hloaded
      · simp [Persist.failImage, failedRun, Persist.newRun]
  | defer delaySeconds reason refreshed now =>
    exact Or.inl ⟨rfl, (Option.some.inj h).symm⟩

/-- A scheduling pass, on the queue and on all tables. -/
structure Ticks (settings : Settings) (s : State) (at_ : Timestamp) (clock : Tick.Clock)
    (due : List ImageId) (s' : State) : Prop where
  images : Tick.dueImages settings (Tick.afterReap settings clock at_ s.database) clock.due =
    some due
  jobs : s'.queue.jobs = Tick.enqueueAll clock
    (reapExpiredLeases s.queue.jobs settings.maxAttempts at_).1 due
  held : s'.queue.held = s.queue.held
  reaped : s'.queue.reaped = Workers.reapedClaims s.queue at_ ++ s.queue.reaped
  state : s' = s.advance s'.queue
    (Tick.enqueueDue clock (Tick.afterReap settings clock at_ s.database) due) s.images

theorem execute_enqueues {queue queue' : Workers.State} {imageIds : List ImageId}
    (h : execute (fun queue event => Workers.stepAt settings queue at_ event) queue
      (imageIds.map fun i => .enqueue i priorityScheduled (clock.scheduled i)) = some queue') :
    queue'.jobs = Tick.enqueueAll clock queue.jobs imageIds ∧ queue'.held = queue.held ∧
      queue'.reaped = queue.reaped ∧ (Fencing queue → Fencing queue') := by
  induction imageIds generalizing queue with
  | nil =>
    obtain rfl := Option.some.inj h
    exact ⟨rfl, rfl, rfl, id⟩
  | cons i imageIds ih =>
    rw [List.map_cons, execute_cons] at h
    obtain ⟨next, hnext, h⟩ := Option.bind_eq_some_iff.mp h
    obtain ⟨hjobs, hheld, hreaped, hfencing⟩ := ih h
    have hfenced : Fencing queue → Fencing next :=
      fun hs => hs.stepAt (fun _ hnone => by cases hnone) hnext
    obtain rfl := Option.some.inj hnext
    exact ⟨hjobs, hheld, hreaped, fun hs => hfencing (hfenced hs)⟩

theorem tick_cases (h : stepAt settings s at_ (.tick clock) = some s') :
    ∃ due, Ticks settings s at_ clock due s' ∧ (Fencing s.queue → Fencing s'.queue) := by
  obtain ⟨due, hdue, h⟩ := Option.bind_eq_some_iff.mp h
  obtain ⟨db, hdb, h⟩ := Option.bind_eq_some_iff.mp h
  obtain ⟨queue, hqueue, h⟩ := Option.bind_eq_some_iff.mp h
  obtain rfl := Option.some.inj h
  obtain ⟨due', hdue', rfl⟩ := Tick.tick_eq_some.mp hdb
  obtain rfl := Option.some.inj (hdue.symm.trans hdue')
  rw [tickQueue, execute_cons] at hqueue
  obtain ⟨next, hnext, hqueue⟩ := Option.bind_eq_some_iff.mp hqueue
  obtain ⟨hjobs, hheld, hreaped, hfencing⟩ := execute_enqueues hqueue
  have hfenced : Fencing s.queue → Fencing next :=
    fun hs => hs.stepAt (fun _ hnone => by cases hnone) hnext
  obtain rfl := Option.some.inj hnext
  exact ⟨due, ⟨hdue, hjobs, hheld, hreaped, rfl⟩, fun hs => hfencing (hfenced hs)⟩

theorem Ticks.db (h : Ticks settings s at_ clock due s') : s'.db =
    Tick.enqueueDue clock (Tick.afterReap settings clock at_ s.database) due :=
  (congrArg State.db h.state).trans rfl

theorem Fencing.rollback (hs : Fencing s.queue) (working : Db) :
    Fencing (s.rollback working).queue where
  claim_lt := hs.claim_lt
  claim_inj := hs.claim_inj
  live := hs.live
  under := hs.under
  under_inj := hs.under_inj
  reaped_subset := hs.reaped_subset
  outcomes_lt := hs.outcomes_lt
  outcomes_nodup := hs.outcomes_nodup

theorem stepAt_of_step {e : Timestamp × Event} (h : step settings s e = some s') :
    stepAt settings s e.1 e.2 = some s' := by
  rw [step] at h
  split at h
  · cases h
  · exact h

theorem Fencing.lifecycle (hs : Fencing s.queue) {e : Timestamp × Event} (hf : Fenced s e)
    (h : step settings s e = some s') : Fencing s'.queue := by
  obtain ⟨at_, event⟩ := e
  have h : stepAt settings s at_ event = some s' := stepAt_of_step h
  cases event with
  | requestScan i timeSensitive now =>
    obtain ⟨-, queue, hqueue, rfl⟩ := stepAt_requestScan h
    exact hs.stepAt (fun _ hnone => by cases hnone) hqueue
  | claim w j locked now =>
    obtain ⟨queue, hqueue, rfl⟩ := Option.map_eq_some_iff.mp h
    exact hs.stepAt (fun _ hnone => by cases hnone) hqueue
  | load w =>
    obtain ⟨held, image, -, -, rfl⟩ := stepAt_load h
    exact hs
  | report w report =>
    obtain ⟨held, db, queue, -, -, hqueue, rfl⟩ := stepAt_report h
    have hreports : ∀ held ∈ Workers.reportsOn s.queue (.report w report.outcome),
        held.claim ∉ s.queue.reaped := hf
    exact hs.stepAt hreports hqueue
  | tick clock =>
    obtain ⟨due, -, hfencing⟩ := tick_cases h
    exact hfencing hs
  | abandon w =>
    simp only [stepAt] at h
    obtain ⟨queue, hqueue, rfl⟩ := Option.map_eq_some_iff.mp h
    exact hs.stepAt (fun _ hnone => by cases hnone) hqueue
  | rollback working =>
    obtain rfl := Option.some.inj h
    exact Fencing.rollback hs working

/-! ### Inversion -/

/-- What a fenced step does. -/
inductive Moves (settings : Settings) (s : State) : State → Prop where
  | requestScan {queue : Workers.State} (i : ImageId) (timeSensitive : Bool) (now : Timestamp)
      (image : i ∈ s.db.image.keys)
      (jobs : queue.jobs = (Queue.requestScan s.queue.jobs i timeSensitive now).1)
      (held : queue.held = s.queue.held) (reaped : queue.reaped = s.queue.reaped) :
      Moves settings s (s.advance queue s.db s.images)
  | claim {queue : Workers.State} {job : ScanJob} (w : WorkerId) (j : JobId) (now : Timestamp)
      (held : Held) (row : s.queue.jobs.get? j = some job) (pending : job.status = .pending)
      (jobs : ∀ j', queue.jobs.get? j' =
        if j' = j then some (takeLease now settings.leaseSeconds job) else s.queue.jobs.get? j')
      (holds : queue.held = Function.update s.queue.held w (some held))
      (reaped : queue.reaped = s.queue.reaped) :
      Moves settings s (s.advance queue s.db (Function.update s.images w none))
  | load {held : Held} {image : Image} (w : WorkerId) (holds : s.queue.held w = some held)
      (row : s.db.image.get? held.loaded.imageId = some image) :
      Moves settings s { s with images := Function.update s.images w (some image) }
  | report {w : WorkerId} {report : Report} {held : Held} {db : Db} {s' : State}
      (fenced : ∀ held ∈ s.queue.held w, held.claim ∉ s.queue.reaped)
      (reports : Reports settings s w report held db s') : Moves settings s s'
  | tick {at_ : Timestamp} {clock : Tick.Clock} {due : List ImageId} {s' : State}
      (ticks : Ticks settings s at_ clock due s') : Moves settings s s'
  | abandon {queue : Workers.State} (w : WorkerId) (jobs : queue.jobs = s.queue.jobs)
      (held : queue.held = Function.update s.queue.held w none)
      (reaped : queue.reaped = s.queue.reaped) :
      Moves settings s (s.advance queue s.db (Function.update s.images w none))
  | rollback (working : Db) : Moves settings s (s.rollback working)

theorem get?_update_eq {jobs : Jobs} {job : ScanJob} {j : JobId} {f : ScanJob → ScanJob}
    (hj : jobs.get? j = some job) (j' : JobId) :
    (jobs.update j f).get? j' = if j' = j then some (f job) else jobs.get? j' := by
  rw [Serial.get?_update, hj]
  rfl

/-- **The inversion of a step.** -/
theorem step_cases (hs : Fencing s.queue) {e : Timestamp × Event} (hf : Fenced s e)
    (h : step settings s e = some s') : Moves settings s s' := by
  obtain ⟨at_, event⟩ := e
  have h : stepAt settings s at_ event = some s' := stepAt_of_step h
  cases event with
  | requestScan i timeSensitive now =>
    obtain ⟨himage, queue, hqueue, rfl⟩ := stepAt_requestScan h
    obtain rfl := Option.some.inj hqueue
    exact .requestScan i timeSensitive now himage rfl rfl rfl
  | claim w j locked now =>
    obtain ⟨queue, hqueue, rfl⟩ := Option.map_eq_some_iff.mp h
    obtain ⟨-, job, hjob, hpending, -, hjobs, hheld, -, -, -, hreaped, -⟩ :=
      Workers.stepAt_claim hqueue
    have hrows := get?_update_eq (f := takeLease now settings.leaseSeconds) hjob
    rw [← hjobs] at hrows
    exact .claim w j now _ hjob hpending hrows hheld hreaped
  | load w =>
    obtain ⟨held, image, hheld, himage, rfl⟩ := stepAt_load h
    exact .load w hheld himage
  | report w report =>
    obtain ⟨held, db, hreport⟩ := report_cases hs hf h
    exact .report hf hreport
  | tick clock =>
    obtain ⟨due, hticks, -⟩ := tick_cases h
    exact .tick hticks
  | abandon w =>
    simp only [stepAt] at h
    obtain ⟨queue, hqueue, rfl⟩ := Option.map_eq_some_iff.mp h
    obtain rfl := Option.some.inj hqueue
    exact .abandon w rfl rfl rfl
  | rollback working =>
    obtain rfl := Option.some.inj h
    exact .rollback working

end Lifecycle

end ContainerScanner
