import ContainerScanner.Foundation.PyDatetime
import ContainerScanner.Foundation.Session
import ContainerScanner.Jobs.Queue
import ContainerScanner.Registry.Digest
import ContainerScanner.Scanner.Worker

/-!
# One job, from claim to commit

`run_once` of `app/scanner/worker.py`, with `_execute` and its two handlers, as programs on a
database session. Every statement of `_execute` may raise anything, and so may Trivy, the registry
and the parser. The handlers' own statements do not raise: where one does, `run_once` does not
finish.

The session holds two objects, the job and its image. An object that a rollback expired is read
again, and a flush writes the columns in which an object differs from what was loaded.

## Main definitions

* `Raised`, `Env` — what may be raised, and what `_execute` finds outside the database
* `execute` — load, probe, resolve, skip or scan and record, complete
* `deferForBackpressure`, `recordFailure` — the handlers
* `runOnce`
-/

namespace ContainerScanner

open Foundation
open PyDatetime (addSeconds)

namespace RunOnce

/-! ### Exceptions -/

/-- What may be raised from `_execute`. -/
inductive Raised where
  | registry (error : Registry.Raised)
  | trivyError (message : String)
  | trivyTimeout (message : String)
  | trivyRateLimited (message : String)
  | report (error : PyError)
  /-- Anything else, by its class and text. -/
  | other (name message : String)
  deriving DecidableEq

namespace Raised

/-- `f"{type(error).__name__}: {error}"`. Of the registry's other exceptions only the class is
kept. -/
def describe : Raised → String
  | registry (.registryError message) => "RegistryError: " ++ message
  | registry (.imageNotFound message) => "ImageNotFound: " ++ message
  | registry (.rateLimited message _) => "RateLimited: " ++ message
  | registry (.httpError message) => "HTTPError: " ++ message
  | registry (.other error) => error
  | trivyError message => "TrivyError: " ++ message
  | trivyTimeout message => "TrivyTimeout: " ++ message
  | trivyRateLimited message => "TrivyRateLimited: " ++ message
  | report (.trivyReportError message) => "TrivyReportError: " ++ message
  | report (.attributeError message) => "AttributeError: " ++ message
  | other name message => name ++ ": " ++ message

/-- `getattr(error, "retry_after", None)`, of the exceptions that mean throttling. -/
def throttled : Raised → Option (Option ℕ)
  | registry (.rateLimited _ retryAfter) => some retryAfter
  | trivyRateLimited _ => some none
  | _ => none

/-- Will the reference not start existing on retry? -/
def permanent : Raised → Bool
  | registry (.imageNotFound _) => true
  | _ => false

end Raised

/-- `now + timedelta(seconds=n)`. -/
def later (now : Timestamp) (n : ℤ) : Except Raised Timestamp :=
  match addSeconds now n with
  | some t => .ok t
  | none => .error (.other "OverflowError" "date value out of range")

/-! ### The session -/

/-- The objects of a session that works on a job. -/
@[ext] structure Objects where
  job : ScanJob
  /-- The job as it was loaded or flushed last. -/
  loadedJob : ScanJob
  /-- The image, once it is loaded. -/
  image : Option Image

/-- Sequences are not rolled back. -/
def restore (stored working : Db) : Db :=
  { stored with
    scanJob := stored.scanJob.advance working.scanJob.next
    scanRun := stored.scanRun.advance working.scanRun.next
    package := stored.package.advance working.package.next }

/-- Read the job again; the image is read when it is next asked for. -/
def refresh (jobId : JobId) (db : Db) (objects : Objects) : Objects :=
  match db.scanJob.get? jobId with
  | none => objects
  | some job => ⟨job, job, none⟩

structure Fresh (jobId : JobId) (db : Db) (objects : Objects) : Prop where
  job : db.scanJob.get? jobId = some objects.job
  loadedJob : objects.loadedJob = objects.job
  image : ∀ image ∈ objects.image, db.image.get? objects.job.imageId = some image

def recovery (jobId : JobId) : Recovery Db Objects where
  restore := restore
  refresh := refresh jobId
  Fresh := Fresh jobId
  restore_self := fun db => by simp [restore]
  fresh_restore := fun w h => ⟨h.job, h.loadedJob, h.image⟩
  fresh_refresh := fun {db o} o' h => by
    have hrow : refresh jobId db o' = ⟨o.job, o.job, none⟩ := by rw [refresh, h.job]
    rw [hrow]
    exact ⟨h.job, rfl, fun _ hnone => by cases hnone⟩

/-- A program on the worker's session. -/
abbrev Program (α : Type) : Type := Work Db Objects Raised α

/-- What a statement returns and does. -/
abbrev Statement (α : Type) : Type := Db → Objects → α × Db × Objects

def select {α : Type} (query : Db → α) : Statement α := fun db objects => (query db, db, objects)

def write (f : Db → Db) : Statement Unit := fun db objects => ((), f db, objects)

/-- `session.get(Image, job.image_id)`, with the id. -/
def getImage : Statement (Option (ImageId × Image)) := fun db objects =>
  let imageId := objects.job.imageId
  let image := objects.image.or (db.image.get? imageId)
  (image.map fun image => (imageId, image), db, { objects with image := image })

/-- Change the job object. -/
def setJob (f : ScanJob → ScanJob) : Statement Unit := fun db objects =>
  ((), db, { objects with job := f objects.job })

def flushJob (jobId : JobId) : Statement Unit := fun db objects =>
  ((), { db with scanJob := db.scanJob.update jobId (Queue.flush objects.loadedJob objects.job) },
    { objects with loadedJob := objects.job })

/-- `UPDATE image SET <changed columns> WHERE id = …`. -/
def flushImage (loaded new row : Image) : Image where
  name := Queue.flushColumn loaded.name new.name row.name
  tag := Queue.flushColumn loaded.tag new.tag row.tag
  scanIntervalSeconds :=
    Queue.flushColumn loaded.scanIntervalSeconds new.scanIntervalSeconds row.scanIntervalSeconds
  enabled := Queue.flushColumn loaded.enabled new.enabled row.enabled
  currentScanRunId :=
    Queue.flushColumn loaded.currentScanRunId new.currentScanRunId row.currentScanRunId
  consecutiveFailures :=
    Queue.flushColumn loaded.consecutiveFailures new.consecutiveFailures row.consecutiveFailures
  lastScanAt := Queue.flushColumn loaded.lastScanAt new.lastScanAt row.lastScanAt
  lastScanStatus := Queue.flushColumn loaded.lastScanStatus new.lastScanStatus row.lastScanStatus
  createdAt := Queue.flushColumn loaded.createdAt new.createdAt row.createdAt

@[simp] theorem flushImage_self (loaded new : Image) : flushImage loaded new loaded = new := by
  simp [flushImage]

/-- Change the image object, and flush it. -/
def writeImage (imageId : ImageId) (f : Image → Image) : Statement Unit := fun db objects =>
  match objects.image with
  | none => ((), db, objects)
  | some image =>
    ((), { db with image := db.image.update imageId (flushImage image (f image)) },
      { objects with image := some (f image) })

/-- `session.add(run); session.flush()`, and the id of the run. -/
def insertRun (run : ScanRun) : Statement RunId := fun db objects =>
  (db.scanRun.next, Persist.insertRun db run, objects)

/-! ### `_execute` -/

/-- What `_execute` and its handlers find outside the database. -/
structure Env where
  /-- `trivy.probe_versions`. -/
  probeVersions : Except Raised (String × String)
  /-- `trivy.scan_flags_hash`. -/
  flagsHash : String
  library : Registry.Library
  peer : Registry.Peer
  /-- `trivy.run_scan`, of a reference. -/
  runScan : String → Except Raised String
  /-- `json.loads`. -/
  loads : String → Except String Json
  /-- The run `_last_successful_run` returns, of those tied. -/
  lastSuccessfulRun : Db → ImageId → Option ScanRun
  isLastSuccessfulRun : ∀ db i, Worker.IsLastSuccessfulRun db i (lastSuccessfulRun db i)
  startedAt : Timestamp
  completedAt : Timestamp
  /-- The clock while the digest is resolved. -/
  resolvedAt : Timestamp
  /-- The clock of the handlers. -/
  now : Timestamp

/-- `resolve_digest`. -/
def Env.resolveDigest (env : Env) (reference : Registry.ImageReference) : Except Raised String :=
  (converse (Registry.resolveDigest env.library env.peer env.resolvedAt reference)).1.mapError
    Raised.registry

/-- `parse_report`. -/
def Env.parseReport (env : Env) (raw : String) : Except Raised ParsedReport :=
  (ContainerScanner.parseReport env.loads raw).mapError Raised.report

/-- `session.commit()`, with a changed job to flush. -/
def commitJob (jobId : JobId) : Program Unit := do
  statement (flushJob jobId)
  commit

def recordSkip (jobId : JobId) (imageId : ImageId) (metadata : Persist.RunMetadata) :
    Program Unit := do
  let _ ← statement (insertRun (Persist.newRun imageId (some jobId) .skipped metadata none))
  statement (writeImage imageId (Persist.skipImage metadata))

def recordSuccess (jobId : JobId) (imageId : ImageId) (image : Image) (report : ParsedReport)
    (metadata : Persist.RunMetadata) : Program Unit := do
  let affected ← statement (select fun db => Persist.affectedCves db imageId image report)
  let runId ← statement
    (insertRun (Persist.newRun imageId (some jobId) .success metadata none))
  statement (write fun db => Persist.insertPackages db report)
  let ids ← statement (select fun db => Persist.packageIds db report)
  statement (write fun db => Persist.upsertCves db report)
  let rows := Persist.findingRows imageId ids runId report.findings
  statement (write fun db => Persist.upsertFindings db rows)
  statement (write fun db => Persist.setCounts db runId (Persist.countBySeverity rows))
  statement (writeImage imageId (Persist.pointTo runId metadata))
  statement (write fun db => Persist.recomputeCveRollup db affected)

def execute (env : Env) (jobId : JobId) : Program Unit := do
  match ← statement getImage with
  | none =>
    statement (setJob Queue.complete)
    commitJob jobId
  | some (imageId, image) =>
    let (trivyVersion, dbVersion) ← consult env.probeVersions
    let probe : Worker.Probe := ⟨trivyVersion, dbVersion, env.flagsHash, env.startedAt⟩
    let previous ← statement (select fun db => env.lastSuccessfulRun db imageId)
    -- no transaction is open while the image is scanned
    commit
    let digest ← consult (env.resolveDigest (Registry.parseReference image.name image.tag))
    if Worker.isUnchanged previous digest trivyVersion dbVersion env.flagsHash then
      recordSkip jobId imageId (probe.metadata digest env.completedAt)
      statement (setJob Queue.complete)
      commitJob jobId
    else
      let raw ← consult (env.runScan (image.name ++ ":" ++ image.tag))
      let report ← consult (env.parseReport raw)
      recordSuccess jobId imageId image report
        (probe.metadata (Worker.scannedDigest report digest) env.completedAt)
      statement (setJob Queue.complete)
      commitJob jobId

/-! ### The handlers -/

/-- Fallback wait when a registry throttles us without saying for how long. -/
def defaultDeferSeconds : ℕ := 300

/-- `getattr(error, "retry_after", None) or DEFAULT_DEFER_SECONDS`. -/
def delayOf : Option ℕ → ℕ
  | none => defaultDeferSeconds
  | some retryAfter => if retryAfter = 0 then defaultDeferSeconds else retryAfter

def deferForBackpressure (env : Env) (jobId : JobId) (error : Raised) (retryAfter : Option ℕ) :
    Program Unit := do
  rollback (recovery jobId)
  -- what `defer` has set by the time this raises is never flushed
  let _ ← consult (later env.now (delayOf retryAfter))
  perform (setJob (Queue.defer (delayOf retryAfter) error.describe env.now))
  perform (flushJob jobId)
  commitNow

/-- The attempts a failure is allowed. -/
def allowance (settings : Settings) (error : Raised) : ℤ :=
  if error.permanent then 1 else settings.maxAttempts

/-- What `queue.fail` waits before the next attempt, after this many earlier ones. -/
def retryDelay (settings : Settings) (attempts : ℕ) : ℤ :=
  min (settings.backoffBaseSeconds * 2 ^ attempts) settings.backoffMaxSeconds

/-- What `queue.fail` makes of a job. -/
def failed (env : Env) (settings : Settings) (error : Raised) : ScanJob → ScanJob :=
  Queue.fail error.describe (allowance settings error) settings.backoffBaseSeconds
    settings.backoffMaxSeconds env.now

/-- `queue.fail` on the job object, and whether the job gave up. A job that is tried again is
scheduled, and the date may not exist. -/
def failJob (env : Env) (settings : Settings) (error : Raised) : Program Bool := do
  let job ← perform fun db objects => (objects.job, db, objects)
  if (failed env settings error job).status = .failed then
    perform (setJob (failed env settings error))
    return true
  else
    let _ ← consult (later env.now (retryDelay settings job.attempts))
    perform (setJob (failed env settings error))
    return false

/-- `persist.record_failure`, when there is an image. -/
def persistFailure (env : Env) (jobId : JobId) (error : Raised) (exhausted : Bool) :
    Option (ImageId × Image) → Program Unit
  | none => pure ()
  | some (imageId, _) => do
    let metadata := Worker.failedMetadata env.now env.now
    let _ ← perform (insertRun (Persist.newRun imageId (some jobId) .failed metadata
      (some (PyStr.truncate 4000 error.describe))))
    perform (writeImage imageId (Persist.failImage metadata exhausted))

def recordFailure (env : Env) (settings : Settings) (jobId : JobId) (error : Raised) :
    Program Unit := do
  rollback (recovery jobId)
  let image ← perform getImage
  let exhausted ← failJob env settings error
  perform (flushJob jobId)
  persistFailure env jobId error exhausted image
  commitNow

/-! ### `run_once` -/

/-- Which handler. -/
def handle (env : Env) (settings : Settings) (jobId : JobId) (error : Raised) : Program Unit :=
  match error.throttled with
  | some retryAfter => deferForBackpressure env jobId error retryAfter
  | none => recordFailure env settings jobId error

/-- What the claim finds: a job, the rows others have locked, and the clocks. -/
structure Candidate where
  jobId : JobId
  locked : List JobId
  dbNow : Timestamp
  now : Timestamp

/-- `queue.claim`, when there is a job to claim. No object of an earlier job is left in the
session. -/
def claim (settings : Settings) (candidate : Candidate) : Statement Bool := fun db objects =>
  match Queue.claimJob db.scanJob candidate.locked candidate.dbNow candidate.now
      settings.leaseSeconds candidate.jobId with
  | none => (false, db, objects)
  | some (jobs, job) => (true, { db with scanJob := jobs }, ⟨job, job, none⟩)

def runOnce (env : Env) (settings : Settings) (candidate : Candidate) : Program Bool := do
  let claimed ← perform (claim settings candidate)
  commitNow
  if claimed then
    tryCatch (execute env candidate.jobId) (handle env settings candidate.jobId)
  return claimed

end RunOnce

end ContainerScanner
