import ContainerScanner.Domain.Seed
import ContainerScanner.Registry.Outcome
import ContainerScanner.Scanner.RunOnce
import Mathlib.Data.List.MinMax

/-!
# Failed attempts

Wherever `_execute` raises, nothing it wrote is stored: until its last commit it has committed at
most a transaction that read. The handler starts over from the state right after the claim, so that
what a failed attempt leaves is what the handler wrote.

## Main definitions

* `FailedAttempt` — what a failed attempt may change

## Main results

* `ensures_execute` — an exception leaves the state right after the claim within reach of a rollback
* `failedAttempt_runOnce` — a failed attempt is atomic
-/

namespace ContainerScanner

open Foundation
open PyDatetime (Representable addSeconds)

namespace RunOnce

variable {env : Env} {settings : Settings} {candidate : Candidate} {jobId : JobId} {db : Db}
  {error : Raised} {s s' : Session Db Objects Raised} {job : ScanJob} {image : Image}

/-! ### `_execute` -/

theorem read_select {α : Type} (query : Db → α) (objects : Objects)
    (h : (recovery jobId).Fresh db objects) :
    (select query db objects).2.1 = db ∧ (recovery jobId).Fresh db (select query db objects).2.2 :=
  ⟨rfl, h⟩

/-- The image object is the row, loaded before or now. -/
theorem getImage_of_fresh {objects : Objects} (h : Fresh jobId db objects)
    (himage : db.image.get? objects.job.imageId = some image) :
    getImage db objects =
      (some (objects.job.imageId, image), db, { objects with image := some image }) := by
  have hobject : objects.image.or (db.image.get? objects.job.imageId) = some image := by
    cases hloaded : objects.image with
    | none => exact himage
    | some loaded =>
      rw [h.image loaded hloaded] at himage
      exact himage
  rw [getImage]
  simp only [hobject, Option.map_some]

theorem read_getImage (objects : Objects) (h : (recovery jobId).Fresh db objects) :
    (getImage db objects).2.1 = db ∧ (recovery jobId).Fresh db (getImage db objects).2.2 := by
  refine ⟨rfl, h.job, h.loadedJob, fun image himage => ?_⟩
  have himage : objects.image.or (db.image.get? objects.job.imageId) = some image := himage
  obtain hloaded | ⟨-, hrow⟩ := Option.or_eq_some_iff.mp himage
  · exact h.image image hloaded
  · exact hrow

theorem ensures_recordSkip (imageId : ImageId) (metadata : Persist.RunMetadata) :
    Ensures (Undoable (recovery jobId) db) (recordSkip jobId imageId metadata)
      (fun _ => Undoable (recovery jobId) db) (Undoable (recovery jobId) db) := by
  rw [recordSkip]
  exact (ensures_write _).bind fun _ => ensures_write _

theorem ensures_recordSuccess (imageId : ImageId) (image : Image) (report : ParsedReport)
    (metadata : Persist.RunMetadata) :
    Ensures (Undoable (recovery jobId) db) (recordSuccess jobId imageId image report metadata)
      (fun _ => Undoable (recovery jobId) db) (Undoable (recovery jobId) db) := by
  rw [recordSuccess]
  refine (ensures_write _).bind fun affected => ?_
  refine (ensures_write _).bind fun runId => ?_
  refine (ensures_write _).bind fun _ => ?_
  refine (ensures_write _).bind fun ids => ?_
  refine (ensures_write _).bind fun _ => ?_
  refine (ensures_write _).bind fun _ => ?_
  refine (ensures_write _).bind fun _ => ?_
  exact (ensures_write _).bind fun _ => ensures_write _

theorem ensures_complete :
    Ensures (Undoable (recovery jobId) db)
      (do statement (setJob Queue.complete); commitJob jobId : Program Unit)
      (fun _ _ => True) (Undoable (recovery jobId) db) := by
  refine (ensures_write _).bind fun _ => ?_
  exact (ensures_write _).bind fun _ => ensures_commit

/-- Wherever `_execute` raises, a rollback gets back to where it started. -/
theorem ensures_execute (env : Env) (jobId : JobId) (db : Db) :
    Ensures (Clean (recovery jobId) db) (execute env jobId) (fun _ _ => True)
      (Undoable (recovery jobId) db) := by
  rw [execute]
  refine (ensures_read read_getImage).bind fun loaded => ?_
  cases loaded with
  | none => exact ensures_complete.mono fun _ => Or.inl
  | some entry =>
    obtain ⟨imageId, image⟩ := entry
    refine (ensures_consult fun _ => Or.inl).bind fun versions => ?_
    refine (ensures_read (read_select _)).bind fun previous => ?_
    -- the transaction that ends here has only read
    refine ensures_commit_clean.bind fun _ => ?_
    refine (ensures_consult fun _ => Or.inl).bind fun digest => ?_
    split
    · refine ((ensures_recordSkip _ _).mono fun _ => Or.inl).bind fun _ => ?_
      exact ensures_complete
    · refine (ensures_consult fun _ => Or.inl).bind fun raw => ?_
      refine (ensures_consult fun _ => Or.inl).bind fun report => ?_
      refine ((ensures_recordSuccess _ _ _ _).mono fun _ => Or.inl).bind fun _ => ?_
      exact ensures_complete

/-! ### The handler -/

theorem later_of_representable {now : Timestamp} {n : ℤ} (h : Representable now n) :
    later now n = .ok (now + Queue.seconds n) := by
  rw [later, addSeconds, if_pos h]
  rfl

theorem later_of_not_representable {now : Timestamp} {n : ℤ} (h : ¬ Representable now n) :
    later now n = .error (.other "OverflowError" "date value out of range") := by
  rw [later, addSeconds, if_neg h]

/-- Does `queue.fail` get to a date for the next attempt, if it needs one? -/
def Schedulable (env : Env) (settings : Settings) (error : Raised) (job : ScanJob) : Prop :=
  (failed env settings error job).status = .failed ∨
    Representable env.now (retryDelay settings job.attempts)

instance : Decidable (Schedulable env settings error job) :=
  inferInstanceAs (Decidable (_ ∨ _))

theorem failJob_eq (h : Schedulable env settings error s.objects.job) :
    failJob env settings error s =
      .ok (decide ((failed env settings error s.objects.job).status = .failed))
        { s with
          inTransaction := true
          objects := { s.objects with job := failed env settings error s.objects.job } } := by
  rw [failJob, perform_bind]
  by_cases hexhausted : (failed env settings error s.objects.job).status = .failed
  · simp only [hexhausted, decide_true]
    rfl
  · have hlater := later_of_representable (h.resolve_left hexhausted)
    simp only [hexhausted, decide_false, hlater]
    rfl

/-- The run of a failed attempt. -/
def failedRun (env : Env) (jobId : JobId) (imageId : ImageId) (error : Raised) : ScanRun :=
  Persist.newRun imageId (some jobId) .failed (Worker.failedMetadata env.now env.now)
    (some (PyStr.truncate 4000 error.describe))

/-- The image row after a failed attempt. -/
def failedImage (env : Env) (settings : Settings) (error : Raised) (job : ScanJob)
    (image : Image) : Image :=
  Persist.failImage (Worker.failedMetadata env.now env.now)
    (decide ((failed env settings error job).status = .failed)) image

theorem failJob_eq_error (h : ¬ Schedulable env settings error s.objects.job) :
    ∃ e s', failJob env settings error s = .error e s' ∧ s'.stored = s.stored := by
  rw [Schedulable, not_or] at h
  have hlater := later_of_not_representable h.2
  rw [failJob, perform_bind]
  simp only [h.1, hlater]
  exact ⟨_, _, rfl, rfl⟩

/-- The handler has rolled back and holds the job and its image as they are stored. -/
theorem recordFailure_of_undoable (h : Undoable (recovery jobId) db s)
    (hjob : db.scanJob.get? jobId = some job) (himage : db.image.get? job.imageId = some image) :
    ∃ w s₀, s₀.stored = restore db w ∧ s₀.working = restore db w ∧
      s₀.objects = ⟨job, job, some image⟩ ∧
      recordFailure env settings jobId error s =
        (do
          let exhausted ← failJob env settings error
          perform (flushJob jobId)
          persistFailure env jobId error exhausted (some (job.imageId, image))
          commitNow : Program Unit) s₀ := by
  have hfresh : (recovery jobId).Fresh db ⟨job, job, none⟩ := ⟨hjob, rfl, fun _ h => by cases h⟩
  obtain ⟨w, ⟨stored, working, inTransaction, ⟨object, loaded, loadedImage⟩, faults⟩, hrollback,
    hclean⟩ := h.rollback hfresh
  have hworking : working = restore db w := hclean.working
  have hobjects : Fresh jobId (restore db w) ⟨object, loaded, loadedImage⟩ := hclean.fresh
  have hobject : some object = some job := hobjects.job.symm.trans hjob
  have hloaded : loaded = object := hobjects.loadedJob
  rw [Option.some.injEq] at hobject
  subst hworking hloaded hobject
  refine ⟨w, ⟨stored, restore db w, true, ⟨loaded, loaded, some image⟩, faults⟩, hclean.stored, rfl,
    rfl, ?_⟩
  rw [recordFailure, bind_of_ok hrollback, perform_bind]
  simp only [getImage_of_fresh hobjects himage]

/-- What the handler writes, over what a rollback has restored. -/
theorem recordFailure_eq (h : Undoable (recovery jobId) db s)
    (hjob : db.scanJob.get? jobId = some job) (himage : db.image.get? job.imageId = some image)
    (hdate : Schedulable env settings error job) :
    ∃ w s', recordFailure env settings jobId error s = .ok () s' ∧
      s'.stored =
        { restore db w with
          scanJob := (restore db w).scanJob.update jobId
            (Queue.flush job (failed env settings error job))
          scanRun := (restore db w).scanRun.insert (failedRun env jobId job.imageId error)
          image := db.image.update job.imageId
            (flushImage image (failedImage env settings error job image)) } := by
  obtain ⟨w, ⟨stored, working, inTransaction, objects, faults⟩, -, hworking, hobjects, heq⟩ :=
    recordFailure_of_undoable h hjob himage
  dsimp only at hworking hobjects
  subst hworking hobjects
  refine ⟨w, ?_⟩
  rw [heq, bind_of_ok (failJob_eq hdate)]
  exact ⟨_, rfl, rfl⟩

theorem recordFailure_eq_error (h : Undoable (recovery jobId) db s)
    (hjob : db.scanJob.get? jobId = some job) (himage : db.image.get? job.imageId = some image)
    (hdate : ¬ Schedulable env settings error job) :
    ∃ w e s', recordFailure env settings jobId error s = .error e s' ∧
      s'.stored = restore db w := by
  obtain ⟨w, s₀, hstored, -, hobjects, heq⟩ := recordFailure_of_undoable h hjob himage
  have hobject : s₀.objects.job = job := by rw [hobjects]
  obtain ⟨e, s', hs', hsame⟩ := failJob_eq_error (hobject ▸ hdate)
  exact ⟨w, e, s', by rw [heq, bind_of_error hs'], hsame.trans hstored⟩

/-! ### `run_once` -/

/-- A session between two jobs. -/
def idle (db : Db) (objects : Objects) (faults : List (Option (Fault Db Objects Raised))) :
    Session Db Objects Raised :=
  ⟨db, db, false, objects, faults⟩

theorem clean_idle {faults : List (Option (Fault Db Objects Raised))}
    (hjob : db.scanJob.get? jobId = some job) :
    Clean (recovery jobId) db (idle db ⟨job, job, none⟩ faults) :=
  ⟨rfl, rfl, hjob, rfl, fun _ hnone => by cases hnone⟩

/-- A claim that finds a job, as `run_once` makes it. -/
def Claims (settings : Settings) (candidate : Candidate) (db : Db) (job : ScanJob) (db' : Db) :
    Prop :=
  ∃ jobs, Queue.claimJob db.scanJob candidate.locked candidate.dbNow candidate.now
    settings.leaseSeconds candidate.jobId = some (jobs, job) ∧ db' = { db with scanJob := jobs }

theorem Claims.get? {db' : Db} (h : Claims settings candidate db job db') :
    db'.scanJob.get? candidate.jobId = some job := by
  obtain ⟨jobs, hclaim, rfl⟩ := h
  obtain ⟨row, hrow, -, -, rfl, rfl⟩ := Queue.claimJob_eq_some hclaim
  show (db.scanJob.update candidate.jobId _).get? candidate.jobId = _
  rw [Serial.get?_update_self, hrow]
  rfl

theorem Claims.status {db' : Db} (h : Claims settings candidate db job db') :
    job.status = .running := by
  obtain ⟨jobs, hclaim, -⟩ := h
  obtain ⟨row, -, -, -, -, rfl⟩ := Queue.claimJob_eq_some hclaim
  rfl

/-- `run_once`, once a job is claimed. -/
theorem runOnce_claimed {db' : Db} {objects : Objects}
    {faults : List (Option (Fault Db Objects Raised))}
    (hclaim : Claims settings candidate db job db') :
    runOnce env settings candidate (idle db objects faults) =
      (do tryCatch (execute env candidate.jobId) (handle env settings candidate.jobId)
          return true : Program Bool) (idle db' ⟨job, job, none⟩ faults) := by
  obtain ⟨jobs, hclaim, rfl⟩ := hclaim
  rw [runOnce, perform_bind]
  simp only [idle, claim, hclaim]
  rw [commitNow_bind]
  rfl

/-- When `_execute` raises, `run_once` is the handler. -/
theorem runOnce_of_error {db' : Db} {objects : Objects}
    {faults : List (Option (Fault Db Objects Raised))}
    (hclaim : Claims settings candidate db job db')
    (hraises : execute env candidate.jobId (idle db' ⟨job, job, none⟩ faults) = .error error s) :
    runOnce env settings candidate (idle db objects faults) =
      (do handle env settings candidate.jobId error; return true : Program Bool) s := by
  rw [runOnce_claimed hclaim, tryCatch_bind_of_error hraises]

/-- What a failed attempt may change: five columns of its job, which was `job` and is `job'`; one
run more; three columns of its image. -/
structure FailedAttempt (jobId : JobId) (job job' : ScanJob) (db db' : Db) : Prop where
  /-- The job before. -/
  before : db.scanJob.get? jobId = some job
  /-- The job after. -/
  after : db'.scanJob.get? jobId = some job'
  /-- The columns that may differ. -/
  columns : job' = { job with
    status := job'.status
    attempts := job'.attempts
    lastError := job'.lastError
    leaseUntil := job'.leaseUntil
    scheduledFor := job'.scheduledFor }
  /-- Other jobs are as they were. -/
  otherJob : ∀ j ≠ jobId, db'.scanJob.get? j = db.scanJob.get? j
  /-- One failed run was added, and the other runs are as they were. -/
  run : ∃ r run, db.scanRun.get? r = none ∧ run.status = .failed ∧ run.imageId = job.imageId ∧
    run.scanJobId = some jobId ∧
    ∀ r', db'.scanRun.get? r' = if r' = r then some run else db.scanRun.get? r'
  /-- The image has failed, and its streak advances when the job gave up. -/
  image : ∃ image lastScanAt, db.image.get? job.imageId = some image ∧
    db'.image.get? job.imageId = some { image with
      lastScanAt := lastScanAt
      lastScanStatus := some .failed
      consecutiveFailures :=
        if job'.status = .failed then image.consecutiveFailures + 1
        else image.consecutiveFailures }
  /-- Other images are as they were. -/
  otherImage : ∀ i ≠ job.imageId, db'.image.get? i = db.image.get? i
  package : ∀ k, db'.package.get? k = db.package.get? k
  cve : db'.cve = db.cve
  finding : db'.finding = db.finding

theorem columns_failed (env : Env) (settings : Settings) (error : Raised) (job : ScanJob) :
    failed env settings error job = { job with
      status := (failed env settings error job).status
      attempts := (failed env settings error job).attempts
      lastError := (failed env settings error job).lastError
      leaseUntil := (failed env settings error job).leaseUntil
      scheduledFor := (failed env settings error job).scheduledFor } := by
  rw [failed, Queue.fail]
  split <;> rfl

theorem failedAttempt_recordFailure (h : Undoable (recovery jobId) db s)
    (hjob : db.scanJob.get? jobId = some job) (himage : db.image.get? job.imageId = some image)
    (hdate : Schedulable env settings error job) :
    ∃ s', recordFailure env settings jobId error s = .ok () s' ∧
      FailedAttempt jobId job (failed env settings error job) db s'.stored := by
  obtain ⟨w, s', hs', hstored⟩ := recordFailure_eq h hjob himage hdate
  refine ⟨s', hs', ?_⟩
  rw [hstored]
  refine ⟨hjob, ?_, columns_failed env settings error job, ?_, ?_, ?_, ?_, fun k => rfl, rfl, rfl⟩
  · rw [Serial.get?_update_self]
    show (db.scanJob.get? jobId).map _ = _
    rw [hjob, Option.map_some, Queue.flush_self]
  · intro j hj
    rw [Serial.get?_update_of_ne _ hj]
    rfl
  · refine ⟨(restore db w).scanRun.next, failedRun env jobId job.imageId error, ?_, rfl, rfl, rfl,
      fun r' => Serial.get?_insert _ r' _⟩
    exact Serial.get?_of_next_le (Serial.next_le_advance db.scanRun w.scanRun.next)
  · refine ⟨image, some env.now, himage, ?_⟩
    rw [Dict.get?_update, if_pos rfl, himage, Option.map_some, flushImage_self]
    simp [failedImage, Persist.failImage, Worker.failedMetadata]
  · intro i hi
    rw [Dict.get?_update, if_neg hi]

/-- **Failed attempts are atomic.** Wherever `_execute` raises, and whatever it raises except for
throttling, a `run_once` that finishes leaves the state right after the claim, but for what a failed
attempt may change. It finishes unless the next attempt has no date. The image of a job exists by
the foreign key. -/
theorem failedAttempt_runOnce {db' : Db} {objects : Objects}
    {faults : List (Option (Fault Db Objects Raised))}
    (hclaim : Claims settings candidate db job db')
    (himage : db.image.get? job.imageId = some image)
    (hraises : execute env candidate.jobId (idle db' ⟨job, job, none⟩ faults) = .error error s)
    (hthrottled : error.throttled = none) :
    ((∃ s', runOnce env settings candidate (idle db objects faults) = .ok true s') ↔
        Schedulable env settings error job) ∧
      ∀ finished s', runOnce env settings candidate (idle db objects faults) = .ok finished s' →
        FailedAttempt candidate.jobId job (failed env settings error job) db' s'.stored := by
  have hundoable : Undoable (recovery candidate.jobId) db' s :=
    (ensures_execute env candidate.jobId db').of_error (clean_idle hclaim.get?) hraises
  have himage' : db'.image.get? job.imageId = some image := by
    obtain ⟨jobs, -, rfl⟩ := hclaim
    exact himage
  have hhandle : handle env settings candidate.jobId error =
      recordFailure env settings candidate.jobId error := by
    rw [handle, hthrottled]
  rw [runOnce_of_error hclaim hraises, hhandle]
  by_cases hdate : Schedulable env settings error job
  · obtain ⟨s', hs', hfailed⟩ :=
      failedAttempt_recordFailure hundoable hclaim.get? himage' hdate
    rw [bind_of_ok hs']
    refine ⟨iff_of_true ⟨s', rfl⟩ hdate, fun finished s'' heq => ?_⟩
    cases heq
    exact hfailed
  · obtain ⟨w, e, s', hs', -⟩ := recordFailure_eq_error hundoable hclaim.get? himage' hdate
    rw [bind_of_error hs']
    refine ⟨iff_of_false ?_ hdate, fun _ _ heq => by cases heq⟩
    rintro ⟨s'', heq⟩
    cases heq

/-- The first of the runs stamped last. -/
def firstLatest (db : Db) (i : ImageId) : Option ScanRun :=
  (Worker.successes db i).find? fun run =>
    decide (∀ other ∈ Worker.successes db i, Worker.completedKey other ≤ Worker.completedKey run)

theorem isLastSuccessfulRun_firstLatest (db : Db) (i : ImageId) :
    Worker.IsLastSuccessfulRun db i (firstLatest db i) := by
  cases h : firstLatest db i with
  | some run =>
    refine ⟨List.mem_of_find?_eq_some h, ?_⟩
    simpa using List.find?_some h
  | none =>
    cases hlatest : (Worker.successes db i).argmax Worker.completedKey with
    | none => exact List.argmax_eq_none.mp hlatest
    | some run =>
      have hnot := List.find?_eq_none.mp h run (List.argmax_mem hlatest)
      exact absurd (decide_eq_true fun other hother => List.le_of_mem_argmax hother hlatest) hnot

/-- A worker between a registry and a Trivy that finds one vulnerability in every image. -/
def scanning (peer : Registry.Peer) : Env where
  probeVersions := .ok ("0.69.3", "2026-07-01")
  flagsHash := "flags"
  library := Registry.asciiLibrary
  peer := peer
  runScan := fun _ => .ok "document"
  loads := fun _ => .ok (debianDocument [("CVE-2026-1", "openssl", "HIGH")])
  lastSuccessfulRun := firstLatest
  isLastSuccessfulRun := isLastSuccessfulRun_firstLatest
  startedAt := second
  completedAt := 2 * second
  resolvedAt := second
  now := 3 * second

/-- A registry that knows every tag. -/
def knownTags : Registry.Peer := fun _ _ =>
  .response ⟨200, none, none, some "sha256:a", .error "JSONDecodeError"⟩

def queuedJob : ScanJob := Queue.newJob 1 Queue.priorityScheduled 0

/-- A seeded database with one job. -/
def queued : Db := { Db.seeded 0 briefImages with scanJob := Serial.empty.insert queuedJob }

def firstJob : Candidate := ⟨1, [], second, second⟩

/-- The job as it is claimed. -/
def claimedJob : ScanJob := Queue.takeLease second ({} : Settings).leaseSeconds queuedJob

def claimed : Db :=
  { queued with
    scanJob := queued.scanJob.update 1 (Queue.takeLease second ({} : Settings).leaseSeconds) }

theorem claims_firstJob : Claims {} firstJob queued claimedJob claimed := ⟨_, rfl, rfl⟩

/-- The connection is lost while the findings are written. -/
def lostConnection : List (Option (Fault Db Objects Raised)) :=
  List.replicate 8 none ++
    [some ⟨.other "OperationalError" "connection lost", queued, ⟨queuedJob, queuedJob, none⟩⟩]

theorem failedAttempt_runOnce_lostConnection :
    ∃ error s', runOnce (scanning knownTags) {} firstJob
        (idle queued ⟨queuedJob, queuedJob, none⟩ lostConnection) = .ok true s' ∧
      FailedAttempt 1 claimedJob (failed (scanning knownTags) {} error claimedJob) claimed
        s'.stored := by
  have hraised : raised? (execute (scanning knownTags) 1
      (idle claimed ⟨claimedJob, claimedJob, none⟩ lostConnection)) =
      some (.other "OperationalError" "connection lost") := by decide +kernel
  obtain ⟨s, hraises⟩ := of_raised?_eq_some hraised
  have himage : queued.image.get? 1 = some (Image.registered 0 ("nginx", "1.19")) := rfl
  obtain ⟨hfinishes, hfailed⟩ := failedAttempt_runOnce claims_firstJob himage hraises rfl
  obtain ⟨s', hs'⟩ := hfinishes.mpr (by decide)
  exact ⟨_, s', hs', hfailed true s' hs'⟩

end RunOnce

end ContainerScanner
