import ContainerScanner.Foundation.PyDatetime
import ContainerScanner.Jobs.Queue
import ContainerScanner.Scanner.Worker

/-!
# A scheduling pass

`tick` of `app/scheduler/scheduler.py`: reap the jobs whose lease has expired, record a failed run
for each of them, and put in a job for every image that is due. It is one transaction, and its
images are loaded in it.

## Main definitions

* `nextDueAt`, `dueImages` — when an image is due, and which are; a date that overflows raises
* `recordReaped` — the failure of a worker that cannot report it
* `tick`

## Main results

* `scanRun_recordReaped`, `get?_image_recordReaped` — one run for each reaped job, and the columns
  of its image
* `nodup_imageId_reaped` — no image is among the reaped twice
-/

namespace ContainerScanner

open Foundation Queue

namespace Tick

/-- `image.scan_interval_seconds or default_interval`. -/
def baseInterval (image : Image) (defaultInterval : ℤ) : ℤ :=
  (image.scanIntervalSeconds.filter fun n => n ≠ 0).elim defaultInterval fun n => n

/-- When this image should next be scanned, `none` standing for the `OverflowError` of a delay that
is no `timedelta` or a time that is no `datetime`. -/
def nextDueAt (image : Image) (defaultInterval maxFailureBackoff : ℤ) : Option Timestamp :=
  let interval := baseInterval image defaultInterval
  match image.lastScanAt with
  | none => some image.createdAt
  | some lastScanAt =>
    let interval :=
      if image.consecutiveFailures = 0 then interval
      else min (interval * 2 ^ image.consecutiveFailures) maxFailureBackoff
    PyDatetime.addSeconds lastScanAt interval

/-- Enabled images with no active job. -/
def candidates (db : Db) : List (ImageId × Image) :=
  db.image.entries.filter fun e => e.2.enabled && !hasActive db.scanJob e.1

/-- Those whose next due time has passed. It raises if `next_due_at` does, for whichever. -/
def dueAmong (settings : Settings) (now : Timestamp) :
    List (ImageId × Image) → Option (List ImageId)
  | [] => some []
  | e :: candidates => do
    let next ← nextDueAt e.2 settings.defaultScanIntervalSeconds settings.maxFailureBackoffSeconds
    let due ← dueAmong settings now candidates
    some (if next ≤ now then e.1 :: due else due)

/-- Enabled images with no active job whose next due time has passed. -/
def dueImages (settings : Settings) (db : Db) (now : Timestamp) : Option (List ImageId) :=
  dueAmong settings now (candidates db)

/-- The clock as `tick` reads it. -/
structure Clock where
  /-- For the run of a reaped job. -/
  recorded : JobId → Timestamp
  /-- In `due_images`. -/
  due : Timestamp
  /-- For the job of a due image. -/
  scheduled : ImageId → Timestamp

/-- The run of a reaped job. -/
def reapedRun (clock : Clock) (entry : ReapedJob) : ScanRun :=
  Persist.newRun entry.imageId (some entry.jobId) .failed
    (Worker.failedMetadata (clock.recorded entry.jobId) (clock.recorded entry.jobId))
    (some (PyStr.truncate 4000 leaseExpiredError))

/-- One round of `record_reaped`. -/
def recordReapedJob (clock : Clock) (db : Db) (entry : ReapedJob) : Db :=
  match db.image.get? entry.imageId with
  | none => db
  | some _ =>
    Persist.recordFailure db entry.imageId (some entry.jobId)
      (Worker.failedMetadata (clock.recorded entry.jobId) (clock.recorded entry.jobId))
      leaseExpiredError entry.exhausted

/-- Write a `scan_run` for every attempt whose worker died mid-scan. -/
def recordReaped (clock : Clock) (db : Db) (reaped : List ReapedJob) : Db :=
  reaped.foldl (recordReapedJob clock) db

/-- `queue.enqueue` of each due image. -/
def enqueueAll (clock : Clock) (jobs : Jobs) (imageIds : List ImageId) : Jobs :=
  imageIds.foldl (fun jobs i => (enqueue jobs i priorityScheduled (clock.scheduled i)).1) jobs

/-- What a pass has recorded when it looks for due images. -/
def afterReap (settings : Settings) (clock : Clock) (at_ : Timestamp) (db : Db) : Db :=
  let (jobs, reaped) := reapExpiredLeases db.scanJob settings.maxAttempts at_
  recordReaped clock { db with scanJob := jobs } reaped

/-- The loop of `tick`. -/
def enqueueDue (clock : Clock) (db : Db) (due : List ImageId) : Db :=
  { db with scanJob := enqueueAll clock db.scanJob due }

/-- One scheduling pass, whose first statement runs at `at_` by the database's clock. A pass that
raises is rolled back. -/
def tick (settings : Settings) (clock : Clock) (at_ : Timestamp) (db : Db) : Option Db := do
  let db := afterReap settings clock at_ db
  let due ← dueImages settings db clock.due
  some (enqueueDue clock db due)

variable {clock : Clock} {db : Db} {entry : ReapedJob} {reaped : List ReapedJob}

/-! ### What is recorded -/

theorem recordReapedJob_of_some {image : Image} (h : db.image.get? entry.imageId = some image) :
    recordReapedJob clock db entry =
      { db with
        scanRun := db.scanRun.insert (reapedRun clock entry)
        image := db.image.update entry.imageId
          (Persist.failImage (Worker.failedMetadata (clock.recorded entry.jobId)
            (clock.recorded entry.jobId)) entry.exhausted) } := by
  rw [recordReapedJob, h]
  rfl

@[simp] theorem scanJob_recordReaped (clock : Clock) (db : Db) (reaped : List ReapedJob) :
    (recordReaped clock db reaped).scanJob = db.scanJob := by
  induction reaped generalizing db with
  | nil => rfl
  | cons entry reaped ih =>
    show (recordReaped clock (recordReapedJob clock db entry) reaped).scanJob = db.scanJob
    rw [ih, recordReapedJob]
    split <;> rfl

theorem keys_image_recordReapedJob (clock : Clock) (db : Db) (entry : ReapedJob) :
    (recordReapedJob clock db entry).image.keys = db.image.keys := by
  rw [recordReapedJob]
  split
  · rfl
  · exact Dict.keys_update _ _ _

@[simp] theorem keys_image_recordReaped (clock : Clock) (db : Db) (reaped : List ReapedJob) :
    (recordReaped clock db reaped).image.keys = db.image.keys := by
  induction reaped generalizing db with
  | nil => rfl
  | cons entry reaped ih =>
    show (recordReaped clock (recordReapedJob clock db entry) reaped).image.keys = db.image.keys
    rw [ih, keys_image_recordReapedJob]

/-- One failed run for each reaped job. -/
theorem scanRun_recordReaped (h : ∀ entry ∈ reaped, entry.imageId ∈ db.image.keys) :
    (recordReaped clock db reaped).scanRun =
      db.scanRun.insertAll (reaped.map (reapedRun clock)) := by
  induction reaped generalizing db with
  | nil => rfl
  | cons entry reaped ih =>
    obtain ⟨image, himage⟩ := Dict.mem_keys_iff.mp (h entry List.mem_cons_self)
    show (recordReaped clock (recordReapedJob clock db entry) reaped).scanRun = _
    rw [ih, recordReapedJob_of_some himage]
    · rfl
    · intro entry' hentry'
      rw [keys_image_recordReapedJob]
      exact h entry' (List.mem_cons_of_mem _ hentry')

theorem get?_image_recordReapedJob_of_ne {i : ImageId} (h : entry.imageId ≠ i) :
    (recordReapedJob clock db entry).image.get? i = db.image.get? i := by
  rw [recordReapedJob]
  split
  · rfl
  · exact (Dict.get?_update _ _ _ _).trans (if_neg (Ne.symm h))

theorem get?_image_recordReaped_of_notMem {i : ImageId} (h : i ∉ reaped.map ReapedJob.imageId) :
    (recordReaped clock db reaped).image.get? i = db.image.get? i := by
  induction reaped generalizing db with
  | nil => rfl
  | cons entry reaped ih =>
    rw [List.map_cons, List.mem_cons, not_or] at h
    show (recordReaped clock (recordReapedJob clock db entry) reaped).image.get? i = _
    rw [ih h.2, get?_image_recordReapedJob_of_ne (Ne.symm h.1)]

/-- The columns of the image of a reaped job. -/
theorem get?_image_recordReaped (hnodup : (reaped.map ReapedJob.imageId).Nodup)
    (hentry : entry ∈ reaped) :
    (recordReaped clock db reaped).image.get? entry.imageId =
      (db.image.get? entry.imageId).map
        (Persist.failImage (Worker.failedMetadata (clock.recorded entry.jobId)
          (clock.recorded entry.jobId)) entry.exhausted) := by
  induction reaped generalizing db with
  | nil => cases hentry
  | cons first reaped ih =>
    rw [List.map_cons, List.nodup_cons] at hnodup
    show (recordReaped clock (recordReapedJob clock db first) reaped).image.get? _ = _
    obtain rfl | hentry := List.mem_cons.mp hentry
    · rw [get?_image_recordReaped_of_notMem hnodup.1, recordReapedJob]
      cases himage : db.image.get? entry.imageId with
      | none => exact himage
      | some image =>
        show (db.image.update entry.imageId _).get? entry.imageId = _
        rw [Dict.get?_update, if_pos rfl, himage]
    · have hne : first.imageId ≠ entry.imageId := by
        intro heq
        rw [heq] at hnodup
        exact hnodup.1 (List.mem_map_of_mem hentry)
      rw [ih hnodup.2 hentry, get?_image_recordReapedJob_of_ne hne]

/-! ### Due images -/

variable {jobs : Jobs} {maxAttempts : ℤ} {at_ : Timestamp} {settings : Settings} {now : Timestamp}
  {due : List ImageId} {i : ImageId}

/-- Has the next due time of the image passed? -/
def isDue (settings : Settings) (now : Timestamp) (image : Image) : Bool :=
  (nextDueAt image settings.defaultScanIntervalSeconds settings.maxFailureBackoffSeconds).any
    fun next => decide (next ≤ now)

theorem isDue_iff {image : Image} : isDue settings now image = true ↔
    ∃ next, nextDueAt image settings.defaultScanIntervalSeconds
      settings.maxFailureBackoffSeconds = some next ∧ next ≤ now := by
  simp only [isDue, Option.any_eq_true, decide_eq_true_eq]

/-- What `due_images` answers, if it does not raise. -/
theorem eq_of_dueAmong {candidates : List (ImageId × Image)}
    (h : dueAmong settings now candidates = some due) :
    due = (candidates.filter fun e => isDue settings now e.2).map Prod.fst := by
  induction candidates generalizing due with
  | nil => exact (Option.some.inj h).symm
  | cons e candidates ih =>
    obtain ⟨next, hnext, h⟩ := Option.bind_eq_some_iff.mp h
    obtain ⟨rest, hrest, h⟩ := Option.bind_eq_some_iff.mp h
    obtain rfl := Option.some.inj h
    have hdue : isDue settings now e.2 = decide (next ≤ now) := by
      rw [isDue, hnext, Option.any_some]
    rw [List.filter_cons, hdue, ih hrest]
    by_cases hle : next ≤ now
    · rw [if_pos hle, if_pos (decide_eq_true hle), List.map_cons]
    · rw [if_neg hle, if_neg (by simpa using hle)]

/-- An image that is due has no active job, and its time has come. -/
theorem of_mem_dueImages (h : dueImages settings db now = some due) (hi : i ∈ due) :
    ∃ image, db.image.get? i = some image ∧ image.enabled = true ∧
      hasActive db.scanJob i = false ∧ isDue settings now image = true := by
  rw [eq_of_dueAmong h] at hi
  obtain ⟨e, he, rfl⟩ := List.mem_map.mp hi
  obtain ⟨hmem, hdue⟩ := List.mem_filter.mp he
  obtain ⟨hmem, hcandidate⟩ := List.mem_filter.mp hmem
  rw [Bool.and_eq_true, Bool.not_eq_true'] at hcandidate
  exact ⟨e.2, Dict.get?_eq_some_iff.mpr hmem, hcandidate.1, hcandidate.2, hdue⟩

/-- What a pass does that does not raise. -/
theorem tick_eq_some {clock : Clock} {db db' : Db} : tick settings clock at_ db = some db' ↔
    ∃ due, dueImages settings (afterReap settings clock at_ db) clock.due = some due ∧
      db' = enqueueDue clock (afterReap settings clock at_ db) due := by
  constructor
  · intro h
    obtain ⟨due, hdue, h⟩ := Option.bind_eq_some_iff.mp h
    exact ⟨due, hdue, (Option.some.inj h).symm⟩
  · rintro ⟨due, hdue, rfl⟩
    exact Option.bind_eq_some_iff.mpr ⟨due, hdue, rfl⟩

@[simp] theorem scanJob_afterReap (settings : Settings) (clock : Clock) (at_ : Timestamp)
    (db : Db) : (afterReap settings clock at_ db).scanJob =
      (reapExpiredLeases db.scanJob settings.maxAttempts at_).1 :=
  scanJob_recordReaped _ _ _

@[simp] theorem keys_image_afterReap (settings : Settings) (clock : Clock) (at_ : Timestamp)
    (db : Db) : (afterReap settings clock at_ db).image.keys = db.image.keys :=
  keys_image_recordReaped _ _ _

theorem all_enqueueAll {P : JobId → ScanJob → Prop} (h : jobs.All P) (clock : Clock)
    (hnew : ∀ i ∈ due, ∀ j, P j (newJob i priorityScheduled (clock.scheduled i))) :
    (enqueueAll clock jobs due).All P := by
  induction due generalizing jobs with
  | nil => exact h
  | cons i due ih =>
    have hfirst := all_enqueue h (hnew i List.mem_cons_self _)
    exact ih hfirst fun i' hi' => hnew i' (List.mem_cons_of_mem i hi')

/-! ### What is reaped -/

theorem mem_reaped {entry : ReapedJob} :
    entry ∈ (reapExpiredLeases jobs maxAttempts at_).2 ↔
      ∃ job, jobs.get? entry.jobId = some job ∧ reapable at_ job ∧ entry.imageId = job.imageId ∧
        entry.exhausted = decide ((reapRow maxAttempts at_ job).status = .failed) := by
  simp only [reapExpiredLeases, List.mem_map, List.mem_filter, Prod.exists]
  constructor
  · rintro ⟨j, job, ⟨hmem, hreapable⟩, rfl⟩
    exact ⟨job, Dict.get?_eq_some_iff.mpr hmem, hreapable, rfl, rfl⟩
  · rintro ⟨job, hjob, hreapable, himage, hexhausted⟩
    refine ⟨entry.jobId, job, ⟨Dict.get?_eq_some_iff.mp hjob, hreapable⟩, ?_⟩
    rw [← himage, ← hexhausted]

theorem nodup_jobId_reaped :
    ((reapExpiredLeases jobs maxAttempts at_).2.map ReapedJob.jobId).Nodup := by
  have hkeys : (reapExpiredLeases jobs maxAttempts at_).2.map ReapedJob.jobId =
      (jobs.rows.entries.filter fun e => reapable at_ e.2).map Prod.fst := by
    rw [reapExpiredLeases, List.map_map]
    rfl
  rw [hkeys]
  exact jobs.rows.nodup.sublist (List.filter_sublist.map Prod.fst)

/-- No image is among the reaped twice. -/
theorem nodup_imageId_reaped (hunique : UniqueActive jobs) :
    ((reapExpiredLeases jobs maxAttempts at_).2.map ReapedJob.imageId).Nodup := by
  refine List.pairwise_map.mpr ?_
  refine (List.pairwise_map.mp nodup_jobId_reaped).imp_of_mem fun ha hb hne heq => hne ?_
  obtain ⟨job, hjob, hreapable, himage, -⟩ := mem_reaped.mp ha
  obtain ⟨job', hjob', hreapable', himage', -⟩ := mem_reaped.mp hb
  refine hunique _ _ job job' hjob hjob' ?_ ?_ (himage.symm.trans (heq.trans himage'))
  · exact isActive_of_running (reapable_iff.mp hreapable).1
  · exact isActive_of_running (reapable_iff.mp hreapable').1

end Tick

end ContainerScanner
