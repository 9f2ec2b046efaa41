import ContainerScanner.Domain.Models
import ContainerScanner.Domain.Settings
import ContainerScanner.Foundation.PyValue
import Mathlib.Algebra.Group.Int.Defs

/-!
# The queue

`app/jobs/queue.py` and the `POST …/scan` endpoint of `app/api/routes/images.py`, on the `scan_job`
table. The statements (`enqueue`, `promote`, `claim`, `reapExpiredLeases`) are functions on the
table. `complete`, `fail` and `defer` change the ORM object a worker holds; what reaches the table
is `flush`, which writes the columns in which the object differs from what was loaded, by
primary key and nothing else.

## Main definitions

* `enqueue`, `promote`, `requestScan` — putting work in, and pulling it forward
* `claimJob` — `SELECT … FOR UPDATE SKIP LOCKED`, and the lease
* `complete`, `fail`, `defer` — what a worker reports
* `reapExpiredLeases` — what the scheduler does about workers that do not

## Main results

* `uniqueActive_enqueue`, `uniqueActive_promote`, `uniqueActive_claim`, `uniqueActive_reap` — no
  statement makes a second active job for an image
* `flush_self` — a flush over the row it was loaded from writes the object
-/

namespace ContainerScanner

open Foundation

namespace Queue

/-- The table. -/
abbrev Jobs : Type := Serial ScanJob

/-- Priority given to a job the caller marked time-sensitive. -/
def priorityTimeSensitive : ℤ := 100

def priorityScheduled : ℤ := 0

/-- Recorded on a job whose worker stopped renewing its lease. -/
def leaseExpiredError : String := "lease expired; worker presumed dead"

/-- `timedelta(seconds=n)`. -/
def seconds (n : ℤ) : ℤ := n * second

theorem seconds_le_seconds {m n : ℤ} : seconds m ≤ seconds n ↔ m ≤ n := by
  rw [seconds, seconds, second]
  omega

/-- The `WHERE` of the partial index `uq_scan_job_active`. -/
def isActive (job : ScanJob) : Bool :=
  decide (job.status = .pending ∨ job.status = .running)

/-- Is there an active job for the image? -/
def hasActive (jobs : Jobs) (imageId : ImageId) : Bool :=
  jobs.rows.entries.any fun e => decide (e.2.imageId = imageId) && isActive e.2

/-! ### Putting work in -/

/-- The row of a new job. -/
def newJob (imageId : ImageId) (priority : ℤ) (scheduledFor : Timestamp) : ScanJob where
  imageId := imageId
  status := .pending
  priority := priority
  scheduledFor := scheduledFor
  leaseUntil := none
  attempts := 0
  lastError := none

/-- `INSERT … ON CONFLICT DO NOTHING RETURNING id`. A refused insert has drawn a number. -/
def enqueue (jobs : Jobs) (imageId : ImageId) (priority : ℤ) (scheduledFor : Timestamp) :
    Jobs × Option JobId :=
  if hasActive jobs imageId then (jobs.allocate, none)
  else (jobs.insert (newJob imageId priority scheduledFor), some jobs.next)

/-- The `WHERE` of the promotion. -/
def promotable (imageId : ImageId) (job : ScanJob) : Bool :=
  decide (job.imageId = imageId ∧ job.status = .pending ∧ job.priority < priorityTimeSensitive)

def promoteRow (imageId : ImageId) (now : Timestamp) (job : ScanJob) : ScanJob :=
  if promotable imageId job then
    { job with priority := priorityTimeSensitive, scheduledFor := now }
  else job

/-- `UPDATE … RETURNING id`: raise an already-pending job to the time-sensitive lane. -/
def promote (jobs : Jobs) (imageId : ImageId) (now : Timestamp) : Jobs × Option JobId :=
  (jobs.mapRows (promoteRow imageId now),
    (jobs.rows.entries.find? fun e => promotable imageId e.2).map Prod.fst)

/-- `ScanRequestAccepted`. -/
structure ScanRequestAccepted where
  status : String
  jobId : Option JobId
  timeSensitive : Bool
  deriving DecidableEq, Repr

/-- `POST /api/images/{name}/{tag}/scan`, for an image that exists. -/
def requestScan (jobs : Jobs) (imageId : ImageId) (timeSensitive : Bool) (now : Timestamp) :
    Jobs × ScanRequestAccepted :=
  let priority := if timeSensitive then priorityTimeSensitive else priorityScheduled
  match enqueue jobs imageId priority now with
  | (queued, some jobId) => (queued, ⟨"queued", some jobId, timeSensitive⟩)
  | (refused, none) =>
    -- urgency still applies to the job that is already there
    if timeSensitive then
      match promote refused imageId now with
      | (promoted, some jobId) => (promoted, ⟨"promoted", some jobId, true⟩)
      | (_, none) => (refused, ⟨"already_queued", none, true⟩)
    else (refused, ⟨"already_queued", none, false⟩)

/-! ### Claiming -/

/-- The `WHERE` of the claim, and `SKIP LOCKED`. -/
def claimable (locked : List JobId) (now : Timestamp) (e : JobId × ScanJob) : Bool :=
  decide (e.2.status = .pending ∧ e.2.scheduledFor ≤ now ∧ e.1 ∉ locked)

/-- `ORDER BY priority DESC, scheduled_for`: `a` comes strictly before `b`. -/
def claimedBefore (a b : ScanJob) : Bool :=
  decide (b.priority < a.priority ∨ a.priority = b.priority ∧ a.scheduledFor < b.scheduledFor)

/-- May the claim return this job? Of rows the `ORDER BY` leaves tied, any may come first. -/
def isNextJob (jobs : Jobs) (locked : List JobId) (now : Timestamp) (jobId : JobId) : Bool :=
  match jobs.get? jobId with
  | none => false
  | some job =>
    claimable locked now (jobId, job)
      && jobs.rows.entries.all fun e => !(claimable locked now e && claimedBefore e.2 job)

/-- The claimed row: running, with a lease by the worker's own clock. -/
def takeLease (now : Timestamp) (leaseSeconds : ℤ) (job : ScanJob) : ScanJob :=
  { job with status := .running, leaseUntil := some (now + seconds leaseSeconds) }

/-- Claim a due job: the table afterwards and the object the worker holds. The database's clock
decides what is due, the worker's how long the lease lasts. -/
def claimJob (jobs : Jobs) (locked : List JobId) (dbNow now : Timestamp) (leaseSeconds : ℤ)
    (jobId : JobId) : Option (Jobs × ScanJob) :=
  if isNextJob jobs locked dbNow jobId then
    (jobs.get? jobId).map fun job =>
      (jobs.update jobId (takeLease now leaseSeconds), takeLease now leaseSeconds job)
  else none

/-! ### Reporting -/

def complete (job : ScanJob) : ScanJob :=
  { job with status := .done, leaseUntil := none, lastError := none }

/-- Record a failure, retrying with exponential backoff until attempts run out. -/
def fail (error : String) (maxAttempts backoffBaseSeconds backoffMaxSeconds : ℤ) (now : Timestamp)
    (job : ScanJob) : ScanJob :=
  let failed : ScanJob :=
    { job with
      attempts := job.attempts + 1
      lastError := some (PyStr.truncate 4000 error)
      leaseUntil := none }
  if maxAttempts ≤ failed.attempts then { failed with status := .failed }
  else
    let delay := min (backoffBaseSeconds * 2 ^ (failed.attempts - 1)) backoffMaxSeconds
    { failed with status := .pending, scheduledFor := now + seconds delay }

/-- Put a job back without counting an attempt. -/
def defer (delaySeconds : ℕ) (reason : String) (now : Timestamp) (job : ScanJob) : ScanJob :=
  { job with
    status := .pending
    leaseUntil := none
    lastError := some (PyStr.truncate 4000 reason)
    scheduledFor := now + seconds delaySeconds }

/-- One column of a flush: written when the object differs from what was loaded. -/
def flushColumn {α : Type} [DecidableEq α] (loaded new row : α) : α :=
  if new = loaded then row else new

/-- `UPDATE scan_job SET <changed columns> WHERE id = …`. -/
def flush (loaded new row : ScanJob) : ScanJob where
  imageId := flushColumn loaded.imageId new.imageId row.imageId
  status := flushColumn loaded.status new.status row.status
  priority := flushColumn loaded.priority new.priority row.priority
  scheduledFor := flushColumn loaded.scheduledFor new.scheduledFor row.scheduledFor
  leaseUntil := flushColumn loaded.leaseUntil new.leaseUntil row.leaseUntil
  attempts := flushColumn loaded.attempts new.attempts row.attempts
  lastError := flushColumn loaded.lastError new.lastError row.lastError

@[simp] theorem flushColumn_self {α : Type} [DecidableEq α] (loaded new : α) :
    flushColumn loaded new loaded = new := by
  rw [flushColumn]
  split
  · next h => exact h.symm
  · rfl

/-- A flush over the row it was loaded from writes the object. -/
theorem flush_self (loaded new : ScanJob) : flush loaded new loaded = new := by
  simp [flush]

theorem imageId_fail (error : String) (maxAttempts backoffBaseSeconds backoffMaxSeconds : ℤ)
    (now : Timestamp) (job : ScanJob) :
    (fail error maxAttempts backoffBaseSeconds backoffMaxSeconds now job).imageId =
      job.imageId := by
  rw [fail]
  split <;> rfl

/-! ### Reaping -/

/-- A job returned to the queue because its worker stopped reporting. -/
structure ReapedJob where
  jobId : JobId
  imageId : ImageId
  exhausted : Bool
  deriving DecidableEq, Repr

/-- The `WHERE` of the reaper. -/
def reapable (now : Timestamp) (job : ScanJob) : Bool :=
  match job.leaseUntil with
  | none => false
  | some lease => decide (job.status = .running ∧ lease < now)

def reapRow (maxAttempts : ℤ) (now : Timestamp) (job : ScanJob) : ScanJob :=
  if reapable now job then
    { job with
      status := if maxAttempts ≤ job.attempts + 1 then .failed else .pending
      leaseUntil := none
      attempts := job.attempts + 1
      lastError := some leaseExpiredError }
  else job

/-- Return jobs whose worker died back to the queue, and say which. -/
def reapExpiredLeases (jobs : Jobs) (maxAttempts : ℤ) (now : Timestamp) : Jobs × List ReapedJob :=
  (jobs.mapRows (reapRow maxAttempts now),
    (jobs.rows.entries.filter fun e => reapable now e.2).map fun e =>
      ⟨e.1, e.2.imageId, decide ((reapRow maxAttempts now e.2).status = .failed)⟩)

/-! ### One active job an image -/

/-- What `uq_scan_job_active` enforces. -/
def UniqueActive (jobs : Jobs) : Prop :=
  ∀ a b job job', jobs.get? a = some job → jobs.get? b = some job' → isActive job → isActive job' →
    job.imageId = job'.imageId → a = b

theorem uniqueActive_empty : UniqueActive Serial.empty := fun _ _ _ _ h => by cases h

theorem uniqueActive_iff {jobs : Jobs} :
    UniqueActive jobs ↔ ∀ a ∈ jobs.rows.entries, ∀ b ∈ jobs.rows.entries,
      isActive a.2 → isActive b.2 → a.2.imageId = b.2.imageId → a.1 = b.1 := by
  constructor
  · intro h a ha b hb
    exact h a.1 b.1 a.2 b.2 (Dict.get?_eq_some_iff.mpr ha) (Dict.get?_eq_some_iff.mpr hb)
  · intro h a b job job' ha hb
    exact h (a, job) (Dict.get?_eq_some_iff.mp ha) (b, job') (Dict.get?_eq_some_iff.mp hb)

instance (jobs : Jobs) : Decidable (UniqueActive jobs) :=
  decidable_of_iff' _ uniqueActive_iff

variable {jobs : Jobs}

theorem hasActive_iff {i : ImageId} :
    hasActive jobs i = true ↔ ∃ j job, jobs.get? j = some job ∧ job.imageId = i ∧ isActive job := by
  simp only [hasActive, List.any_eq_true, Bool.and_eq_true, decide_eq_true_eq, Prod.exists]
  refine exists_congr fun j => exists_congr fun job => and_congr_left fun _ => ?_
  exact Dict.get?_eq_some_iff.symm

/-- A change of rows that activates none and moves none to another image keeps the index. -/
theorem UniqueActive.mapRows (h : UniqueActive jobs) {f : ScanJob → ScanJob}
    (himage : ∀ job, (f job).imageId = job.imageId)
    (hactive : ∀ job, isActive (f job) → isActive job) : UniqueActive (jobs.mapRows f) := by
  intro a b job job' ha hb hja hjb heq
  rw [Serial.get?_mapRows] at ha hb
  obtain ⟨old, hold, rfl⟩ := Option.map_eq_some_iff.mp ha
  obtain ⟨old', hold', rfl⟩ := Option.map_eq_some_iff.mp hb
  rw [himage, himage] at heq
  exact h a b old old' hold hold' (hactive old hja) (hactive old' hjb) heq

theorem UniqueActive.update (h : UniqueActive jobs) {j : JobId} {f : ScanJob → ScanJob}
    (himage : ∀ job, jobs.get? j = some job → (f job).imageId = job.imageId)
    (hactive : ∀ job, jobs.get? j = some job → isActive (f job) → isActive job) :
    UniqueActive (jobs.update j f) := by
  -- every row afterwards stands for an old one that is as active and of the same image
  have hold : ∀ a job, (jobs.update j f).get? a = some job →
      ∃ old, jobs.get? a = some old ∧ job.imageId = old.imageId ∧
        (isActive job → isActive old) := by
    intro a job ha
    rw [Serial.get?_update] at ha
    split at ha
    · next haj =>
      obtain ⟨old, hold, rfl⟩ := Option.map_eq_some_iff.mp ha
      exact ⟨old, by rw [haj]; exact hold, himage old hold, hactive old hold⟩
    · exact ⟨job, ha, rfl, id⟩
  intro a b job job' ha hb hja hjb heq
  obtain ⟨old, hold₁, himage₁, hactive₁⟩ := hold a job ha
  obtain ⟨old', hold₂, himage₂, hactive₂⟩ := hold b job' hb
  exact h a b old old' hold₁ hold₂ (hactive₁ hja) (hactive₂ hjb)
    (himage₁.symm.trans (heq.trans himage₂))

theorem uniqueActive_enqueue (h : UniqueActive jobs) (i : ImageId) (priority : ℤ)
    (scheduledFor : Timestamp) : UniqueActive (enqueue jobs i priority scheduledFor).1 := by
  rw [enqueue]
  split
  · exact h
  · next hnone =>
    -- the new row is alone: no other row of its image is active
    have hother : ∀ a job, jobs.get? a = some job → isActive job → job.imageId ≠ i := by
      intro a job ha hactive himage
      exact hnone (hasActive_iff.mpr ⟨a, job, ha, himage, hactive⟩)
    intro a b job job' ha hb hja hjb heq
    simp only [Serial.get?_insert] at ha hb
    split at ha <;> split at hb
    · next h1 h2 => rw [h1, h2]
    · rw [← Option.some.inj ha] at heq
      exact absurd heq.symm (hother b job' hb hjb)
    · rw [← Option.some.inj hb] at heq
      exact absurd heq (hother a job ha hja)
    · exact h a b job job' ha hb hja hjb heq

theorem imageId_promoteRow (i : ImageId) (now : Timestamp) (job : ScanJob) :
    (promoteRow i now job).imageId = job.imageId := by
  rw [promoteRow]
  split <;> rfl

theorem status_promoteRow (i : ImageId) (now : Timestamp) (job : ScanJob) :
    (promoteRow i now job).status = job.status := by
  rw [promoteRow]
  split <;> rfl

theorem uniqueActive_promote (h : UniqueActive jobs) (i : ImageId) (now : Timestamp) :
    UniqueActive (promote jobs i now).1 := by
  refine h.mapRows (imageId_promoteRow i now) fun job hjob => ?_
  rwa [isActive, status_promoteRow] at hjob

/-- A request enqueues, and if it is time-sensitive and refused, promotes. -/
theorem requestScan_jobs (jobs : Jobs) (i : ImageId) (timeSensitive : Bool) (now : Timestamp) :
    (requestScan jobs i timeSensitive now).1 = (enqueue jobs i
        (if timeSensitive then priorityTimeSensitive else priorityScheduled) now).1 ∨
      timeSensitive = true ∧ (requestScan jobs i timeSensitive now).1 =
        (promote (enqueue jobs i priorityTimeSensitive now).1 i now).1 := by
  rw [requestScan]
  split
  · next queued jobId heq => exact Or.inl (by rw [heq])
  · next refused heq =>
    cases timeSensitive with
    | false => exact Or.inl (by rw [heq]; rfl)
    | true =>
      rw [if_pos rfl] at heq ⊢
      rw [heq]
      show (match promote refused i now with
        | (promoted, some jobId) => (promoted, _)
        | (_, none) => (refused, _)).1 = _ ∨ _
      split
      · next promoted jobId hpromote => exact Or.inr ⟨rfl, by rw [hpromote]⟩
      · exact Or.inl (congrArg Prod.fst heq).symm

theorem uniqueActive_requestScan (h : UniqueActive jobs) (i : ImageId) (timeSensitive : Bool)
    (now : Timestamp) : UniqueActive (requestScan jobs i timeSensitive now).1 := by
  obtain heq | ⟨-, heq⟩ := requestScan_jobs jobs i timeSensitive now
  · rw [heq]
    exact uniqueActive_enqueue h i _ now
  · rw [heq]
    exact uniqueActive_promote (uniqueActive_enqueue h i _ now) i now

/-- No row goes when one is put in. -/
theorem get?_enqueue {j : JobId} {job : ScanJob} (hj : jobs.get? j = some job) (i : ImageId)
    (priority : ℤ) (scheduledFor : Timestamp) :
    (enqueue jobs i priority scheduledFor).1.get? j = some job := by
  rw [enqueue]
  split
  · exact hj
  · exact Serial.get?_insert_of_get? hj _

/-- What holds of every row, and of a new one, holds of every row afterwards. -/
theorem all_enqueue {P : JobId → ScanJob → Prop} (h : jobs.All P) {i : ImageId} {priority : ℤ}
    {scheduledFor : Timestamp} (hnew : P jobs.next (newJob i priority scheduledFor)) :
    (enqueue jobs i priority scheduledFor).1.All P := by
  rw [enqueue]
  split
  · exact h
  · exact h.insert hnew

theorem all_requestScan {P : JobId → ScanJob → Prop} (h : jobs.All P) {i : ImageId}
    {now : Timestamp} (hnew : ∀ priority, P jobs.next (newJob i priority now))
    (hpromote : ∀ j job, P j job → P j (promoteRow i now job)) (timeSensitive : Bool) :
    (requestScan jobs i timeSensitive now).1.All P := by
  obtain heq | ⟨-, heq⟩ := requestScan_jobs jobs i timeSensitive now
  · rw [heq]
    exact all_enqueue h (hnew _)
  · rw [heq]
    exact (all_enqueue h (hnew _)).mapRows hpromote

/-- What a claim needs and does. -/
theorem claimJob_eq_some {locked : List JobId} {dbNow now : Timestamp} {leaseSeconds : ℤ}
    {j : JobId} {jobs' : Jobs} {object : ScanJob}
    (h : claimJob jobs locked dbNow now leaseSeconds j = some (jobs', object)) :
    ∃ job, jobs.get? j = some job ∧ job.status = .pending ∧ job.scheduledFor ≤ dbNow ∧
      jobs' = jobs.update j (takeLease now leaseSeconds) ∧
      object = takeLease now leaseSeconds job := by
  rw [claimJob] at h
  split at h
  · next hnext =>
    obtain ⟨job, hjob, heq⟩ := Option.map_eq_some_iff.mp h
    obtain ⟨rfl, rfl⟩ := Prod.mk.inj heq
    rw [isNextJob, hjob] at hnext
    simp only [claimable, Bool.and_eq_true, decide_eq_true_eq] at hnext
    exact ⟨job, hjob, hnext.1.1, hnext.1.2.1, rfl, rfl⟩
  · cases h

theorem isActive_of_pending {job : ScanJob} (h : job.status = .pending) : isActive job := by
  simp [isActive, h]

theorem isActive_of_running {job : ScanJob} (h : job.status = .running) : isActive job := by
  simp [isActive, h]

theorem uniqueActive_claim (h : UniqueActive jobs) {locked : List JobId} {dbNow now : Timestamp}
    {leaseSeconds : ℤ} {j : JobId} {jobs' : Jobs} {object : ScanJob}
    (hclaim : claimJob jobs locked dbNow now leaseSeconds j = some (jobs', object)) :
    UniqueActive jobs' := by
  obtain ⟨job, hjob, hpending, -, rfl, -⟩ := claimJob_eq_some hclaim
  refine h.update (fun _ _ => rfl) fun job' hjob' _ => ?_
  rw [hjob] at hjob'
  rw [← Option.some.inj hjob']
  exact isActive_of_pending hpending

theorem reapable_iff {now : Timestamp} {job : ScanJob} :
    reapable now job = true ↔ job.status = .running ∧ ∃ lease, job.leaseUntil = some lease ∧
      lease < now := by
  rw [reapable]
  cases job.leaseUntil with
  | none => simp
  | some lease => simp

theorem imageId_reapRow (maxAttempts : ℤ) (now : Timestamp) (job : ScanJob) :
    (reapRow maxAttempts now job).imageId = job.imageId := by
  rw [reapRow]
  split <;> rfl

theorem uniqueActive_reap (h : UniqueActive jobs) (maxAttempts : ℤ) (now : Timestamp) :
    UniqueActive (reapExpiredLeases jobs maxAttempts now).1 := by
  refine h.mapRows (imageId_reapRow maxAttempts now) fun job hjob => ?_
  by_cases hreap : reapable now job = true
  · exact isActive_of_running (reapable_iff.mp hreap).1
  · rw [reapRow, if_neg hreap] at hjob
    exact hjob

end Queue

end ContainerScanner
