import ContainerScanner.Lifecycle.Invariant
import Mathlib.Data.List.TakeWhile

/-!
# Image columns

Three columns of `image` say how scanning it went: when the last attempt ended, how, and how many
jobs in a row were given up. They are written in four places: by a success, a skip, a failure that a
worker reports and one that the reaper finds. They are the fold of the history that each of the four
leaves behind.

## Main definitions

* `lastRun`, `failuresSince` — the history of one image, read
* `Folded` — the columns of an image are what its history says

## Main results

* `Folded.quiet`, `Folded.record` — what a transaction does to the columns of an image
* `Columns.step`, `columns_run` — the columns, in every run on which no reaped worker reports
* `recorded_of_reaches` — the history has recorded the rows of `scan_run`, and no others
-/

namespace ContainerScanner

open Foundation Queue

namespace Lifecycle

open Workers (WorkerId Held)

variable {settings : Settings} {s s' : State} {jobs jobs' : Jobs} {i : ImageId} {j : JobId}
  {run : ScanRun} {history : List Entry} {image new : Image} {at_ : Timestamp} {w : WorkerId}
  {clock : Tick.Clock} {due : List ImageId} {given : List ImageId} {runs : List ScanRun}

/-! ### Reading the history -/

/-- The run of the image that an entry records. -/
def runOf? (i : ImageId) : Entry → Option ScanRun
  | .recorded run => if run.imageId = i then some run else none
  | .gaveUp _ => none

/-- The run of the image that was committed last. -/
def lastRun (i : ImageId) (history : List Entry) : Option ScanRun := history.findSome? (runOf? i)

/-- Is this a `SUCCESS` or `SKIPPED` run of the image? -/
def finishes (i : ImageId) (e : Entry) : Bool :=
  (runOf? i e).any fun run => decide (run.status = .success ∨ run.status = .skipped)

/-- How many jobs of the image became `FAILED` since its last `SUCCESS` or `SKIPPED` run. -/
def failuresSince (i : ImageId) (history : List Entry) : ℕ :=
  (history.takeWhile fun e => !finishes i e).count (.gaveUp i)

/-- The columns of an image are what its history says. -/
structure Folded (i : ImageId) (history : List Entry) (image : Image) : Prop where
  lastScanAt : image.lastScanAt = (lastRun i history).bind ScanRun.completedAt
  lastScanStatus : image.lastScanStatus = (lastRun i history).map ScanRun.status
  consecutiveFailures : image.consecutiveFailures = failuresSince i history

/-! ### One transaction -/

/-- What a transaction adds to the history. -/
def batch (given : List ImageId) (runs : List ScanRun) : List Entry :=
  given.map .gaveUp ++ (runs.map .recorded).reverse

theorem findSome?_batch (i : ImageId) (given : List ImageId) (runs : List ScanRun) :
    (batch given runs).findSome? (runOf? i) =
      runs.reverse.find? fun run => decide (run.imageId = i) := by
  have hgiven : (given.map Entry.gaveUp).findSome? (runOf? i) = none := by
    rw [List.findSome?_eq_none_iff]
    intro e he
    obtain ⟨i', -, rfl⟩ := List.mem_map.mp he
    rfl
  rw [batch, List.findSome?_append, hgiven, Option.none_or, ← List.map_reverse,
    List.findSome?_map]
  induction runs.reverse with
  | nil => rfl
  | cons run runs ih =>
    rw [List.findSome?_cons, List.find?_cons, ih]
    by_cases hi : run.imageId = i <;> simp [runOf?, hi]

theorem lastRun_batch_of_notMem (hruns : ∀ run ∈ runs, run.imageId ≠ i) :
    lastRun i (batch given runs ++ history) = lastRun i history := by
  rw [lastRun, List.findSome?_append, findSome?_batch, List.find?_eq_none.mpr, Option.none_or]
  · rfl
  · intro run hrun
    simpa using hruns run (List.mem_reverse.mp hrun)

theorem lastRun_batch (hrun : run ∈ runs) (hi : run.imageId = i)
    (hunique : ∀ run' ∈ runs, run'.imageId = i → run' = run) :
    lastRun i (batch given runs ++ history) = some run := by
  have hfound : (runs.reverse.find? fun run => decide (run.imageId = i)).isSome :=
    List.find?_isSome.mpr ⟨run, List.mem_reverse.mpr hrun, decide_eq_true hi⟩
  obtain ⟨found, hfound⟩ := Option.isSome_iff_exists.mp hfound
  have hmem := List.mem_reverse.mp (List.mem_of_find?_eq_some hfound)
  have himage : found.imageId = i := by simpa using List.find?_some hfound
  rw [lastRun, List.findSome?_append, findSome?_batch, hfound, hunique found hmem himage]
  rfl

theorem count_gaveUp_batch (i : ImageId) (given : List ImageId) (runs : List ScanRun) :
    (batch given runs).count (.gaveUp i) = given.count i := by
  have hruns : (runs.map Entry.recorded).count (.gaveUp i) = 0 := by
    rw [List.count_eq_zero]
    intro hmem
    obtain ⟨run, -, hrun⟩ := List.mem_map.mp hmem
    cases hrun
  rw [batch, List.count_append, List.count_reverse, hruns, Nat.add_zero]
  exact List.count_map_of_injective given Entry.gaveUp (fun _ _ h => Entry.gaveUp.inj h) i

theorem finishes_of_mem_batch {e : Entry} (he : e ∈ batch given runs) (hfinishes : finishes i e) :
    ∃ run ∈ runs, run.imageId = i ∧ run.status ≠ .failed := by
  rw [batch, List.mem_append, List.mem_reverse, List.mem_map, List.mem_map] at he
  obtain ⟨i', -, rfl⟩ | ⟨run, hrun, rfl⟩ := he
  · cases hfinishes
  · by_cases hi : run.imageId = i
    · refine ⟨run, hrun, hi, fun hfailed => ?_⟩
      simp [finishes, runOf?, hi, hfailed] at hfinishes
    · simp [finishes, runOf?, hi] at hfinishes

/-- As long as no run finishes the image, its jobs that are given up add up. -/
theorem failuresSince_batch (hruns : ∀ run ∈ runs, run.imageId = i → run.status = .failed) :
    failuresSince i (batch given runs ++ history) = given.count i + failuresSince i history := by
  have hopen : ∀ e ∈ batch given runs, (!finishes i e) = true := by
    intro e he
    rw [Bool.not_eq_true']
    by_contra hfinishes
    obtain ⟨run, hrun, hi, hstatus⟩ :=
      finishes_of_mem_batch he (Bool.eq_true_of_not_eq_false hfinishes)
    exact hstatus (hruns run hrun hi)
  rw [failuresSince, List.takeWhile_append_of_pos hopen, List.count_append, count_gaveUp_batch]
  rfl

/-- A run that finishes the image ends the streak. -/
theorem failuresSince_batch_finished (hrun : run ∈ runs) (hi : run.imageId = i)
    (hstatus : run.status ≠ .failed) (hgiven : i ∉ given) :
    failuresSince i (batch given runs ++ history) = 0 := by
  have hmem : Entry.recorded run ∈ batch given runs :=
    List.mem_append_right _ (List.mem_reverse.mpr (List.mem_map_of_mem hrun))
  have hfinishes : finishes i (.recorded run) = true := by
    cases hrunStatus : run.status with
    | failed => exact absurd hrunStatus hstatus
    | success => simp [finishes, runOf?, hi, hrunStatus]
    | skipped => simp [finishes, runOf?, hi, hrunStatus]
  have hnone : (batch given runs).count (.gaveUp i) = 0 := by
    rw [count_gaveUp_batch, List.count_eq_zero]
    exact hgiven
  have hlength : ((batch given runs).takeWhile fun e => !finishes i e).length ≠
      (batch given runs).length := by
    intro hlength
    have hall := (List.takeWhile_prefix fun e => !finishes i e).eq_of_length hlength
    rw [← hall] at hmem
    have hnot := List.mem_takeWhile_imp hmem
    rw [hfinishes] at hnot
    cases hnot
  rw [failuresSince, List.takeWhile_append, if_neg hlength]
  exact Nat.eq_zero_of_le_zero (hnone ▸ (List.takeWhile_sublist _).count_le _)

/-- A transaction that is not about an image leaves its columns what its history says. -/
theorem Folded.quiet (h : Folded i history image) (hruns : ∀ run ∈ runs, run.imageId ≠ i)
    (hgiven : i ∉ given) : Folded i (batch given runs ++ history) image where
  lastScanAt := by rw [lastRun_batch_of_notMem hruns, h.lastScanAt]
  lastScanStatus := by rw [lastRun_batch_of_notMem hruns, h.lastScanStatus]
  consecutiveFailures := by
    rw [failuresSince_batch fun run hrun hi => absurd hi (hruns run hrun),
      List.count_eq_zero.mpr hgiven, Nat.zero_add, h.consecutiveFailures]

/-- A transaction that records a run of an image, and writes its columns. -/
theorem Folded.record (h : Folded i history image) (hrun : run ∈ runs) (hi : run.imageId = i)
    (hunique : ∀ run' ∈ runs, run'.imageId = i → run' = run)
    (hat : new.lastScanAt = run.completedAt) (hstatus : new.lastScanStatus = some run.status)
    (hgiven : run.status ≠ .failed → i ∉ given)
    (hfailures : new.consecutiveFailures =
      if run.status = .failed then image.consecutiveFailures + given.count i else 0) :
    Folded i (batch given runs ++ history) new := by
  have hlast : lastRun i (batch given runs ++ history) = some run :=
    lastRun_batch hrun hi hunique
  refine ⟨?_, ?_, ?_⟩
  · rw [hlast, hat]
    rfl
  · rw [hlast, hstatus]
    rfl
  · by_cases hfailed : run.status = .failed
    · rw [hfailures, if_pos hfailed, h.consecutiveFailures, failuresSince_batch, Nat.add_comm]
      intro run' hrun' hi'
      rw [hunique run' hrun' hi', hfailed]
    · rw [hfailures, if_neg hfailed,
        failuresSince_batch_finished hrun hi hfailed (hgiven hfailed)]

/-! ### The jobs that became `FAILED` -/

/-- No job became `FAILED` when every `FAILED` job was so before. -/
theorem newlyFailed_eq_nil (h : ∀ j job, jobs'.get? j = some job → job.status = .failed →
    jobs.get? j = some job) : newlyFailed jobs jobs' = [] := by
  rw [newlyFailed, List.map_eq_nil_iff, List.filter_eq_nil_iff]
  intro e he hfailed
  simp only [becameFailed, Bool.and_eq_true, decide_eq_true_eq] at hfailed
  rw [h e.1 e.2 (Dict.get?_eq_some_iff.mpr he) hfailed.1] at hfailed
  simp [hfailed.1] at hfailed

/-- When only the job `j` of an image can have become `FAILED`, that is all there is to count. -/
theorem count_newlyFailed (h : ∀ j' job, jobs'.get? j' = some job → job.imageId = i →
    becameFailed jobs (j', job) → j' = j) :
    (newlyFailed jobs jobs').count i =
      if (jobs'.get? j).any fun job => becameFailed jobs (j, job) && decide (job.imageId = i)
      then 1 else 0 := by
  have hkey : ∀ e ∈ jobs'.rows.entries,
      (becameFailed jobs e && decide (e.2.imageId = i)) = true → e.1 = j := by
    intro e he hp
    simp only [Bool.and_eq_true, decide_eq_true_eq] at hp
    exact h e.1 e.2 (Dict.get?_eq_some_iff.mpr he) hp.2 hp.1
  have hcount : (newlyFailed jobs jobs').count i =
      jobs'.rows.entries.countP fun e => becameFailed jobs e && decide (e.2.imageId = i) := by
    rw [newlyFailed, List.count_eq_countP, List.countP_map, List.countP_filter]
    refine List.countP_congr fun e _ => ?_
    simp [and_comm]
  rw [hcount, Dict.countP_of_key jobs'.rows hkey]
  rfl

/-- One row is changed, and was not `FAILED`. -/
theorem count_newlyFailed_update {job changed : ScanJob} (hj : jobs.get? j = some job)
    (hjobs : ∀ j', jobs'.get? j' = if j' = j then some changed else jobs.get? j')
    (hstatus : job.status ≠ .failed) (i : ImageId) :
    (newlyFailed jobs jobs').count i =
      if changed.status = .failed ∧ changed.imageId = i then 1 else 0 := by
  rw [count_newlyFailed (j := j), hjobs, if_pos rfl]
  · simp [becameFailed, hj, hstatus]
  · intro j' row hrow _ hfailed
    by_contra hne
    rw [hjobs, if_neg hne] at hrow
    simp only [becameFailed, Bool.and_eq_true, decide_eq_true_eq, hrow] at hfailed
    simp [hfailed.1] at hfailed

theorem mem_newlyFailed : i ∈ newlyFailed jobs jobs' ↔ ∃ j job, jobs'.get? j = some job ∧
    becameFailed jobs (j, job) ∧ job.imageId = i := by
  simp only [newlyFailed, List.mem_map, List.mem_filter, Prod.exists]
  constructor
  · rintro ⟨j, job, ⟨hmem, hfailed⟩, hi⟩
    exact ⟨j, job, Dict.get?_eq_some_iff.mpr hmem, hfailed, hi⟩
  · rintro ⟨j, job, hjob, hfailed, hi⟩
    exact ⟨j, job, ⟨Dict.get?_eq_some_iff.mp hjob, hfailed⟩, hi⟩

theorem get?_of_enqueue_failed {job : ScanJob} {priority : ℤ} {scheduledFor : Timestamp}
    (h : (enqueue jobs i priority scheduledFor).1.get? j = some job)
    (hfailed : job.status = .failed) : jobs.get? j = some job := by
  have hrows : jobs.All fun j job => job.status = .failed → jobs.get? j = some job :=
    fun _ _ hj _ => hj
  exact all_enqueue hrows nofun j job h hfailed

theorem get?_of_enqueueAll_failed {job : ScanJob} {due : List ImageId}
    (h : (Tick.enqueueAll clock jobs due).get? j = some job) (hfailed : job.status = .failed) :
    jobs.get? j = some job := by
  induction due generalizing jobs with
  | nil => exact h
  | cons i due ih => exact get?_of_enqueue_failed (ih h) hfailed

theorem get?_enqueueAll {job : ScanJob} (hj : jobs.get? j = some job) (clock : Tick.Clock)
    (due : List ImageId) : (Tick.enqueueAll clock jobs due).get? j = some job := by
  induction due generalizing jobs with
  | nil => exact hj
  | cons i due ih => exact ih (get?_enqueue hj i _ _)

/-- A job that becomes `FAILED` in a scheduling pass was reaped. -/
theorem reapable_of_becameFailed {job : ScanJob} {maxAttempts : ℤ} {due : List ImageId}
    (hjob : (Tick.enqueueAll clock (reapExpiredLeases jobs maxAttempts at_).1 due).get? j =
      some job)
    (hfailed : becameFailed jobs (j, job)) :
    ∃ old, jobs.get? j = some old ∧ reapable at_ old ∧ job = reapRow maxAttempts at_ old := by
  simp only [becameFailed, Bool.and_eq_true, decide_eq_true_eq] at hfailed
  have hrow : ((jobs.mapRows (reapRow maxAttempts at_)).get? j) = some job :=
    get?_of_enqueueAll_failed hjob hfailed.1
  rw [Serial.get?_mapRows] at hrow
  obtain ⟨old, hold, rfl⟩ := Option.map_eq_some_iff.mp hrow
  refine ⟨old, hold, ?_, rfl⟩
  by_contra hnot
  have hsame : reapRow maxAttempts at_ old = old := if_neg hnot
  rw [hsame] at hfailed
  simp [hold, hfailed.1] at hfailed

/-- What a scheduling pass adds to the streak of an image whose job it reaps. -/
theorem count_newlyFailed_reaped (hunique : UniqueActive jobs) {maxAttempts : ℤ}
    {due : List ImageId} {entry : ReapedJob}
    (hentry : entry ∈ (reapExpiredLeases jobs maxAttempts at_).2) :
    (newlyFailed jobs
        (Tick.enqueueAll clock (reapExpiredLeases jobs maxAttempts at_).1 due)).count
      entry.imageId = if entry.exhausted then 1 else 0 := by
  obtain ⟨job, hjob, hreapable, himage, hexhausted⟩ := Tick.mem_reaped.mp hentry
  have hrunning := (reapable_iff.mp hreapable).1
  have hrow : (reapExpiredLeases jobs maxAttempts at_).1.get? entry.jobId =
      some (reapRow maxAttempts at_ job) := by
    show (jobs.mapRows (reapRow maxAttempts at_)).get? entry.jobId = _
    rw [Serial.get?_mapRows, hjob]
    rfl
  rw [count_newlyFailed (j := entry.jobId), get?_enqueueAll hrow]
  · have hnow : job.status ≠ .failed := by
      rw [hrunning]
      decide
    simp [becameFailed, hjob, hnow, hexhausted, imageId_reapRow, himage]
  · intro j' row hget hsame hfailed
    obtain ⟨old, hold, hreapable', rfl⟩ := reapable_of_becameFailed hget hfailed
    rw [imageId_reapRow, himage] at hsame
    exact hunique _ _ old job hold hjob
      (isActive_of_running (reapable_iff.mp hreapable').1) (isActive_of_running hrunning) hsame

theorem notMem_newlyFailed_of_notMem_reaped {maxAttempts : ℤ} {due : List ImageId}
    (hi : i ∉ (reapExpiredLeases jobs maxAttempts at_).2.map ReapedJob.imageId) :
    i ∉ newlyFailed jobs
      (Tick.enqueueAll clock (reapExpiredLeases jobs maxAttempts at_).1 due) := by
  rw [mem_newlyFailed]
  rintro ⟨j, job, hjob, hfailed, rfl⟩
  obtain ⟨old, hold, hreapable, rfl⟩ := reapable_of_becameFailed hjob hfailed
  refine hi (List.mem_map.mpr ⟨⟨j, old.imageId,
    decide ((reapRow maxAttempts at_ old).status = .failed)⟩, ?_, ?_⟩)
  · exact Tick.mem_reaped.mpr ⟨old, hold, hreapable, rfl, rfl⟩
  · exact (imageId_reapRow _ _ _).symm

/-! ### Steps -/

/-- The columns of every image are what its history says. -/
def Columns (s : State) : Prop :=
  ∀ i image, s.db.image.get? i = some image → Folded i s.history image

/-- Only a failure makes a job `FAILED`. -/
theorem Report.status_of_failed {report : Report} {job : ScanJob}
    (h : (report.outcome.change settings job).status = .failed) : report.status = some .failed := by
  cases report with
  | fail => rfl
  | success => cases h
  | skip => cases h
  | defer => cases h

section Report

variable {report : Report} {held : Held} {db : Db}

theorem Reports.history_eq (h : Reports settings s w report held db s') :
    s'.history = batch (newlyFailed s.queue.jobs s'.queue.jobs)
      (s.db.scanRun.added db.scanRun) ++ s.history := congrArg State.history h.state

/-- A report can make its own job `FAILED`, and no other. -/
theorem Reports.count_newlyFailed (h : Reports settings s w report held db s') (i : ImageId) :
    (newlyFailed s.queue.jobs s'.queue.jobs).count i =
      if (report.outcome.change settings held.loaded).status = .failed ∧ held.loaded.imageId = i
      then 1 else 0 := by
  have hnow : held.loaded.status ≠ .failed := by
    rw [h.running]
    decide
  rw [count_newlyFailed_update h.loaded h.jobs hnow, Workers.imageId_change]

theorem Reports.notMem_newlyFailed (h : Reports settings s w report held db s')
    (hi : (report.outcome.change settings held.loaded).status ≠ .failed ∨
      held.loaded.imageId ≠ i) : i ∉ newlyFailed s.queue.jobs s'.queue.jobs := by
  rw [← List.count_eq_zero, h.count_newlyFailed, if_neg]
  rintro ⟨hfailed, himage⟩
  exact hi.elim (fun hnot => hnot hfailed) (fun hnot => hnot himage)

/-- The object a report is written from is the row, so that what is flushed is the object. -/
theorem Kept.get?_image_of_records (hs : Kept s)
    (hf : ∀ held ∈ s.queue.held w, held.claim ∉ s.queue.reaped)
    (h : Reports settings s w report held db s') {object : Image}
    (hrecords : Records settings s.database held (s.images w) report db run object new) :
    s.db.image.get? held.loaded.imageId = some object ∧
      db.image.get? held.loaded.imageId = some new := by
  have hrow : s.db.image.get? held.loaded.imageId = some object := by
    obtain hloaded | hloaded := hrecords.object
    · exact hs.objects w held object h.holds (hf held h.holds) hloaded
    · exact hloaded
  refine ⟨hrow, ?_⟩
  rw [hrecords.row, writeImage, Dict.get?_update, if_pos rfl]
  show (s.db.image.get? held.loaded.imageId).map _ = _
  rw [hrow, Option.map_some, RunOnce.flushImage_self]

/-- The columns of the image of the job that is reported on. -/
theorem Folded.of_records {object : Image}
    (hfolded : Folded held.loaded.imageId s.history object)
    (h : Reports settings s w report held db s')
    (hrecords : Records settings s.database held (s.images w) report db run object new) :
    Folded held.loaded.imageId
      (batch (newlyFailed s.queue.jobs s'.queue.jobs) [run] ++ s.history) new := by
  refine hfolded.record List.mem_cons_self hrecords.imageId ?_ hrecords.lastScanAt
    hrecords.lastScanStatus ?_ ?_
  · intro run' hrun' _
    exact List.mem_singleton.mp hrun'
  · intro hfinished
    refine h.notMem_newlyFailed (Or.inl fun hfailed => hfinished ?_)
    have hstatus := hrecords.status
    rw [Report.status_of_failed hfailed] at hstatus
    exact (Option.some.inj hstatus).symm
  · rw [hrecords.consecutiveFailures, h.count_newlyFailed]
    by_cases hlast : (report.outcome.change settings held.loaded).status = .failed <;> simp [hlast]

theorem Columns.of_report (hc : Columns s) (hs : Kept s)
    (hf : ∀ held ∈ s.queue.held w, held.claim ∉ s.queue.reaped)
    (h : Reports settings s w report held db s') : Columns s' := by
  intro i image hget
  have hdb : s'.db = db := congrArg State.db h.state
  rw [hdb] at hget
  rw [h.history_eq]
  obtain ⟨hstatus, rfl⟩ | ⟨run, object, new, hrecords⟩ :=
    commitReport_cases h.commits h.loaded (hs.placed _ _ h.loaded)
  · have hadded : s.db.scanRun.added s.database.scanRun = [] := Serial.added_self _
    rw [hadded]
    refine (hc i image hget).quiet (by simp) (h.notMem_newlyFailed (Or.inl fun hfailed => ?_))
    rw [Report.status_of_failed hfailed] at hstatus
    cases hstatus
  · have hadded : s.db.scanRun.added db.scanRun = [run] := by
      rw [hrecords.scanRun]
      exact Serial.added_insert _ _
    rw [hadded]
    by_cases hi : i = held.loaded.imageId
    · obtain ⟨hrow, hnew⟩ := hs.get?_image_of_records hf h hrecords
      rw [hi, hnew] at hget
      rw [hi, ← Option.some.inj hget]
      exact Folded.of_records (hc _ object hrow) h hrecords
    · rw [hrecords.row, writeImage, Dict.get?_update, if_neg hi] at hget
      refine (hc i image hget).quiet ?_ (h.notMem_newlyFailed (Or.inr (Ne.symm hi)))
      intro run' hrun'
      rw [List.mem_singleton.mp hrun', hrecords.imageId]
      exact Ne.symm hi

end Report

theorem Columns.of_ticks (hc : Columns s) (hs : Kept s) (h : Ticks settings s at_ clock due s') :
    Columns s' := by
  intro i image hget
  let reap := reapExpiredLeases s.queue.jobs settings.maxAttempts at_
  have hadded : s.db.scanRun.added s'.db.scanRun = reap.2.map (Tick.reapedRun clock) := by
    rw [h.scanRun hs.placed]
    exact Serial.added_insertAll _ _
  have hhistory : s'.history =
      batch (newlyFailed s.queue.jobs s'.queue.jobs) (s.db.scanRun.added s'.db.scanRun) ++
        s.history := by
    rw [h.state]
    rfl
  have hget : (Tick.recordReaped clock { s.database with scanJob := reap.1 } reap.2).image.get? i =
      some image := by
    rw [h.db] at hget
    exact hget
  rw [hhistory, hadded, h.jobs]
  by_cases hi : i ∈ reap.2.map ReapedJob.imageId
  · obtain ⟨entry, hentry, rfl⟩ := List.mem_map.mp hi
    have hnodup : (reap.2.map ReapedJob.imageId).Nodup :=
      Tick.nodup_imageId_reaped s.queue.uniqueActive
    rw [Tick.get?_image_recordReaped hnodup hentry] at hget
    obtain ⟨old, hold, rfl⟩ := Option.map_eq_some_iff.mp hget
    refine (hc _ old hold).record (List.mem_map_of_mem hentry) rfl ?_ rfl rfl ?_ ?_
    · intro run' hrun' himage
      obtain ⟨entry', hentry', rfl⟩ := List.mem_map.mp hrun'
      rw [List.inj_on_of_nodup_map hnodup hentry' hentry himage]
    · intro hfinished
      exact absurd rfl hfinished
    · have hfailed : (Tick.reapedRun clock entry).status = .failed := rfl
      rw [count_newlyFailed_reaped s.queue.uniqueActive hentry, if_pos hfailed]
      cases entry.exhausted <;> simp [Persist.failImage]
  · rw [Tick.get?_image_recordReaped_of_notMem hi] at hget
    refine (hc i image hget).quiet ?_ (notMem_newlyFailed_of_notMem_reaped hi)
    intro run' hrun' himage
    obtain ⟨entry, hentry, rfl⟩ := List.mem_map.mp hrun'
    exact hi (List.mem_map.mpr ⟨entry, hentry, himage⟩)

/-- A transaction that writes no image, no run and no `FAILED` job. -/
theorem Columns.advance (hc : Columns s) {queue : Workers.State}
    (hqueue : ∀ j job, queue.jobs.get? j = some job → job.status = .failed →
      s.queue.jobs.get? j = some job) (images : WorkerId → Option Image) :
    Columns (s.advance queue s.db images) := by
  intro i image hget
  have hhistory : (s.advance queue s.db images).history = s.history := by
    simp [State.advance, entriesOf, newlyFailed_eq_nil hqueue]
  rw [hhistory]
  exact hc i image hget

theorem get?_of_requestScan_failed {job : ScanJob} {timeSensitive : Bool} {now : Timestamp}
    (h : (requestScan jobs i timeSensitive now).1.get? j = some job)
    (hfailed : job.status = .failed) : jobs.get? j = some job := by
  obtain heq | ⟨-, heq⟩ := requestScan_jobs jobs i timeSensitive now
  · rw [heq] at h
    exact get?_of_enqueue_failed h hfailed
  · rw [heq, promote, Serial.get?_mapRows] at h
    obtain ⟨old, hold, rfl⟩ := Option.map_eq_some_iff.mp h
    rw [status_promoteRow] at hfailed
    have hsame : promoteRow i now old = old := by
      rw [promoteRow, if_neg]
      simp [promotable, hfailed]
    rw [hsame]
    exact get?_of_enqueue_failed hold hfailed

theorem Columns.step (hc : Columns s) (hs : Kept s) {e : Timestamp × Event} (hf : Fenced s e)
    (h : step settings s e = some s') : Columns s' := by
  cases step_cases hs.fencing hf h with
  | requestScan i timeSensitive now himage hjobs hheld hreaped =>
    refine hc.advance (fun j row hrow hfailed => ?_) s.images
    rw [hjobs] at hrow
    exact get?_of_requestScan_failed hrow hfailed
  | claim w j now held hrow hpending hjobs hholds hreaped =>
    refine hc.advance (fun j' row hrow' hfailed => ?_) (Function.update s.images w none)
    rw [hjobs] at hrow'
    split at hrow'
    · rw [← Option.some.inj hrow'] at hfailed
      cases hfailed
    · exact hrow'
  | load w hholds hrow => exact hc
  | report hfenced hreports => exact hc.of_report hs hfenced hreports
  | tick hticks => exact hc.of_ticks hs hticks
  | abandon w hjobs hheld hreaped =>
    refine hc.advance (fun j row hrow _ => ?_) (Function.update s.images w none)
    rw [hjobs] at hrow
    exact hrow
  | rollback working => exact hc

theorem columns_start {db : Db} (hdb : Registered db) (now : Timestamp) :
    Columns (State.start db now) := by
  intro i image hget
  obtain ⟨hat, hstatus, hfailures⟩ := hdb.image i image hget
  exact ⟨hat, hstatus, hfailures⟩

/-- **Image columns are the fold of the history.** In every run on which no worker reports on a
claim that the reaper has ended, every image says when and how its last run ended, and how many of
its jobs became `FAILED` since the last run that did not fail. -/
theorem columns_run {db : Db} (hdb : Registered db) {now : Timestamp}
    (hrun : Reaches (Lifecycle.step settings) Fenced (State.start db now) s)
    (himage : s.db.image.get? i = some image) : Folded i s.history image := by
  have hinv : Kept s ∧ Columns s :=
    hrun.invariant (I := fun s => Kept s ∧ Columns s)
      (fun _ _ _ hs hf h => ⟨hs.1.step hf h, hs.2.step hs.1 hf h⟩)
      ⟨kept_start db now, columns_start hdb now⟩
  exact hinv.2 i image himage

/-- An image that is skipped, and whose next job is given up at its first failure. -/
def skippedThenGivenUp : List (Timestamp × Event) :=
  let clock (t : Timestamp) : Tick.Clock := ⟨fun _ => t, t, fun _ => t⟩
  [(0, .tick (clock 0)), (0, .claim 1 1 [] 0), (0, .load 1),
    (seconds 9, .report 1 (.skip ⟨none, none, none, none, 0, seconds 9⟩)),
    (seconds 90000, .tick (clock (seconds 90000))),
    (seconds 90000, .claim 1 2 [] (seconds 90000)), (seconds 90000, .load 1),
    (seconds 90009, .report 1 (.fail "no such image" true false (seconds 90009) (seconds 90000)
      (seconds 90009)))]

theorem columns_run_skippedThenGivenUp :
    ∃ s image, execute (restrict (step {}) Fenced) (State.start (Db.seeded 0 [("nginx", "1.19")]) 0)
        skippedThenGivenUp = some s ∧
      s.db.image.get? 1 = some image ∧ failuresSince 1 s.history = 1 ∧
        Folded 1 s.history image := by
  have hrun : ((execute (restrict (step {}) Fenced)
      (State.start (Db.seeded 0 [("nginx", "1.19")]) 0) skippedThenGivenUp).bind fun s =>
        (s.db.image.get? 1).map fun _ => failuresSince 1 s.history) = some 1 := by
    decide +kernel
  obtain ⟨s, hs, hrun⟩ := Option.bind_eq_some_iff.mp hrun
  obtain ⟨image, himage, hfailures⟩ := Option.map_eq_some_iff.mp hrun
  exact ⟨s, image, hs, himage, hfailures,
    columns_run (registered_seeded 0 _) (reaches_of_execute hs) himage⟩

/-! ### The history and the table -/

/-- The run that an entry records. -/
def Entry.run? : Entry → Option ScanRun
  | recorded run => some run
  | gaveUp _ => none

theorem filterMap_run?_batch (given : List ImageId) (runs : List ScanRun) :
    (batch given runs).filterMap Entry.run? = runs.reverse := by
  have hgiven : (given.map Entry.gaveUp).filterMap Entry.run? = [] := by
    rw [List.filterMap_eq_nil_iff]
    intro e he
    obtain ⟨i, -, rfl⟩ := List.mem_map.mp he
    rfl
  rw [batch, List.filterMap_append, hgiven, List.nil_append, ← List.map_reverse,
    List.filterMap_map]
  exact List.filterMap_some

/-- The history has recorded the rows of `scan_run` in the order they were put in, and no
others. -/
def Recorded (s : State) : Prop :=
  s.db.scanRun.rows.entries.map Prod.snd = (s.history.filterMap Entry.run?).reverse

/-- What a transaction puts into `scan_run` it puts into the history. -/
theorem Recorded.advance (hr : Recorded s) (queue : Workers.State) {db : Db}
    (images : WorkerId → Option Image) (hruns : db.scanRun = s.db.scanRun.insertAll runs) :
    Recorded (s.advance queue db images) := by
  obtain ⟨l, hentries, hl, -⟩ := Serial.entries_insertAll s.db.scanRun runs
  have hhistory : (s.advance queue db images).history =
      batch (newlyFailed s.queue.jobs queue.jobs) (s.db.scanRun.added db.scanRun) ++
        s.history := rfl
  have hrows : db.scanRun.rows.entries.map Prod.snd =
      s.db.scanRun.rows.entries.map Prod.snd ++ runs := by
    rw [hruns, hentries, List.map_append, hl]
  show db.scanRun.rows.entries.map Prod.snd = _
  rw [hrows, hr, hhistory, hruns, Serial.added_insertAll, List.filterMap_append,
    filterMap_run?_batch, List.reverse_append, List.reverse_reverse]

theorem Recorded.step (hr : Recorded s) (hs : Kept s) {e : Timestamp × Event} (hf : Fenced s e)
    (h : step settings s e = some s') : Recorded s' := by
  have hnone : s.db.scanRun = s.db.scanRun.insertAll [] := rfl
  cases step_cases hs.fencing hf h with
  | requestScan => exact hr.advance _ s.images hnone
  | claim w => exact hr.advance _ (Function.update s.images w none) hnone
  | load => exact hr
  | @report w report held db s' hfenced hreports =>
    rw [hreports.state]
    obtain ⟨-, rfl⟩ | ⟨run, image, new, hrecords⟩ :=
      commitReport_cases hreports.commits hreports.loaded (hs.placed _ _ hreports.loaded)
    · exact hr.advance s'.queue (Function.update s.images w none) hnone
    · have hone : db.scanRun = s.db.scanRun.insertAll [run] := hrecords.scanRun
      exact hr.advance s'.queue (Function.update s.images w none) hone
  | tick hticks =>
    have hruns := hticks.scanRun hs.placed
    rw [hticks.state] at hruns ⊢
    exact hr.advance _ s.images hruns
  | abandon w => exact hr.advance _ (Function.update s.images w none) hnone
  | rollback => exact hr

theorem recorded_start {db : Db} (hdb : Registered db) (now : Timestamp) :
    Recorded (State.start db now) := by
  show db.scanRun.rows.entries.map Prod.snd = []
  rw [List.map_eq_nil_iff, List.eq_nil_iff_forall_not_mem]
  intro e he
  have hget : db.scanRun.get? e.1 = some e.2 := Dict.get?_eq_some_iff.mpr he
  rw [hdb.scanRun] at hget
  cases hget

theorem recorded_of_reaches {db : Db} (hdb : Registered db) {now : Timestamp}
    (hrun : Reaches (Lifecycle.step settings) Fenced (State.start db now) s) : Recorded s := by
  have hinv : Kept s ∧ Recorded s :=
    hrun.invariant (I := fun s => Kept s ∧ Recorded s)
      (fun _ _ _ hs hf h => ⟨hs.1.step hf h, hs.2.step hs.1 hf h⟩)
      ⟨kept_start db now, recorded_start hdb now⟩
  exact hinv.2

end Lifecycle

end ContainerScanner
