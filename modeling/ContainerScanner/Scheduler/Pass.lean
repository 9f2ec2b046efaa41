import ContainerScanner.Jobs.Workers
import ContainerScanner.Scheduler.Tick

/-!
# A scheduling pass, statement by statement

`tick` is one transaction, but each of its statements sees what others have committed by then, and
the API enqueues and promotes all the while. A state is what the transaction sees: what is
committed, and what it wrote itself. A request that would wait for the transaction is let through,
so that nothing that can happen is left out. A pass that raises stops there, and is rolled back.

## Main definitions

* `Phase`, `State`, `Event`, `step` — the statements, and the requests between them
* `Due` — an enabled image whose time has come
* `Commits` — a pass that commits

## Main results

* `exists_quiet_pass` — with no request in between, the pass is `tick`
* `Since.step`, `Accounted.step` — what every step keeps
* `Commits.status_reaped`, `Commits.run_reaped`, `Commits.active_of_due`,
  `Commits.get?_of_not_reapable`, `created_of_reaches` — what a pass does
-/

namespace ContainerScanner

open Foundation Queue

namespace Pass

/-- How far `tick` has come, with what it has left to do. -/
inductive Phase where
  | begun
  /-- In `record_reaped`. -/
  | recording (reaped : List ReapedJob)
  /-- In `due_images`, after its `SELECT`. -/
  | selected (candidates : List (ImageId × Image))
  /-- In the loop of `tick`. The clock was read at `now`. -/
  | enqueueing (now : Timestamp) (due : List ImageId)
  | committed

structure State where
  db : Db
  phase : Phase

inductive Event where
  /-- `reap_expired_leases`. -/
  | reap (at_ : Timestamp)
  /-- One round of `record_reaped`. -/
  | record (now : Timestamp)
  | select
  | readClock (now : Timestamp)
  /-- One round of the loop. -/
  | enqueue (now : Timestamp)
  | commit
  /-- The API's `INSERT … ON CONFLICT DO NOTHING`, for an image that exists. -/
  | request (imageId : ImageId) (priority : ℤ) (now : Timestamp)
  /-- The API's promotion. -/
  | promote (imageId : ImageId) (now : Timestamp)

/-- The steps that are not requests. -/
def Event.ByTick : Event → Prop
  | .request _ _ _ => False
  | .promote _ _ => False
  | _ => True

/-- A clock that stands still. -/
def stopped (now : Timestamp) : Tick.Clock := ⟨fun _ => now, now, fun _ => now⟩

def State.withJobs (s : State) (jobs : Jobs) : State :=
  { s with db := { s.db with scanJob := jobs } }

def step (settings : Settings) (s : State) : Event → Option State
  | .reap at_ =>
    match s.phase with
    | .begun =>
      let (jobs, reaped) := reapExpiredLeases s.db.scanJob settings.maxAttempts at_
      some ⟨{ s.db with scanJob := jobs }, .recording reaped⟩
    | _ => none
  | .record now =>
    match s.phase with
    | .recording (entry :: reaped) =>
      some ⟨Tick.recordReapedJob (stopped now) s.db entry, .recording reaped⟩
    | _ => none
  | .select =>
    match s.phase with
    | .recording [] => some ⟨s.db, .selected (Tick.candidates s.db)⟩
    | _ => none
  | .readClock now =>
    match s.phase with
    | .selected candidates =>
      (Tick.dueAmong settings now candidates).map fun due => ⟨s.db, .enqueueing now due⟩
    | _ => none
  | .enqueue now =>
    match s.phase with
    | .enqueueing clock (i :: due) =>
      some ⟨{ s.db with scanJob := (enqueue s.db.scanJob i priorityScheduled now).1 },
        .enqueueing clock due⟩
    | _ => none
  | .commit =>
    match s.phase with
    | .enqueueing _ [] => some ⟨s.db, .committed⟩
    | _ => none
  | .request i priority now =>
    if (s.db.image.get? i).isSome then some (s.withJobs (enqueue s.db.scanJob i priority now).1)
    else none
  | .promote i now => some (s.withJobs (Queue.promote s.db.scanJob i now).1)

variable {settings : Settings} {s s' t t' : State} {db : Db} {e : Event} {at_ now : Timestamp}
  {i : ImageId} {j : JobId} {job : ScanJob} {jobs jobs' jobs'' : Jobs} {image : Image}

/-! ### With nobody else about -/

theorem execute_records (clock : Tick.Clock) (db : Db) (reaped : List ReapedJob)
    (es : List Event) :
    execute (step settings) ⟨db, .recording reaped⟩
        (reaped.map (fun entry => .record (clock.recorded entry.jobId)) ++ es) =
      execute (step settings) ⟨Tick.recordReaped clock db reaped, .recording []⟩ es := by
  induction reaped generalizing db with
  | nil => rfl
  | cons entry reaped ih => exact ih (Tick.recordReapedJob clock db entry)

theorem execute_enqueues (clock : Tick.Clock) (db : Db) (due : List ImageId) (es : List Event) :
    execute (step settings) ⟨db, .enqueueing now due⟩
        (due.map (fun i => .enqueue (clock.scheduled i)) ++ es) =
      execute (step settings)
        ⟨{ db with scanJob := Tick.enqueueAll clock db.scanJob due }, .enqueueing now []⟩ es := by
  induction due generalizing db with
  | nil => rfl
  | cons i due ih =>
    exact ih { db with
      scanJob := (enqueue db.scanJob i priorityScheduled (clock.scheduled i)).1 }

/-- **With no request in between, the pass is `tick`.** -/
theorem exists_quiet_pass {clock : Tick.Clock} {db' : Db}
    (h : Tick.tick settings clock at_ db = some db') :
    ∃ es : List Event, (∀ e ∈ es, e.ByTick) ∧
      execute (step settings) ⟨db, .begun⟩ es = some ⟨db', .committed⟩ := by
  obtain ⟨due, hdue, rfl⟩ := Tick.tick_eq_some.mp h
  let reap := reapExpiredLeases db.scanJob settings.maxAttempts at_
  let recorded := Tick.afterReap settings clock at_ db
  refine ⟨.reap at_ :: (reap.2.map (fun entry => .record (clock.recorded entry.jobId)) ++
    .select :: .readClock clock.due ::
      (due.map (fun i => .enqueue (clock.scheduled i)) ++ [.commit])), ?_, ?_⟩
  · intro e he
    simp only [List.mem_cons, List.mem_append, List.mem_map, List.not_mem_nil, or_false] at he
    rcases he with rfl | ⟨entry, -, rfl⟩ | rfl | rfl | ⟨i, -, rfl⟩ | rfl <;> trivial
  · have hread : step settings ⟨recorded, .selected (Tick.candidates recorded)⟩
        (.readClock clock.due) = some ⟨recorded, .enqueueing clock.due due⟩ :=
      Option.map_eq_some_iff.mpr ⟨due, hdue, rfl⟩
    show execute (step settings) ⟨{ db with scanJob := reap.1 }, .recording reap.2⟩ _ = _
    rw [execute_records]
    show execute (step settings) ⟨recorded, .selected (Tick.candidates recorded)⟩ _ = _
    rw [execute_cons, hread, Option.bind_some, execute_enqueues]
    rfl

/-! ### Inversion -/

/-- What a step does. -/
inductive Moves (settings : Settings) (s : State) : Event → State → Prop where
  | reap (at_ : Timestamp) (phase : s.phase = .begun) :
      Moves settings s (.reap at_)
        ⟨{ s.db with scanJob := (reapExpiredLeases s.db.scanJob settings.maxAttempts at_).1 },
          .recording (reapExpiredLeases s.db.scanJob settings.maxAttempts at_).2⟩
  | record {entry : ReapedJob} {reaped : List ReapedJob} (now : Timestamp)
      (phase : s.phase = .recording (entry :: reaped)) :
      Moves settings s (.record now)
        ⟨Tick.recordReapedJob (stopped now) s.db entry, .recording reaped⟩
  | select (phase : s.phase = .recording []) :
      Moves settings s .select ⟨s.db, .selected (Tick.candidates s.db)⟩
  | readClock {candidates : List (ImageId × Image)} {due : List ImageId} (now : Timestamp)
      (phase : s.phase = .selected candidates)
      (reads : Tick.dueAmong settings now candidates = some due) :
      Moves settings s (.readClock now) ⟨s.db, .enqueueing now due⟩
  | enqueue {clock : Timestamp} {i : ImageId} {due : List ImageId} (now : Timestamp)
      (phase : s.phase = .enqueueing clock (i :: due)) :
      Moves settings s (.enqueue now)
        ⟨{ s.db with scanJob := (enqueue s.db.scanJob i priorityScheduled now).1 },
          .enqueueing clock due⟩
  | commit {clock : Timestamp} (phase : s.phase = .enqueueing clock []) :
      Moves settings s .commit ⟨s.db, .committed⟩
  | request (i : ImageId) (priority : ℤ) (now : Timestamp) :
      Moves settings s (.request i priority now)
        (s.withJobs (Queue.enqueue s.db.scanJob i priority now).1)
  | promote (i : ImageId) (now : Timestamp) :
      Moves settings s (.promote i now) (s.withJobs (Queue.promote s.db.scanJob i now).1)

/-- **The inversion of a step.** -/
theorem step_cases (h : step settings s e = some s') : Moves settings s e s' := by
  cases e with
  | reap at_ =>
    simp only [step] at h
    split at h
    · next hphase =>
      cases h
      exact .reap at_ hphase
    · cases h
  | record now =>
    simp only [step] at h
    split at h
    · next entry reaped hphase =>
      cases h
      exact .record now hphase
    · cases h
  | select =>
    simp only [step] at h
    split at h
    · next hphase =>
      cases h
      exact .select hphase
    · cases h
  | readClock now =>
    simp only [step] at h
    split at h
    · next candidates hphase =>
      obtain ⟨due, hreads, rfl⟩ := Option.map_eq_some_iff.mp h
      exact .readClock now hphase hreads
    · cases h
  | enqueue now =>
    simp only [step] at h
    split at h
    · next clock i due hphase =>
      cases h
      exact .enqueue now hphase
    · cases h
  | commit =>
    simp only [step] at h
    split at h
    · next clock hphase =>
      cases h
      exact .commit hphase
    · cases h
  | request i priority now =>
    simp only [step] at h
    split at h
    · cases h
      exact .request i priority now
    · cases h
  | promote i now =>
    cases h
    exact .promote i now

/-! ### Rows that stay -/

/-- A row changes only while it is pending, and stays pending then. -/
structure Still (job job' : ScanJob) : Prop where
  imageId : job'.imageId = job.imageId
  status : job'.status = job.status
  claimed : job.status ≠ .pending → job' = job

theorem Still.refl (job : ScanJob) : Still job job := ⟨rfl, rfl, fun _ => rfl⟩

theorem Still.trans {job' job'' : ScanJob} (h : Still job job') (h' : Still job' job'') :
    Still job job'' where
  imageId := h'.imageId.trans h.imageId
  status := h'.status.trans h.status
  claimed := fun hne => (h'.claimed (h.status ▸ hne)).trans (h.claimed hne)

theorem Still.isActive {job' : ScanJob} (h : Still job job') :
    isActive job' = isActive job := by
  rw [Queue.isActive, h.status, Queue.isActive]

/-- No row goes, and every row is still. -/
def Grows (jobs jobs' : Jobs) : Prop :=
  ∀ j job, jobs.get? j = some job → ∃ job', jobs'.get? j = some job' ∧ Still job job'

theorem Grows.refl (jobs : Jobs) : Grows jobs jobs := Serial.Carries.refl Still.refl jobs

theorem Grows.trans (h : Grows jobs jobs') (h' : Grows jobs' jobs'') : Grows jobs jobs'' :=
  Serial.Carries.trans h (fun _ _ _ => Still.trans) h'

theorem grows_enqueue (jobs : Jobs) (i : ImageId) (priority : ℤ) (now : Timestamp) :
    Grows jobs (enqueue jobs i priority now).1 :=
  fun _ job hj => ⟨job, get?_enqueue hj i priority now, .refl job⟩

theorem grows_promote (jobs : Jobs) (i : ImageId) (now : Timestamp) :
    Grows jobs (Queue.promote jobs i now).1 := by
  refine Serial.carries_mapRows jobs fun job => ?_
  exact ⟨imageId_promoteRow i now job, status_promoteRow i now job, Workers.promoteRow_of_ne⟩

/-- An image that has an active job keeps one. -/
theorem Grows.hasActive (h : Grows jobs jobs') (hactive : hasActive jobs i = true) :
    hasActive jobs' i = true := by
  obtain ⟨j, job, hj, himage, hactive⟩ := hasActive_iff.mp hactive
  obtain ⟨job', hj', hstill⟩ := h j job hj
  exact hasActive_iff.mpr ⟨j, job', hj', hstill.imageId.trans himage, hstill.isActive ▸ hactive⟩

/-- A row put in makes its image one with an active job. -/
theorem hasActive_enqueue (jobs : Jobs) (i : ImageId) (priority : ℤ) (now : Timestamp) :
    hasActive (enqueue jobs i priority now).1 i = true := by
  rw [enqueue]
  split
  · next hactive => exact hactive
  · exact hasActive_iff.mpr ⟨jobs.next, _, Serial.get?_insert_next jobs _, rfl,
      isActive_of_pending rfl⟩

/-! ### Since the reap -/

/-- What is left to record. -/
def Phase.unrecorded : Phase → List ReapedJob
  | .recording reaped => reaped
  | _ => []

/-- One failed run for each reaped job. -/
structure RunsOf (reaped : List ReapedJob) (runs : List ScanRun) : Prop where
  jobs : runs.map ScanRun.scanJobId = reaped.map fun entry => some entry.jobId
  failed : ∀ run ∈ runs, run.status = .failed

theorem RunsOf.concat {reaped : List ReapedJob} {runs : List ScanRun} (h : RunsOf reaped runs)
    (clock : Tick.Clock) (entry : ReapedJob) :
    RunsOf (reaped ++ [entry]) (runs ++ [Tick.reapedRun clock entry]) where
  jobs := by
    rw [List.map_append, List.map_append, h.jobs]
    rfl
  failed := by
    intro run hrun
    obtain hrun | hrun := List.mem_append.mp hrun
    · exact h.failed run hrun
    · rw [List.mem_singleton.mp hrun]
      rfl

/-- What holds since the reap at `at_` in `db`. -/
structure Since (settings : Settings) (db : Db) (at_ : Timestamp) (s : State) : Prop where
  phase : s.phase ≠ .begun
  unique : UniqueActive s.db.scanJob
  grows : Grows (reapExpiredLeases db.scanJob settings.maxAttempts at_).1 s.db.scanJob
  keys : s.db.image.keys = db.image.keys
  recorded : ∃ recorded runs, RunsOf recorded runs ∧
    (reapExpiredLeases db.scanJob settings.maxAttempts at_).2 = recorded ++ s.phase.unrecorded ∧
    s.db.scanRun = db.scanRun.insertAll runs

/-- Every job is of an image there is. -/
def Placed (db : Db) : Prop := ∀ j job, db.scanJob.get? j = some job → job.imageId ∈ db.image.keys

theorem since_reap (hunique : UniqueActive db.scanJob)
    (h : step settings ⟨db, .begun⟩ (.reap at_) = some s) : Since settings db at_ s := by
  cases h
  have hnone : RunsOf [] [] := ⟨rfl, fun _ hrun => absurd hrun List.not_mem_nil⟩
  exact ⟨nofun, uniqueActive_reap hunique _ _, Grows.refl _, rfl, [], [], hnone, rfl, rfl⟩

theorem Since.withJobs (hs : Since settings db at_ s) (hunique : UniqueActive jobs)
    (hgrows : Grows s.db.scanJob jobs) : Since settings db at_ (s.withJobs jobs) :=
  ⟨hs.phase, hunique, hs.grows.trans hgrows, hs.keys, hs.recorded⟩

theorem Since.withPhase (hs : Since settings db at_ s) {phase : Phase} (hphase : phase ≠ .begun)
    (h : s.phase.unrecorded = phase.unrecorded) : Since settings db at_ ⟨s.db, phase⟩ :=
  ⟨hphase, hs.unique, hs.grows, hs.keys, h ▸ hs.recorded⟩

/-- What every step after the reap keeps. -/
theorem Since.step (hplaced : Placed db) (hs : Since settings db at_ s)
    (h : Pass.step settings s e = some s') : Since settings db at_ s' := by
  cases step_cases h with
  | reap at_ hphase => exact absurd hphase hs.phase
  | record now hphase =>
    next entry reaped =>
    obtain ⟨recorded, runs, hruns, hreaped, hinsert⟩ := hs.recorded
    rw [hphase] at hreaped
    have hmem : entry ∈ (reapExpiredLeases db.scanJob settings.maxAttempts at_).2 := by
      rw [hreaped]
      exact List.mem_append_right _ List.mem_cons_self
    obtain ⟨job, hjob, -, himage, -⟩ := Tick.mem_reaped.mp hmem
    have hkey : entry.imageId ∈ s.db.image.keys := by
      rw [hs.keys, himage]
      exact hplaced _ job hjob
    obtain ⟨image, hrow⟩ := Dict.mem_keys_iff.mp hkey
    have hrecord := @Tick.recordReapedJob_of_some (stopped now) _ _ _ hrow
    refine ⟨nofun, ?_, ?_, ?_, recorded ++ [entry],
      runs ++ [Tick.reapedRun (stopped now) entry], ?_, ?_, ?_⟩
    · rw [hrecord]
      exact hs.unique
    · rw [hrecord]
      exact hs.grows
    · exact (Tick.keys_image_recordReapedJob _ _ _).trans hs.keys
    · exact hruns.concat (stopped now) entry
    · rw [hreaped, List.append_assoc]
      rfl
    · rw [hrecord, Serial.insertAll_concat, ← hinsert]
  | select hphase => exact hs.withPhase nofun (by rw [hphase]; rfl)
  | readClock now hphase hreads => exact hs.withPhase nofun (by rw [hphase]; rfl)
  | enqueue now hphase =>
    next clock i due =>
    have hs' : Since settings db at_ ⟨s.db, .enqueueing clock due⟩ :=
      hs.withPhase nofun (by rw [hphase]; rfl)
    exact hs'.withJobs (uniqueActive_enqueue hs.unique i priorityScheduled now)
      (grows_enqueue _ i priorityScheduled now)
  | commit hphase => exact hs.withPhase nofun (by rw [hphase]; rfl)
  | request i priority now =>
    exact hs.withJobs (uniqueActive_enqueue hs.unique i priority now)
      (grows_enqueue _ i priority now)
  | promote i now =>
    exact hs.withJobs (uniqueActive_promote hs.unique i now) (grows_promote _ i now)

theorem Since.of_reaches (hplaced : Placed db) (hs : Since settings db at_ s)
    (hrun : Reaches (Pass.step settings) (fun _ _ => True) s t) : Since settings db at_ t :=
  hrun.invariant (fun _ _ _ hs _ h => hs.step hplaced h) hs

/-! ### Images that are due -/

/-- An enabled image whose next due time has passed. -/
def Due (settings : Settings) (db : Db) (now : Timestamp) (i : ImageId) : Prop :=
  ∃ image, db.image.get? i = some image ∧ image.enabled = true ∧
    Tick.isDue settings now image = true

/-- Every enabled image is selected or has an active job, and every image that is due is to be
enqueued or has one; and no others are. -/
def Accounted (settings : Settings) (s : State) : Prop :=
  match s.phase with
  | .selected candidates =>
    (∀ e ∈ candidates, s.db.image.get? e.1 = some e.2 ∧ e.2.enabled = true) ∧
      ∀ i image, s.db.image.get? i = some image → image.enabled = true →
        (i, image) ∈ candidates ∨ hasActive s.db.scanJob i = true
  | .enqueueing now due =>
    (∀ i ∈ due, Due settings s.db now i) ∧
      ∀ i, Due settings s.db now i → i ∈ due ∨ hasActive s.db.scanJob i = true
  | _ => True

theorem mem_candidates {e : ImageId × Image} : e ∈ Tick.candidates db ↔
    db.image.get? e.1 = some e.2 ∧ e.2.enabled = true ∧ hasActive db.scanJob e.1 = false := by
  rw [Tick.candidates, List.mem_filter, ← Dict.get?_eq_some_iff, Bool.and_eq_true,
    Bool.not_eq_true']

theorem accounted_select : Accounted settings ⟨db, .selected (Tick.candidates db)⟩ := by
  refine ⟨fun e he => ?_, fun i image himage henabled => ?_⟩
  · obtain ⟨himage, henabled, -⟩ := mem_candidates.mp he
    exact ⟨himage, henabled⟩
  · cases hactive : hasActive db.scanJob i with
    | true => exact Or.inr rfl
    | false => exact Or.inl (mem_candidates.mpr ⟨himage, henabled, hactive⟩)

/-- More rows leave no image out. -/
theorem Accounted.withJobs (hs : Accounted settings s) (hgrows : Grows s.db.scanJob jobs) :
    Accounted settings (s.withJobs jobs) := by
  obtain ⟨db, phase⟩ := s
  cases phase with
  | selected candidates =>
    exact ⟨hs.1, fun i image himage henabled =>
      (hs.2 i image himage henabled).imp_right hgrows.hasActive⟩
  | enqueueing now due => exact ⟨hs.1, fun i hdue => (hs.2 i hdue).imp_right hgrows.hasActive⟩
  | begun => trivial
  | recording reaped => trivial
  | committed => trivial

theorem Accounted.step (hs : Accounted settings s) (h : Pass.step settings s e = some s') :
    Accounted settings s' := by
  cases step_cases h with
  | reap at_ hphase => trivial
  | record now hphase => trivial
  | select hphase => exact accounted_select
  | readClock now hphase hreads =>
    next candidates due =>
    rw [Accounted, hphase] at hs
    obtain ⟨hselected, hall⟩ := hs
    obtain rfl := Tick.eq_of_dueAmong hreads
    refine ⟨fun i hi => ?_, fun i hdue => ?_⟩
    · obtain ⟨e, he, rfl⟩ := List.mem_map.mp hi
      obtain ⟨hmem, hdue⟩ := List.mem_filter.mp he
      obtain ⟨himage, henabled⟩ := hselected e hmem
      exact ⟨e.2, himage, henabled, hdue⟩
    · obtain ⟨image, himage, henabled, hdue⟩ := hdue
      refine (hall i image himage henabled).imp_left fun hmem => ?_
      exact List.mem_map.mpr ⟨(i, image), List.mem_filter.mpr ⟨hmem, hdue⟩, rfl⟩
  | enqueue now hphase =>
    next clock i due =>
    rw [Accounted, hphase] at hs
    obtain ⟨hdue, hall⟩ := hs
    refine ⟨fun i' hi' => hdue i' (List.mem_cons_of_mem _ hi'), fun i' hi' => ?_⟩
    obtain hmem | hactive := hall i' hi'
    · obtain rfl | hmem := List.mem_cons.mp hmem
      · exact Or.inr (hasActive_enqueue s.db.scanJob i' priorityScheduled now)
      · exact Or.inl hmem
    · exact Or.inr ((grows_enqueue _ _ _ _).hasActive hactive)
  | commit hphase => trivial
  | request i priority now => exact hs.withJobs (grows_enqueue _ i priority now)
  | promote i now => exact hs.withJobs (grows_promote _ i now)

theorem accounted_of_reaches
    (hrun : Reaches (Pass.step settings) (fun _ _ => True) ⟨db, .begun⟩ s) : Accounted settings s :=
  hrun.invariant (fun _ _ _ hs _ h => hs.step h) trivial

/-- A row that was not there is the new one. -/
theorem of_get?_enqueue {priority : ℤ} (hj : (enqueue jobs i priority now).1.get? j = some job)
    (hnone : jobs.get? j = none) : hasActive jobs i = false ∧ job.imageId = i := by
  rw [enqueue] at hj
  split at hj
  · exact absurd (hj.symm.trans hnone) (Option.some_ne_none job)
  · next hactive =>
    rw [Serial.get?_insert] at hj
    split at hj
    · rw [← Option.some.inj hj]
      exact ⟨Bool.eq_false_iff.mpr hactive, rfl⟩
    · exact absurd (hj.symm.trans hnone) (Option.some_ne_none job)

theorem scanJob_recordReapedJob (clock : Tick.Clock) (db : Db) (entry : ReapedJob) :
    (Tick.recordReapedJob clock db entry).scanJob = db.scanJob :=
  Tick.scanJob_recordReaped clock db [entry]

/-- **`tick` creates jobs for due images without an active job only.** -/
theorem created_of_reaches
    (hrun : Reaches (Pass.step settings) (fun _ _ => True) ⟨db, .begun⟩ s) (he : e.ByTick)
    (h : Pass.step settings s e = some s') (hnone : s.db.scanJob.get? j = none)
    (hj : s'.db.scanJob.get? j = some job) :
    ∃ clock due, s.phase = .enqueueing clock due ∧ Due settings s.db clock job.imageId ∧
      hasActive s.db.scanJob job.imageId = false := by
  cases step_cases h with
  | reap at_ hphase =>
    rw [reapExpiredLeases, Serial.get?_mapRows, hnone] at hj
    cases hj
  | record now hphase =>
    rw [scanJob_recordReapedJob, hnone] at hj
    cases hj
  | select hphase => exact absurd (hj.symm.trans hnone) (Option.some_ne_none job)
  | readClock now hphase hreads => exact absurd (hj.symm.trans hnone) (Option.some_ne_none job)
  | enqueue now hphase =>
    next clock i due =>
    obtain ⟨hactive, rfl⟩ := of_get?_enqueue hj hnone
    have hs := accounted_of_reaches hrun
    rw [Accounted, hphase] at hs
    exact ⟨clock, _, hphase, hs.1 _ List.mem_cons_self, hactive⟩
  | commit hphase => exact absurd (hj.symm.trans hnone) (Option.some_ne_none job)
  | request i priority now => exact he.elim
  | promote i now => exact he.elim

/-! ### A pass that commits -/

/-- A pass over `db` that commits: it reaps at `at_`, and reads the clock at `now` in the state
`selected`. Requests come in between. -/
structure Commits (settings : Settings) (db : Db) (at_ now : Timestamp)
    (selected committed : State) : Prop where
  reaps : ∃ t, step settings ⟨db, .begun⟩ (.reap at_) = some t ∧
    Reaches (step settings) (fun _ _ => True) t selected
  reads : ∃ t u, step settings selected (.readClock now) = some t ∧
    Reaches (step settings) (fun _ _ => True) t u ∧ step settings u .commit = some committed

section Committing

variable {selected committed : State}

theorem Commits.reaches (h : Commits settings db at_ now selected committed) :
    Reaches (step settings) (fun _ _ => True) ⟨db, .begun⟩ selected := by
  obtain ⟨t, hreap, hrun⟩ := h.reaps
  exact Reaches.head trivial hreap hrun

theorem Commits.since (h : Commits settings db at_ now selected committed)
    (hunique : UniqueActive db.scanJob) (hplaced : Placed db) :
    Since settings db at_ committed := by
  obtain ⟨t, hreap, hrun⟩ := h.reaps
  obtain ⟨u, v, hread, hrun', hcommit⟩ := h.reads
  have hselected := (since_reap hunique hreap).of_reaches hplaced hrun
  exact ((hselected.step hplaced hread).of_reaches hplaced hrun').step hplaced hcommit

theorem Commits.phase (h : Commits settings db at_ now selected committed) :
    committed.phase = .committed := by
  obtain ⟨-, u, -, -, hcommit⟩ := h.reads
  cases step_cases hcommit with
  | commit hphase => rfl

/-! ### What was reaped -/

theorem get?_reaped (hj : jobs.get? j = some job) (maxAttempts : ℤ) (at_ : Timestamp) :
    (reapExpiredLeases jobs maxAttempts at_).1.get? j = some (reapRow maxAttempts at_ job) := by
  rw [reapExpiredLeases, Serial.get?_mapRows, hj, Option.map_some]

theorem status_reapRow {maxAttempts : ℤ} (h : reapable at_ job = true) :
    (reapRow maxAttempts at_ job).status = .pending ∨
      (reapRow maxAttempts at_ job).status = .failed := by
  rw [reapRow, if_pos h]
  by_cases hexhausted : maxAttempts ≤ job.attempts + 1
  · exact Or.inr (if_pos hexhausted)
  · exact Or.inl (if_neg hexhausted)

/-- The jobs that were reaped are tried again or given up. -/
theorem Commits.status_reaped (h : Commits settings db at_ now selected committed)
    (hunique : UniqueActive db.scanJob) (hplaced : Placed db) (hj : db.scanJob.get? j = some job)
    (hreapable : reapable at_ job = true) : ∃ job', committed.db.scanJob.get? j = some job' ∧
      (job'.status = .pending ∨ job'.status = .failed) := by
  obtain ⟨job', hj', hstill⟩ := (h.since hunique hplaced).grows j _ (get?_reaped hj _ at_)
  refine ⟨job', hj', ?_⟩
  rw [hstill.status]
  exact status_reapRow hreapable

/-- Each of them has one new run, a failed one. -/
theorem Commits.run_reaped (h : Commits settings db at_ now selected committed)
    (hunique : UniqueActive db.scanJob) (hplaced : Placed db) (hj : db.scanJob.get? j = some job)
    (hreapable : reapable at_ job = true) :
    ∃ run, ((db.scanRun.added committed.db.scanRun).filter fun run =>
      decide (run.scanJobId = some j)) = [run] ∧ run.status = .failed := by
  obtain ⟨reaped, runs, hruns, hreaped, hinsert⟩ := (h.since hunique hplaced).recorded
  rw [h.phase] at hreaped
  have hall : (reapExpiredLeases db.scanJob settings.maxAttempts at_).2 = reaped :=
    hreaped.trans (List.append_nil reaped)
  let entry : ReapedJob :=
    ⟨j, job.imageId, decide ((reapRow settings.maxAttempts at_ job).status = .failed)⟩
  have hentry : entry ∈ reaped := hall ▸ Tick.mem_reaped.mpr ⟨job, hj, hreapable, rfl, rfl⟩
  have hnodup : (runs.map ScanRun.scanJobId).Nodup := by
    have hjobs : runs.map ScanRun.scanJobId = (reaped.map ReapedJob.jobId).map some := by
      rw [hruns.jobs, List.map_map]
      rfl
    rw [hjobs, ← hall]
    exact Tick.nodup_jobId_reaped.map (Option.some_injective JobId)
  have hmem : some j ∈ runs.map ScanRun.scanJobId := by
    rw [hruns.jobs]
    exact List.mem_map.mpr ⟨entry, hentry, rfl⟩
  obtain ⟨run, hrun, hjob⟩ := List.mem_map.mp hmem
  refine ⟨run, ?_, hruns.failed run hrun⟩
  rw [hinsert, Serial.added_insertAll, ← hjob]
  exact Dict.filter_key_eq_singleton hnodup hrun

/-- A job that is not reaped, and not pending, is as it was. -/
theorem Commits.get?_of_not_reapable (h : Commits settings db at_ now selected committed)
    (hunique : UniqueActive db.scanJob) (hplaced : Placed db) (hj : db.scanJob.get? j = some job)
    (hnot : reapable at_ job = false) (hclaimed : job.status ≠ .pending) :
    committed.db.scanJob.get? j = some job := by
  have hrow : reapRow settings.maxAttempts at_ job = job := by
    rw [reapRow, hnot]
    rfl
  have hreaped := get?_reaped hj settings.maxAttempts at_
  rw [hrow] at hreaped
  obtain ⟨job', hj', hstill⟩ := (h.since hunique hplaced).grows j job hreaped
  rw [← hstill.claimed hclaimed]
  exact hj'

/-! ### What was due -/

/-- In the loop, or past it: the images are as they were selected, and the clock as it was read. -/
def Looping (image : Dict ImageId Image) (now : Timestamp) (s : State) : Prop :=
  s.db.image = image ∧ (s.phase = .committed ∨ ∃ due, s.phase = .enqueueing now due)

theorem Looping.step {image : Dict ImageId Image} (hs : Looping image now s)
    (h : Pass.step settings s e = some s') : Looping image now s' := by
  obtain ⟨himage, hloop⟩ := hs
  cases step_cases h with
  | reap at_ hphase => simp [hphase] at hloop
  | record now hphase => simp [hphase] at hloop
  | select hphase => simp [hphase] at hloop
  | readClock now hphase hreads => simp [hphase] at hloop
  | enqueue now hphase =>
    rw [hphase] at hloop
    obtain hloop | ⟨due, hloop⟩ := hloop
    · cases hloop
    · cases hloop
      exact ⟨himage, Or.inr ⟨_, rfl⟩⟩
  | commit hphase => exact ⟨himage, Or.inl rfl⟩
  | request i priority now => exact ⟨himage, hloop⟩
  | promote i now => exact ⟨himage, hloop⟩

/-- Every image that was due has one active job. -/
theorem Commits.active_of_due (h : Commits settings db at_ now selected committed)
    (hunique : UniqueActive db.scanJob) (hplaced : Placed db)
    (hdue : Due settings selected.db now i) :
    ∃! j, ∃ job,
      committed.db.scanJob.get? j = some job ∧ job.imageId = i ∧ isActive job = true := by
  have hsince := h.since hunique hplaced
  obtain ⟨t, u, hread, hrun, hcommit⟩ := h.reads
  have hloop : Looping selected.db.image now t := by
    cases step_cases hread with
    | readClock now hphase hreads => exact ⟨rfl, Or.inr ⟨_, rfl⟩⟩
  have hloop : Looping selected.db.image now u :=
    hrun.invariant (fun _ _ _ hs _ hstep => hs.step hstep) hloop
  have hactive : hasActive committed.db.scanJob i = true := by
    have haccounted : Accounted settings u :=
      accounted_of_reaches ((h.reaches.tail trivial hread).trans hrun)
    cases step_cases hcommit with
    | commit hphase =>
      next clock =>
      rw [Accounted, hphase] at haccounted
      obtain ⟨himage, hcommitted | ⟨due, hdue'⟩⟩ := hloop
      · rw [hphase] at hcommitted
        cases hcommitted
      · rw [hphase] at hdue'
        cases hdue'
        have hdue : Due settings u.db now i := by
          rw [Due, himage]
          exact hdue
        obtain hmem | hactive := haccounted.2 i hdue
        · cases hmem
        · exact hactive
  obtain ⟨j, job, hj, himage, hactive⟩ := hasActive_iff.mp hactive
  refine ⟨j, ⟨job, hj, himage, hactive⟩, ?_⟩
  rintro j' ⟨job', hj', himage', hactive'⟩
  exact hsince.unique j' j job' job hj' hj hactive' hactive (himage'.trans himage.symm)

end Committing

end Pass

end ContainerScanner
