import ContainerScanner.Foundation.Journal
import ContainerScanner.Foundation.Spacing
import ContainerScanner.Jobs.Fairness
import ContainerScanner.Lifecycle.Invariant
import ContainerScanner.Scheduler.Backoff
import ContainerScanner.Scheduler.Pass

/-!
# How often an image is scanned

The scheduler puts in a job for an image when none is active and an interval has passed since the
last scan. What this says about a run is that the jobs of an image are an interval apart, and more
while its jobs are given up: an image whose reference is gone for good is put in at intervals that
double until they reach the cap.

The interval is counted from a clock that whoever recorded the scan has read. When it is behind the
scheduler's, by at most the skew, so is the next job.

## Main definitions

* `Put`, `putIn` — a job that a pass puts in for an image
* `InOrder` — clocks that are apart by at most the skew
* `Turn` — what a step means to one image

## Main results

* `turn_of_step` — what every fenced step means to every image
* `scheduler_paced` — the jobs of an image are spaced by its interval and its backoff
* `dead_reference_backs_off` — and double their distance while no scan of the image finishes
-/

namespace ContainerScanner

open Foundation Queue

namespace Pacing

open Lifecycle (Event Report Kept)
open Workers (WorkerId Held)

/-! ### The jobs that are put in -/

/-- A job that a scheduling pass puts in: the clock by which its image was due, and the failure
streak the pass has read. -/
structure Put where
  due : Timestamp
  streak : ℕ
  deriving DecidableEq

/-- What a step puts in for an image, if it is a pass and the image is due. -/
def putIn (settings : Settings) (i : ImageId) (s : Lifecycle.State) : Timestamp × Event → Option Put
  | (at_, .tick clock) =>
    let db := Tick.afterReap settings clock at_ s.database
    if ∃ due ∈ Tick.dueImages settings db clock.due, i ∈ due then
      (db.image.get? i).map fun image => ⟨clock.due, image.consecutiveFailures⟩
    else none
  | _ => none

/-- The system, with the last job that was put in for each image. No step of the system reads it. -/
structure State where
  system : Lifecycle.State
  last : ImageId → Option Put

def State.start (db : Db) (clock : Timestamp) : State :=
  ⟨Lifecycle.State.start db clock, fun _ => none⟩

def step (settings : Settings) (s : State) (e : Timestamp × Event) : Option State :=
  (Lifecycle.step settings s.system e).map fun system =>
    ⟨system, fun i => (putIn settings i s.system e).or (s.last i)⟩

/-! ### Clocks -/

/-- The time a report stamps on its image. -/
def completedAt : Report → Option Timestamp
  | .success _ metadata => some metadata.completedAt
  | .skip metadata => some metadata.completedAt
  | .fail _ _ _ _ _ completedAt => some completedAt
  | .defer _ _ _ _ => none

/-- The times a step stamps on images. -/
def stamps (settings : Settings) (s : Lifecycle.State) :
    Timestamp × Event → List (ImageId × Timestamp)
  | (_, .report w report) =>
    (s.queue.held w).toList.flatMap fun held =>
      (completedAt report).toList.map fun t => (held.loaded.imageId, t)
  | (at_, .tick clock) =>
    (reapExpiredLeases s.queue.jobs settings.maxAttempts at_).2.map fun entry =>
      (entry.imageId, clock.recorded entry.jobId)
  | _ => []

/-- No worker reports on a claim that the reaper has ended, and what is stamped on an image is no
more than the skew behind the clock by which its last job was put in. -/
def InOrder (settings : Settings) (skew : ℤ) (s : State) (e : Timestamp × Event) : Prop :=
  Lifecycle.Fenced s.system e ∧ ∀ stamp ∈ stamps settings s.system e,
    ∀ p ∈ s.last stamp.1, p.due ≤ stamp.2 + skew

instance (settings : Settings) (skew : ℤ) (s : State) (e : Timestamp × Event) :
    Decidable (InOrder settings skew s e) :=
  inferInstanceAs (Decidable (_ ∧ ∀ stamp ∈ stamps settings s.system e,
    ∀ p ∈ s.last stamp.1, p.due ≤ stamp.2 + skew))

/-- Does a report end a streak? -/
def finishes : Report → Bool
  | .success _ _ => true
  | .skip _ => true
  | .fail _ _ _ _ _ _ => false
  | .defer _ _ _ _ => false

/-- Is the step a success or a skip of the image? -/
def finishesImage (i : ImageId) (s : Lifecycle.State) : Timestamp × Event → Bool
  | (_, .report w report) =>
    finishes report && (s.queue.held w).any fun held => decide (held.loaded.imageId = i)
  | _ => false

/-- Clocks in order, and no success or skip of the image. -/
def Hopeless (settings : Settings) (skew : ℤ) (i : ImageId) (s : State) (e : Timestamp × Event) :
    Prop :=
  InOrder settings skew s e ∧ finishesImage i s.system e = false

instance (settings : Settings) (skew : ℤ) (i : ImageId) (s : State) (e : Timestamp × Event) :
    Decidable (Hopeless settings skew i s e) :=
  inferInstanceAs (Decidable (_ ∧ finishesImage i s.system e = false))

/-! ### One image -/

variable {settings : Settings} {s s' : Lifecycle.State} {at_ : Timestamp} {clock : Tick.Clock}
  {due : List ImageId} {i : ImageId} {jobs jobs' : Jobs} {row row' : Option Image} {skew : ℤ}
  {p : Put} {marks : List (ImageId × Timestamp)} {finished : Prop}

/-- What a step means to one image: nothing, or a scan is recorded. -/
inductive Turn (i : ImageId) (marks : List (ImageId × Timestamp)) (finished : Prop)
    (jobs jobs' : Jobs) : Option Image → Option Image → Prop
  | quiet {row : Option Image} (active : hasActive jobs i = true → hasActive jobs' i = true) :
      Turn i marks finished jobs jobs' row row
  | recorded {image new : Image} {t : Timestamp} (mark : (i, t) ∈ marks)
      (lastScanAt : new.lastScanAt = some t)
      (interval : new.scanIntervalSeconds = image.scanIntervalSeconds)
      (streak : finished ∨ image.consecutiveFailures ≤ new.consecutiveFailures ∧
        (hasActive jobs' i = true ∨ image.consecutiveFailures + 1 ≤ new.consecutiveFailures)) :
      Turn i marks finished jobs jobs' (some image) (some new)

/-- Since the job was put in, an active job or a stamp that is late enough. -/
def Rested (skew : ℤ) (p : Put) (i : ImageId) (jobs : Jobs) (row : Option Image) : Prop :=
  hasActive jobs i = true ∨
    ∃ image t, row = some image ∧ image.lastScanAt = some t ∧ p.due ≤ t + skew

/-- Since the job was put in, an active job or a longer streak. -/
def Failing (p : Put) (i : ImageId) (jobs : Jobs) (row : Option Image) : Prop :=
  ∃ image, row = some image ∧ p.streak ≤ image.consecutiveFailures ∧
    (hasActive jobs i = true ∨ p.streak + 1 ≤ image.consecutiveFailures)

theorem Rested.turn (h : Rested skew p i jobs row) (ht : Turn i marks finished jobs jobs' row row')
    (hmarks : ∀ t, (i, t) ∈ marks → p.due ≤ t + skew) : Rested skew p i jobs' row' := by
  cases ht with
  | quiet active => exact h.imp_left active
  | recorded mark lastScanAt interval streak =>
    exact Or.inr ⟨_, _, rfl, lastScanAt, hmarks _ mark⟩

theorem Failing.turn (h : Failing p i jobs row) (ht : Turn i marks finished jobs jobs' row row')
    (hnot : ¬ finished) : Failing p i jobs' row' := by
  obtain ⟨image, rfl, hle, hactive⟩ := h
  cases ht with
  | quiet active => exact ⟨image, rfl, hle, hactive.imp_left active⟩
  | recorded mark lastScanAt interval streak =>
    obtain ⟨hgrows, hactive'⟩ := streak.resolve_left hnot
    exact ⟨_, rfl, hle.trans hgrows,
      hactive'.imp_right fun hlonger => (Nat.add_le_add_right hle 1).trans hlonger⟩

/-- No step changes how often an image is to be scanned. -/
theorem Turn.interval (ht : Turn i marks finished jobs jobs' row row') :
    row'.map Image.scanIntervalSeconds = row.map Image.scanIntervalSeconds := by
  cases ht with
  | quiet => rfl
  | recorded mark lastScanAt interval streak => exact congrArg some interval

/-! ### Reports -/

section Report

variable {w : WorkerId} {report : Report} {held : Held} {db db' : Db} {image : Image}

/-- What a report writes to its image, when the object is the row. -/
theorem commitReport_image {loaded : Option Image}
    (h : Lifecycle.commitReport settings db held loaded report = some db')
    (hrow : db.scanJob.get? held.job = some held.loaded)
    (hget : db.image.get? held.loaded.imageId = some image)
    (hobject : ∀ object ∈ loaded, object = image) :
    completedAt report = none ∧ db'.image = db.image ∨
      ∃ t f, completedAt report = some t ∧
        db'.image = db.image.update held.loaded.imageId f ∧ (f image).lastScanAt = some t ∧
        (f image).scanIntervalSeconds = image.scanIntervalSeconds ∧
        (finishes report = true ∨ (f image).consecutiveFailures =
          if (report.outcome.change settings held.loaded).status = .failed then
            image.consecutiveFailures + 1
          else image.consecutiveFailures) := by
  have hwritten : ∀ f, (Lifecycle.writeImage db held.loaded.imageId image (f image)).image =
      db.image.update held.loaded.imageId f :=
    fun f => congrArg Db.image (Lifecycle.writeImage_eq hget f)
  cases report with
  | success report metadata =>
    obtain ⟨object, hloaded, rfl⟩ := Option.map_eq_some_iff.mp h
    obtain rfl := hobject object hloaded
    exact Or.inr ⟨_, _, rfl, hwritten (Persist.pointTo db.scanRun.next metadata), rfl, rfl,
      Or.inl rfl⟩
  | skip metadata =>
    obtain ⟨object, hloaded, rfl⟩ := Option.map_eq_some_iff.mp h
    obtain rfl := hobject object hloaded
    exact Or.inr ⟨_, _, rfl, hwritten (Persist.skipImage metadata), rfl, rfl, Or.inl rfl⟩
  | fail error permanent refreshed now startedAt completedAt =>
    have hsame : (if refreshed then (db.scanJob.get? held.job).getD held.loaded
        else held.loaded) = held.loaded := by
      rw [hrow]
      exact ite_self _
    have hfound : (if refreshed then none else loaded).or
        (db.image.get? held.loaded.imageId) = some image := by
      rw [hget]
      cases refreshed with
      | true => rfl
      | false =>
        cases loaded with
        | none => rfl
        | some object => exact congrArg some (hobject object rfl)
    simp only [Lifecycle.commitReport, hsame, hfound] at h
    obtain rfl := Option.some.inj h
    refine Or.inr ⟨_, _, rfl, hwritten (Persist.failImage _ _), rfl, rfl, Or.inr ?_⟩
    simp [Persist.failImage]
  | defer delaySeconds reason refreshed now =>
    obtain rfl := Option.some.inj h
    exact Or.inl ⟨rfl, rfl⟩

/-- A report that does not end its job puts it back. -/
theorem pending_of_change {job : ScanJob} (hfinishes : finishes report = false)
    (hstatus : (report.outcome.change settings job).status ≠ .failed) :
    (report.outcome.change settings job).status = .pending := by
  cases report with
  | success | skip => cases hfinishes
  | defer => rfl
  | fail error permanent refreshed now startedAt completedAt =>
    obtain hfailed | ⟨job', heq, hpending, -⟩ := Workers.fail_cases error
      (if permanent then 1 else settings.maxAttempts) settings.backoffBaseSeconds
      settings.backoffMaxSeconds now job
    · exact absurd hfailed hstatus
    · exact (congrArg ScanJob.status heq).trans hpending

/-- What a report means to an image. -/
theorem turn_of_report (hs : Kept s) (hf : ∀ held ∈ s.queue.held w, held.claim ∉ s.queue.reaped)
    (h : Lifecycle.Reports settings s w report held db s') (i : ImageId) :
    Turn i (stamps settings s (at_, .report w report))
      (finishesImage i s (at_, .report w report) = true) s.queue.jobs s'.queue.jobs
      (s.db.image.get? i) (s'.db.image.get? i) := by
  have hdb : s'.db = db := congrArg Lifecycle.State.db h.state
  have himage : held.loaded.imageId ∈ s.db.image.keys := hs.placed _ _ h.loaded
  obtain ⟨image, hget⟩ := Dict.mem_keys_iff.mp himage
  have hobject : ∀ object ∈ s.images w, object = image := by
    intro object hloaded
    have hfresh := hs.objects w held object h.holds (hf held h.holds) hloaded
    exact Option.some.inj (hfresh.symm.trans hget)
  -- the job stays active unless the report ends it
  have hkeeps : ∀ i, held.loaded.imageId ≠ i ∨
      (report.outcome.change settings held.loaded).status = .pending →
      hasActive s.queue.jobs i = true → hasActive s'.queue.jobs i = true := by
    intro i hstill hactive
    obtain ⟨j, job, hj, hi, hjob⟩ := hasActive_iff.mp hactive
    by_cases heq : j = held.job
    · subst heq
      rw [h.loaded] at hj
      obtain rfl := Option.some.inj hj
      have hpending := hstill.resolve_left fun hne => hne hi
      refine hasActive_iff.mpr ⟨held.job, _, (h.jobs _).trans (if_pos rfl), ?_,
        isActive_of_pending hpending⟩
      exact (Workers.imageId_change settings _ _).trans hi
    · exact hasActive_iff.mpr ⟨j, job, (h.jobs j).trans ((if_neg heq).trans hj), hi, hjob⟩
  rw [hdb]
  obtain ⟨hnone, hsame⟩ | ⟨t, f, hstamp, hupdate, hlast, hinterval, hstreak⟩ :=
    commitReport_image h.commits h.loaded hget hobject
  · rw [hsame]
    refine .quiet (hkeeps i (Or.inr ?_))
    cases report with
    | defer => rfl
    | success | skip | fail => cases hnone
  · have hrows : db.image = s.db.image.update held.loaded.imageId f := hupdate
    rw [hrows, Dict.get?_update]
    by_cases hi : i = held.loaded.imageId
    · subst hi
      rw [if_pos rfl, hget, Option.map_some]
      refine .recorded ?_ hlast hinterval ?_
      · rw [stamps, h.holds, hstamp]
        exact List.mem_singleton_self _
      · rw [finishesImage, h.holds]
        cases hfinishes : finishes report with
        | true => exact Or.inl (by simp)
        | false =>
          have hstreak := hstreak.resolve_left (by rw [hfinishes]; exact Bool.false_ne_true)
          right
          rw [hstreak]
          split
          · exact ⟨Nat.le_succ _, Or.inr le_rfl⟩
          · next hretried =>
            have hpending := pending_of_change hfinishes hretried
            refine ⟨le_rfl, Or.inl (hkeeps _ (Or.inr hpending) ?_)⟩
            exact hasActive_iff.mpr ⟨held.job, held.loaded, h.loaded, rfl,
              isActive_of_running h.running⟩
    · rw [if_neg hi]
      exact .quiet (hkeeps i (Or.inl (Ne.symm hi)))

end Report

/-! ### Scheduling passes -/

/-- A row that is not reaped stays as it is. -/
theorem get?_reap_of_ne {maxAttempts : ℤ} {j : JobId} {job : ScanJob} (hj : jobs.get? j = some job)
    (hnot : ¬ reapable at_ job = true) :
    (reapExpiredLeases jobs maxAttempts at_).1.get? j = some job := by
  show (jobs.mapRows (reapRow maxAttempts at_)).get? j = _
  rw [Serial.get?_mapRows, hj, Option.map_some, reapRow, if_neg hnot]

/-- A reaped job that is not over goes back to the queue. -/
theorem hasActive_of_reaped {maxAttempts : ℤ} {entry : ReapedJob}
    (hentry : entry ∈ (reapExpiredLeases jobs maxAttempts at_).2)
    (hexhausted : entry.exhausted = false) :
    hasActive (reapExpiredLeases jobs maxAttempts at_).1 entry.imageId = true := by
  obtain ⟨job, hjob, hreapable, himage, hend⟩ := Tick.mem_reaped.mp hentry
  rw [hend] at hexhausted
  have hretried : ¬ maxAttempts ≤ job.attempts + 1 := by
    intro hover
    simp [reapRow, hreapable, hover] at hexhausted
  refine hasActive_iff.mpr ⟨entry.jobId, reapRow maxAttempts at_ job, ?_, ?_, ?_⟩
  · show (jobs.mapRows (reapRow maxAttempts at_)).get? entry.jobId = _
    rw [Serial.get?_mapRows, hjob, Option.map_some]
  · rw [imageId_reapRow, himage]
  · rw [reapRow, if_pos hreapable, if_neg hretried]
    exact isActive_of_pending rfl

/-- What the reaping means to an image. -/
theorem turn_of_reap (hs : Kept s) (i : ImageId) :
    Turn i (stamps settings s (at_, .tick clock)) finished s.queue.jobs
      (reapExpiredLeases s.queue.jobs settings.maxAttempts at_).1 (s.db.image.get? i)
      ((Tick.afterReap settings clock at_ s.database).image.get? i) := by
  by_cases hi : i ∈ (reapExpiredLeases s.queue.jobs settings.maxAttempts at_).2.map
      ReapedJob.imageId
  · obtain ⟨entry, hentry, rfl⟩ := List.mem_map.mp hi
    obtain ⟨job, hjob, -, himage, -⟩ := Tick.mem_reaped.mp hentry
    have hkey : entry.imageId ∈ s.db.image.keys := himage ▸ hs.placed _ _ hjob
    obtain ⟨image, hget⟩ := Dict.mem_keys_iff.mp hkey
    have hafter : (Tick.afterReap settings clock at_ s.database).image.get? entry.imageId =
        some (Persist.failImage (Worker.failedMetadata (clock.recorded entry.jobId)
          (clock.recorded entry.jobId)) entry.exhausted image) := by
      refine (Tick.get?_image_recordReaped
        (Tick.nodup_imageId_reaped s.queue.uniqueActive) hentry).trans ?_
      show (s.db.image.get? entry.imageId).map _ = _
      rw [hget, Option.map_some]
    rw [hget, hafter]
    refine .recorded (List.mem_map_of_mem hentry) rfl rfl (Or.inr ?_)
    cases hexhausted : entry.exhausted with
    | true => exact ⟨Nat.le_succ _, Or.inr le_rfl⟩
    | false => exact ⟨le_rfl, Or.inl (hasActive_of_reaped hentry hexhausted)⟩
  · have hafter : (Tick.afterReap settings clock at_ s.database).image.get? i = s.db.image.get? i :=
      Tick.get?_image_recordReaped_of_notMem hi
    rw [hafter]
    refine .quiet fun hactive => ?_
    obtain ⟨j, job, hj, himage, hjob⟩ := hasActive_iff.mp hactive
    refine hasActive_iff.mpr ⟨j, job, get?_reap_of_ne hj fun hreapable => hi ?_, himage, hjob⟩
    exact List.mem_map.mpr ⟨⟨j, job.imageId, _⟩, Tick.mem_reaped.mpr
      ⟨job, hj, hreapable, rfl, rfl⟩, himage⟩

theorem grows_enqueueAll (clock : Tick.Clock) (jobs : Jobs) (due : List ImageId) :
    Pass.Grows jobs (Tick.enqueueAll clock jobs due) := by
  induction due generalizing jobs with
  | nil => exact Pass.Grows.refl jobs
  | cons i due ih =>
    exact (Pass.grows_enqueue jobs i priorityScheduled (clock.scheduled i)).trans (ih _)

/-- Every image that is put in has an active job. -/
theorem hasActive_enqueueAll {due : List ImageId} (hi : i ∈ due) (clock : Tick.Clock)
    (jobs : Jobs) : hasActive (Tick.enqueueAll clock jobs due) i = true := by
  induction due generalizing jobs with
  | nil => cases hi
  | cons first due ih =>
    obtain rfl | hi := List.mem_cons.mp hi
    · exact (grows_enqueueAll clock _ due).hasActive (Pass.hasActive_enqueue jobs i _ _)
    · exact ih hi _

/-! ### Steps -/

/-- A job is put in for the image: none was active, its time had come, and now one is. -/
structure PutsIn (settings : Settings) (i : ImageId) (p : Put) (jobs jobs' : Jobs)
    (row : Option Image) : Prop where
  idle : hasActive jobs i = false
  active : hasActive jobs' i = true
  due : ∃ image, row = some image ∧ p.streak = image.consecutiveFailures ∧
    Tick.isDue settings p.due image = true

/-- What a step does about an image: a turn, and then a job may be put in. -/
def Advances (settings : Settings) (i : ImageId) (s : Lifecycle.State) (e : Timestamp × Event)
    (s' : Lifecycle.State) : Prop :=
  ∃ jobs, Turn i (stamps settings s e) (finishesImage i s e = true) s.queue.jobs jobs
      (s.db.image.get? i) (s'.db.image.get? i) ∧
    (hasActive jobs i = true → hasActive s'.queue.jobs i = true) ∧
    ∀ p ∈ putIn settings i s e, PutsIn settings i p jobs s'.queue.jobs (s'.db.image.get? i)

theorem advances_of_tick (hs : Kept s) (h : Lifecycle.Ticks settings s at_ clock due s')
    (i : ImageId) : Advances settings i s (at_, .tick clock) s' := by
  have himages : s'.db.image = (Tick.afterReap settings clock at_ s.database).image := by
    rw [h.db]
    rfl
  refine ⟨_, himages ▸ turn_of_reap hs i, fun hactive => ?_, fun p hp => ?_⟩
  · rw [h.jobs]
    exact (grows_enqueueAll clock _ _).hasActive hactive
  · rw [putIn, Option.mem_def, Option.ite_none_right_eq_some] at hp
    obtain ⟨⟨due', hdue', hmem⟩, hp⟩ := hp
    obtain rfl := Option.some.inj (h.images.symm.trans hdue')
    obtain ⟨image, hget, -, hidle, hnext⟩ := Tick.of_mem_dueImages h.images hmem
    rw [Tick.scanJob_afterReap] at hidle
    rw [hget, Option.map_some, Option.some.injEq] at hp
    subst hp
    refine ⟨hidle, ?_, image, (congrArg (fun d => Dict.get? d i) himages).trans hget, rfl, hnext⟩
    rw [h.jobs]
    exact hasActive_enqueueAll hmem clock _

/-- A step that is quiet about every image. -/
theorem advances_of_quiet {event : Event} (hrow : s'.db.image.get? i = s.db.image.get? i)
    (hactive : hasActive s.queue.jobs i = true → hasActive s'.queue.jobs i = true)
    (hnone : putIn settings i s (at_, event) = none) : Advances settings i s (at_, event) s' := by
  refine ⟨s'.queue.jobs, ?_, id, fun p hp => ?_⟩
  · rw [hrow]
    exact .quiet hactive
  · rw [hnone] at hp
    cases hp

/-- **What every fenced step means to every image.** -/
theorem turn_of_step (hs : Kept s) {e : Timestamp × Event} (hf : Lifecycle.Fenced s e)
    (h : Lifecycle.step settings s e = some s') (i : ImageId) : Advances settings i s e s' := by
  obtain ⟨at_, event⟩ := e
  have h : Lifecycle.stepAt settings s at_ event = some s' := Lifecycle.stepAt_of_step h
  cases event with
  | requestScan i' timeSensitive now =>
    obtain ⟨-, queue, hqueue, rfl⟩ := Lifecycle.stepAt_requestScan h
    obtain rfl := Option.some.inj hqueue
    refine advances_of_quiet rfl (fun hactive => ?_) rfl
    show hasActive (requestScan s.queue.jobs i' timeSensitive now).1 i = true
    obtain heq | ⟨-, heq⟩ := requestScan_jobs s.queue.jobs i' timeSensitive now
    · rw [heq]
      exact (Pass.grows_enqueue _ _ _ _).hasActive hactive
    · rw [heq]
      exact ((Pass.grows_enqueue _ _ _ _).trans (Pass.grows_promote _ _ _)).hasActive hactive
  | claim w j locked now =>
    obtain ⟨queue, hqueue, rfl⟩ := Option.map_eq_some_iff.mp h
    obtain ⟨-, job, hjob, -, -, hjobs, -⟩ := Workers.stepAt_claim hqueue
    refine advances_of_quiet rfl (fun hactive => ?_) rfl
    obtain ⟨k, row, hk, himage, hrow⟩ := hasActive_iff.mp hactive
    have hget := Lifecycle.get?_update_eq (f := takeLease now settings.leaseSeconds) hjob k
    rw [← hjobs] at hget
    by_cases heq : k = j
    · subst heq
      rw [hjob] at hk
      obtain rfl := Option.some.inj hk
      exact hasActive_iff.mpr ⟨k, _, hget.trans (if_pos rfl), himage, isActive_of_running rfl⟩
    · exact hasActive_iff.mpr ⟨k, row, hget.trans ((if_neg heq).trans hk), himage, hrow⟩
  | load w =>
    obtain ⟨held, image, -, -, rfl⟩ := Lifecycle.stepAt_load h
    exact advances_of_quiet rfl id rfl
  | report w report =>
    obtain ⟨held, db, hreports⟩ := Lifecycle.report_cases hs.fencing hf h
    exact ⟨s'.queue.jobs, turn_of_report hs hf hreports i, id, fun p hp => by cases hp⟩
  | tick clock =>
    obtain ⟨due, hticks, -⟩ := Lifecycle.tick_cases h
    exact advances_of_tick hs hticks i
  | abandon w =>
    simp only [Lifecycle.stepAt] at h
    obtain ⟨queue, hqueue, rfl⟩ := Option.map_eq_some_iff.mp h
    obtain rfl := Option.some.inj hqueue
    exact advances_of_quiet rfl id rfl
  | rollback working =>
    obtain rfl := Option.some.inj h
    exact advances_of_quiet rfl id rfl

/-! ### Runs -/

/-- What a step puts in for the image, as its entry of the journal. -/
def puts (settings : Settings) (i : ImageId) (s : State) (e : Timestamp × Event) : List Put :=
  (putIn settings i s.system e).toList

/-- How long after the job before it a job is put in, at least. -/
def gap (settings : Settings) (interval skew : ℤ) (p : Put) : ℤ :=
  seconds (Tick.backoffDelay interval settings.maxFailureBackoffSeconds p.streak) - skew

/-- The jobs of an image are spaced by its backoff, and so by its interval, if the cap does not cut
it. -/
structure Paced (settings : Settings) (interval skew : ℤ) (puts : List Put) : Prop where
  spaced : Spaced Put.due (gap settings interval skew) puts
  rate : 0 ≤ interval → ∀ (k : ℕ) (a b : Put), puts.head? = some a → puts[k]? = some b →
    a.due + k * (seconds (min interval settings.maxFailureBackoffSeconds) - skew) ≤ b.due

/-- What a run has put in for an image, and where it stands. -/
structure Tracks (settings : Settings) (i : ImageId) (image : Image) (skew : ℤ) (s : State)
    (log : List Put) : Prop where
  kept : Kept s.system
  interval : (s.system.db.image.get? i).map Image.scanIntervalSeconds =
    some image.scanIntervalSeconds
  last : s.last i = log.getLast?
  rested : ∀ p ∈ s.last i, Rested skew p i s.system.queue.jobs (s.system.db.image.get? i)
  spaced : Spaced Put.due
    (gap settings (Tick.baseInterval image settings.defaultScanIntervalSeconds) skew) log

variable {image : Image} {t t' : State} {log : List Put} {e : Timestamp × Event}

/-- A job that is put in comes late enough after the one before. -/
theorem due_of_putsIn {q : Put} (hq : Rested skew q i jobs row)
    (hp : PutsIn settings i p jobs jobs' row)
    (hinterval : row.map Image.scanIntervalSeconds = some image.scanIntervalSeconds) :
    q.due + gap settings (Tick.baseInterval image settings.defaultScanIntervalSeconds) skew p ≤
      p.due := by
  obtain ⟨current, rfl, hstreak, hnext⟩ := hp.due
  obtain hactive | ⟨current', stamp, hsame, hlast, hlate⟩ := hq
  · rw [hp.idle] at hactive
    cases hactive
  · obtain rfl := Option.some.inj hsame
    have hbase : Tick.baseInterval current settings.defaultScanIntervalSeconds =
        Tick.baseInterval image settings.defaultScanIntervalSeconds := by
      rw [Tick.baseInterval, Option.some.inj hinterval, Tick.baseInterval]
    obtain ⟨next, hnext, hle⟩ := Tick.isDue_iff.mp hnext
    obtain ⟨-, hdue⟩ := (Tick.nextDueAt_eq_some hlast _ _ next).mp hnext
    have hdelay : stamp + seconds (Tick.backoffDelay
        (Tick.baseInterval image settings.defaultScanIntervalSeconds)
        settings.maxFailureBackoffSeconds p.streak) ≤ p.due := by
      rw [hstreak, ← hbase, ← hdue]
      exact hle
    have hrest : q.due - skew ≤ stamp := sub_le_iff_le_add.mpr hlate
    rw [gap, add_sub, ← sub_add_eq_add_sub]
    exact (add_le_add hrest le_rfl).trans hdelay

/-- What a step puts in, after a turn. -/
theorem exists_turn (hs : Kept t.system) (hf : InOrder settings skew t e)
    (h : step settings t e = some t') (i : ImageId) :
    Kept t'.system ∧ t'.last i = (putIn settings i t.system e).or (t.last i) ∧
      (∀ p ∈ t.last i, ∀ stamp, (i, stamp) ∈ stamps settings t.system e →
        p.due ≤ stamp + skew) ∧
      Advances settings i t.system e t'.system := by
  obtain ⟨system, hstep, rfl⟩ := Option.map_eq_some_iff.mp h
  exact ⟨hs.step hf.1 hstep, rfl, fun p hp stamp hstamp => hf.2 (i, stamp) hstamp p hp,
    turn_of_step hs hf.1 hstep i⟩

theorem Tracks.step (ht : Tracks settings i image skew t log) (hf : InOrder settings skew t e)
    (h : step settings t e = some t') :
    Tracks settings i image skew t' (log ++ puts settings i t e) := by
  obtain ⟨hkept, hlast, hmarks, jobs, hturn, hgrows, hputs⟩ := exists_turn ht.kept hf h i
  have hinterval : (t'.system.db.image.get? i).map Image.scanIntervalSeconds =
      some image.scanIntervalSeconds := hturn.interval.trans ht.interval
  have hrested : ∀ q ∈ t.last i, Rested skew q i jobs (t'.system.db.image.get? i) :=
    fun q hq => (ht.rested q hq).turn hturn (hmarks q hq)
  rw [puts]
  cases hput : putIn settings i t.system e with
  | none =>
    rw [hput, Option.none_or] at hlast
    rw [Option.toList_none, List.append_nil]
    refine ⟨hkept, hinterval, hlast.trans ht.last, fun q hq => ?_, ht.spaced⟩
    rw [hlast] at hq
    exact (hrested q hq).imp_left hgrows
  | some p =>
    rw [hput, Option.some_or] at hlast
    have hp := hputs p hput
    rw [Option.toList_some]
    refine ⟨hkept, hinterval, hlast.trans List.getLast?_concat.symm, fun q hq => ?_, ?_⟩
    · rw [hlast] at hq
      obtain rfl := Option.some.inj hq
      exact Or.inl hp.active
    · refine ht.spaced.concat fun q hq => ?_
      rw [← ht.last] at hq
      exact due_of_putsIn (hrested q hq) hp hinterval

theorem tracks_start {db : Db} (himage : db.image.get? i = some image) (now : Timestamp) :
    Tracks settings i image skew (State.start db now) [] :=
  ⟨Lifecycle.kept_start db now, congrArg (Option.map Image.scanIntervalSeconds) himage, rfl,
    fun _ hp => (by cases hp), spaced_nil⟩

theorem Tracks.paced (h : Tracks settings i image skew t log) :
    Paced settings (Tick.baseInterval image settings.defaultScanIntervalSeconds) skew log := by
  refine ⟨h.spaced, fun hinterval k a b ha hb => ?_⟩
  let interval := Tick.baseInterval image settings.defaultScanIntervalSeconds
  have hgap : ∀ m b, log[m + 1]? = some b →
      seconds (min interval settings.maxFailureBackoffSeconds) - skew ≤
        gap settings interval skew b := by
    intro m b _
    have hdelay : min interval settings.maxFailureBackoffSeconds ≤
        Tick.backoffDelay interval settings.maxFailureBackoffSeconds b.streak := by
      rw [Tick.backoffDelay]
      split
      · exact min_le_left _ _
      · exact min_le_min_right _ (Tick.le_mul_two_pow hinterval b.streak)
    exact Int.sub_le_sub_right (seconds_le_seconds.mpr hdelay) skew
  have hsum := h.spaced.sum_le hgap ha hb
  rwa [Finset.sum_const, Finset.card_range, nsmul_eq_mul] at hsum

/-- **The scheduler paces itself.** In every run, whatever workers and the API do, the jobs that the
scheduler puts in for an image are spaced by the backoff of its streak, and so by its interval. -/
theorem scheduler_paced {settings : Settings} {i : ImageId} {image : Image} {db : Db}
    (himage : db.image.get? i = some image) {skew : ℤ} {clock : Timestamp}
    {es : List (Timestamp × Event)} {t : State}
    (h : execute (restrict (step settings) (InOrder settings skew)) (State.start db clock) es =
      some t) :
    Paced settings (Tick.baseInterval image settings.defaultScanIntervalSeconds) skew
      (journal (restrict (step settings) (InOrder settings skew)) (puts settings i)
        (State.start db clock) es) := by
  have hkeep : ∀ t e t' log, Tracks settings i image skew t log →
      restrict (step settings) (InOrder settings skew) t e = some t' →
      Tracks settings i image skew t' (log ++ puts settings i t e) := by
    intro t e t' log ht hstep
    obtain ⟨hf, hstep⟩ := restrict_eq_some.mp hstep
    exact ht.step hf hstep
  exact (journal_rule hkeep (tracks_start himage clock) h).paced

/-- One attempt at an image whose reference is gone. -/
def attempt (job : JobId) (t : Timestamp) : List (Timestamp × Event) :=
  [(t, .claim 1 job [] t), (t, .load 1),
    (t + seconds 9, .report 1 (.fail "ImageNotFound: library/nginx:1.19 not found" true true
      (t + seconds 9) t (t + seconds 9)))]

/-- The passes that put in a job for it. -/
def goneForGood : List (Timestamp × Event) :=
  let pass (t : Timestamp) : Timestamp × Event := (t, .tick ⟨fun _ => t, t, fun _ => t⟩)
  [pass 0] ++ attempt 1 0 ++ [pass (seconds 1808), pass (seconds 1809)] ++
    attempt 2 (seconds 1809) ++ [pass (seconds 5418)]

/-- `nginx:1.19` alone. -/
def onlyNginx : State := State.start (Db.seeded 0 [("nginx", "1.19")]) 0

theorem scheduler_paced_goneForGood :
    Paced {} 900 0
      (journal (restrict (step {}) (InOrder {} 0)) (puts {} 1) onlyNginx goneForGood) := by
  have hrun : (execute (restrict (step {}) (InOrder {} 0)) onlyNginx goneForGood).isSome =
      true := by decide +kernel
  obtain ⟨t, ht⟩ := Option.isSome_iff_exists.mp hrun
  have himage : (Db.seeded 0 [("nginx", "1.19")]).image.get? 1 =
      some (Image.registered 0 ("nginx", "1.19")) := by decide
  exact scheduler_paced himage ht

/-! ### References that are gone -/

/-- As long as no scan of the image finishes, every job that is put in finds a longer streak. -/
structure Doomed (i : ImageId) (t : State) (log : List Put) : Prop where
  failing : ∀ p ∈ t.last i, Failing p i t.system.queue.jobs (t.system.db.image.get? i)
  streaks : Spaced Put.streak (fun _ => 1) log

theorem Doomed.step (hd : Doomed i t log) (ht : Tracks settings i image skew t log)
    (hf : Hopeless settings skew i t e) (h : step settings t e = some t') :
    Doomed i t' (log ++ puts settings i t e) := by
  obtain ⟨-, hlast, -, jobs, hturn, hgrows, hputs⟩ := exists_turn ht.kept hf.1 h i
  have hnot : ¬ finishesImage i t.system e = true := Bool.eq_false_iff.mp hf.2
  have hfailing : ∀ q ∈ t.last i, Failing q i jobs (t'.system.db.image.get? i) :=
    fun q hq => (hd.failing q hq).turn hturn hnot
  rw [puts]
  cases hput : putIn settings i t.system e with
  | none =>
    rw [hput, Option.none_or] at hlast
    rw [Option.toList_none, List.append_nil]
    refine ⟨fun q hq => ?_, hd.streaks⟩
    rw [hlast] at hq
    obtain ⟨current, hget, hle, hactive⟩ := hfailing q hq
    exact ⟨current, hget, hle, hactive.imp_left hgrows⟩
  | some p =>
    rw [hput, Option.some_or] at hlast
    have hp := hputs p hput
    obtain ⟨current, hget, hstreak, -⟩ := hp.due
    rw [Option.toList_some]
    refine ⟨fun q hq => ?_, hd.streaks.concat fun q hq => ?_⟩
    · rw [hlast] at hq
      obtain rfl := Option.some.inj hq
      exact ⟨current, hget, hstreak.le, Or.inl hp.active⟩
    · rw [← ht.last] at hq
      obtain ⟨current', hget', -, hactive⟩ := hfailing q hq
      rw [hget] at hget'
      obtain rfl := Option.some.inj hget'
      rw [hstreak]
      refine hactive.resolve_left fun hbusy => ?_
      rw [hp.idle] at hbusy
      cases hbusy

/-- A job that is put in finds a streak at least as long as the number of jobs before it. -/
theorem le_streak (h : Spaced Put.streak (fun _ => 1) log) {k : ℕ} {b : Put}
    (hb : log[k]? = some b) : k ≤ b.streak := by
  cases hhead : log.head? with
  | none =>
    rw [List.head?_eq_none_iff] at hhead
    rw [hhead] at hb
    cases hb
  | some a =>
    have hsum := h.sum_le (g := fun _ => 1) (fun _ _ _ => le_rfl) hhead hb
    rw [← Finset.card_eq_sum_ones, Finset.card_range] at hsum
    exact (Nat.le_add_left k a.streak).trans hsum

/-- **A reference that is gone is tried ever more rarely.** While no scan of an image finishes, the
distance of the jobs that the scheduler puts in for it doubles, until it is the cap. -/
theorem dead_reference_backs_off {settings : Settings} {i : ImageId} {image : Image} {db : Db}
    (himage : db.image.get? i = some image)
    (hdefault : 0 ≤ settings.defaultScanIntervalSeconds) {skew : ℤ} {clock : Timestamp}
    {es : List (Timestamp × Event)} {t : State}
    (h : execute (restrict (step settings) (Hopeless settings skew i)) (State.start db clock) es =
      some t) {k : ℕ} {a b : Put}
    (ha : (journal (restrict (step settings) (Hopeless settings skew i)) (puts settings i)
      (State.start db clock) es).head? = some a)
    (hb : (journal (restrict (step settings) (Hopeless settings skew i)) (puts settings i)
      (State.start db clock) es)[k]? = some b) :
    a.due + ∑ m ∈ Finset.range k,
        (seconds (min (Tick.baseInterval image settings.defaultScanIntervalSeconds * 2 ^ (m + 1))
          settings.maxFailureBackoffSeconds) - skew) ≤ b.due := by
  let R (t : State) (log : List Put) : Prop :=
    Tracks settings i image skew t log ∧ Doomed i t log
  have hkeep : ∀ t e t' log, R t log →
      restrict (step settings) (Hopeless settings skew i) t e = some t' →
      R t' (log ++ puts settings i t e) := by
    rintro t e t' log ⟨ht, hd⟩ hstep
    obtain ⟨hf, hstep⟩ := restrict_eq_some.mp hstep
    exact ⟨ht.step hf.1 hstep, hd.step ht hf hstep⟩
  have hstart : R (State.start db clock) [] :=
    ⟨tracks_start himage clock, fun _ hp => (by cases hp), spaced_nil⟩
  obtain ⟨htracks, hdoomed⟩ := journal_rule hkeep hstart h
  refine htracks.spaced.sum_le (fun m b hb => ?_) ha hb
  have hstreak := le_streak hdoomed.streaks hb
  refine Int.sub_le_sub_right (seconds_le_seconds.mpr ?_) skew
  rw [← Tick.backoffDelay_of_pos (Nat.succ_pos m)]
  exact Tick.backoffDelay_mono_of_pos (Tick.baseInterval_nonneg image hdefault) (Nat.succ_pos m)
    hstreak

theorem dead_reference_backs_off_goneForGood :
    ∃ a b, (journal (restrict (step {}) (Hopeless {} 0 1)) (puts {} 1) onlyNginx
        goneForGood).head? = some a ∧
      (journal (restrict (step {}) (Hopeless {} 0 1)) (puts {} 1) onlyNginx
        goneForGood)[2]? = some b ∧
      a.due + ∑ m ∈ Finset.range 2, (seconds (min (900 * 2 ^ (m + 1)) 86400) - 0) ≤ b.due := by
  have hrun : (execute (restrict (step {}) (Hopeless {} 0 1)) onlyNginx goneForGood).isSome =
      true := by decide +kernel
  obtain ⟨t, ht⟩ := Option.isSome_iff_exists.mp hrun
  have hputs : journal (restrict (step {}) (Hopeless {} 0 1)) (puts {} 1) onlyNginx goneForGood =
      [⟨0, 0⟩, ⟨seconds 1809, 1⟩, ⟨seconds 5418, 2⟩] := by decide +kernel
  have himage : (Db.seeded 0 [("nginx", "1.19")]).image.get? 1 =
      some (Image.registered 0 ("nginx", "1.19")) := by decide
  have ha : (journal (restrict (step {}) (Hopeless {} 0 1)) (puts {} 1) onlyNginx
      goneForGood).head? = some ⟨0, 0⟩ := by
    rw [hputs]
    rfl
  have hb : (journal (restrict (step {}) (Hopeless {} 0 1)) (puts {} 1) onlyNginx
      goneForGood)[2]? = some ⟨seconds 5418, 2⟩ := by
    rw [hputs]
    rfl
  exact ⟨_, _, ha, hb, dead_reference_backs_off himage (by decide) ht ha hb⟩

end Pacing

end ContainerScanner
