import ContainerScanner.Lifecycle.Machine

/-!
# What every state keeps

Three invariants that the accounts of jobs and images rest on: the foreign key from jobs to images,
the fences of the queue, and that a worker whose claim has not ended holds its image as it is
stored. The last is what makes a column written from an object the column meant: nobody but the
worker of an image's active job, or the reaper of that job, writes the image.

## Main definitions

* `Placed` — every job is of an image there is
* `Kept` — the three together

## Main results

* `Kept.image_ne`, `Kept.notMem_reaped` — a worker's image is not among those others write
* `Kept.step`, `kept_of_reaches`
-/

namespace ContainerScanner

open Foundation Queue

namespace Lifecycle

open Workers (WorkerId Held Fencing)

variable {settings : Settings} {s s' : State} {job : ScanJob} {jobs jobs' : Jobs} {j : JobId}
  {at_ : Timestamp} {w : WorkerId} {clock : Tick.Clock} {due : List ImageId}

/-! ### The foreign key -/

/-- Every job is of an image there is. -/
def Placed (jobs : Jobs) (imageIds : List ImageId) : Prop :=
  ∀ j job, jobs.get? j = some job → job.imageId ∈ imageIds

/-! ### Objects -/

/-- A worker whose claim the reaper has not ended holds the image as it is stored. -/
def ObjectsFresh (s : State) : Prop :=
  ∀ w held image, s.queue.held w = some held → held.claim ∉ s.queue.reaped →
    s.images w = some image → s.db.image.get? held.loaded.imageId = some image

/-- What holds of every state. -/
structure Kept (s : State) : Prop where
  placed : Placed s.queue.jobs s.db.image.keys
  fencing : Fencing s.queue
  objects : ObjectsFresh s

/-- Two workers whose claims the reaper has not ended work on different images. -/
theorem Kept.image_ne (hs : Kept s) {w w' : WorkerId} {held held' : Held}
    (hheld : s.queue.held w = some held) (hheld' : s.queue.held w' = some held')
    (hlive : held.claim ∉ s.queue.reaped) (hlive' : held'.claim ∉ s.queue.reaped)
    (hne : w ≠ w') : held.loaded.imageId ≠ held'.loaded.imageId := by
  obtain ⟨hrow, hrunning, hunder⟩ := hs.fencing.live w held hheld hlive
  obtain ⟨hrow', hrunning', hunder'⟩ := hs.fencing.live w' held' hheld' hlive'
  intro himage
  have hjob : held.job = held'.job := s.queue.uniqueActive _ _ _ _ hrow hrow'
    (isActive_of_running hrunning) (isActive_of_running hrunning') himage
  rw [hjob, hunder'] at hunder
  exact hne (hs.fencing.claim_inj w w' held held' hheld hheld' (Option.some.inj hunder).symm)

/-- A claim that a scheduling pass does not end is of an image it records nothing for. -/
theorem Kept.notMem_reaped (hs : Kept s) {held : Held} (hheld : s.queue.held w = some held)
    (hlive : held.claim ∉ Workers.reapedClaims s.queue at_ ++ s.queue.reaped)
    (maxAttempts : ℤ) : held.loaded.imageId ∉
      (reapExpiredLeases s.queue.jobs maxAttempts at_).2.map ReapedJob.imageId := by
  rw [List.mem_append, not_or] at hlive
  obtain ⟨hrow, hrunning, hunder⟩ := hs.fencing.live w held hheld hlive.2
  intro hmem
  obtain ⟨entry, hentry, himage⟩ := List.mem_map.mp hmem
  obtain ⟨job, hjob, hreapable, himage', -⟩ := Tick.mem_reaped.mp hentry
  have hsame : entry.jobId = held.job := s.queue.uniqueActive _ _ _ _ hjob hrow
    (isActive_of_running (reapable_iff.mp hreapable).1) (isActive_of_running hrunning)
    (himage'.symm.trans himage)
  rw [hsame] at hjob
  exact hlive.1 (Workers.mem_reapedClaims.mpr ⟨held.job, job, hjob, hreapable, hunder⟩)

/-! ### Steps -/

theorem Kept.of_report (hs : Kept s) {report : Report} {held : Held} {db : Db}
    (hf : ∀ held ∈ s.queue.held w, held.claim ∉ s.queue.reaped)
    (h : Reports settings s w report held db s') :
    Placed s'.queue.jobs s'.db.image.keys ∧ ObjectsFresh s' := by
  have hdb : s'.db = db := congrArg State.db h.state
  have himages : s'.images = Function.update s.images w none := congrArg State.images h.state
  have himage : held.loaded.imageId ∈ s.db.image.keys := hs.placed _ _ h.loaded
  have hplaced : Placed s'.queue.jobs s.db.image.keys := by
    refine Serial.All.of_get? hs.placed h.jobs ?_
    rw [Workers.imageId_change]
    exact himage
  have hother : ∀ w' held' image, s'.queue.held w' = some held' →
      held'.claim ∉ s'.queue.reaped → s'.images w' = some image →
      s.db.image.get? held'.loaded.imageId = some image ∧
        held'.loaded.imageId ≠ held.loaded.imageId := by
    intro w' held' image hheld' hlive' hobject
    rw [h.idle] at hheld'
    rw [h.reaped] at hlive'
    rw [himages] at hobject
    obtain ⟨hne, hobject⟩ := update_none_eq_some.mp hobject
    have hheld' := (update_none_eq_some.mp hheld').2
    exact ⟨hs.objects w' held' image hheld' hlive' hobject,
      hs.image_ne hheld' h.holds hlive' (hf held h.holds) hne⟩
  rw [hdb]
  obtain ⟨-, rfl⟩ | ⟨run, image, new, hrecords⟩ := commitReport_cases h.commits h.loaded himage
  · refine ⟨hplaced, fun w' held' image hheld' hlive' hobject => ?_⟩
    rw [hdb]
    exact (hother w' held' image hheld' hlive' hobject).1
  · refine ⟨?_, fun w' held' image' hheld' hlive' hobject => ?_⟩
    · rw [hrecords.row, writeImage, Dict.keys_update]
      exact hplaced
    · obtain ⟨hrow, hne⟩ := hother w' held' image' hheld' hlive' hobject
      rw [hdb, hrecords.row, writeImage, Dict.get?_update, if_neg hne]
      exact hrow

theorem Ticks.keys_image (h : Ticks settings s at_ clock due s') :
    s'.db.image.keys = s.db.image.keys := by
  rw [h.state]
  exact Tick.keys_image_recordReaped _ _ _

/-- What holds of every row, and of the new ones, holds of every row after a pass. -/
theorem Ticks.all_jobs {P : JobId → ScanJob → Prop} (h : Ticks settings s at_ clock due s')
    (hjobs : s.queue.jobs.All P)
    (hreap : ∀ j job, P j job → P j (reapRow settings.maxAttempts at_ job))
    (hnew : ∀ i ∈ s.db.image.keys, ∀ j, P j (newJob i priorityScheduled (clock.scheduled i))) :
    s'.queue.jobs.All P := by
  rw [h.jobs]
  refine Tick.all_enqueueAll (hjobs.mapRows hreap) clock fun i hi => hnew i ?_
  obtain ⟨image, hget, -⟩ := Tick.of_mem_dueImages h.images hi
  have hmem := Dict.mem_keys_iff.mpr ⟨image, hget⟩
  rw [Tick.keys_image_afterReap] at hmem
  exact hmem

/-- One run is recorded for each job that is reaped. -/
theorem Ticks.scanRun (h : Ticks settings s at_ clock due s')
    (hplaced : Placed s.queue.jobs s.db.image.keys) :
    s'.db.scanRun = s.db.scanRun.insertAll
      ((reapExpiredLeases s.queue.jobs settings.maxAttempts at_).2.map
        (Tick.reapedRun clock)) := by
  rw [h.state]
  refine Tick.scanRun_recordReaped fun entry hentry => ?_
  obtain ⟨job, hjob, -, himage, -⟩ := Tick.mem_reaped.mp hentry
  rw [himage]
  exact hplaced _ _ hjob

theorem Kept.of_ticks (hs : Kept s) (h : Ticks settings s at_ clock due s') :
    Placed s'.queue.jobs s'.db.image.keys ∧ ObjectsFresh s' := by
  refine ⟨?_, fun w held image hheld hlive hobject => ?_⟩
  · rw [h.keys_image]
    exact h.all_jobs hs.placed
      (fun _ job hjob => (imageId_reapRow settings.maxAttempts at_ job).symm ▸ hjob)
      fun i hi _ => hi
  · have himages : s'.images = s.images := (congrArg State.images h.state).trans rfl
    rw [h.held] at hheld
    rw [h.reaped] at hlive
    rw [himages] at hobject
    have hlive' : held.claim ∉ s.queue.reaped := fun hmem =>
      hlive (List.mem_append_right _ hmem)
    rw [h.db]
    exact (Tick.get?_image_recordReaped_of_notMem (hs.notMem_reaped hheld hlive _)).trans
      (hs.objects w held image hheld hlive' hobject)

theorem Kept.step (hs : Kept s) {e : Timestamp × Event} (hf : Fenced s e)
    (h : step settings s e = some s') : Kept s' := by
  have hfencing := Fencing.lifecycle hs.fencing hf h
  cases step_cases hs.fencing hf h with
  | requestScan i timeSensitive now himage hjobs hheld hreaped =>
    refine ⟨?_, hfencing, fun w held image hholds hlive hobject => ?_⟩
    · show Placed (State.advance s _ _ _).queue.jobs s.db.image.keys
      rw [State.advance, hjobs]
      exact all_requestScan hs.placed (fun _ => himage)
        (fun _ job hjob => (imageId_promoteRow i now job).symm ▸ hjob) timeSensitive
    · rw [State.advance, hheld] at hholds
      rw [State.advance, hreaped] at hlive
      exact hs.objects w held image hholds hlive hobject
  | claim w j now held hrow hpending hjobs hholds hreaped =>
    have himage := hs.placed j _ hrow
    refine ⟨Serial.All.of_get? hs.placed hjobs himage, hfencing, ?_⟩
    intro w' held' image hheld' hlive hobject
    obtain ⟨hne, hobject⟩ := update_none_eq_some.mp hobject
    rw [State.advance, hholds, Function.update_of_ne hne] at hheld'
    rw [State.advance, hreaped] at hlive
    exact hs.objects w' held' image hheld' hlive hobject
  | load w hholds hrow =>
    refine ⟨hs.placed, hfencing, fun w' held' image' hheld' hlive hobject => ?_⟩
    dsimp only at hobject
    by_cases heq : w' = w
    · subst heq
      rw [Function.update_self] at hobject
      have hsame : held' = _ := Option.some.inj (hheld'.symm.trans hholds)
      rw [hsame, ← Option.some.inj hobject]
      exact hrow
    · rw [Function.update_of_ne heq] at hobject
      exact hs.objects w' held' image' hheld' hlive hobject
  | report hfenced hreports =>
    obtain ⟨hplaced, hobjects⟩ := hs.of_report hfenced hreports
    exact ⟨hplaced, hfencing, hobjects⟩
  | tick hticks =>
    obtain ⟨hplaced, hobjects⟩ := hs.of_ticks hticks
    exact ⟨hplaced, hfencing, hobjects⟩
  | abandon w hjobs hheld hreaped =>
    refine ⟨?_, hfencing, fun w' held image hholds hlive hobject => ?_⟩
    · show Placed (State.advance s _ _ _).queue.jobs s.db.image.keys
      rw [State.advance, hjobs]
      exact hs.placed
    · obtain ⟨-, hobject⟩ := update_none_eq_some.mp hobject
      rw [State.advance, hheld] at hholds
      rw [State.advance, hreaped] at hlive
      exact hs.objects w' held image (update_none_eq_some.mp hholds).2 hlive hobject
  | rollback working => exact ⟨hs.placed, hfencing, hs.objects⟩

theorem kept_start (db : Db) (now : Timestamp) : Kept (State.start db now) where
  placed := fun _ _ hj => by cases hj
  fencing := Workers.fencing_start _ _ _
  objects := fun _ _ _ hheld => by cases hheld

theorem kept_of_reaches {db : Db} {now : Timestamp}
    (hrun : Reaches (step settings) Fenced (State.start db now) s) : Kept s :=
  hrun.invariant (fun _ _ _ hs hf h => hs.step hf h) (kept_start db now)

end Lifecycle

end ContainerScanner
