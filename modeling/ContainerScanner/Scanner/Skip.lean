import ContainerScanner.Scanner.Worker
import ContainerScanner.Domain.Seed

/-!
# Skips and the live run

The worker decides by the run `_last_successful_run` returns, which is the one stamped last;
everybody else goes by `current_scan_run_id`, which is the one committed last. A stamp is taken by a
worker's clock before its transaction commits, so the two are the same run only as far as the
clocks agree with the commits.

## Main definitions

* `LiveRun` — the four fields of the run an image points at
* `Stamped` — a step on which the two orders of runs do not come apart

## Main results

* `pointerAgrees_of_reaches` — in a run of such steps, whatever run is found agrees with the live
  one
* `skip_justified` — in a run of such steps, a skip is justified by the live run
-/

namespace ContainerScanner

open Foundation Persist

namespace Worker

/-- A success stamped no later than the run that would be found before it commits agrees with that
run on the four fields. -/
def Stamped (s : State) : Event → Prop
  | .record now =>
    ∀ a ∈ s.attempt, ∀ metadata ∈ a.success now, ∀ run ∈ successes s.db a.imageId,
      IsLastSuccessfulRun s.db a.imageId (some run) → (now : WithTop ℤ) ≤ completedKey run →
        run.fingerprint = metadata.fingerprint
  | _ => True

instance (s : State) (e : Event) : Decidable (Stamped s e) :=
  match e with
  | .record now => inferInstanceAs (Decidable (∀ a ∈ s.attempt, ∀ metadata ∈ a.success now,
      ∀ run ∈ successes s.db a.imageId, IsLastSuccessfulRun s.db a.imageId (some run) →
        (now : WithTop ℤ) ≤ completedKey run → run.fingerprint = metadata.fingerprint))
  | .start _ _ | .probeTrivy _ | .probeDb _ | .read _ _ _ | .resolve _ | .skip _ | .scan _
  | .fail _ _ _ _ | .release | .reap _ _ _ _ _ _ => isTrue trivial

variable {s s' : State} {db : Db} {i j : ImageId} {e : Event} {now : Timestamp}

/-! ### The two orders of runs -/

/-- The run an image points at has these four fields. -/
def LiveRun (db : Db) (i : ImageId) (fields : Fingerprint) : Prop :=
  ∃ image r run, db.image.get? i = some image ∧ image.currentScanRunId = some r ∧
    db.scanRun.get? r = some run ∧ run.fingerprint = fields

/-- Whatever run is found last, the run the image points at agrees with it. -/
def PointerAgrees (db : Db) : Prop :=
  ∀ i run, IsLastSuccessfulRun db i (some run) → LiveRun db i run.fingerprint

theorem live_recordQuiet {f : Image → Image} (hf : Quiet f) {run : ScanRun} {fields : Fingerprint}
    (h : LiveRun db j fields) : LiveRun (recordQuiet db i run f) j fields := by
  obtain ⟨image, r, run', himage, hpointer, hr, hfields⟩ := h
  have hsame := currentScanRunId_recordQuiet hf db i run j
  rw [himage] at hsame
  obtain ⟨image', himage', hpointer'⟩ := Option.map_eq_some_iff.mp hsame
  exact ⟨image', r, run', himage', hpointer'.trans hpointer, Serial.get?_insert_of_get? hr run,
    hfields⟩

theorem pointerAgrees_recordQuiet (h : PointerAgrees db) {f : Image → Image} (hf : Quiet f)
    {run : ScanRun} (hrun : run.status ≠ .success) : PointerAgrees (recordQuiet db i run f) := by
  intro j last hlast
  refine live_recordQuiet hf (h j last ?_)
  exact (isLastSuccessfulRun_congr (mem_successes_recordQuiet hrun i f) _).mp hlast

/-- A success whose stamp respects the commit order, or does not matter, keeps the agreement. -/
theorem pointerAgrees_recordSuccess (h : PointerAgrees db) {image : Image} {job : Option JobId}
    {report : ParsedReport} {metadata : RunMetadata} (hi : db.image.get? i = some image)
    (hstamped : ∀ run ∈ successes db i, IsLastSuccessfulRun db i (some run) →
      (metadata.completedAt : WithTop ℤ) ≤ completedKey run →
        run.fingerprint = metadata.fingerprint) :
    PointerAgrees (recordSuccess db i image job report metadata) := by
  intro j last hlast
  obtain ⟨hmem, hmax⟩ := hlast
  by_cases hj : j = i
  · subst hj
    have hfields : last.fingerprint = metadata.fingerprint := by
      obtain hold | ⟨-, rfl⟩ := (mem_successes_recordSuccess last).mp hmem
      · refine hstamped last hold ⟨hold, fun other hother => ?_⟩ ?_
        · exact hmax other ((mem_successes_recordSuccess other).mpr (Or.inl hother))
        · exact hmax _ ((mem_successes_recordSuccess _).mpr (Or.inr ⟨rfl, rfl⟩))
      · rfl
    refine ⟨pointTo db.scanRun.next metadata image, db.scanRun.next,
      successRun db j job report metadata, ?_, rfl, ?_, hfields.symm⟩
    · rw [get?_image_recordSuccess hi, if_pos rfl]
    · rw [get?_scanRun_recordSuccess, if_pos rfl]
      rfl
  · have hiff : ∀ run, run ∈ successes (recordSuccess db i image job report metadata) j ↔
        run ∈ successes db j := by
      intro run
      rw [mem_successes_recordSuccess, or_iff_left]
      exact fun h => hj h.1
    obtain ⟨image', r, run, himage, hpointer, hr, hfields⟩ :=
      h j last ((isLastSuccessfulRun_congr hiff (some last)).mp ⟨hmem, hmax⟩)
    refine ⟨image', r, run, ?_, hpointer, ?_, hfields⟩
    · rw [get?_image_recordSuccess hi, if_neg hj]
      exact himage
    · rw [get?_scanRun_recordSuccess, if_neg (Serial.lt_next hr).ne]
      exact hr

theorem pointerAgrees_of_unscanned (hdb : db.Unscanned) : PointerAgrees db := by
  intro i run hlast
  obtain ⟨r, hr, -⟩ := mem_successes.mp hlast.1
  rw [hdb.scanRun] at hr
  cases hr

/-! ### Runs -/

theorem pointerAgrees_step {db₀ : Db} (hs : Recorded db₀ s) (hagrees : PointerAgrees s.db)
    (hstamped : Stamped s e) (h : step s e = some s') : PointerAgrees s'.db := by
  obtain hadvances | ⟨call, hquiet, hcommits⟩ |
    ⟨now, a, metadata, report, rfl, ha, hsuccess, hcommits⟩ := step_cases hs.fresh h
  · rw [hadvances.db]
    exact hagrees
  · rw [hcommits.db]
    rcases Call.commit_cases s.db call with ⟨-, heq⟩ | ⟨i, image, job, report, m, hcall, -⟩ |
      ⟨image, run, f, -, -, hf, -, hstatus, -, heq⟩
    · rw [heq]
      exact hagrees
    · exact absurd hcall (hquiet i job report m)
    · rw [heq]
      exact pointerAgrees_recordQuiet hagrees hf hstatus
  · have himage := (hs.fresh a ha).image
    have hcommit : s'.db = recordSuccess s.db a.imageId a.image (some a.job) report.report
        metadata := by
      rw [hcommits.db]
      simp only [Call.commit, Call.imageId, himage]
    rw [hcommit]
    refine pointerAgrees_recordSuccess hagrees himage fun run hrun hlast hlate => ?_
    refine hstamped a ha metadata hsuccess run hrun hlast ?_
    have hnow : metadata.completedAt = now := by
      rw [Attempt.success] at hsuccess
      split at hsuccess
      · rw [← Option.some.inj hsuccess]
        rfl
      · cases hsuccess
    rw [← hnow]
    exact hlate

theorem pointerAgrees_of_reaches (hdb : db.Unscanned)
    (hrun : Reaches step Stamped (State.start db) s) : PointerAgrees s.db := by
  have hinv : Recorded db s ∧ PointerAgrees s.db := by
    refine hrun.invariant (I := fun s => Recorded db s ∧ PointerAgrees s.db)
      (fun _ _ _ hs hP h => ⟨hs.1.step h, pointerAgrees_step hs.1 hs.2 hP h⟩) ⟨?_, ?_⟩
    · exact recorded_of_reaches (Reaches.refl (P := Stamped) _)
    · exact pointerAgrees_of_unscanned hdb
  exact hinv.2

/-- **A skip is justified by the run whose findings are live**, in every history whose successes are
stamped in the order they commit, or agree. -/
theorem skip_justified (hdb : db.Unscanned) (hrun : Reaches step Stamped (State.start db) s)
    (h : step s (.skip now) = some s') :
    ∃ a probe previous digest, s.attempt = some a ∧
      a.stage = .resolved probe previous digest ∧
      LiveRun s.db a.imageId ⟨some digest, some probe.trivyVersion, some probe.dbVersion,
        some probe.flagsHash⟩ := by
  obtain ⟨a, probe, run, digest, ha, hstage, hfields, -⟩ := step_skip h
  refine ⟨a, probe, some run, digest, ha, hstage, ?_⟩
  have hlast : IsLastSuccessfulRun s.db a.imageId (some run) :=
    ((recorded_of_reaches hrun).fresh a ha).previous (some run) (by rw [hstage]; rfl)
  rw [← hfields]
  exact pointerAgrees_of_reaches hdb hrun a.imageId run hlast

/-- A job of image 1, up to the digest. -/
def resolving (previous : Option ScanRun) (digest : String) : List Event :=
  [.start 1 1, .probeTrivy "0.69.3", .probeDb "2026-07-01", .read "flags" 0 previous,
    .resolve digest]

/-- A job that scans, and finds nothing. -/
def scanning (previous : Option ScanRun) (digest : String) (now : Timestamp) : List Event :=
  resolving previous digest ++ [.scan (.debian []), .record now]

/-- The run it leaves. -/
def cleanRun (digest : String) (now : Timestamp) : ScanRun :=
  withCounts (fun _ => 0) (newRun 1 (some 1) .success
    (Probe.metadata ⟨"0.69.3", "2026-07-01", "flags", 0⟩ digest now) none)

theorem skip_justified_unchanged :
    ∃ s s', step s (.skip (2 * second)) = some s' ∧ ∃ a probe previous digest,
      s.attempt = some a ∧ a.stage = .resolved probe previous digest ∧
        LiveRun s.db a.imageId ⟨some digest, some probe.trivyVersion, some probe.dbVersion,
          some probe.flagsHash⟩ := by
  have hrun : ((execute (restrict step Stamped) (State.start (Db.seeded 0 briefImages))
      (scanning none "sha256:a" second ++
        resolving (some (cleanRun "sha256:a" second)) "sha256:a")).bind fun s =>
      step s (.skip (2 * second))).isSome := by decide
  obtain ⟨s', hrun⟩ := Option.isSome_iff_exists.mp hrun
  obtain ⟨s, hs, hskip⟩ := Option.bind_eq_some_iff.mp hrun
  exact ⟨s, s', hskip,
    skip_justified (unscanned_seeded 0 briefImages) (reaches_of_execute hs) hskip⟩

/-- The second worker's clock is slow: its scan of the moved tag commits later and is stamped
earlier, and the third job is skipped on the findings of the first scan when the tag has moved
back. -/
theorem not_skip_justified_clocks :
    ¬ ∀ (db : Db) (s s' : State) (now : Timestamp), db.Unscanned →
      Reaches step (fun _ _ => True) (State.start db) s → step s (.skip now) = some s' →
        ∃ a probe previous digest, s.attempt = some a ∧
          a.stage = .resolved probe previous digest ∧
          LiveRun s.db a.imageId ⟨some digest, some probe.trivyVersion, some probe.dbVersion,
            some probe.flagsHash⟩ := by
  intro hall
  have hrun : ((execute (restrict step fun _ _ => True) (State.start (Db.seeded 0 briefImages))
      (scanning none "sha256:a" (10 * second) ++
        scanning (some (cleanRun "sha256:a" (10 * second))) "sha256:b" (5 * second) ++
        resolving (some (cleanRun "sha256:a" (10 * second))) "sha256:a")).bind fun s =>
      (step s (.skip (20 * second))).bind fun _ => some
        (s.attempt.map fun a => (a.imageId, a.stage.digest),
          (s.db.image.get? 1).bind fun image => image.currentScanRunId.bind fun r =>
            (s.db.scanRun.get? r).bind ScanRun.digest)) =
      some (some (1, some "sha256:a"), some "sha256:b") := by decide
  obtain ⟨s, hs, hrun⟩ := Option.bind_eq_some_iff.mp hrun
  obtain ⟨s', hskip, hrun⟩ := Option.bind_eq_some_iff.mp hrun
  obtain ⟨hattempt, hdigest⟩ := Prod.mk.inj (Option.some.inj hrun)
  obtain ⟨a, probe, previous, digest, ha, hstage, image, r, run, himage, hpointer, hr, hfields⟩ :=
    hall _ s s' _ (unscanned_seeded 0 briefImages) (reaches_of_execute hs) hskip
  rw [ha, Option.map_some, hstage] at hattempt
  obtain ⟨hi, hsame⟩ := Prod.mk.inj (Option.some.inj hattempt)
  rw [hi] at himage
  rw [himage, Option.bind_some, hpointer, Option.bind_some, hr, Option.bind_some] at hdigest
  -- the run pointed at is of the other digest
  have hother : run.digest = some digest := congrArg Fingerprint.digest hfields
  rw [hdigest] at hother
  have hsame : some digest = some "sha256:a" := hsame
  rw [← hother] at hsame
  exact absurd hsame (by decide)

end Worker

end ContainerScanner
