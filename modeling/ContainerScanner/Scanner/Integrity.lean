import ContainerScanner.Scanner.WellFormed
import ContainerScanner.Foundation.Aggregate

/-!
# Runs, their counts and their order

`scan_run.finding_count_…` is counted once, from the rows a success hands to the upsert; what it
stands for is an aggregate over a table that later scans go on rewriting. And `first_seen_run_id`,
`last_seen_run_id` and `current_scan_run_id` are plain integers, ordered by when their runs were
recorded.

## Main definitions

* `currentCount` — the aggregate
* `Integral` — counts agree with aggregates, quiet runs have none, runs are in order

## Main results

* `currentCount_recordSuccess` — a success counts what is current after it
* `integral_runCalls` — every serial history keeps all of it
-/

namespace ContainerScanner

open Foundation

namespace Persist

variable {db db' : Db} {i j : ImageId} {image : Image} {job : Option JobId} {m : RunMetadata}

/-- The pointer of an image. -/
def pointerOf (db : Db) (i : ImageId) : Option RunId :=
  (db.image.get? i).bind Image.currentScanRunId

/-- Is the row a current finding of the image? -/
def isCurrentIn (db : Db) (i : ImageId) (e : FindingKey × Finding) : Bool :=
  decide (e.1.imageId = i) && decide (pointerOf db i = some e.2.lastSeenRunId)

/-- The current findings of an image at a severity, aggregated from the table. -/
def currentCount (db : Db) (i : ImageId) (severity : Severity) : ℕ :=
  db.finding.entries.countP fun e => isCurrentIn db i e && decide (e.2.severity = severity)

/-- A current finding of the image at the severity has the key. -/
def CurrentAt (db : Db) (i : ImageId) (severity : Severity) (key : FindingKey) : Prop :=
  ∃ f, db.finding.get? key = some f ∧ key.imageId = i ∧ pointerOf db i = some f.lastSeenRunId ∧
    f.severity = severity

theorem currentCount_eq_ncard (db : Db) (i : ImageId) (severity : Severity) :
    currentCount db i severity = {key | CurrentAt db i severity key}.ncard := by
  rw [currentCount, countP_eq_ncard db.finding.nodup]
  congr 1
  ext key
  simp only [Set.mem_ofPred_eq, CurrentAt, isCurrentIn, Bool.and_eq_true, decide_eq_true_eq,
    ← Dict.get?_eq_some_iff, and_assoc]

theorem currentCount_congr {severity : Severity}
    (h : ∀ key, CurrentAt db i severity key ↔ CurrentAt db' i severity key) :
    currentCount db i severity = currentCount db' i severity := by
  rw [currentCount_eq_ncard, currentCount_eq_ncard]
  exact congrArg Set.ncard (Set.ext h)

/-- Nothing is current in an image that points at no run. -/
theorem isCurrentIn_of_none (h : pointerOf db i = none) (e : FindingKey × Finding) :
    isCurrentIn db i e = false := by
  simp [isCurrentIn, h]

/-- What a history keeps of runs. -/
structure Integral (db : Db) : Prop where
  /-- A success has its five counts. -/
  counted : ∀ r run, db.scanRun.get? r = some run → run.status = .success →
    ∀ severity, (run.findingCount severity).isSome
  /-- Another run has none. -/
  uncounted : ∀ r run, db.scanRun.get? r = some run → run.status ≠ .success →
    ∀ severity, run.findingCount severity = none
  /-- The current run of an image counts its current findings. -/
  counts : ∀ i r run, pointerOf db i = some r → db.scanRun.get? r = some run →
    ∀ severity, run.findingCount severity = some (currentCount db i severity)
  /-- A finding is seen first, and last, by runs recorded in this order. -/
  ordered : ∀ key f, db.finding.get? key = some f → f.firstSeenRunId ≤ f.lastSeenRunId
  /-- An image that has a finding points at a run, and no finding of it was seen later. -/
  pointed : ∀ key f, db.finding.get? key = some f →
    ∃ r, pointerOf db key.imageId = some r ∧ f.lastSeenRunId ≤ r

theorem WellFormed.successOf_pointer (hdb : WellFormed db) {r : RunId}
    (h : pointerOf db i = some r) : SuccessOf db i r := by
  obtain ⟨image, hi, hr⟩ := Option.bind_eq_some_iff.mp h
  exact hdb.pointer i image r hi hr

/-! ### A success -/

theorem pointerOf_recordSuccess (hi : db.image.get? i = some image) (report : ParsedReport)
    (j : ImageId) : pointerOf (recordSuccess db i image job report m) j
      = if j = i then some db.scanRun.next else pointerOf db j := by
  rw [pointerOf, get?_image_recordSuccess hi]
  split <;> rfl

/-- What a success writes is what is current after it. -/
theorem currentAt_recordSuccess (hdb : WellFormed db) (hi : db.image.get? i = some image)
    (report : AcceptedReport) {severity : Severity} {key : FindingKey} :
    CurrentAt (recordSuccess db i image job report.report m) i severity key
      ↔ ∃ f, (key, f) ∈ writtenRows db i report.report ∧ f.severity = severity := by
  have hpointer : pointerOf (recordSuccess db i image job report.report m) i
      = some db.scanRun.next := by
    rw [pointerOf_recordSuccess hi, if_pos rfl]
  rw [CurrentAt, hpointer]
  constructor
  · rintro ⟨f, hf, -, hrun, rfl⟩
    rcases cases_finding_recordSuccess hdb.package hf with ⟨-, hold⟩ | ⟨g, hg, p, hp, rfl, rfl⟩
    · exact absurd (Option.some.inj hrun) (hdb.lastSeen_lt hold).ne'
    · exact ⟨_, mem_writtenRows.mpr ⟨g, hg, p, hp, rfl, rfl⟩,
        (severity_upsertFinding _ _).symm⟩
  · rintro ⟨f, hf, rfl⟩
    obtain ⟨g, hg, p, hp, rfl, rfl⟩ := mem_writtenRows.mp hf
    refine ⟨_, get?_finding_of_mem hdb.package report hg hp, rfl, ?_,
      severity_upsertFinding _ _⟩
    rw [lastSeenRunId_upsertFinding]
    rfl

/-- **A success counts what is current after it.** -/
theorem currentCount_recordSuccess (hdb : WellFormed db) (hi : db.image.get? i = some image)
    (report : AcceptedReport) (severity : Severity) :
    currentCount (recordSuccess db i image job report.report m) i severity
      = countBySeverity (writtenRows db i report.report) severity := by
  rw [currentCount_eq_ncard, countBySeverity,
    countP_eq_ncard (nodup_writtenRows hdb.package report)]
  congr 1
  ext key
  simp only [Set.mem_ofPred_eq, currentAt_recordSuccess hdb hi, decide_eq_true_eq]

/-- What is current in another image stays current. -/
theorem currentCount_recordSuccess_of_ne (hi : db.image.get? i = some image)
    (report : ParsedReport) (hj : j ≠ i) (severity : Severity) :
    currentCount (recordSuccess db i image job report m) j severity =
      currentCount db j severity := by
  refine currentCount_congr fun key => ?_
  rw [CurrentAt, CurrentAt, pointerOf_recordSuccess hi, if_neg hj]
  refine exists_congr fun f => ?_
  constructor
  · rintro ⟨hf, himage, h⟩
    rw [get?_finding_of_ne (by rw [himage]; exact hj)] at hf
    exact ⟨hf, himage, h⟩
  · rintro ⟨hf, himage, h⟩
    refine ⟨?_, himage, h⟩
    rw [get?_finding_of_ne (by rw [himage]; exact hj)]
    exact hf

theorem integral_recordSuccess (hdb : WellFormed db) (h : Integral db)
    (hi : db.image.get? i = some image) (report : AcceptedReport) :
    Integral (recordSuccess db i image job report.report m) where
  counted := by
    intro r run hr hstatus severity
    rw [get?_scanRun_recordSuccess] at hr
    split at hr
    · rw [← Option.some.inj hr]
      rfl
    · exact h.counted r run hr hstatus severity
  uncounted := by
    intro r run hr hstatus severity
    rw [get?_scanRun_recordSuccess] at hr
    split at hr
    · rw [← Option.some.inj hr] at hstatus
      exact absurd rfl hstatus
    · exact h.uncounted r run hr hstatus severity
  counts := by
    intro j r run hpointer hr severity
    rw [pointerOf_recordSuccess hi] at hpointer
    rw [get?_scanRun_recordSuccess] at hr
    split at hpointer
    · next hj =>
      subst hj
      rw [if_pos (Option.some.inj hpointer).symm] at hr
      rw [← Option.some.inj hr, currentCount_recordSuccess hdb hi]
      rfl
    · next hj =>
      rw [if_neg (hdb.successOf_pointer hpointer).lt_next.ne] at hr
      rw [currentCount_recordSuccess_of_ne hi report.report hj]
      exact h.counts j r run hpointer hr severity
  ordered := by
    intro key f hf
    rcases cases_finding_recordSuccess hdb.package hf with ⟨-, hold⟩ | ⟨g, -, p, -, rfl, rfl⟩
    · exact h.ordered key f hold
    · rw [firstSeenRunId_upsertFinding, lastSeenRunId_upsertFinding]
      cases hold : db.finding.get? ⟨i, g.cveId, p⟩ with
      | none => exact le_rfl
      | some f => exact (hdb.firstSeen _ f hold).lt_next.le
  pointed := by
    intro key f hf
    rw [pointerOf_recordSuccess hi]
    rcases cases_finding_recordSuccess hdb.package hf with ⟨-, hold⟩ | ⟨g, -, p, -, rfl, rfl⟩
    · split
      · exact ⟨_, rfl, (hdb.lastSeen_lt hold).le⟩
      · exact h.pointed key f hold
    · rw [lastSeenRunId_upsertFinding, if_pos rfl]
      exact ⟨_, rfl, le_rfl⟩

/-! ### Skips, failures, histories -/

theorem pointerOf_recordQuiet {f : Image → Image} (hf : Quiet f) (run : ScanRun) (j : ImageId) :
    pointerOf (recordQuiet db i run f) j = pointerOf db j := by
  have hsame := currentScanRunId_recordQuiet hf db i run j
  have hjoin : ∀ o : Option Image, o.bind Image.currentScanRunId
      = (o.map Image.currentScanRunId).bind id := by
    intro o
    cases o <;> rfl
  rw [pointerOf, pointerOf, hjoin, hsame, ← hjoin]

theorem integral_recordQuiet (hdb : WellFormed db) (h : Integral db) {f : Image → Image}
    (hf : Quiet f) {run : ScanRun} (hstatus : run.status ≠ .success)
    (hcounts : ∀ severity, run.findingCount severity = none) :
    Integral (recordQuiet db i run f) where
  counted := by
    intro r run' hr hsuccess severity
    have hr : (db.scanRun.insert run).get? r = some run' := hr
    rw [Serial.get?_insert] at hr
    split at hr
    · rw [← Option.some.inj hr] at hsuccess
      exact absurd hsuccess hstatus
    · exact h.counted r run' hr hsuccess severity
  uncounted := by
    intro r run' hr hquiet severity
    have hr : (db.scanRun.insert run).get? r = some run' := hr
    rw [Serial.get?_insert] at hr
    split at hr
    · rw [← Option.some.inj hr]
      exact hcounts severity
    · exact h.uncounted r run' hr hquiet severity
  counts := by
    intro j r run' hpointer hr severity
    rw [pointerOf_recordQuiet hf] at hpointer
    have hr : (db.scanRun.insert run).get? r = some run' := hr
    rw [Serial.get?_insert_of_ne _ (hdb.successOf_pointer hpointer).lt_next.ne] at hr
    have hsame : currentCount (recordQuiet db i run f) j severity = currentCount db j severity := by
      refine currentCount_congr fun key => ?_
      rw [CurrentAt, CurrentAt, pointerOf_recordQuiet hf]
      rfl
    rw [hsame]
    exact h.counts j r run' hpointer hr severity
  ordered := h.ordered
  pointed := by
    intro key g hg
    rw [pointerOf_recordQuiet hf]
    exact h.pointed key g hg

theorem integral_commit (hdb : WellFormed db) (h : Integral db) (call : Call) :
    Integral (call.commit db) := by
  rw [Call.commit]
  cases hi : db.image.get? call.imageId with
  | none => exact h
  | some image =>
    cases call with
    | success i job report m => exact integral_recordSuccess hdb h hi report
    | skip i job m =>
      exact integral_recordQuiet hdb h (quiet_skipImage m) (by rintro ⟨⟩) fun _ => rfl
    | failure i job m error exhausted =>
      exact integral_recordQuiet hdb h (quiet_failImage m exhausted) (by rintro ⟨⟩) fun _ => rfl

/-- **Every serial history keeps runs integral.** -/
theorem integral_runCalls (hdb : WellFormed db) (h : Integral db) (calls : List Call) :
    Integral (runCalls db calls) := by
  have hboth : WellFormed (runCalls db calls) ∧ Integral (runCalls db calls) :=
    runCalls_invariant (P := fun db => WellFormed db ∧ Integral db)
      (fun _ call h => ⟨wellFormed_commit h.1 call, integral_commit h.1 h.2 call⟩) ⟨hdb, h⟩ calls
  exact hboth.2

theorem integral_of_unscanned (hdb : db.Unscanned) : Integral db where
  counted := by
    intro r run hr
    rw [hdb.scanRun] at hr
    cases hr
  uncounted := by
    intro r run hr
    rw [hdb.scanRun] at hr
    cases hr
  counts := by
    intro i r run _ hr
    rw [hdb.scanRun] at hr
    cases hr
  ordered := by
    intro key f hf
    rw [hdb.finding] at hf
    cases hf
  pointed := by
    intro key f hf
    rw [hdb.finding] at hf
    cases hf

end Persist

end ContainerScanner
