import ContainerScanner.Api.Snapshot
import ContainerScanner.Catalogue.Scans

/-!
# How the tables represent the catalogue

The scans of the catalogue with the numbers their runs were given, and what each table has to say
about them. The numbers are bookkeeping: they rise in commit order, and nothing else is assumed of
them, because a rolled back transaction leaves a gap.

Two databases that differ in the queue, in the schedule columns of images, in rollups or in how far
a sequence has run represent the same scans. `SameFindings` is that relation, and every transaction
of the system is, up to it, a call of a recorder.

## Main definitions

* `Represents` — the tables say what the scans say
* `SameFindings` — two databases that represent the same scans
* `publishedBy` — the scan a call of a recorder commits

## Main results

* `Represents.of_same` — representation up to `SameFindings`
* `Represents.commit` — a call keeps it, with the scan it publishes
-/

namespace ContainerScanner

open Foundation Persist

namespace Catalogue

/-- The scans with the numbers of their runs, oldest first. -/
abbrev Log : Type := List (RunId × Scan)

/-- The runs of an image with their reports. -/
def reportsOf (log : Log) (i : ImageId) : List (RunId × AcceptedReport) :=
  log.filterMap fun e => if e.2.imageId = i then some (e.1, e.2.report) else none

/-- The run of a scan. -/
structure RunOf (scan : Scan) (run : ScanRun) : Prop where
  imageId : run.imageId = scan.imageId
  status : run.status = .success
  completedAt : run.completedAt = some scan.metadata.completedAt
  digest : run.digest = scan.metadata.digest
  findingCount : ∀ severity, run.findingCount severity =
    some (scan.report.report.findings.countP fun f => decide (f.severity = severity))

/-- **The tables say what the scans say.** -/
structure Represents (db : Db) (log : Log) : Prop where
  wellFormed : WellFormed db
  /-- A finding row is what the sightings of its key call for. -/
  rows : ∀ i key, rowAt db i key = expectedRow (sightings key (reportsOf log i))
  /-- An image points at its last scan. -/
  pointer : ∀ i image, db.image.get? i = some image →
    image.currentScanRunId = (reportsOf log i).getLast?.map Prod.fst
  /-- Scans are of registered images. -/
  image : ∀ e ∈ log, e.2.imageId ∈ db.image.keys
  run : ∀ e ∈ log, ∃ run, db.scanRun.get? e.1 = some run ∧ RunOf e.2 run
  /-- Runs are numbered in commit order. -/
  ordered : log.Pairwise fun a b => a.1 < b.1
  describes : ∀ c, (db.cve.get? c).map described = description (log.map Prod.snd) c

/-- Two databases that represent the same scans. -/
structure SameFindings (db db' : Db) : Prop where
  finding : db'.finding = db.finding
  scanRun : ∀ r, db'.scanRun.get? r = db.scanRun.get? r
  package : ∀ k, db'.package.get? k = db.package.get? k
  pointer : ∀ i, (db'.image.get? i).map Image.currentScanRunId =
    (db.image.get? i).map Image.currentScanRunId
  references : Api.references db' = Api.references db
  described : ∀ c, (db'.cve.get? c).map described = (db.cve.get? c).map described
  /-- Sequences never go back. -/
  runs_le : db.scanRun.next ≤ db'.scanRun.next
  packages_le : db.package.next ≤ db'.package.next

variable {db db' : Db} {log : Log} {i : ImageId} {image : Image}

/-! ### Up to what does not matter -/

/-- Every image of one is an image of the other, with the pointer it has there. -/
theorem SameFindings.exists_image (h : SameFindings db db') (hi : db'.image.get? i = some image) :
    ∃ old, db.image.get? i = some old ∧ old.currentScanRunId = image.currentScanRunId := by
  have hsame := h.pointer i
  rw [hi] at hsame
  exact Option.map_eq_some_iff.mp hsame.symm

theorem SameFindings.image_isSome (h : SameFindings db db') (i : ImageId) :
    (db'.image.get? i).isSome = (db.image.get? i).isSome := by
  have hsame := congrArg Option.isSome (h.pointer i)
  simpa using hsame

theorem SameFindings.cve_isSome (h : SameFindings db db') (c : CveId) :
    (db'.cve.get? c).isSome = (db.cve.get? c).isSome := by
  have hsame := congrArg Option.isSome (h.described c)
  simpa using hsame

theorem SameFindings.rowAt (h : SameFindings db db') (i : ImageId) (key : CveId × PackageKey) :
    rowAt db' i key = rowAt db i key := by
  rw [Persist.rowAt, Persist.rowAt, h.package, h.finding]

theorem SameFindings.successOf (h : SameFindings db db') {r : RunId} (hr : SuccessOf db i r) :
    SuccessOf db' i r := by
  obtain ⟨run, hrun, himage, hstatus⟩ := hr
  exact ⟨run, (h.scanRun r).trans hrun, himage, hstatus⟩

theorem SameFindings.wellFormed (h : SameFindings db db') (hdb : WellFormed db)
    (hnames : ∀ c cve, db'.cve.get? c = some cve → NamesRank cve) : WellFormed db' where
  package :=
    ⟨fun k p hk => lt_of_lt_of_le (hdb.package.lt_next k p ((h.package k).symm.trans hk))
      h.packages_le,
    fun k k' p hk hk' => hdb.package.injective k k' p ((h.package k).symm.trans hk)
      ((h.package k').symm.trans hk')⟩
  pointer := by
    intro i image r hi hr
    obtain ⟨old, hold, hsame⟩ := h.exists_image hi
    exact h.successOf (hdb.pointer i old r hold (hsame.trans hr))
  firstSeen := fun key f hf => h.successOf (hdb.firstSeen key f (h.finding ▸ hf))
  lastSeen := fun key f hf => h.successOf (hdb.lastSeen key f (h.finding ▸ hf))
  findingImage := by
    intro key f hf
    obtain ⟨image, himage⟩ := hdb.findingImage key f (h.finding ▸ hf)
    refine Option.isSome_iff_exists.mp ?_
    rw [h.image_isSome, himage]
    rfl
  findingCve := by
    intro key f hf
    obtain ⟨cve, hcve⟩ := hdb.findingCve key f (h.finding ▸ hf)
    refine Option.isSome_iff_exists.mp ?_
    rw [h.cve_isSome, hcve]
    rfl
  findingPackage := by
    intro key f hf
    obtain ⟨k, hk⟩ := hdb.findingPackage key f (h.finding ▸ hf)
    exact ⟨k, (h.package k).trans hk⟩
  severityRank := fun key f hf => hdb.severityRank key f (h.finding ▸ hf)
  namesRank := hnames

/-- **Representation up to what does not matter.** -/
theorem Represents.of_same (h : Represents db log) (hsame : SameFindings db db')
    (hnames : ∀ c cve, db'.cve.get? c = some cve → NamesRank cve) : Represents db' log where
  wellFormed := hsame.wellFormed h.wellFormed hnames
  rows := fun i key => (hsame.rowAt i key).trans (h.rows i key)
  pointer := by
    intro i image hi
    obtain ⟨old, hold, hcur⟩ := hsame.exists_image hi
    exact hcur.symm.trans (h.pointer i old hold)
  image := by
    intro e he
    obtain ⟨image, himage⟩ := Dict.mem_keys_iff.mp (h.image e he)
    refine Dict.mem_keys_iff.mpr (Option.isSome_iff_exists.mp ?_)
    rw [hsame.image_isSome, himage]
    rfl
  run := by
    intro e he
    obtain ⟨run, hrun, hof⟩ := h.run e he
    exact ⟨run, (hsame.scanRun e.1).trans hrun, hof⟩
  ordered := h.ordered
  describes := fun c => (hsame.described c).trans (h.describes c)

/-- A database nothing was scanned into represents no scan. -/
theorem represents_of_unscanned (hdb : db.Unscanned) : Represents db [] where
  wellFormed := wellFormed_of_unscanned hdb
  rows := by
    intro i key
    rw [rowAt, hdb.package]
    rfl
  pointer := hdb.pointer
  image := fun _ he => by cases he
  run := fun _ he => by cases he
  ordered := List.Pairwise.nil
  describes := by
    intro c
    rw [hdb.cve]
    rfl

/-! ### Calls of the recorders -/

/-- The scan a call commits, with the number of its run. -/
def publishedBy (db : Db) : Call → Log
  | .success i _ report metadata =>
    if (db.image.get? i).isSome then [(db.scanRun.next, ⟨i, report, metadata⟩)] else []
  | _ => []

theorem reportsOf_append (log log' : Log) (i : ImageId) :
    reportsOf (log ++ log') i = reportsOf log i ++ reportsOf log' i := List.filterMap_append

theorem reportsOf_publishedBy (db : Db) (call : Call) (i : ImageId) :
    reportsOf (publishedBy db call) i = call.recorded db i := by
  cases call with
  | success j job report m =>
    rw [publishedBy, Call.recorded]
    by_cases hji : j = i
    · subst hji
      by_cases hsome : (db.image.get? j).isSome <;> simp [reportsOf, hsome]
    · by_cases hsome : (db.image.get? j).isSome <;> simp [reportsOf, hsome, hji]
  | skip | failure => rfl

/-- A call publishes nothing, or the scan of a success on a registered image. -/
theorem publishedBy_cases (db : Db) (call : Call) : publishedBy db call = [] ∨
    ∃ i job report m image, call = .success i job report m ∧ db.image.get? i = some image ∧
      publishedBy db call = [(db.scanRun.next, ⟨i, report, m⟩)] := by
  cases call with
  | success i job report m =>
    cases hi : db.image.get? i with
    | none => exact Or.inl (if_neg (by simp [hi]))
    | some image => exact Or.inr ⟨i, job, report, m, image, rfl, hi, if_pos (by simp [hi])⟩
  | skip | failure => exact Or.inl rfl

/-- The counts written with a report are the counts of its findings. -/
theorem countBySeverity_writtenRows (db : Db) (i : ImageId) (report : ParsedReport)
    (severity : Severity) : countBySeverity (writtenRows db i report) severity =
      report.findings.countP fun f => decide (f.severity = severity) := by
  rw [countBySeverity, writtenRows, findingRows, List.countP_filterMap]
  refine List.countP_congr fun f hf => ?_
  obtain ⟨p, hp⟩ := exists_packageIds db hf
  simp [hp, newFinding]

/-- The run a success records. -/
theorem runOf_newRun (db : Db) (i : ImageId) (job : Option JobId) (report : AcceptedReport)
    (m : RunMetadata) : RunOf ⟨i, report, m⟩
      (withCounts (countBySeverity (writtenRows db i report.report))
        (newRun i job .success m none)) where
  imageId := rfl
  status := rfl
  completedAt := rfl
  digest := rfl
  findingCount := fun severity => congrArg some (countBySeverity_writtenRows db i _ severity)

/-- The guard of the upsert, on the columns it guards. -/
theorem fills_eq (offer : CveValues) (cve : Cve) :
    offer.fills cve = completes offer (described cve) := rfl

theorem described_upsertCve (offer : CveValues) (known : Option Cve) :
    described (upsertCve offer known) =
      (known.map described).elim offer fun known =>
        if completes offer known then offer.coalesce known else known := by
  cases known with
  | none => rfl
  | some cve =>
    rw [Option.map_some, Option.elim_some, ← fills_eq, upsertCve]
    split <;> rfl

theorem described_applyRollup (sub : Rollup) (cve : Cve) :
    described (applyRollup sub cve) = described cve := by
  rw [applyRollup]
  split <;> rfl

/-- A rollup describes every CVE as it was. -/
theorem described_recomputeCveRollup (db : Db) (cs : List CveId) (c : CveId) :
    ((recomputeCveRollup db cs).cve.get? c).map described = (db.cve.get? c).map described := by
  rw [get?_cve_recomputeCveRollup]
  split
  · rw [Option.map_map]
    refine congrArg (fun f => (db.cve.get? c).map f) ?_
    exact funext fun cve => described_applyRollup _ cve
  · rfl

/-- A success describes a CVE as its report does. -/
theorem described_recordSuccess (db : Db) (i : ImageId) (image : Image) (job : Option JobId)
    (report : AcceptedReport) (m : RunMetadata) (c : CveId) :
    ((recordSuccess db i image job report.report m).cve.get? c).map described =
      redescribe c ((db.cve.get? c).map described) ⟨i, report, m⟩ := by
  have hwritten : (writeFindings db i job report.report m).cve.get? c =
      if c ∈ report.report.cveIds then
        some (upsertCve (offered report.report c) (db.cve.get? c)) else db.cve.get? c :=
    get?_upsertRows upsertCve db report.report c
  rw [recordSuccess, described_recomputeCveRollup, hwritten, redescribe]
  split
  · rw [Option.map_some, described_upsertCve]
  · rfl

theorem described_commit (db : Db) (call : Call) (c : CveId) :
    ((call.commit db).cve.get? c).map described =
      ((publishedBy db call).map Prod.snd).foldl (redescribe c)
        ((db.cve.get? c).map described) := by
  rcases publishedBy_cases db call with hnone | ⟨i, job, report, m, image, rfl, hi, hpublished⟩
  · rw [hnone]
    rcases Call.commit_cases db call with ⟨-, heq⟩ | ⟨i, image, job, report, m, rfl, hi, -⟩ |
      ⟨image, run, f, -, -, -, -, -, -, heq⟩
    · rw [heq]
      rfl
    · rw [publishedBy, hi] at hnone
      cases hnone
    · rw [heq]
      rfl
  · rw [hpublished, Api.commit_success hi, described_recordSuccess]
    rfl

/-- **A call of a recorder keeps the representation**, with the scan it publishes. -/
theorem Represents.commit (h : Represents db log) (call : Call) :
    Represents (call.commit db) (log ++ publishedBy db call) where
  wellFormed := wellFormed_commit h.wellFormed call
  rows := by
    intro i key
    rw [reportsOf_append, reportsOf_publishedBy]
    exact rowAt_commit h.wellFormed call i key (h.rows i key)
  pointer := by
    intro i image hi
    rw [reportsOf_append, reportsOf_publishedBy]
    exact pointer_commit call i (h.pointer i) hi
  image := by
    intro e he
    rw [keys_image_commit]
    obtain he | he := List.mem_append.mp he
    · exact h.image e he
    · rcases publishedBy_cases db call with hnone | ⟨i, job, report, m, image, -, hi, hpublished⟩
      · rw [hnone] at he
        cases he
      · rw [hpublished, List.mem_singleton] at he
        rw [he]
        exact Dict.mem_keys_of_get? hi
  run := by
    intro e he
    obtain he | he := List.mem_append.mp he
    · obtain ⟨run, hrun, hof⟩ := h.run e he
      exact ⟨run, Api.get?_scanRun_commit hrun call, hof⟩
    · rcases publishedBy_cases db call with hnone | ⟨i, job, report, m, image, rfl, hi, hpublished⟩
      · rw [hnone] at he
        cases he
      · rw [hpublished, List.mem_singleton] at he
        rw [he, Api.commit_success hi]
        exact ⟨_, by rw [get?_scanRun_recordSuccess, if_pos rfl], runOf_newRun db i job report m⟩
  ordered := by
    rcases publishedBy_cases db call with hnone | ⟨i, job, report, m, image, -, -, hpublished⟩
    · rw [hnone, List.append_nil]
      exact h.ordered
    · rw [hpublished]
      refine List.pairwise_append.mpr ⟨h.ordered, List.pairwise_singleton _ _, ?_⟩
      intro e he e' he'
      obtain ⟨run, hrun, -⟩ := h.run e he
      rw [List.mem_singleton.mp he']
      exact Serial.lt_next hrun
  describes := by
    intro c
    rw [described_commit, h.describes c, List.map_append, description, description,
      List.foldl_append]

end Catalogue

end ContainerScanner
