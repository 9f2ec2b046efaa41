import ContainerScanner.Scanner.Effects

/-!
# What every reachable database satisfies

The schema has no foreign key from `current_scan_run_id`, `first_seen_run_id` or
`last_seen_run_id`, so that these name runs of the right image is an invariant of the recorders.

## Main definitions

* `WellFormed` — references resolve, ranks and names agree

## Main results

* `wellFormed_recordSuccess`, `wellFormed_recordQuiet` — every recorder keeps it
* `wellFormed_runCalls` — every serial history keeps it
* `wellFormed_of_unscanned` — it holds before the first scan
-/

namespace ContainerScanner

open Foundation

namespace Persist

/-- `r` is a successful run of image `i`. -/
def SuccessOf (db : Db) (i : ImageId) (r : RunId) : Prop :=
  ∃ run, db.scanRun.get? r = some run ∧ run.imageId = i ∧ run.status = .success

/-- References resolve, and derived columns agree with what they are derived from. -/
structure WellFormed (db : Db) : Prop where
  /-- Package ids are drawn from the sequence, one per key. -/
  package : db.package.Faithful
  /-- An image points at a successful run of its own. -/
  pointer : ∀ i image r, db.image.get? i = some image → image.currentScanRunId = some r →
    SuccessOf db i r
  /-- A finding was first seen by a successful run of its image. -/
  firstSeen : ∀ key f, db.finding.get? key = some f → SuccessOf db key.imageId f.firstSeenRunId
  /-- A finding was last seen by a successful run of its image. -/
  lastSeen : ∀ key f, db.finding.get? key = some f → SuccessOf db key.imageId f.lastSeenRunId
  /-- The image of a finding exists. -/
  findingImage : ∀ key f, db.finding.get? key = some f →
    ∃ image, db.image.get? key.imageId = some image
  /-- The CVE of a finding exists. -/
  findingCve : ∀ key f, db.finding.get? key = some f → ∃ cve, db.cve.get? key.cveId = some cve
  /-- The package of a finding exists. -/
  findingPackage : ∀ key f, db.finding.get? key = some f →
    ∃ k, db.package.get? k = some key.packageId
  /-- `severity_rank` is the rank of `severity`. -/
  severityRank : ∀ key f, db.finding.get? key = some f → f.severityRank = f.severity.rank
  /-- `max_severity` is the name of `max_severity_rank`. -/
  namesRank : ∀ c cve, db.cve.get? c = some cve → NamesRank cve

variable {db db' : Db} {i : ImageId} {image : Image} {job : Option JobId} {m : RunMetadata}

theorem SuccessOf.lt_next {r : RunId} (h : SuccessOf db i r) : r < db.scanRun.next := by
  obtain ⟨run, hrun, -⟩ := h
  exact Serial.lt_next hrun

/-- A finding's last run is older than the next one to be recorded. -/
theorem WellFormed.lastSeen_lt (hdb : WellFormed db) {key : FindingKey} {f : Finding}
    (hf : db.finding.get? key = some f) : f.lastSeenRunId < db.scanRun.next :=
  (hdb.lastSeen key f hf).lt_next

theorem WellFormed.pointer_lt (hdb : WellFormed db) (hi : db.image.get? i = some image)
    {r : RunId} (hr : image.currentScanRunId = some r) : r < db.scanRun.next :=
  (hdb.pointer i image r hi hr).lt_next

/-! ### A success -/

section Success

variable {report : ParsedReport}

theorem SuccessOf.recordSuccess {j : ImageId} {r : RunId} (h : SuccessOf db j r) :
    SuccessOf (recordSuccess db i image job report m) j r := by
  obtain ⟨run, hrun, hj, hs⟩ := h
  refine ⟨run, ?_, hj, hs⟩
  rw [get?_scanRun_recordSuccess, if_neg (Serial.lt_next hrun).ne]
  exact hrun

theorem successOf_next :
    SuccessOf (recordSuccess db i image job report m) i db.scanRun.next :=
  ⟨_, by rw [get?_scanRun_recordSuccess, if_pos rfl], rfl, rfl⟩

/-- A finding row after a success is an old row, or one the report named. -/
theorem cases_finding_recordSuccess (hdb : db.package.Faithful) {report : AcceptedReport}
    {key : FindingKey} {f : Finding}
    (h : (recordSuccess db i image job report.report m).finding.get? key = some f) :
    (key ∉ (writtenRows db i report.report).map Prod.fst ∧ db.finding.get? key = some f) ∨
    ∃ g ∈ report.report.findings, ∃ p,
      (db.package.internAll (packageKeys report.report)).get? g.packageKey = some p ∧
      key = ⟨i, g.cveId, p⟩ ∧
      f = upsertFinding (newFinding db.scanRun.next g) (db.finding.get? key) := by
  by_cases hkey : key ∈ (writtenRows db i report.report).map Prod.fst
  · right
    obtain ⟨⟨key', f'⟩, hmem, rfl⟩ := List.mem_map.mp hkey
    obtain ⟨g, hg, p, hp, rfl, rfl⟩ := mem_writtenRows.mp hmem
    rw [get?_finding_of_mem hdb report hg hp] at h
    exact ⟨g, hg, p, hp, rfl, (Option.some.inj h).symm⟩
  · left
    rw [get?_finding_of_notMem hkey] at h
    exact ⟨hkey, h⟩

theorem lastSeenRunId_upsertFinding (f : Finding) (old : Option Finding) :
    (upsertFinding f old).lastSeenRunId = f.lastSeenRunId := by
  cases old <;> rfl

theorem severity_upsertFinding (f : Finding) (old : Option Finding) :
    (upsertFinding f old).severity = f.severity := by
  cases old <;> rfl

theorem severityRank_upsertFinding (f : Finding) (old : Option Finding) :
    (upsertFinding f old).severityRank = f.severityRank := by
  cases old <;> rfl

theorem fixedVersion_upsertFinding (f : Finding) (old : Option Finding) :
    (upsertFinding f old).fixedVersion = f.fixedVersion := by
  cases old <;> rfl

theorem firstSeenRunId_upsertFinding (f : Finding) (old : Option Finding) :
    (upsertFinding f old).firstSeenRunId
      = (old.map Finding.firstSeenRunId).getD f.firstSeenRunId := by
  cases old <;> rfl

theorem namesRank_cve_recordSuccess (hdb : WellFormed db) {c : CveId} {cve : Cve}
    (h : (recordSuccess db i image job report m).cve.get? c = some cve) : NamesRank cve := by
  -- the upsert keeps names right, and the rollup writes name and rank together
  have hupsert : ∀ r ∈ (writeFindings db i job report m).cve.get? c, NamesRank r := by
    intro r hr
    rw [get?_cve_writeFindings] at hr
    cases hv : (cveRows report.findings).get? c with
    | none =>
      rw [hv] at hr
      exact hdb.namesRank c r hr
    | some v =>
      rw [hv] at hr
      rw [← Option.some.inj hr]
      exact NamesRank.upsertCve fun r' hr' => hdb.namesRank c r' hr'
  rw [get?_cve_recordSuccess] at h
  split at h
  · obtain ⟨r, hr, rfl⟩ := Option.map_eq_some_iff.mp h
    exact (hupsert r hr).applyRollup
  · exact hupsert cve h

/-- **A success keeps the database well formed.** -/
theorem wellFormed_recordSuccess (hdb : WellFormed db) (hi : db.image.get? i = some image)
    (report : AcceptedReport) :
    WellFormed (recordSuccess db i image job report.report m) where
  package := hdb.package.internAll _
  pointer := by
    intro j image' r hj hr
    rw [get?_image_recordSuccess hi] at hj
    split at hj
    · next hji =>
      subst hji
      rw [← Option.some.inj hj] at hr
      rw [← Option.some.inj hr]
      exact successOf_next
    · exact (hdb.pointer j image' r hj hr).recordSuccess
  firstSeen := by
    intro key f hf
    rcases cases_finding_recordSuccess hdb.package hf with ⟨-, hold⟩ | ⟨g, -, p, -, rfl, rfl⟩
    · exact (hdb.firstSeen key f hold).recordSuccess
    · rw [firstSeenRunId_upsertFinding]
      cases hold : db.finding.get? ⟨i, g.cveId, p⟩ with
      | none => exact successOf_next
      | some f' => exact (hdb.firstSeen _ f' hold).recordSuccess
  lastSeen := by
    intro key f hf
    rcases cases_finding_recordSuccess hdb.package hf with ⟨-, hold⟩ | ⟨g, -, p, -, rfl, rfl⟩
    · exact (hdb.lastSeen key f hold).recordSuccess
    · rw [lastSeenRunId_upsertFinding]
      exact successOf_next
  findingImage := by
    intro key f hf
    rcases cases_finding_recordSuccess hdb.package hf with ⟨-, hold⟩ | ⟨g, -, p, -, rfl, rfl⟩
    · obtain ⟨image', hj⟩ := hdb.findingImage key f hold
      rw [get?_image_recordSuccess hi]
      split
      · exact ⟨_, rfl⟩
      · exact ⟨image', hj⟩
    · exact ⟨_, by rw [get?_image_recordSuccess hi, if_pos rfl]⟩
  findingCve := by
    intro key f hf
    rw [← Dict.mem_keys_iff, mem_keys_cve_recordSuccess]
    rcases cases_finding_recordSuccess hdb.package hf with ⟨-, hold⟩ | ⟨g, hg, p, -, rfl, -⟩
    · exact Or.inr (Dict.mem_keys_iff.mpr (hdb.findingCve key f hold))
    · exact Or.inl (ParsedReport.mem_cveIds.mpr ⟨g, hg, rfl⟩)
  findingPackage := by
    intro key f hf
    rcases cases_finding_recordSuccess hdb.package hf with ⟨-, hold⟩ | ⟨g, -, p, hp, rfl, -⟩
    · obtain ⟨k, hk⟩ := hdb.findingPackage key f hold
      exact ⟨k, Surrogate.get?_internAll_of_get? hk _⟩
    · exact ⟨g.packageKey, hp⟩
  severityRank := by
    intro key f hf
    rcases cases_finding_recordSuccess hdb.package hf with ⟨-, hold⟩ | ⟨g, -, p, -, rfl, rfl⟩
    · exact hdb.severityRank key f hold
    · rw [severityRank_upsertFinding, severity_upsertFinding]
      rfl
  namesRank := fun c cve h => namesRank_cve_recordSuccess hdb h

end Success

/-! ### Skips, failures, histories -/

theorem SuccessOf.recordQuiet {j : ImageId} {r : RunId} (h : SuccessOf db j r) (run : ScanRun)
    (f : Image → Image) : SuccessOf (recordQuiet db i run f) j r := by
  obtain ⟨old, hold, hj, hs⟩ := h
  exact ⟨old, Serial.get?_insert_of_get? hold run, hj, hs⟩

/-- **So does a run that moves no pointer.** -/
theorem wellFormed_recordQuiet (hdb : WellFormed db) {f : Image → Image} (hf : Quiet f)
    (run : ScanRun) : WellFormed (recordQuiet db i run f) where
  package := hdb.package
  pointer := by
    intro j image' r hj hr
    have hpointer := currentScanRunId_recordQuiet hf db i run j
    rw [hj] at hpointer
    obtain ⟨image, himage, heq⟩ := Option.map_eq_some_iff.mp hpointer.symm
    exact (hdb.pointer j image r himage (heq.trans hr)).recordQuiet run f
  firstSeen := fun key g hg => (hdb.firstSeen key g hg).recordQuiet run f
  lastSeen := fun key g hg => (hdb.lastSeen key g hg).recordQuiet run f
  findingImage := by
    intro key g hg
    obtain ⟨image', hj⟩ := hdb.findingImage key g hg
    have hkeys : key.imageId ∈ (db.image.update i f).keys := by
      rw [Dict.keys_update]
      exact Dict.mem_keys_of_get? hj
    exact Dict.mem_keys_iff.mp hkeys
  findingCve := hdb.findingCve
  findingPackage := hdb.findingPackage
  severityRank := hdb.severityRank
  namesRank := hdb.namesRank

theorem wellFormed_commit (hdb : WellFormed db) (call : Call) : WellFormed (call.commit db) := by
  rcases Call.commit_cases db call with ⟨-, heq⟩ | ⟨i, image, job, report, m, -, hi, heq⟩ |
    ⟨image, run, f, -, -, hf, -, -, -, heq⟩
  · rw [heq]
    exact hdb
  · rw [heq]
    exact wellFormed_recordSuccess hdb hi report
  · rw [heq]
    exact wellFormed_recordQuiet hdb hf run

/-- Every serial history keeps the database well formed. -/
theorem wellFormed_runCalls (hdb : WellFormed db) (calls : List Call) :
    WellFormed (runCalls db calls) :=
  runCalls_invariant (P := WellFormed) (fun _ call h => wellFormed_commit h call) hdb calls

/-- A database nothing was scanned into is well formed. -/
theorem wellFormed_of_unscanned (hdb : db.Unscanned) : WellFormed db where
  package := by
    rw [hdb.package]
    exact Surrogate.faithful_empty
  pointer := by
    intro i image r hi hr
    rw [hdb.pointer i image hi] at hr
    cases hr
  firstSeen := by
    intro key f hf
    rw [hdb.finding] at hf
    cases hf
  lastSeen := by
    intro key f hf
    rw [hdb.finding] at hf
    cases hf
  findingImage := by
    intro key f hf
    rw [hdb.finding] at hf
    cases hf
  findingCve := by
    intro key f hf
    rw [hdb.finding] at hf
    cases hf
  findingPackage := by
    intro key f hf
    rw [hdb.finding] at hf
    cases hf
  severityRank := by
    intro key f hf
    rw [hdb.finding] at hf
    cases hf
  namesRank := by
    intro c cve hc
    rw [hdb.cve] at hc
    cases hc

end Persist

end ContainerScanner
