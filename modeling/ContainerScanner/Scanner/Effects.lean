import ContainerScanner.Scanner.Persist
import Mathlib.Data.List.Pairwise

/-!
# What the recorders change

One lemma per table and statement. Everything proved later about a recorder cites these, and no
later proof unfolds `recordSuccess`.

## Main definitions

* `writtenRows` — the finding rows a success offers
* `recordQuiet` — what a skip and a failure have in common: a new run, and an image row whose
  pointer stays

## Main results

* `get?_finding_of_mem`, `get?_finding_of_notMem` — the finding table after a success
* `get?_cve_recordSuccess` — the `cve` table after a success
* `Call.commit_cases` — everything one call can do
-/

namespace ContainerScanner

open Foundation

namespace Persist

variable {db : Db} {i : ImageId} {image : Image} {job : Option JobId} {m : RunMetadata}

/-! ### Packages -/

theorem mem_packageKeys {report : ParsedReport} {k : PackageKey} :
    k ∈ packageKeys report ↔ ∃ f ∈ report.findings, f.packageKey = k := by
  rw [packageKeys, List.mem_insertionSort, List.mem_dedup, List.mem_map]

theorem packageKey_mem {report : ParsedReport} {f : ParsedFinding} (hf : f ∈ report.findings) :
    f.packageKey ∈ packageKeys report :=
  mem_packageKeys.mpr ⟨f, hf, rfl⟩

/-- The lookup after the insert finds every package of the report. -/
theorem exists_packageIds (db : Db) {report : ParsedReport} {f : ParsedFinding}
    (hf : f ∈ report.findings) :
    ∃ p, packageIds (insertPackages db report) report f.packageKey = some p := by
  rw [packageIds, if_pos (packageKey_mem hf)]
  exact Surrogate.exists_get?_internAll _ (packageKey_mem hf)

theorem get?_package_of_packageIds {report : ParsedReport} {k : PackageKey} {p : PackageId}
    (h : packageIds db report k = some p) : db.package.get? k = some p := by
  rw [packageIds] at h
  split at h
  · exact h
  · cases h

/-! ### CVE rows -/

theorem mem_keys_foldl_fill (findings : List ParsedFinding) (d : Dict CveId CveValues)
    (c : CveId) :
    c ∈ (findings.foldl
        (fun byId finding =>
          byId.set finding.cveId
            (((byId.get? finding.cveId).getD ⟨none, none, none, none⟩).fill finding)) d).keys
      ↔ c ∈ d.keys ∨ ∃ f ∈ findings, f.cveId = c := by
  induction findings generalizing d with
  | nil => simp
  | cons f findings ih =>
    rw [List.foldl_cons, ih, Dict.mem_keys_set]
    simp only [List.mem_cons, exists_eq_or_imp, @eq_comm _ c f.cveId]
    tauto

/-- The upsert offers a row for exactly the CVEs of the report. -/
theorem mem_keys_cveRows {report : ParsedReport} {c : CveId} :
    c ∈ (cveRows report.findings).keys ↔ c ∈ report.cveIds := by
  rw [cveRows, mem_keys_foldl_fill, ParsedReport.mem_cveIds]
  simp

/-- The rollup a row stores. -/
def storedRollup (cve : Cve) : Rollup := ⟨cve.maxSeverityRank, cve.affectedImageCount⟩

/-- The row names its rank. -/
def NamesRank (cve : Cve) : Prop := cve.maxSeverity = Severity.ofRank cve.maxSeverityRank

theorem NamesRank.upsertCve {v : CveValues} {cve : Option Cve} (h : ∀ r ∈ cve, NamesRank r) :
    NamesRank (upsertCve v cve) := by
  cases cve with
  | none => rfl
  | some cve =>
    have hcve := h cve rfl
    simp only [Persist.upsertCve]
    split
    · exact hcve
    · exact hcve

/-! ### The rollup row -/

theorem storedRollup_applyRollup (sub : Rollup) (cve : Cve) :
    storedRollup (applyRollup sub cve) = sub := by
  rw [applyRollup]
  split
  · rfl
  · next h =>
    simp only [rollupDiffers, ne_eq, decide_eq_true_eq, not_or, not_not] at h
    rw [storedRollup, h.1, h.2]

theorem NamesRank.applyRollup {sub : Rollup} {cve : Cve} (h : NamesRank cve) :
    NamesRank (applyRollup sub cve) := by
  rw [Persist.applyRollup]
  split
  · rfl
  · exact h

/-- The descriptive columns of a row. -/
def described (cve : Cve) : CveValues :=
  ⟨cve.title, cve.description, cve.publishedAt, cve.lastModifiedAt⟩

theorem get?_cve_recomputeCveRollup (db : Db) (cs : List CveId) (c : CveId) :
    (recomputeCveRollup db cs).cve.get? c
      = if c ∈ cs then (db.cve.get? c).map (applyRollup (rollupOf db c)) else db.cve.get? c := by
  rw [recomputeCveRollup, Dict.get?_foldl_update _ cs.nodup_dedup]
  simp only [List.mem_dedup]

/-! ### Finding rows -/

theorem mem_findingRows {ids : PackageKey → Option PackageId} {runId : RunId}
    {findings : List ParsedFinding} {key : FindingKey} {f : Finding} :
    (key, f) ∈ findingRows i ids runId findings
      ↔ ∃ g ∈ findings, ∃ p, ids g.packageKey = some p ∧ key = ⟨i, g.cveId, p⟩ ∧
          f = newFinding runId g := by
  simp only [findingRows, List.mem_filterMap, Option.map_eq_some_iff, Prod.mk.injEq]
  refine exists_congr fun g => and_congr_right fun _ => exists_congr fun p => ?_
  rw [@eq_comm _ key, @eq_comm _ f]

/-- Distinct keys and one id per package give distinct rows. -/
theorem nodup_findingRows {ids : PackageKey → Option PackageId} {runId : RunId}
    {findings : List ParsedFinding} (hkeys : (findings.map ParsedFinding.key).Nodup)
    (hids : ∀ k k' p, ids k = some p → ids k' = some p → k = k') :
    ((findingRows i ids runId findings).map Prod.fst).Nodup := by
  rw [List.nodup_iff_pairwise_ne, List.pairwise_map, findingRows, List.pairwise_filterMap]
  rw [List.nodup_iff_pairwise_ne, List.pairwise_map] at hkeys
  refine hkeys.imp fun {g g'} hne => ?_
  intro b hb b' hb' heq
  obtain ⟨p, hp, rfl⟩ := Option.map_eq_some_iff.mp hb
  obtain ⟨p', hp', rfl⟩ := Option.map_eq_some_iff.mp hb'
  obtain ⟨-, hc, rfl⟩ := FindingKey.mk.inj heq
  exact hne (Prod.ext hc (hids _ _ _ hp hp'))

/-- The finding rows a success offers. -/
def writtenRows (db : Db) (i : ImageId) (report : ParsedReport) : List (FindingKey × Finding) :=
  findingRows i (packageIds (insertPackages db report) report) db.scanRun.next report.findings

theorem mem_writtenRows {report : ParsedReport} {key : FindingKey} {f : Finding} :
    (key, f) ∈ writtenRows db i report
      ↔ ∃ g ∈ report.findings, ∃ p,
          (db.package.internAll (packageKeys report)).get? g.packageKey = some p ∧
          key = ⟨i, g.cveId, p⟩ ∧ f = newFinding db.scanRun.next g := by
  rw [writtenRows, mem_findingRows]
  refine exists_congr fun g => and_congr_right fun hg => exists_congr fun p => ?_
  rw [packageIds, if_pos (packageKey_mem hg)]
  rfl

theorem imageId_of_mem_writtenRows {report : ParsedReport} {key : FindingKey}
    (h : key ∈ (writtenRows db i report).map Prod.fst) : key.imageId = i := by
  obtain ⟨⟨key', f⟩, hmem, rfl⟩ := List.mem_map.mp h
  obtain ⟨g, -, p, -, rfl, -⟩ := mem_writtenRows.mp hmem
  rfl

theorem nodup_writtenRows (hdb : db.package.Faithful) (report : AcceptedReport) :
    ((writtenRows db i report.report).map Prod.fst).Nodup := by
  refine nodup_findingRows report.keys_nodup fun k k' p hk hk' => ?_
  exact (hdb.internAll (packageKeys report.report)).injective k k' p
    (get?_package_of_packageIds hk) (get?_package_of_packageIds hk')

/-! ### A success, table by table -/

section Success

variable {report : ParsedReport}

theorem image_recordSuccess :
    (recordSuccess db i image job report m).image
      = db.image.update i (pointTo db.scanRun.next m) := rfl

theorem scanRun_recordSuccess :
    (recordSuccess db i image job report m).scanRun
      = (db.scanRun.insert (newRun i job .success m none)).update db.scanRun.next
          (withCounts (countBySeverity (writtenRows db i report))) := rfl

theorem package_recordSuccess :
    (recordSuccess db i image job report m).package
      = db.package.internAll (packageKeys report) := rfl

theorem finding_recordSuccess :
    (recordSuccess db i image job report m).finding
      = db.finding.upsertAll upsertFinding (writtenRows db i report) := rfl

theorem cve_writeFindings :
    (writeFindings db i job report m).cve
      = db.cve.upsertAll upsertCve (cveRows report.findings).entries := rfl

/-- A finding of the report is written over the row that was there. -/
theorem get?_finding_of_mem (hdb : db.package.Faithful) (report : AcceptedReport)
    {g : ParsedFinding} (hg : g ∈ report.report.findings) {p : PackageId}
    (hp : (db.package.internAll (packageKeys report.report)).get? g.packageKey = some p) :
    (recordSuccess db i image job report.report m).finding.get? ⟨i, g.cveId, p⟩
      = some (upsertFinding (newFinding db.scanRun.next g)
          (db.finding.get? ⟨i, g.cveId, p⟩)) :=
  Dict.get?_upsertAll_of_mem upsertFinding (nodup_writtenRows hdb report)
    (mem_writtenRows.mpr ⟨g, hg, p, hp, rfl, rfl⟩) db.finding

/-- Every other row is left as it was. -/
theorem get?_finding_of_notMem {key : FindingKey}
    (hkey : key ∉ (writtenRows db i report).map Prod.fst) :
    (recordSuccess db i image job report m).finding.get? key = db.finding.get? key :=
  Dict.get?_upsertAll_of_notMem upsertFinding hkey db.finding

theorem get?_finding_of_ne {key : FindingKey} (hkey : key.imageId ≠ i) :
    (recordSuccess db i image job report m).finding.get? key = db.finding.get? key :=
  get?_finding_of_notMem fun h => hkey (imageId_of_mem_writtenRows h)

theorem get?_cve_writeFindings (c : CveId) :
    (writeFindings db i job report m).cve.get? c
      = match (cveRows report.findings).get? c with
        | some v => some (upsertCve v (db.cve.get? c))
        | none => db.cve.get? c := by
  cases hc : (cveRows report.findings).get? c with
  | some v =>
    exact Dict.get?_upsertAll_of_mem upsertCve (cveRows report.findings).nodup
      (Dict.get?_eq_some_iff.mp hc) db.cve
  | none => exact Dict.get?_upsertAll_of_notMem upsertCve (Dict.get?_eq_none_iff.mp hc) db.cve

/-- **The `cve` table after a success.** -/
theorem get?_cve_recordSuccess (c : CveId) :
    (recordSuccess db i image job report m).cve.get? c
      = if c ∈ affectedCves db i image report then
          ((writeFindings db i job report m).cve.get? c).map
            (applyRollup (rollupOf (writeFindings db i job report m) c))
        else (writeFindings db i job report m).cve.get? c :=
  get?_cve_recomputeCveRollup _ _ c

theorem mem_keys_cve_recordSuccess {c : CveId} :
    c ∈ (recordSuccess db i image job report m).cve.keys
      ↔ c ∈ report.cveIds ∨ c ∈ db.cve.keys := by
  have hkeys : (recordSuccess db i image job report m).cve.keys
      = (writeFindings db i job report m).cve.keys := Dict.keys_foldl_update _ _ _
  rw [hkeys, cve_writeFindings, Dict.mem_keys_upsertAll, ← mem_keys_cveRows]
  rfl

theorem get?_image_recordSuccess (hi : db.image.get? i = some image) (j : ImageId) :
    (recordSuccess db i image job report m).image.get? j
      = if j = i then some (pointTo db.scanRun.next m image) else db.image.get? j := by
  rw [image_recordSuccess, Dict.get?_update, hi]
  rfl

/-- A run that exists stays, and the new one is the success. -/
theorem get?_scanRun_recordSuccess (r : RunId) :
    (recordSuccess db i image job report m).scanRun.get? r
      = if r = db.scanRun.next then
          some (withCounts (countBySeverity (writtenRows db i report))
            (newRun i job .success m none))
        else db.scanRun.get? r := by
  rw [scanRun_recordSuccess, Serial.get?_update]
  by_cases hr : r = db.scanRun.next
  · rw [if_pos hr, if_pos hr, Serial.get?_insert_next]
    rfl
  · rw [if_neg hr, if_neg hr, Serial.get?_insert_of_ne _ hr]

end Success

/-! ### Skips and failures -/

/-- A new run, and a change of the image row. -/
def recordQuiet (db : Db) (i : ImageId) (run : ScanRun) (f : Image → Image) : Db :=
  { db with scanRun := db.scanRun.insert run, image := db.image.update i f }

/-- What a skip and a failure do to the image row. -/
structure Quiet (f : Image → Image) : Prop where
  /-- The pointer stays. -/
  pointer : ∀ image, (f image).currentScanRunId = image.currentScanRunId
  /-- So does the reference. -/
  name : ∀ image, (f image).name = image.name
  /-- So does the tag. -/
  tag : ∀ image, (f image).tag = image.tag

theorem quiet_skipImage (m : RunMetadata) : Quiet (skipImage m) :=
  ⟨fun _ => rfl, fun _ => rfl, fun _ => rfl⟩

theorem quiet_failImage (m : RunMetadata) (exhausted : Bool) : Quiet (failImage m exhausted) :=
  ⟨fun _ => rfl, fun _ => rfl, fun _ => rfl⟩

theorem recordSkip_eq_quiet :
    recordSkip db i job m
      = recordQuiet db i (newRun i job .skipped m none) (skipImage m) := rfl

theorem recordFailure_eq_quiet (error : String) (exhausted : Bool) :
    recordFailure db i job m error exhausted
      = recordQuiet db i (newRun i job .failed m (some (PyStr.truncate 4000 error)))
          (failImage m exhausted) := rfl

/-- **Everything a call can do**: nothing, a success, or a run that moves no pointer. -/
theorem Call.commit_cases (db : Db) (call : Call) :
    (db.image.get? call.imageId = none ∧ call.commit db = db)
    ∨ (∃ i image job report m, call = .success i job report m ∧ db.image.get? i = some image ∧
        call.commit db = recordSuccess db i image job report.report m)
    ∨ (∃ image run f, (∀ i job report m, call ≠ .success i job report m) ∧
        db.image.get? call.imageId = some image ∧ Quiet f ∧
        run.imageId = call.imageId ∧ run.status ≠ .success ∧
        run.completedAt = some call.metadata.completedAt ∧
        call.commit db = recordQuiet db call.imageId run f) := by
  cases hi : db.image.get? call.imageId with
  | none =>
    left
    exact ⟨rfl, by rw [Call.commit, hi]⟩
  | some image =>
    right
    cases call with
    | success i job report m =>
      left
      exact ⟨i, image, job, report, m, rfl, hi, by rw [Call.commit, hi]⟩
    | skip i job m =>
      right
      refine ⟨image, newRun i job .skipped m none, skipImage m, ?_, rfl, quiet_skipImage m, rfl,
        ?_, rfl, ?_⟩
      · rintro _ _ _ _ ⟨⟩
      · rintro ⟨⟩
      · rw [Call.commit, hi]
        exact recordSkip_eq_quiet
    | failure i job m error exhausted =>
      right
      refine ⟨image, newRun i job .failed m (some (PyStr.truncate 4000 error)),
        failImage m exhausted, ?_, rfl, quiet_failImage m exhausted, rfl, ?_, rfl, ?_⟩
      · rintro _ _ _ _ ⟨⟩
      · rintro ⟨⟩
      · rw [Call.commit, hi]
        exact recordFailure_eq_quiet error exhausted

/-- No call adds or removes an image. -/
theorem keys_image_commit (db : Db) (call : Call) :
    (call.commit db).image.keys = db.image.keys := by
  rcases Call.commit_cases db call with ⟨-, heq⟩ | ⟨j, image, job, report, m, -, -, heq⟩ |
    ⟨image, run, f, -, -, -, -, -, -, heq⟩
  · rw [heq]
  · rw [heq, image_recordSuccess, Dict.keys_update]
  · have himage : (recordQuiet db call.imageId run f).image = db.image.update call.imageId f := rfl
    rw [heq, himage, Dict.keys_update]

theorem keys_image_runCalls (db : Db) (calls : List Call) :
    (runCalls db calls).image.keys = db.image.keys := by
  refine runCalls_invariant (P := fun db' => db'.image.keys = db.image.keys) ?_ rfl calls
  intro db' call hkeys
  rw [keys_image_commit, hkeys]

/-- After a quiet run every image points where it pointed. -/
theorem currentScanRunId_recordQuiet {f : Image → Image} (hf : Quiet f) (db : Db) (i : ImageId)
    (run : ScanRun) (j : ImageId) :
    ((recordQuiet db i run f).image.get? j).map Image.currentScanRunId
      = (db.image.get? j).map Image.currentScanRunId := by
  have himage : (recordQuiet db i run f).image = db.image.update i f := rfl
  rw [himage, Dict.get?_update]
  by_cases hj : j = i
  · subst hj
    cases db.image.get? j <;> simp [hf.pointer]
  · rw [if_neg hj]

end Persist

end ContainerScanner
