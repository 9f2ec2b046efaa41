import ContainerScanner.Domain.Seed
import ContainerScanner.Scanner.Effects

/-!
# Findings and their rows

The parser tells findings apart by their strings, the `finding` table by surrogate ids. In between
the package keys are inserted or ignored, looked up again and replaced by their ids, which loses no
finding and confuses no two.

## Main definitions

* `OneToOne` — what the rows of a report have to do with its findings

## Main results

* `oneToOne_writtenRows` — the rows of an accepted report, whatever packages were there before
-/

namespace ContainerScanner

open Foundation

namespace Persist

variable {i : ImageId} {runId : RunId} {ids : PackageKey → Option PackageId}

/-- The levels, in the order of the enumeration. -/
def levels : List Severity := [.unknown, .low, .medium, .high, .critical]

/-- The rows a success writes for an image, one for each finding. -/
structure OneToOne (db : Db) (i : ImageId) (report : ParsedReport) : Prop where
  /-- The `continue` for a package without an id is never taken. -/
  defined : ∀ f ∈ report.findings,
    ∃ p, packageIds (insertPackages db report) report f.packageKey = some p
  /-- No two package keys share an id. -/
  injective : ∀ k k' p, packageIds (insertPackages db report) report k = some p →
    packageIds (insertPackages db report) report k' = some p → k = k'
  /-- `ON CONFLICT DO UPDATE` never meets a row twice. -/
  nodup : ((writtenRows db i report).map Prod.fst).Nodup
  /-- Every finding has its row, and there are no others. -/
  length : (writtenRows db i report).length = report.findings.length
  /-- A row refers to a CVE that the upsert before it left in the table. -/
  cve : ∀ row ∈ writtenRows db i report,
    row.1.cveId ∈ (upsertCves (insertPackages db report) report).cve.keys
  /-- The counts returned are the counts of the findings. -/
  counts : (levels.map (countBySeverity (writtenRows db i report))).sum = report.findings.length

/-- With an id for every package no row is dropped. -/
theorem length_findingRows {findings : List ParsedFinding}
    (h : ∀ f ∈ findings, ∃ p, ids f.packageKey = some p) :
    (findingRows i ids runId findings).length = findings.length := by
  rw [findingRows, List.length_filterMap_eq_countP, List.countP_eq_length]
  intro f hf
  obtain ⟨p, hp⟩ := h f hf
  rw [hp]
  rfl

/-- Counting by severity counts every row. -/
theorem sum_countBySeverity (rows : List (FindingKey × Finding)) :
    (levels.map (countBySeverity rows)).sum = rows.length := by
  have hcount := sum_countP (show levels.Nodup by decide) (fun _ => true)
    (fun row : FindingKey × Finding => row.2.severity) rows fun row _ _ => by
      cases row.2.severity <;> decide
  simp only [Bool.true_and, List.countP_true] at hcount
  exact hcount

theorem mem_keys_upsertCves (db : Db) {report : ParsedReport} {f : ParsedFinding}
    (hf : f ∈ report.findings) : f.cveId ∈ (upsertCves db report).cve.keys := by
  rw [upsertCves, Dict.mem_keys_upsertAll]
  refine Or.inl ?_
  exact mem_keys_cveRows.mpr (ParsedReport.mem_cveIds.mpr ⟨f, hf, rfl⟩)

/-- **Every finding of an accepted report has a row of its own.** -/
theorem oneToOne_writtenRows {db : Db} (hdb : db.package.Faithful) (i : ImageId)
    (report : AcceptedReport) : OneToOne db i report.report where
  defined := fun _ hf => exists_packageIds db hf
  injective := by
    intro k k' p hk hk'
    exact (hdb.internAll (packageKeys report.report)).injective k k' p
      (get?_package_of_packageIds hk) (get?_package_of_packageIds hk')
  nodup := nodup_writtenRows hdb report
  length := length_findingRows fun _ hf => exists_packageIds db hf
  cve := by
    rintro ⟨key, f⟩ hrow
    obtain ⟨g, hg, p, -, rfl, -⟩ := mem_writtenRows.mp hrow
    exact mem_keys_upsertCves _ hg
  counts := by
    rw [sum_countBySeverity]
    exact length_findingRows fun _ hf => exists_packageIds db hf

/-- One vulnerability in two packages, of which another image already has one. -/
theorem oneToOne_writtenRows_debian :
    OneToOne (insertPackages (Db.seeded 0 briefImages)
        (AcceptedReport.debian [("CVE-2020-1971", "openssl", "HIGH")]).report) 1
      (AcceptedReport.debian [("CVE-2021-3711", "libssl1.1", "CRITICAL"),
        ("CVE-2021-3711", "openssl", "CRITICAL")]).report :=
  oneToOne_writtenRows (Surrogate.faithful_empty.internAll _) 1 _

end Persist

end ContainerScanner
