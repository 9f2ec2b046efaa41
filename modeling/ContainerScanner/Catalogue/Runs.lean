import ContainerScanner.Catalogue.Answers

/-!
# Answers in every reachable state

A run of the whole system starts on a database that nothing was scanned into. Whatever its workers,
its scheduler and its requests do, and in whatever order, the answers are those of the catalogue of
scans that the run published. The rows of a query may come in any order its `ORDER BY` admits.
Transactions are the steps of a run: two successes that overlap, which may leave a rollup wrong, are
in none of them.

## Main results

* `tables_represent_catalogue` — the tables, in every run
* `imageCves_answers`, `cveImages_answers`, `listImages_answers` — the answers, in every run
* `listCves_answers` — the answer that reads the rollup, in every fenced run
* `listCves_interleaving` — two fenced runs that leave every image with the same last report list
  the same CVEs
-/

namespace ContainerScanner

open Foundation Persist Paging Queue

namespace Catalogue

open Lifecycle (State Event Report Fenced)
open Workers (WorkerId)

variable {settings settings' : Settings} {db : Db} {clock clock' : Timestamp}
  {es es' : List (Timestamp × Event)} {s s' : State}

/-- **The tables of every reachable state represent the scans that were published.** -/
theorem tables_represent_catalogue (hdb : db.Unscanned)
    (hrun : execute (Lifecycle.step settings) (State.start db clock) es = some s) :
    ∃ log : Log, log.map Prod.snd = catalogue settings (State.start db clock) es ∧
      Represents s.database log :=
  ⟨_, rfl, (shown_of_execute hdb hrun).database⟩

/-- The reaper gives a worker up, a second one scans `nginx:1.19`, and then the first reports after
all. Its report is published too, and is the last. -/
def lateReport : List (Timestamp × Event) :=
  let clock (t : Timestamp) : Tick.Clock := ⟨fun _ => t, t, fun _ => t⟩
  [(0, .tick (clock 0)), (0, .claim 1 1 [] 0), (0, .load 1),
    (seconds 2000, .tick (clock (seconds 2000))),
    (seconds 3000, .claim 2 1 [] (seconds 3000)), (seconds 3000, .load 2),
    (seconds 3010, .report 2 (.success (.debian [("CVE-1", "openssl", "HIGH")])
      ⟨some "sha256:b", none, none, none, seconds 3000, seconds 3010⟩)),
    (seconds 3020, .report 1 (.success (.debian [("CVE-2", "zlib", "LOW")])
      ⟨some "sha256:a", none, none, none, 0, seconds 3020⟩))]

theorem exists_execute_lateReport :
    ∃ s, execute (Lifecycle.step {}) (State.start (Db.seeded 0 [("nginx", "1.19")]) 0) lateReport =
      some s := by
  have hrun : (execute (Lifecycle.step {}) (State.start (Db.seeded 0 [("nginx", "1.19")]) 0)
      lateReport).isSome := by decide +kernel
  exact Option.isSome_iff_exists.mp hrun

theorem tables_represent_catalogue_lateReport :
    ∃ s, execute (Lifecycle.step {}) (State.start (Db.seeded 0 [("nginx", "1.19")]) 0) lateReport =
        some s ∧
      ∃ log : Log, log.length = 2 ∧ Represents s.database log := by
  obtain ⟨s, hs⟩ := exists_execute_lateReport
  obtain ⟨log, hlog, hrepresents⟩ := tables_represent_catalogue (unscanned_seeded 0 _) hs
  have htwo : (catalogue {} (State.start (Db.seeded 0 [("nginx", "1.19")]) 0) lateReport).length =
      2 := by decide +kernel
  refine ⟨s, hs, log, ?_, hrepresents⟩
  rw [← htwo, ← hlog, List.length_map]

/-- **`image_cves`.** An unknown reference is refused, and any other gets the findings of its last
scan, each with the times of its first and its last sighting. -/
theorem imageCves_answers (hdb : db.Unscanned)
    (hrun : execute (Lifecycle.step settings) (State.start db clock) es = some s)
    (name tag : String) (severity : Option Severity) (params : Api.PageParams)
    {sorted : List (FindingKey × Finding)}
    (hsorted : Admissible Api.findingKey (Api.matchingFindings s.database name tag severity)
      sorted) :
    (resolve (Api.references db) name tag = none →
      Api.imageCvesIn s.database name tag severity sorted params =
        .error ⟨404, "unknown image " ++ name ++ ":" ++ tag⟩) ∧
    ∀ i, resolve (Api.references db) name tag = some i →
      ∃ page, Api.imageCvesIn s.database name tag severity sorted params = .ok page ∧
        Lists (cvesOf (catalogue settings (State.start db clock) es) i severity) worstFirst
          params page := by
  have hshown := shown_of_execute hdb hrun
  have hreferences : Api.references s.database = Api.references db := hshown.references
  rw [← hreferences]
  refine ⟨fun hnone => ?_, fun i hi => hshown.database.imageCves hi hsorted params⟩
  rw [resolve_references, Option.map_eq_none_iff] at hnone
  rw [Api.imageCvesIn, hnone]

theorem imageCves_answers_lateReport :
    ∃ s sorted page, execute (Lifecycle.step {})
        (State.start (Db.seeded 0 [("nginx", "1.19")]) 0) lateReport = some s ∧
      Api.imageCvesIn s.database "nginx" "1.19" none sorted ⟨100, 0⟩ = .ok page ∧
      page.items.map Api.CveInImage.cveId = ["CVE-2"] := by
  obtain ⟨s, hs⟩ := exists_execute_lateReport
  obtain ⟨sorted, hsorted⟩ :=
    exists_admissible Api.findingKey (Api.matchingFindings s.database "nginx" "1.19" none)
  obtain ⟨page, hpage, rows, hperm, -, rfl⟩ :=
    (imageCves_answers (unscanned_seeded 0 _) hs "nginx" "1.19" none ⟨100, 0⟩ hsorted).2 1
      (by decide)
  have hids : ((cvesOf (catalogue {} (State.start (Db.seeded 0 [("nginx", "1.19")]) 0) lateReport)
      1 none).map Api.CveInImage.cveId) = ["CVE-2"] := by decide +kernel
  have hrows : rows.map Api.CveInImage.cveId = ["CVE-2"] := by
    rw [← List.perm_singleton, ← hids]
    exact hperm.map _
  refine ⟨s, sorted, _, hs, hpage, ?_⟩
  simp [Api.paginate, List.map_take, hrows]

/-- **`cve_images`.** A CVE that no scan named is refused, and any other gets the images whose last
scan names it. -/
theorem cveImages_answers (hdb : db.Unscanned)
    (hrun : execute (Lifecycle.step settings) (State.start db clock) es = some s) (c : CveId)
    (params : Api.PageParams) {sorted : List ((FindingKey × Finding) × Image)}
    (hsorted : Admissible Api.affectedKey (Api.affectedRows s.database c) sorted) :
    ((∀ scan ∈ catalogue settings (State.start db clock) es, c ∉ scan.report.report.cveIds) →
      Api.cveImagesIn s.database c sorted params = .error ⟨404, "unknown CVE " ++ c⟩) ∧
    ((∃ scan ∈ catalogue settings (State.start db clock) es, c ∈ scan.report.report.cveIds) →
      ∃ page, Api.cveImagesIn s.database c sorted params = .ok page ∧
        Lists (imagesWith (catalogue settings (State.start db clock) es) (Api.references db) c)
          worstImageFirst params page) := by
  have hshown := shown_of_execute hdb hrun
  have hreferences : Api.references s.database = Api.references db := hshown.references
  have hknown : description (catalogue settings (State.start db clock) es) c = none ↔
      ∀ scan ∈ catalogue settings (State.start db clock) es, c ∉ scan.report.report.cveIds :=
    description_eq_none_iff
  rw [← hreferences]
  refine ⟨fun hnone => ?_, fun hsome => hshown.database.cveImages hsorted params fun hnone => ?_⟩
  · rw [Api.cveImagesIn, hshown.database.cve_eq_none_iff.mpr (hknown.mpr hnone)]
  · obtain ⟨scan, hscan, hc⟩ := hsome
    exact hknown.mp hnone scan hscan hc

theorem cveImages_answers_lateReport :
    ∃ s sorted page, execute (Lifecycle.step {})
        (State.start (Db.seeded 0 [("nginx", "1.19")]) 0) lateReport = some s ∧
      Api.cveImagesIn s.database "CVE-2" sorted ⟨100, 0⟩ = .ok page ∧ page.total = 1 := by
  obtain ⟨s, hs⟩ := exists_execute_lateReport
  obtain ⟨sorted, hsorted⟩ :=
    exists_admissible Api.affectedKey (Api.affectedRows s.database "CVE-2")
  have hnamed : ∃ scan ∈ catalogue {} (State.start (Db.seeded 0 [("nginx", "1.19")]) 0) lateReport,
      "CVE-2" ∈ scan.report.report.cveIds := by decide +kernel
  have hone : (imagesWith
      (catalogue {} (State.start (Db.seeded 0 [("nginx", "1.19")]) 0) lateReport)
      (Api.references (Db.seeded 0 [("nginx", "1.19")])) "CVE-2").length = 1 := by decide +kernel
  obtain ⟨page, hpage, rows, hperm, -, rfl⟩ :=
    (cveImages_answers (unscanned_seeded 0 _) hs "CVE-2" ⟨100, 0⟩ hsorted).2 hnamed
  exact ⟨s, sorted, _, hs, hpage, hperm.length_eq.trans hone⟩

/-- **`list_images`.** Every registered image, with the digest and the counts of its last scan. -/
theorem listImages_answers (hdb : db.Unscanned)
    (hrun : execute (Lifecycle.step settings) (State.start db clock) es = some s)
    (params : Api.PageParams) {sorted : List (ImageId × Image)}
    (hsorted : Admissible Api.referenceKey s.database.image.entries sorted) :
    Lists (s.database.image.entries.map
        (summaryOf settings (catalogue settings (State.start db clock) es)))
      byReference params (Api.listImagesIn settings s.database sorted params) :=
  (shown_of_execute hdb hrun).database.listImages settings hsorted params

theorem listImages_answers_lateReport :
    ∃ s sorted, execute (Lifecycle.step {})
        (State.start (Db.seeded 0 [("nginx", "1.19")]) 0) lateReport = some s ∧
      (Api.listImagesIn {} s.database sorted ⟨100, 0⟩).items.map Api.ImageSummary.digest =
        [some "sha256:a"] := by
  obtain ⟨s, hs⟩ := exists_execute_lateReport
  obtain ⟨sorted, hsorted⟩ := exists_admissible Api.referenceKey s.database.image.entries
  obtain ⟨rows, hperm, -, hpage⟩ :=
    listImages_answers (unscanned_seeded 0 _) hs ⟨100, 0⟩ hsorted
  have hdigests : (execute (Lifecycle.step {}) (State.start (Db.seeded 0 [("nginx", "1.19")]) 0)
      lateReport).map (fun s => (s.database.image.entries.map (summaryOf {}
        (catalogue {} (State.start (Db.seeded 0 [("nginx", "1.19")]) 0) lateReport))).map
          Api.ImageSummary.digest) = some [some "sha256:a"] := by decide +kernel
  rw [hs] at hdigests
  have hrows : rows.map Api.ImageSummary.digest = [some "sha256:a"] := by
    rw [← List.perm_singleton, ← Option.some.inj hdigests]
    exact hperm.map _
  refine ⟨s, sorted, hs, ?_⟩
  rw [hpage]
  simp [Api.paginate, List.map_take, hrows]

/-- **`list_cves`.** In a run on which no worker reports on a claim that the reaper has ended, the
CVEs in the last scan of some image, each with the number of these images and its greatest severity
among them, worst first. -/
theorem listCves_answers (hdb : db.Unscanned)
    (hrun : execute (restrict (Lifecycle.step settings) Fenced) (State.start db clock) es = some s)
    (severity : Option Severity) (params : Api.PageParams) {sorted : List (CveId × Cve)}
    (hsorted : Admissible Api.cveKey
      (s.database.cve.entries.filter (Api.listsCve severity)) sorted) :
    ∃ rows : List Api.CveSummary, rows.Pairwise worstCveFirst ∧
      (∀ row, row ∈ rows ↔
        IsListed (catalogue settings (State.start db clock) es) severity row) ∧
      Api.listCvesIn s.database severity sorted params =
        ⟨Api.paginate params rows, rows.length, params.limit, params.offset⟩ :=
  (shown_of_execute hdb (execute_of_restrict hrun)).database.listCves
    (rollupExact_of_reaches hdb (reaches_of_execute hrun)) hsorted params

/-- Two workers scan `nginx:1.19` and `postgres:12` at once, and report in the order given. -/
def bothScanned (order : List WorkerId) : List (Timestamp × Event) :=
  let clock (t : Timestamp) : Tick.Clock := ⟨fun _ => t, t, fun _ => t⟩
  let severityOf (w : WorkerId) : String := if w = 1 then "HIGH" else "CRITICAL"
  [(0, .tick (clock 0)), (0, .claim 1 1 [] 0), (0, .load 1), (0, .claim 2 2 [] 0), (0, .load 2)] ++
    order.map fun w => (seconds 10, .report w (.success (.debian [("CVE-1", "zlib", severityOf w)])
      ⟨none, none, none, none, 0, seconds 10⟩))

/-- The images of the runs of `bothScanned`. -/
def bothImages : Db := Db.seeded 0 [("nginx", "1.19"), ("postgres", "12")]

theorem exists_execute_bothScanned {order : List WorkerId}
    (horder : order = [1, 2] ∨ order = [2, 1]) :
    ∃ s, execute (restrict (Lifecycle.step {}) Fenced) (State.start bothImages 0)
      (bothScanned order) = some s := by
  have hrun : (execute (restrict (Lifecycle.step {}) Fenced) (State.start bothImages 0)
      (bothScanned order)).isSome := by
    obtain rfl | rfl := horder <;> decide +kernel
  exact Option.isSome_iff_exists.mp hrun

theorem listCves_answers_bothScanned :
    ∃ s sorted rows, execute (restrict (Lifecycle.step {}) Fenced) (State.start bothImages 0)
        (bothScanned [1, 2]) = some s ∧
      Api.listCvesIn s.database none sorted ⟨100, 0⟩ = ⟨rows, 1, 100, 0⟩ := by
  obtain ⟨s, hs⟩ := exists_execute_bothScanned (Or.inl rfl)
  obtain ⟨sorted, hsorted⟩ := exists_admissible Api.cveKey
    (s.database.cve.entries.filter (Api.listsCve none))
  have hone : (execute (restrict (Lifecycle.step {}) Fenced) (State.start bothImages 0)
      (bothScanned [1, 2])).map (fun s =>
        (s.database.cve.entries.filter (Api.listsCve none)).length) = some 1 := by decide +kernel
  rw [hs] at hone
  obtain ⟨rows, -, -, hpage⟩ :=
    listCves_answers (unscanned_seeded 0 _) hs none ⟨100, 0⟩ hsorted
  have htotal : rows.length = 1 :=
    (congrArg Api.Page.total hpage).symm.trans (Option.some.inj hone)
  exact ⟨s, sorted, Api.paginate ⟨100, 0⟩ rows, hs, htotal ▸ hpage⟩

/-! ### Interleavings -/

/-- What `list_cves` says of a CVE, its description apart. -/
def standing (row : Api.CveSummary) : CveId × Severity × ℕ :=
  (row.cveId, row.maxSeverity, row.affectedImageCount)

/-- Worst first, and then by identifier. -/
def WorseThan (a b : CveId × Severity × ℕ) : Prop :=
  b.2.1.rank < a.2.1.rank ∨ a.2.1.rank = b.2.1.rank ∧ a.1 < b.1

instance : Std.Irrefl WorseThan where
  irrefl := fun a h => h.elim (lt_irrefl a.2.1.rank) fun htie => lt_irrefl a.1 htie.2

instance : Std.Antisymm WorseThan where
  antisymm := by
    rintro a b (hab | ⟨hab, hid⟩) (hba | ⟨hba, hid'⟩)
    · exact absurd hab hba.asymm
    · exact absurd hab hba.not_lt
    · exact absurd hba hab.not_lt
    · exact absurd hid hid'.asymm

/-- Images with the same last reports carry the same CVEs. -/
theorem carries_congr {scans scans' : List Scan}
    (hsame : ∀ i, (latest scans i).map (fun scan => scan.report.report) =
      (latest scans' i).map fun scan => scan.report.report) (c : CveId) (i : ImageId) (r : ℕ) :
    Carries scans c i r ↔ Carries scans' c i r := by
  have hreport : ∀ scans : List Scan, Carries scans c i r ↔
      ∃ report, (latest scans i).map (fun scan => scan.report.report) = some report ∧
        ∃ f ∈ report.findings, f.cveId = c ∧ f.severity.rank = r := by
    intro scans
    simp only [Carries, Option.map_eq_some_iff, exists_exists_and_eq_and]
  rw [hreport, hreport, hsame]

/-- What is listed of one catalogue is listed of another, with a description of its own. -/
theorem IsListed.of_carries {scans scans' : List Scan} {severity : Option Severity}
    {row : Api.CveSummary} (hcarries : ∀ c i r, Carries scans c i r ↔ Carries scans' c i r)
    (h : IsListed scans severity row) :
    ∃ row', IsListed scans' severity row' ∧ standing row' = standing row := by
  obtain ⟨⟨i, r, hcarried⟩, hsummary, hseverity⟩ := h
  refine ⟨{ row with
    title := (description scans' row.cveId).bind CveValues.title
    publishedAt := (description scans' row.cveId).bind CveValues.publishedAt
    lastModifiedAt := (description scans' row.cveId).bind CveValues.lastModifiedAt },
    ⟨⟨i, r, (hcarries _ _ _).mp hcarried⟩, ⟨?_, ?_, rfl, rfl, rfl⟩, hseverity⟩, rfl⟩
  · simpa only [hcarries] using hsummary.affectedImageCount
  · simpa only [hcarries] using hsummary.maxSeverity

/-- The standings of a listing are determined by who carries what. -/
theorem standings_eq {scans scans' : List Scan} {severity : Option Severity}
    {rows rows' : List Api.CveSummary}
    (hcarries : ∀ c i r, Carries scans c i r ↔ Carries scans' c i r)
    (hsorted : rows.Pairwise worstCveFirst) (hsorted' : rows'.Pairwise worstCveFirst)
    (hrows : ∀ row, row ∈ rows ↔ IsListed scans severity row)
    (hrows' : ∀ row, row ∈ rows' ↔ IsListed scans' severity row) :
    rows.map standing = rows'.map standing := by
  have hordered : ∀ rows : List Api.CveSummary, rows.Pairwise worstCveFirst →
      (rows.map standing).Pairwise WorseThan := fun rows h => List.pairwise_map.mpr h
  refine (hordered rows hsorted).eq_of_mem_iff (hordered rows' hsorted') fun x => ?_
  simp only [List.mem_map, hrows, hrows']
  constructor
  · rintro ⟨row, hrow, rfl⟩
    exact hrow.of_carries hcarries
  · rintro ⟨row, hrow, rfl⟩
    exact hrow.of_carries fun c i r => (hcarries c i r).symm

/-- **The order in which different images are scanned does not show.** Two fenced runs that leave
every image with the same last report answer `list_cves` alike, descriptions apart, whatever went
on in them: retries, failures, skips, rollbacks, other workers, other orders. -/
theorem listCves_interleaving {db' : Db} (hdb : db.Unscanned) (hdb' : db'.Unscanned)
    (hrun : execute (restrict (Lifecycle.step settings) Fenced) (State.start db clock) es = some s)
    (hrun' : execute (restrict (Lifecycle.step settings') Fenced) (State.start db' clock') es' =
      some s')
    (hsame : ∀ i,
      (latest (catalogue settings (State.start db clock) es) i).map
          (fun scan => scan.report.report) =
        (latest (catalogue settings' (State.start db' clock') es') i).map
          fun scan => scan.report.report)
    (severity : Option Severity) (params : Api.PageParams) {sorted sorted' : List (CveId × Cve)}
    (hsorted : Admissible Api.cveKey
      (s.database.cve.entries.filter (Api.listsCve severity)) sorted)
    (hsorted' : Admissible Api.cveKey
      (s'.database.cve.entries.filter (Api.listsCve severity)) sorted') :
    (Api.listCvesIn s.database severity sorted params).total =
        (Api.listCvesIn s'.database severity sorted' params).total ∧
      (Api.listCvesIn s.database severity sorted params).items.map standing =
        (Api.listCvesIn s'.database severity sorted' params).items.map standing := by
  have hlist := (shown_of_execute hdb (execute_of_restrict hrun)).database.listCves
    (rollupExact_of_reaches hdb (reaches_of_execute hrun)) hsorted params
  have hlist' := (shown_of_execute hdb' (execute_of_restrict hrun')).database.listCves
    (rollupExact_of_reaches hdb' (reaches_of_execute hrun')) hsorted' params
  obtain ⟨rows, hordered, hrows, hpage⟩ := hlist
  obtain ⟨rows', hordered', hrows', hpage'⟩ := hlist'
  have hstandings : rows.map standing = rows'.map standing :=
    standings_eq (carries_congr hsame) hordered hordered' hrows hrows'
  rw [hpage, hpage']
  refine ⟨by simpa using congrArg List.length hstandings, ?_⟩
  simp only [Api.paginate, List.map_take, List.map_drop, hstandings]

/-- Either order leaves either image with the same last report. -/
theorem latest_bothScanned (i : ImageId) :
    (latest (catalogue {} (State.start bothImages 0) (bothScanned [1, 2])) i).map
        (fun scan => scan.report.report) =
      (latest (catalogue {} (State.start bothImages 0) (bothScanned [2, 1])) i).map
        fun scan => scan.report.report := by
  have hscanned : ∀ order : List WorkerId, order = [1, 2] ∨ order = [2, 1] →
      ∀ scan ∈ catalogue {} (State.start bothImages 0) (bothScanned order),
        scan.imageId = 1 ∨ scan.imageId = 2 := by
    rintro order (rfl | rfl) <;> decide +kernel
  by_cases hi : i = 1 ∨ i = 2
  · obtain rfl | rfl := hi <;> decide +kernel
  · have hnone : ∀ order : List WorkerId, order = [1, 2] ∨ order = [2, 1] →
        latest (catalogue {} (State.start bothImages 0) (bothScanned order)) i = none := by
      intro order horder
      rw [Option.eq_none_iff_forall_ne_some]
      intro scan hscan
      obtain ⟨hmem, rfl⟩ := mem_of_latest hscan
      exact hi (hscanned order horder scan hmem)
    rw [hnone _ (Or.inl rfl), hnone _ (Or.inr rfl)]

theorem listCves_interleaving_bothScanned :
    ∃ s s' sorted sorted', execute (restrict (Lifecycle.step {}) Fenced) (State.start bothImages 0)
        (bothScanned [1, 2]) = some s ∧
      execute (restrict (Lifecycle.step {}) Fenced) (State.start bothImages 0)
        (bothScanned [2, 1]) = some s' ∧
      (Api.listCvesIn s.database none sorted ⟨100, 0⟩).items.map standing =
        (Api.listCvesIn s'.database none sorted' ⟨100, 0⟩).items.map standing := by
  obtain ⟨s, hs⟩ := exists_execute_bothScanned (Or.inl rfl)
  obtain ⟨s', hs'⟩ := exists_execute_bothScanned (Or.inr rfl)
  obtain ⟨sorted, hsorted⟩ := exists_admissible Api.cveKey
    (s.database.cve.entries.filter (Api.listsCve none))
  obtain ⟨sorted', hsorted'⟩ := exists_admissible Api.cveKey
    (s'.database.cve.entries.filter (Api.listsCve none))
  exact ⟨s, s', sorted, sorted', hs, hs', (listCves_interleaving (unscanned_seeded 0 _)
    (unscanned_seeded 0 _) hs hs' latest_bothScanned none ⟨100, 0⟩ hsorted hsorted').2⟩

end Catalogue

end ContainerScanner
