import ContainerScanner.Catalogue.Represents
import ContainerScanner.Api.Stats

/-!
# What is current, read off the scans

The current findings of an image are the findings of its last scan, each with the run of its first
sighting; with that, each endpoint's join of a current finding is what the catalogue says of it.

## Main results

* `Represents.current_iff` — the current rows of an image, from its scans
* `Represents.cveInImage_eq`, `Represents.imageAffected_eq`, `Represents.summaryOf_eq` — the joins
* `Represents.live_iff` — who is live is who carries
-/

namespace ContainerScanner

open Foundation Persist

namespace Catalogue

variable {db : Db} {log : Log} {i : ImageId} {image : Image} {r : RunId} {last : Scan}

/-! ### The entries of an image -/

/-- The scans of an image, with their numbers. -/
def entriesOf (log : Log) (i : ImageId) : Log := log.filter fun e => decide (e.2.imageId = i)

theorem reportsOf_eq (log : Log) (i : ImageId) :
    reportsOf log i = (entriesOf log i).map fun e => (e.1, e.2.report) := by
  rw [reportsOf, entriesOf, ← List.filterMap_eq_map, List.filterMap_filter]
  refine List.filterMap_congr fun e _ => ?_
  by_cases he : e.2.imageId = i <;> simp [he]

theorem scansOf_eq (log : Log) (i : ImageId) :
    scansOf (log.map Prod.snd) i = (entriesOf log i).map Prod.snd := by
  rw [scansOf, entriesOf, List.filter_map]
  rfl

theorem latest_eq (log : Log) (i : ImageId) :
    latest (log.map Prod.snd) i = (entriesOf log i).getLast?.map Prod.snd := by
  rw [latest, scansOf_eq, List.getLast?_map]

theorem sightings_eq (key : CveId × PackageKey) (entries : Log) :
    sightings key (entries.map fun e => (e.1, e.2.report)) =
      entries.filterMap fun e => (e.2.report.report.findKey? key).map fun f => (e.1, f) := by
  rw [sightings, List.filterMap_map]
  rfl

/-- The first entry that reported a key. -/
theorem head?_sightings (key : CveId × PackageKey) (entries : Log) :
    (sightings key (entries.map fun e => (e.1, e.2.report))).head?.map Prod.fst =
      (entries.find? fun e => (e.2.report.report.findKey? key).isSome).map Prod.fst := by
  rw [sightings_eq]
  induction entries with
  | nil => rfl
  | cons e entries ih =>
    cases hkey : e.2.report.report.findKey? key with
    | none => simpa [hkey] using ih
    | some f => simp [hkey]

theorem firstSighting_eq (log : Log) (i : ImageId) (key : CveId × PackageKey) :
    firstSighting (log.map Prod.snd) i key =
      ((entriesOf log i).find? fun e => (e.2.report.report.findKey? key).isSome).map Prod.snd := by
  rw [firstSighting, scansOf_eq, List.find?_map]
  rfl

section Represents

variable (h : Represents db log)

include h

/-- The pointer of an image and its last scan go together. -/
theorem Represents.pointer_eq_some_iff (hi : db.image.get? i = some image) :
    image.currentScanRunId = some r ↔
      ∃ last, latest (log.map Prod.snd) i = some last ∧
        (entriesOf log i).getLast? = some (r, last) := by
  rw [h.pointer i image hi, reportsOf_eq, List.getLast?_map, latest_eq]
  cases (entriesOf log i).getLast? with
  | none => simp
  | some e =>
    obtain ⟨r', last⟩ := e
    simp [and_comm]

theorem Represents.latest_eq_none (hi : db.image.get? i = some image)
    (hcur : image.currentScanRunId = none) : latest (log.map Prod.snd) i = none := by
  have hpointer := h.pointer i image hi
  rw [hcur, reportsOf_eq, List.getLast?_map] at hpointer
  have hlast := Option.map_eq_none_iff.mp (Option.map_eq_none_iff.mp hpointer.symm)
  rw [latest_eq, hlast]
  rfl

/-- A row that the last scan does not name was last seen by an older one. -/
theorem Represents.lastSeen_ne (hlast : (entriesOf log i).getLast? = some (r, last))
    {key : CveId × PackageKey} (hkey : last.report.report.findKey? key = none) {f : Finding}
    (hf : rowAt db i key = some f) : f.lastSeenRunId ≠ r := by
  obtain ⟨entries, hentries⟩ := List.getLast?_eq_some_iff.mp hlast
  have hordered : (entries ++ [(r, last)]).Pairwise fun a b => a.1 < b.1 :=
    hentries ▸ h.ordered.filter _
  rw [h.rows, reportsOf_eq, hentries, List.map_append, List.map_singleton, sightings_concat, hkey,
    sightings_eq, Option.map_none, Option.toList_none, List.append_nil] at hf
  obtain ⟨sighting, hsighting, rfl⟩ := Option.map_eq_some_iff.mp hf
  obtain ⟨e, he, hse⟩ := List.mem_filterMap.mp (List.mem_of_getLast? hsighting)
  obtain ⟨g, -, rfl⟩ := Option.map_eq_some_iff.mp hse
  exact ((List.pairwise_append.mp hordered).2.2 e he (r, last) (List.mem_singleton_self _)).ne

/-- The row that the last scan wrote, with the run of the first. -/
theorem Represents.rowAt_of_last (hlast : (entriesOf log i).getLast? = some (r, last))
    {key : CveId × PackageKey} {g : ParsedFinding}
    (hkey : last.report.report.findKey? key = some g) :
    ∃ e, (entriesOf log i).find? (fun e => (e.2.report.report.findKey? key).isSome) = some e ∧
      rowAt db i key = some ⟨g.fixedVersion, g.severity, g.severity.rank, e.1, r⟩ := by
  obtain ⟨entries, hentries⟩ := List.getLast?_eq_some_iff.mp hlast
  have hfound : ((entriesOf log i).find? fun e =>
      (e.2.report.report.findKey? key).isSome).isSome := by
    rw [List.find?_isSome]
    exact ⟨(r, last), List.mem_of_getLast? hlast, by rw [hkey]; rfl⟩
  obtain ⟨e, he⟩ := Option.isSome_iff_exists.mp hfound
  have hhead := head?_sightings key (entriesOf log i)
  rw [he, Option.map_some] at hhead
  refine ⟨e, he, ?_⟩
  have hsightings : sightings key (reportsOf log i) =
      sightings key (entries.map fun e => (e.1, e.2.report)) ++ [(r, g)] := by
    rw [reportsOf_eq, hentries, List.map_append, List.map_singleton, sightings_concat, hkey]
    rfl
  rw [← reportsOf_eq, hsightings] at hhead
  rw [h.rows, hsightings, expectedRow, List.getLast?_concat, Option.map_some, hhead]
  rfl

/-- **The current rows of an image are the findings of its last scan.** -/
theorem Represents.current_iff (hlast : (entriesOf log i).getLast? = some (r, last)) {c : CveId}
    {p : PackageId} {f : Finding} :
    db.finding.get? ⟨i, c, p⟩ = some f ∧ f.lastSeenRunId = r ↔
      ∃ g ∈ last.report.report.findings, g.cveId = c ∧ db.package.get? g.packageKey = some p ∧
        ∃ e, (entriesOf log i).find? (fun e => (e.2.report.report.findKey? g.key).isSome) =
            some e ∧
          f = ⟨g.fixedVersion, g.severity, g.severity.rank, e.1, r⟩ := by
  constructor
  · rintro ⟨hf, hr⟩
    obtain ⟨k, hk, hrow⟩ := h.wellFormed.exists_rowAt hf
    cases hkey : last.report.report.findKey? (c, k) with
    | none => exact absurd hr (h.lastSeen_ne hlast hkey hrow)
    | some g =>
      obtain ⟨hg, hgkey⟩ := ParsedReport.of_findKey?_eq_some hkey
      obtain ⟨e, he, hexpected⟩ := h.rowAt_of_last hlast hkey
      obtain ⟨rfl, rfl⟩ := Prod.mk.inj hgkey
      rw [hrow] at hexpected
      exact ⟨g, hg, rfl, hk, e, he, Option.some.inj hexpected⟩
  · rintro ⟨g, hg, rfl, hp, e, he, rfl⟩
    have hkey := AcceptedReport.findKey?_eq_some.mpr ⟨hg, rfl⟩
    obtain ⟨e', he', hexpected⟩ := h.rowAt_of_last hlast hkey
    obtain rfl : e = e' := Option.some.inj (he.symm.trans he')
    obtain ⟨p', hp', hf⟩ := rowAt_eq_some.mp hexpected
    obtain rfl : p = p' := Option.some.inj (hp.symm.trans hp')
    exact ⟨hf, rfl⟩

theorem Represents.mem_entriesOf {e : RunId × Scan} (he : e ∈ entriesOf log i) :
    e.2.imageId = i ∧ ∃ run, db.scanRun.get? e.1 = some run ∧ RunOf e.2 run := by
  obtain ⟨hlog, himage⟩ := List.mem_filter.mp he
  exact ⟨of_decide_eq_true himage, h.run e hlog⟩

/-- What is known of a CVE is what its row describes. -/
theorem Represents.description_bind {α : Type} {c : CveId} {cve : Cve}
    (hc : db.cve.get? c = some cve) (field : CveValues → Option α) :
    (description (log.map Prod.snd) c).bind field = field (described cve) := by
  rw [← h.describes c, hc]
  rfl

/-- The join of `image_cves`. -/
theorem Represents.cveInImage_eq (hlast : (entriesOf log i).getLast? = some (r, last))
    {g : ParsedFinding} {p : PackageId} (hp : db.package.get? g.packageKey = some p)
    {e : RunId × Scan}
    (he : (entriesOf log i).find? (fun e => (e.2.report.report.findKey? g.key).isSome) = some e)
    (hf : db.finding.get? ⟨i, g.cveId, p⟩ =
      some ⟨g.fixedVersion, g.severity, g.severity.rank, e.1, r⟩) :
    Api.cveInImage db (⟨i, g.cveId, p⟩, ⟨g.fixedVersion, g.severity, g.severity.rank, e.1, r⟩) =
      some (cveInImage (log.map Prod.snd) last g) := by
  obtain ⟨cve, hcve⟩ := h.wellFormed.findingCve _ _ hf
  have hpackage := h.wellFormed.package.keyOf?_eq_some.mpr hp
  obtain ⟨himage, lastRun, hlastRun, hof⟩ := h.mem_entriesOf (List.mem_of_getLast? hlast)
  obtain ⟨-, firstRun, hfirstRun, hfirst⟩ := h.mem_entriesOf (List.mem_of_find?_eq_some he)
  have htitle := h.description_bind hcve CveValues.title
  have hseen := firstSighting_eq log i g.key
  simp only [Api.cveInImage, hcve, hpackage, hlastRun, hfirstRun, Option.bind_eq_bind,
    Option.bind_some, Option.pure_def, hof.completedAt, hfirst.completedAt]
  rw [cveInImage, htitle, himage, hseen, he]
  rfl

/-- The join of `cve_images`. -/
theorem Represents.imageAffected_eq (hlast : (entriesOf log i).getLast? = some (r, last))
    {g : ParsedFinding} {p : PackageId} (hp : db.package.get? g.packageKey = some p) (c : CveId)
    (rank : ℕ) (first : RunId) (image : Image) :
    Api.imageAffectedByCve db
        ((⟨i, c, p⟩, ⟨g.fixedVersion, g.severity, rank, first, r⟩), image) =
      some (imageAffected image.name image.tag last g) := by
  have hpackage := h.wellFormed.package.keyOf?_eq_some.mpr hp
  obtain ⟨-, run, hrun, hof⟩ := h.mem_entriesOf (List.mem_of_getLast? hlast)
  simp only [Api.imageAffectedByCve, hpackage, hrun, Option.bind_eq_bind, Option.bind_some,
    Option.pure_def, hof.completedAt, hof.digest, imageAffected]

/-- Who is live is who carries. -/
theorem Represents.live_iff {c : CveId} {rank : ℕ} :
    Live db c i rank ↔ (db.image.get? i).isSome ∧ Carries (log.map Prod.snd) c i rank := by
  constructor
  · rintro ⟨p, f, hf, ⟨image, hi, hcur⟩, rfl⟩
    obtain ⟨last, hlatest, hlast⟩ := (h.pointer_eq_some_iff hi).mp hcur
    obtain ⟨g, hg, hc, -, e, -, heq⟩ := (h.current_iff hlast).mp ⟨hf, rfl⟩
    exact ⟨by rw [hi]; rfl, last, hlatest, g, hg, hc, (congrArg Finding.severityRank heq).symm⟩
  · rintro ⟨hsome, last, hlatest, g, hg, rfl, rfl⟩
    obtain ⟨image, hi⟩ := Option.isSome_iff_exists.mp hsome
    rw [latest_eq] at hlatest
    obtain ⟨⟨r, last'⟩, hlast, rfl⟩ := Option.map_eq_some_iff.mp hlatest
    obtain ⟨e, he, hrow⟩ := h.rowAt_of_last hlast
      (AcceptedReport.findKey?_eq_some.mpr ⟨hg, rfl⟩)
    obtain ⟨p, -, hf⟩ := rowAt_eq_some.mp hrow
    refine ⟨p, _, hf, ⟨image, hi, ?_⟩, rfl⟩
    rw [h.pointer i image hi, reportsOf_eq, List.getLast?_map, hlast]
    rfl

/-- An image that was scanned is registered. -/
theorem Represents.carries_image {c : CveId} {rank : ℕ}
    (hcarries : Carries (log.map Prod.snd) c i rank) : (db.image.get? i).isSome := by
  obtain ⟨last, hlatest, -⟩ := hcarries
  obtain ⟨hmem, rfl⟩ := mem_of_latest hlatest
  obtain ⟨e, he, rfl⟩ := List.mem_map.mp hmem
  obtain ⟨image, hi⟩ := Dict.mem_keys_iff.mp (h.image e he)
  rw [hi]
  rfl

/-- The join of `list_images`. -/
theorem Represents.summaryOf_eq (settings : Settings) (hi : db.image.get? i = some image) :
    Api.summaryOf settings db (i, image) =
      summaryOf settings (log.map Prod.snd) (i, image) := by
  rw [Api.summaryOf, summaryOf]
  cases hcur : image.currentScanRunId with
  | none =>
    rw [h.latest_eq_none hi hcur]
    rfl
  | some r =>
    obtain ⟨last, hlatest, hlast⟩ := (h.pointer_eq_some_iff hi).mp hcur
    obtain ⟨-, run, hrun, hof⟩ := h.mem_entriesOf (List.mem_of_getLast? hlast)
    have hcounts : (fun severity => (run.findingCount severity).getD 0) = fun severity =>
        last.report.report.findings.countP fun f => decide (f.severity = severity) := by
      funext severity
      rw [hof.findingCount]
      rfl
    have htotal := Api.totalCount_countP (fun _ => true) ParsedFinding.severity
      last.report.report.findings
    simp only [Bool.true_and, List.countP_true] at htotal
    rw [hlatest, Option.elim_some, Option.bind_some]
    simp only [hrun, Api.ImageSummary.withRun, hcounts, htotal, hof.digest]

end Represents

end Catalogue

end ContainerScanner
