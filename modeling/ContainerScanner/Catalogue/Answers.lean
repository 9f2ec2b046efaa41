import ContainerScanner.Api.Pages
import ContainerScanner.Catalogue.Current
import ContainerScanner.Catalogue.Rollups
import ContainerScanner.Foundation.Listing

/-!
# What the endpoints answer

The answers of the four collection endpoints, in every reachable state of the system, as functions
of the scans that were published: the listing is what the catalogue wants listed, in the order of
the `ORDER BY`, however the database orders ties, and the page is cut out of it.

Three of the answers are right in every run, workers that report late included. `list_cves` reads
the rollup, and is right in fenced runs. As everywhere in `Catalogue`, a transaction is one step:
what two successes that overlap do to a rollup is the subject of `Concurrency`.

## Main results

* `imageCves_answers`, `listImages_answers`, `cveImages_answers` — in every run
* `listCves_answers` — in every fenced run
* `listCves_interleaving` — the order in which different images are scanned does not show
-/

namespace ContainerScanner

open Foundation Persist Paging

namespace Catalogue

variable {db : Db} {log : Log} {i : ImageId} {image : Image} {r : RunId} {last : Scan}
  {name tag : String} {severity : Option Severity} {params : Api.PageParams}

/-- The image that a reference names. -/
def resolve (registered : List (ImageId × String × String)) (name tag : String) :
    Option ImageId :=
  (registered.find? fun e => decide (e.2.1 = name ∧ e.2.2 = tag)).map Prod.fst

theorem resolve_references (db : Db) (name tag : String) :
    resolve (Api.references db) name tag = (Api.findImage db name tag).map Prod.fst := by
  rw [resolve, Api.references, List.find?_map, Option.map_map]
  rfl

theorem of_findImage (hfind : Api.findImage db name tag = some (i, image)) :
    db.image.get? i = some image :=
  Dict.get?_eq_some_iff.mpr (List.mem_of_find?_eq_some hfind)

/-! ### `image_cves` -/

theorem nodup_cvesOf (scans : List Scan) (i : ImageId) (severity : Option Severity) :
    (cvesOf scans i severity).Nodup := by
  rw [cvesOf]
  cases latest scans i with
  | none => exact List.nodup_nil
  | some last =>
    refine List.Nodup.of_map (fun item => (item.cveId, item.package)) ?_
    rw [Option.elim_some, List.map_map]
    exact last.report.keys_nodup.sublist (List.filter_sublist.map _)

/-- Descending, and then ascending. -/
theorem toLex_toDual_le_iff {β : Type} [LinearOrder β] {m n : ℕ} {a b : β} :
    toLex (OrderDual.toDual m, a) ≤ toLex (OrderDual.toDual n, b) ↔
      n < m ∨ m = n ∧ a ≤ b := by
  rw [Prod.Lex.toLex_le_toLex, OrderDual.toDual_lt_toDual, OrderDual.toDual_inj]

theorem severity_of_cveInImage {e : FindingKey × Finding} {item : Api.CveInImage}
    (h : Api.cveInImage db e = some item) : item.severity = e.2.severity := by
  simp only [Api.cveInImage, Option.bind_eq_bind, Option.bind_eq_some_iff, Option.pure_def,
    Option.some.injEq] at h
  obtain ⟨cve, -, k, -, firstRun, -, lastRun, -, rfl⟩ := h
  rfl

/-- The filter on ranks is the filter on severities. -/
theorem severityMatches_iff {f : Finding} {s : Severity} (hf : f.severityRank = s.rank) :
    Api.severityMatches severity f = severity.all fun wanted => decide (s = wanted) := by
  cases severity with
  | none => rfl
  | some wanted => simp [Api.severityMatches, hf, Severity.rank_injective.eq_iff]

section Represents

variable (h : Represents db log)

include h

/-- What the select of `image_cves` returns for an image that was scanned. -/
theorem Represents.mem_join_iff (hlast : (entriesOf log i).getLast? = some (r, last))
    (item : Api.CveInImage) :
    (∃ e ∈ db.finding.entries.filter (Api.Conditions.hold ⟨i, r, severity⟩),
        Api.cveInImage db e = some item) ↔
      ∃ g ∈ last.report.report.findings, (severity.all fun s => decide (g.severity = s)) = true ∧
        cveInImage (log.map Prod.snd) last g = item := by
  constructor
  · rintro ⟨⟨⟨i', c, p⟩, f⟩, hrow, hitem⟩
    obtain ⟨hmem, hhold⟩ := List.mem_filter.mp hrow
    simp only [Api.Conditions.hold, Bool.and_eq_true, decide_eq_true_eq] at hhold
    obtain ⟨⟨rfl, hseen⟩, hseverity⟩ := hhold
    have hf := Dict.get?_eq_some_iff.mpr hmem
    obtain ⟨g, hg, rfl, hp, e, he, rfl⟩ := (h.current_iff hlast).mp ⟨hf, hseen⟩
    rw [h.cveInImage_eq hlast hp he hf] at hitem
    rw [severityMatches_iff rfl] at hseverity
    exact ⟨g, hg, hseverity, Option.some.inj hitem⟩
  · rintro ⟨g, hg, hseverity, rfl⟩
    obtain ⟨e, he, hrow⟩ := h.rowAt_of_last hlast
      (AcceptedReport.findKey?_eq_some.mpr ⟨hg, rfl⟩)
    obtain ⟨p, hp, hf⟩ := rowAt_eq_some.mp hrow
    refine ⟨_, List.mem_filter.mpr ⟨Dict.get?_eq_some_iff.mp hf, ?_⟩,
      h.cveInImage_eq hlast hp he hf⟩
    rw [Api.Conditions.hold, Bool.and_eq_true]
    exact ⟨decide_eq_true ⟨rfl, rfl⟩, (severityMatches_iff rfl).trans hseverity⟩

/-- The findings of an image are told apart by what is listed of them. -/
theorem Represents.cveInImage_inj {e e' : FindingKey × Finding} {item : Api.CveInImage}
    (he : e ∈ db.finding.entries) (he' : e' ∈ db.finding.entries)
    (himage : e.1.imageId = e'.1.imageId) (hitem : Api.cveInImage db e = some item)
    (hitem' : Api.cveInImage db e' = some item) : e = e' := by
  obtain ⟨hcve, hk⟩ := Api.of_cveInImage_eq_some hitem
  obtain ⟨hcve', hk'⟩ := Api.of_cveInImage_eq_some hitem'
  rw [h.wellFormed.package.keyOf?_eq_some] at hk hk'
  have hkey : e.1 = e'.1 := by
    obtain ⟨⟨i, c, p⟩, f⟩ := e
    obtain ⟨⟨i', c', p'⟩, f'⟩ := e'
    rw [FindingKey.mk.injEq]
    exact ⟨himage, hcve.symm.trans hcve', Option.some.inj (hk.symm.trans hk')⟩
  exact List.inj_on_of_nodup_map db.finding.nodup he he' hkey

/-- The order of the keys is the order asked for. -/
theorem Represents.worstFirst_of_key {e e' : FindingKey × Finding} {item item' : Api.CveInImage}
    (he : e ∈ db.finding.entries) (he' : e' ∈ db.finding.entries)
    (hle : Api.findingKey e ≤ Api.findingKey e') (hitem : Api.cveInImage db e = some item)
    (hitem' : Api.cveInImage db e' = some item') : worstFirst item item' := by
  have hrank := h.wellFormed.severityRank _ _ (Dict.get?_eq_some_iff.mpr he)
  have hrank' := h.wellFormed.severityRank _ _ (Dict.get?_eq_some_iff.mpr he')
  rw [Api.findingKey, Api.findingKey, toLex_toDual_le_iff, hrank, hrank'] at hle
  rw [worstFirst, severity_of_cveInImage hitem, severity_of_cveInImage hitem',
    (Api.of_cveInImage_eq_some hitem).1, (Api.of_cveInImage_eq_some hitem').1]
  exact hle

/-- **`image_cves` lists the findings of the last scan.** -/
theorem Represents.imageCves (hi : resolve (Api.references db) name tag = some i)
    {sorted : List (FindingKey × Finding)}
    (hsorted : Admissible Api.findingKey (Api.matchingFindings db name tag severity) sorted)
    (params : Api.PageParams) :
    ∃ page, Api.imageCvesIn db name tag severity sorted params = .ok page ∧
      Lists (cvesOf (log.map Prod.snd) i severity) worstFirst params page := by
  rw [resolve_references] at hi
  obtain ⟨⟨j, image⟩, hfind, rfl⟩ := Option.map_eq_some_iff.mp hi
  have hj : db.image.get? j = some image := of_findImage hfind
  cases hcur : image.currentScanRunId with
  | none =>
    refine ⟨⟨[], 0, params.limit, params.offset⟩, ?_, [], ?_, List.Pairwise.nil, ?_⟩
    · simp only [Api.imageCvesIn, hfind, hcur]
    · rw [cvesOf, h.latest_eq_none hj hcur]
      rfl
    · simp [Api.paginate]
  | some r =>
    obtain ⟨last, hlatest, hlast⟩ := (h.pointer_eq_some_iff hj).mp hcur
    have hmatching : Api.matchingFindings db name tag severity =
        db.finding.entries.filter (Api.Conditions.hold ⟨j, r, severity⟩) := by
      simp only [Api.matchingFindings, hfind, hcur]
    rw [hmatching] at hsorted
    refine ⟨⟨Api.paginate params (sorted.filterMap (Api.cveInImage db)),
      Api.countFindings db ⟨j, r, severity⟩, params.limit, params.offset⟩, ?_,
      sorted.filterMap (Api.cveInImage db), ?_, ?_, ?_⟩
    · simp only [Api.imageCvesIn, hfind, hcur]
    · refine hsorted.perm_filterMap ((List.Nodup.of_map Prod.fst db.finding.nodup).filter _)
        (nodup_cvesOf _ _ _) (fun e he e' he' item hitem hitem' => ?_) fun item => ?_
      · rw [List.mem_filter, Api.Conditions.hold, Bool.and_eq_true, decide_eq_true_eq] at he he'
        exact h.cveInImage_inj he.1 he'.1 (he.2.1.1.trans he'.2.1.1.symm) hitem hitem'
      · rw [h.mem_join_iff hlast, cvesOf, hlatest, Option.elim_some, List.mem_map]
        simp only [List.mem_filter, and_assoc]
    · refine hsorted.pairwise_filterMap fun e he e' he' hle item hitem item' hitem' => ?_
      exact h.worstFirst_of_key (List.mem_of_mem_filter he) (List.mem_of_mem_filter he') hle hitem
        hitem'
    · have hlength := Api.length_filterMap_of_isSome (f := Api.cveInImage db) (l := sorted)
        fun e he => Api.cveInImage_isSome h.wellFormed
          (List.mem_of_mem_filter (hsorted.perm.subset he))
      rw [hlength, hsorted.perm.length_eq]
      rfl

end Represents

/-! ### `list_images` -/

/-- `ORDER BY name, tag`. -/
def byReference (a b : Api.ImageSummary) : Prop :=
  a.name < b.name ∨ a.name = b.name ∧ a.tag ≤ b.tag

theorem reference_summaryOf (settings : Settings) (scans : List Scan) (e : ImageId × Image) :
    (summaryOf settings scans e).name = e.2.name ∧ (summaryOf settings scans e).tag = e.2.tag := by
  rw [summaryOf]
  cases latest scans e.1 <;> exact ⟨rfl, rfl⟩

/-- The loop over the current runs meets the run of the image, and no other. -/
theorem summaryIn_eq (hdb : WellFormed db) (settings : Settings)
    (hi : db.image.get? i = some image) :
    Api.summaryIn settings db (i, image) = Api.summaryOf settings db (i, image) := by
  rw [Api.summaryIn, Api.filter_currentRuns hdb, Api.pointerOf_eq hi, Api.summaryOf]
  cases hcur : image.currentScanRunId with
  | none => rfl
  | some r => cases hrun : db.scanRun.get? r <;> simp [hrun]

/-- **`list_images` lists every image**, with the digest and the counts of its last scan. -/
theorem Represents.listImages (h : Represents db log) (settings : Settings)
    {sorted : List (ImageId × Image)}
    (hsorted : Admissible Api.referenceKey db.image.entries sorted) (params : Api.PageParams) :
    Lists (db.image.entries.map (summaryOf settings (log.map Prod.snd))) byReference params
      (Api.listImagesIn settings db sorted params) := by
  have hsummary : ∀ e ∈ sorted, Api.summaryIn settings db e =
      summaryOf settings (log.map Prod.snd) e := by
    intro e he
    have hi : db.image.get? e.1 = some e.2 :=
      Dict.get?_eq_some_iff.mpr (hsorted.perm.subset he)
    exact (summaryIn_eq h.wellFormed settings hi).trans (h.summaryOf_eq settings hi)
  have hnodup : (sorted.map Prod.fst).Nodup :=
    (hsorted.perm.map Prod.fst).nodup_iff.mpr db.image.nodup
  refine ⟨sorted.map (summaryOf settings (log.map Prod.snd)), hsorted.perm.map _, ?_, ?_⟩
  · refine List.pairwise_map.mpr (hsorted.sorted.imp fun {a b} hle => ?_)
    obtain ⟨hname, htag⟩ := reference_summaryOf settings (log.map Prod.snd) a
    obtain ⟨hname', htag'⟩ := reference_summaryOf settings (log.map Prod.snd) b
    rw [byReference, hname, hname', htag, htag']
    exact Prod.Lex.toLex_le_toLex.mp hle
  · have hitems : (Api.listImagesIn settings db sorted params).items =
        Api.paginate params (sorted.map (summaryOf settings (log.map Prod.snd))) := by
      rw [Api.items_listImagesIn settings hnodup, Api.paginate, Api.paginate, ← List.map_drop,
        ← List.map_take]
      exact List.map_congr_left fun e he =>
        hsummary e (List.mem_of_mem_drop (List.mem_of_mem_take he))
    rw [List.length_map, hsorted.length_eq, ← hitems]
    rfl

/-! ### `cve_images` -/

/-- What `cve_images` has to list of an image, with the image. -/
def placedIn (scans : List Scan) (c : CveId) (e : ImageId × String × String) :
    List (ImageId × Api.ImageAffectedByCve) :=
  (latest scans e.1).elim [] fun last =>
    (last.report.report.findings.filter fun f => decide (f.cveId = c)).map fun f =>
      (e.1, imageAffected e.2.1 e.2.2 last f)

theorem map_snd_placedIn (scans : List Scan) (registered : List (ImageId × String × String))
    (c : CveId) : (registered.flatMap (placedIn scans c)).map Prod.snd =
      imagesWith scans registered c := by
  rw [imagesWith, List.map_flatMap]
  refine List.flatMap_congr fun e _ => ?_
  rw [placedIn]
  cases latest scans e.1 with
  | none => rfl
  | some last =>
    rw [Option.elim_some, Option.elim_some, List.map_map]
    rfl

theorem mem_placedIn {scans : List Scan} {c : CveId} {e : ImageId × String × String}
    {item : Api.ImageAffectedByCve} :
    (i, item) ∈ placedIn scans c e ↔ i = e.1 ∧ ∃ last f, latest scans i = some last ∧
      f ∈ last.report.report.findings ∧ f.cveId = c ∧ imageAffected e.2.1 e.2.2 last f = item := by
  rw [placedIn]
  cases hlast : latest scans e.1 with
  | none =>
    refine iff_of_false (fun hmem => by cases hmem) ?_
    rintro ⟨rfl, last, f, hlast', -⟩
    rw [hlast] at hlast'
    cases hlast'
  | some last =>
    rw [Option.elim_some, List.mem_map]
    constructor
    · rintro ⟨f, hf, heq⟩
      obtain ⟨hf, hc⟩ := List.mem_filter.mp hf
      obtain ⟨rfl, rfl⟩ := Prod.mk.inj heq
      exact ⟨rfl, last, f, hlast, hf, of_decide_eq_true hc, rfl⟩
    · rintro ⟨rfl, last', f, hlast', hf, hc, rfl⟩
      obtain rfl := Option.some.inj (hlast.symm.trans hlast')
      exact ⟨f, List.mem_filter.mpr ⟨hf, decide_eq_true hc⟩, rfl⟩

theorem nodup_placedIn (scans : List Scan) {registered : List (ImageId × String × String)}
    (hregistered : (registered.map Prod.fst).Nodup) (c : CveId) :
    (registered.flatMap (placedIn scans c)).Nodup := by
  refine List.nodup_flatMap.mpr ⟨fun e _ => ?_, ?_⟩
  · rw [placedIn]
    cases latest scans e.1 with
    | none => exact List.nodup_nil
    | some last =>
      refine List.Nodup.of_map (fun item => (c, item.2.package)) ?_
      have hkeys : ((last.report.report.findings.filter fun f => decide (f.cveId = c)).map
          ParsedFinding.key).Nodup :=
        last.report.keys_nodup.sublist (List.filter_sublist.map _)
      rw [Option.elim_some, List.map_map]
      refine (List.map_congr_left fun f hf => ?_) ▸ hkeys
      exact Prod.ext (of_decide_eq_true (List.mem_filter.mp hf).2) rfl
  · refine (List.pairwise_map.mp hregistered).imp fun {e e'} hne => ?_
    rintro ⟨i, item⟩ hitem hitem'
    exact hne ((mem_placedIn.mp hitem).1.symm.trans (mem_placedIn.mp hitem').1)

theorem severity_of_imageAffectedByCve {e : (FindingKey × Finding) × Image}
    {item : Api.ImageAffectedByCve} (h : Api.imageAffectedByCve db e = some item) :
    item.severity = e.1.2.severity := by
  simp only [Api.imageAffectedByCve, Option.bind_eq_bind, Option.bind_eq_some_iff, Option.pure_def,
    Option.some.injEq] at h
  obtain ⟨k, -, run, -, rfl⟩ := h
  rfl

section Represents

variable {c : CveId} (h : Represents db log)

include h

/-- A CVE is known iff some scan named it. -/
theorem Represents.cve_eq_none_iff :
    db.cve.get? c = none ↔ description (log.map Prod.snd) c = none := by
  rw [← h.describes c, Option.map_eq_none_iff]

/-- A row of `cve_images` joined with the image it is of. -/
theorem Represents.mem_affected_iff {item : Api.ImageAffectedByCve} :
    (∃ e ∈ Api.affectedRows db c,
        (Api.imageAffectedByCve db e).map (fun item => (e.1.1.imageId, item)) = some (i, item)) ↔
      (i, item) ∈ (Api.references db).flatMap (placedIn (log.map Prod.snd) c) := by
  rw [List.mem_flatMap]
  constructor
  · rintro ⟨⟨⟨⟨i', c', p⟩, f⟩, image⟩, hrow, hitem⟩
    obtain ⟨item', hjoin, heq⟩ := Option.map_eq_some_iff.mp hitem
    obtain ⟨rfl, rfl⟩ := Prod.mk.inj heq
    obtain ⟨hmem, hi, rfl, hcur⟩ := Api.mem_affectedRows.mp hrow
    obtain ⟨last, hlatest, hlast⟩ := (h.pointer_eq_some_iff hi).mp hcur
    obtain ⟨g, hg, rfl, hp, e, he, hf⟩ :=
      (h.current_iff hlast).mp ⟨Dict.get?_eq_some_iff.mpr hmem, rfl⟩
    refine ⟨(i', image.name, image.tag), ?_, mem_placedIn.mpr ⟨rfl, last, g, hlatest, hg, rfl, ?_⟩⟩
    · exact List.mem_map_of_mem (f := fun e : ImageId × Image => (e.1, e.2.name, e.2.tag))
        (Dict.get?_eq_some_iff.mp hi)
    · rw [hf, h.imageAffected_eq hlast hp] at hjoin
      exact Option.some.inj hjoin
  · rintro ⟨registered, hmem, hitem⟩
    obtain ⟨⟨j, image⟩, he, rfl⟩ := List.mem_map.mp hmem
    obtain ⟨rfl, last, g, hlatest, hg, rfl, rfl⟩ := mem_placedIn.mp hitem
    have hi : db.image.get? i = some image := Dict.get?_eq_some_iff.mpr he
    dsimp only at hlatest ⊢
    rw [latest_eq] at hlatest
    obtain ⟨⟨r, last⟩, hlast, rfl⟩ := Option.map_eq_some_iff.mp hlatest
    obtain ⟨e, -, hrow⟩ := h.rowAt_of_last hlast (AcceptedReport.findKey?_eq_some.mpr ⟨hg, rfl⟩)
    obtain ⟨p, hp, hf⟩ := rowAt_eq_some.mp hrow
    refine ⟨((⟨i, g.cveId, p⟩, _), image), Api.mem_affectedRows.mpr
      ⟨Dict.get?_eq_some_iff.mp hf, hi, rfl, ?_⟩, ?_⟩
    · exact (h.pointer_eq_some_iff hi).mpr ⟨last, by rw [latest_eq, hlast]; rfl, hlast⟩
    · rw [h.imageAffected_eq hlast hp]
      rfl

/-- The findings of a CVE are told apart by their images and what is listed of them. -/
theorem Represents.affected_inj {e e' : (FindingKey × Finding) × Image}
    {item : Api.ImageAffectedByCve} (he : e ∈ Api.affectedRows db c)
    (he' : e' ∈ Api.affectedRows db c) (himage : e.1.1.imageId = e'.1.1.imageId)
    (hitem : Api.imageAffectedByCve db e = some item)
    (hitem' : Api.imageAffectedByCve db e' = some item) : e = e' := by
  obtain ⟨e, image⟩ := e
  obtain ⟨e', image'⟩ := e'
  obtain ⟨hmem, hi, hc, -⟩ := Api.mem_affectedRows.mp he
  obtain ⟨hmem', hi', hc', -⟩ := Api.mem_affectedRows.mp he'
  have hk := (Api.of_imageAffectedByCve_eq_some hitem).2.2
  have hk' := (Api.of_imageAffectedByCve_eq_some hitem').2.2
  rw [h.wellFormed.package.keyOf?_eq_some] at hk hk'
  have hkey : e.1 = e'.1 := by
    rw [FindingKey.mk.injEq]
    exact ⟨himage, hc.trans hc'.symm, Option.some.inj (hk.symm.trans hk')⟩
  have hsame : image = image' := by
    rw [hkey] at hi
    exact Option.some.inj (hi.symm.trans hi')
  rw [List.inj_on_of_nodup_map db.finding.nodup hmem hmem' hkey, hsame]

theorem Represents.worstImageFirst_of_key {e e' : (FindingKey × Finding) × Image}
    {item item' : Api.ImageAffectedByCve} (he : e ∈ Api.affectedRows db c)
    (he' : e' ∈ Api.affectedRows db c) (hle : Api.affectedKey e ≤ Api.affectedKey e')
    (hitem : Api.imageAffectedByCve db e = some item)
    (hitem' : Api.imageAffectedByCve db e' = some item') : worstImageFirst item item' := by
  have hrank := h.wellFormed.severityRank _ _
    (Dict.get?_eq_some_iff.mpr (Api.mem_affectedRows.mp he).1)
  have hrank' := h.wellFormed.severityRank _ _
    (Dict.get?_eq_some_iff.mpr (Api.mem_affectedRows.mp he').1)
  obtain ⟨hname, htag, -⟩ := Api.of_imageAffectedByCve_eq_some hitem
  obtain ⟨hname', htag', -⟩ := Api.of_imageAffectedByCve_eq_some hitem'
  rw [Api.affectedKey, Api.affectedKey, toLex_toDual_le_iff, hrank, hrank',
    Prod.Lex.toLex_le_toLex] at hle
  rw [worstImageFirst, severity_of_imageAffectedByCve hitem, severity_of_imageAffectedByCve hitem',
    hname, hname', htag, htag']
  exact hle

/-- **`cve_images` lists the images whose last scan names the CVE.** -/
theorem Represents.cveImages {sorted : List ((FindingKey × Finding) × Image)}
    (hsorted : Admissible Api.affectedKey (Api.affectedRows db c) sorted)
    (params : Api.PageParams) (hknown : description (log.map Prod.snd) c ≠ none) :
    ∃ page, Api.cveImagesIn db c sorted params = .ok page ∧
      Lists (imagesWith (log.map Prod.snd) (Api.references db) c) worstImageFirst params page := by
  obtain ⟨cve, hcve⟩ := Option.ne_none_iff_exists'.mp fun hnone =>
    hknown (h.cve_eq_none_iff.mp hnone)
  have hids : ((Api.references db).map Prod.fst).Nodup := by
    rw [Api.references, List.map_map]
    exact db.image.nodup
  refine ⟨⟨Api.paginate params (sorted.filterMap (Api.imageAffectedByCve db)),
    (Api.affectedRows db c).length, params.limit, params.offset⟩, ?_,
    sorted.filterMap (Api.imageAffectedByCve db), ?_, ?_, ?_⟩
  · simp only [Api.cveImagesIn, hcve]
  · have hperm : (sorted.filterMap fun e =>
          (Api.imageAffectedByCve db e).map fun item => (e.1.1.imageId, item)).Perm
        ((Api.references db).flatMap (placedIn (log.map Prod.snd) c)) :=
      hsorted.perm_filterMap (Api.nodup_affectedRows db c)
        (nodup_placedIn (log.map Prod.snd) hids c)
        (fun e he e' he' row hrow hrow' => ?_) fun row => h.mem_affected_iff
    · have hitems := hperm.map Prod.snd
      rw [map_snd_placedIn, List.map_filterMap] at hitems
      simpa only [Option.map_map, Function.comp_def, Option.map_id_fun', id_eq] using hitems
    · obtain ⟨item, hitem, rfl⟩ := Option.map_eq_some_iff.mp hrow
      obtain ⟨item', hitem', heq⟩ := Option.map_eq_some_iff.mp hrow'
      obtain ⟨himage, rfl⟩ := Prod.mk.inj heq
      exact h.affected_inj he he' himage.symm hitem hitem'
  · refine hsorted.pairwise_filterMap fun e he e' he' hle item hitem item' hitem' => ?_
    exact h.worstImageFirst_of_key he he' hle hitem hitem'
  · have hlength := Api.length_filterMap_of_isSome (f := Api.imageAffectedByCve db) (l := sorted)
      fun e he => Api.imageAffectedByCve_isSome h.wellFormed (hsorted.perm.subset he)
    rw [hlength, hsorted.length_eq]

end Represents

/-! ### `list_cves` -/

/-- The default of an aggregate does not show when there is something to aggregate. -/
theorem isGreatest_of_insert {s : Set ℕ} {n : ℕ} (hs : s.Nonempty)
    (h : IsGreatest (insert 0 s) n) : IsGreatest s n := by
  refine ⟨?_, fun m hm => h.2 (Set.mem_insert_of_mem 0 hm)⟩
  obtain rfl | hn := Set.mem_insert_iff.mp h.1
  · obtain ⟨m, hm⟩ := hs
    rw [← Nat.le_zero.mp (h.2 (Set.mem_insert_of_mem 0 hm))]
    exact hm
  · exact hn

section Rollups

variable {c : CveId} (h : Represents db log) (hexact : RollupExact db)

include h

theorem Represents.live_iff_carries {rank : ℕ} :
    Live db c i rank ↔ Carries (log.map Prod.snd) c i rank :=
  h.live_iff.trans ⟨fun hlive => hlive.2, fun hcarries => ⟨h.carries_image hcarries, hcarries⟩⟩

include hexact

/-- The greatest rank among the images that carry a CVE is stored with its row, under its name. -/
theorem Represents.isGreatest_maxSeverityRank {cve : Cve} (hc : db.cve.get? c = some cve)
    (hcarried : ∃ i rank, Carries (log.map Prod.snd) c i rank) :
    IsGreatest {rank | ∃ i, Carries (log.map Prod.snd) c i rank} cve.maxSeverityRank ∧
      cve.maxSeverity.rank = cve.maxSeverityRank := by
  obtain ⟨hrollup, hname⟩ := hexact c cve hc
  have hranks : {rank | ∃ i, Live db c i rank} =
      {rank | ∃ i, Carries (log.map Prod.snd) c i rank} :=
    Set.ext fun rank => exists_congr fun i => h.live_iff_carries
  have hgreatest : IsGreatest {rank | ∃ i, Carries (log.map Prod.snd) c i rank}
      cve.maxSeverityRank := by
    refine isGreatest_of_insert ?_ (hranks ▸ hrollup.rank)
    obtain ⟨i, rank, hcarries⟩ := hcarried
    exact ⟨rank, i, hcarries⟩
  refine ⟨hgreatest, ?_⟩
  obtain ⟨i, last, -, f, -, -, hf⟩ := hgreatest.1
  rw [hname, ← hf, Severity.ofRank_rank]

/-- The row of a CVE that some image carries summarises it. -/
theorem Represents.summarises {cve : Cve} (hc : db.cve.get? c = some cve)
    (hcarried : ∃ i rank, Carries (log.map Prod.snd) c i rank) :
    Summarises (log.map Prod.snd) (Api.cveSummary (c, cve)) where
  affectedImageCount := by
    have himages : {i | ∃ rank, Live db c i rank} =
        {i | ∃ rank, Carries (log.map Prod.snd) c i rank} :=
      Set.ext fun i => exists_congr fun rank => h.live_iff_carries
    exact (hexact c cve hc).1.images.trans (congrArg Set.ncard himages)
  maxSeverity := by
    obtain ⟨hgreatest, hrank⟩ := h.isGreatest_maxSeverityRank hexact hc hcarried
    exact hrank ▸ hgreatest
  title := (h.description_bind hc CveValues.title).symm
  publishedAt := (h.description_bind hc CveValues.publishedAt).symm
  lastModifiedAt := (h.description_bind hc CveValues.lastModifiedAt).symm

/-- A listed CVE is carried, and its filter on ranks is a filter on severities. -/
theorem Represents.listsCve_iff {cve : Cve} (hc : db.cve.get? c = some cve) :
    Api.listsCve severity (c, cve) = true ↔
      (∃ i rank, Carries (log.map Prod.snd) c i rank) ∧
        (severity.all fun s => decide (cve.maxSeverity = s)) = true := by
  have hcounted : 0 < cve.affectedImageCount ↔
      ∃ i rank, Carries (log.map Prod.snd) c i rank := by
    have hlive := Api.counted_iff_live (c := c) h.wellFormed hexact
    simp only [hc, Option.some.injEq, exists_eq_left', h.live_iff_carries] at hlive
    exact hlive
  have hlists : Api.listsCve severity (c, cve) = true ↔ 0 < cve.affectedImageCount ∧
      (severity.all fun s => decide (cve.maxSeverityRank = s.rank)) = true := by
    cases severity <;> simp [Api.listsCve]
  rw [hlists, hcounted]
  refine and_congr_right fun hcarried => ?_
  rw [← (h.isGreatest_maxSeverityRank hexact hc hcarried).2]
  simp only [Severity.rank_injective.eq_iff]

/-- What the query of `list_cves` selects. -/
theorem Represents.mem_listed_iff (row : Api.CveSummary) :
    (∃ e ∈ db.cve.entries.filter (Api.listsCve severity), Api.cveSummary e = row) ↔
      IsListed (log.map Prod.snd) severity row := by
  constructor
  · rintro ⟨⟨c, cve⟩, he, rfl⟩
    obtain ⟨hmem, hlists⟩ := List.mem_filter.mp he
    have hc : db.cve.get? c = some cve := Dict.get?_eq_some_iff.mpr hmem
    obtain ⟨hcarried, hseverity⟩ := (h.listsCve_iff hexact hc).mp hlists
    exact ⟨hcarried, h.summarises hexact hc hcarried, hseverity⟩
  · rintro ⟨⟨i, rank, hcarries⟩, hsummarises, hseverity⟩
    obtain ⟨cve, hc, -⟩ := (Api.counted_iff_live h.wellFormed hexact).mpr
      ⟨i, rank, h.live_iff_carries.mpr hcarries⟩
    have hrow : Api.cveSummary (row.cveId, cve) = row :=
      (h.summarises hexact hc ⟨i, rank, hcarries⟩).unique hsummarises rfl
    have hmax : cve.maxSeverity = row.maxSeverity := congrArg Api.CveSummary.maxSeverity hrow
    refine ⟨(row.cveId, cve), List.mem_filter.mpr ⟨Dict.get?_eq_some_iff.mp hc, ?_⟩, hrow⟩
    exact (h.listsCve_iff hexact hc).mpr ⟨⟨i, rank, hcarries⟩, hmax ▸ hseverity⟩

/-- The CVEs come worst first, and no two tie. -/
theorem Represents.pairwise_listed {sorted : List (CveId × Cve)}
    (hsorted : Admissible Api.cveKey (db.cve.entries.filter (Api.listsCve severity)) sorted) :
    (sorted.map Api.cveSummary).Pairwise worstCveFirst := by
  have hids : (sorted.map Prod.fst).Nodup :=
    (hsorted.perm.map Prod.fst).nodup_iff.mpr
      (db.cve.nodup.sublist (List.filter_sublist.map Prod.fst))
  have hrank : ∀ e ∈ sorted, e.2.maxSeverity.rank = e.2.maxSeverityRank := by
    intro e he
    obtain ⟨hmem, hlists⟩ := List.mem_filter.mp (hsorted.perm.subset he)
    have hc : db.cve.get? e.1 = some e.2 := Dict.get?_eq_some_iff.mpr hmem
    exact (h.isGreatest_maxSeverityRank hexact hc ((h.listsCve_iff hexact hc).mp hlists).1).2
  refine List.pairwise_map.mpr ?_
  refine (hsorted.sorted.and (List.pairwise_map.mp hids)).imp_of_mem fun ha hb hab => ?_
  obtain ⟨hle, hne⟩ := hab
  rw [Api.cveKey, Api.cveKey, toLex_toDual_le_iff, ← hrank _ ha, ← hrank _ hb] at hle
  exact hle.imp_right fun htie => ⟨htie.1, lt_of_le_of_ne htie.2 hne⟩

/-- **`list_cves` lists the CVEs that some image carries.** -/
theorem Represents.listCves {sorted : List (CveId × Cve)}
    (hsorted : Admissible Api.cveKey (db.cve.entries.filter (Api.listsCve severity)) sorted)
    (params : Api.PageParams) :
    ∃ rows : List Api.CveSummary, rows.Pairwise worstCveFirst ∧
      (∀ row, row ∈ rows ↔ IsListed (log.map Prod.snd) severity row) ∧
      Api.listCvesIn db severity sorted params =
        ⟨Api.paginate params rows, rows.length, params.limit, params.offset⟩ := by
  refine ⟨sorted.map Api.cveSummary, h.pairwise_listed hexact hsorted, fun row => ?_, ?_⟩
  · rw [← h.mem_listed_iff hexact, List.mem_map]
    exact exists_congr fun e => and_congr_left fun _ => hsorted.perm.mem_iff
  · rw [List.length_map, hsorted.length_eq]
    rfl

end Rollups

end Catalogue

end ContainerScanner
