import ContainerScanner.Api.Listings
import ContainerScanner.Scanner.CveGuard

/-!
# The catalogue

What the scanner is for, without its tables: the successful scans that were ever committed, oldest
first, and what each endpoint has to answer when these are all one knows. There are no run ids, no
package ids, no upserts and no rollups here. An image is as its last scan reports it; a finding was
first seen by the first scan of the image that reported its key; a CVE affects the images whose
last scan names it.

The one place where the order of scans of *different* images matters is the description of a CVE,
which all images share. The listings order text by code point, as `Api.Endpoints` does.

## Main definitions

* `Scan` — one successful scan
* `latest`, `firstSighting`, `description` — what the catalogue says of an image, a key, a CVE
* `cvesOf`, `summaryOf`, `imagesWith`, `Carries`, `IsListed` — what the endpoints have to answer
* `Lists` — a page of a listing, in an order
-/

namespace ContainerScanner

open Foundation Persist

/-- A successful scan. -/
structure Scan where
  imageId : ImageId
  report : AcceptedReport
  metadata : RunMetadata

namespace Catalogue

/-! ### What the scans say -/

/-- The scans of an image. -/
def scansOf (scans : List Scan) (i : ImageId) : List Scan :=
  scans.filter fun scan => decide (scan.imageId = i)

/-- The scan whose findings are those of the image. -/
def latest (scans : List Scan) (i : ImageId) : Option Scan := (scansOf scans i).getLast?

/-- The first scan of the image that reported the key. -/
def firstSighting (scans : List Scan) (i : ImageId) (key : CveId × PackageKey) : Option Scan :=
  (scansOf scans i).find? fun scan => (scan.report.report.findKey? key).isSome

/-- Does a report have a field that was missing? -/
def completes (offer known : CveValues) : Bool :=
  (known.title.isNone && offer.title.isSome)
    || (known.description.isNone && offer.description.isSome)
    || (known.publishedAt.isNone && offer.publishedAt.isSome)
    || (known.lastModifiedAt.isNone && offer.lastModifiedAt.isSome)

/-- What is known of a CVE after one more report. -/
def redescribe (c : CveId) (known : Option CveValues) (scan : Scan) : Option CveValues :=
  let offer := offered scan.report.report c
  if c ∈ scan.report.report.cveIds then
    some (known.elim offer fun known =>
      if completes offer known then offer.coalesce known else known)
  else known

/-- What is known of a CVE. -/
def description (scans : List Scan) (c : CveId) : Option CveValues :=
  scans.foldl (redescribe c) none

/-! ### What the endpoints answer -/

/-- A page of a listing of what is wanted, in an order that may leave ties. -/
def Lists {α : Type} (wanted : List α) (order : α → α → Prop) (params : Api.PageParams)
    (page : Api.Page α) : Prop :=
  ∃ rows : List α, rows.Perm wanted ∧ rows.Pairwise order ∧
    page = ⟨Api.paginate params rows, rows.length, params.limit, params.offset⟩

/-- A finding of the last scan of an image. -/
def cveInImage (scans : List Scan) (last : Scan) (f : ParsedFinding) : Api.CveInImage where
  cveId := f.cveId
  title := (description scans f.cveId).bind CveValues.title
  severity := f.severity
  package := f.packageKey
  fixedVersion := f.fixedVersion
  firstSeenAt := (firstSighting scans last.imageId f.key).map fun scan => scan.metadata.completedAt
  lastSeenAt := some last.metadata.completedAt

/-- `image_cves`: the findings of the last scan. -/
def cvesOf (scans : List Scan) (i : ImageId) (severity : Option Severity) :
    List Api.CveInImage :=
  (latest scans i).elim [] fun last =>
    (last.report.report.findings.filter fun f => severity.all fun s => decide (f.severity = s)).map
      (cveInImage scans last)

/-- `ORDER BY severity_rank DESC, cve_id`. -/
def worstFirst (a b : Api.CveInImage) : Prop :=
  b.severity.rank < a.severity.rank ∨ a.severity.rank = b.severity.rank ∧ a.cveId ≤ b.cveId

/-- `list_images`: an image with the digest and the counts of its last scan. -/
def summaryOf (settings : Settings) (scans : List Scan) (e : ImageId × Image) : Api.ImageSummary :=
  (latest scans e.1).elim (.ofImage settings e.2) fun last =>
    { Api.ImageSummary.ofImage settings e.2 with
      digest := last.metadata.digest
      totalCves := last.report.report.findings.length
      severityCounts := fun severity =>
        last.report.report.findings.countP fun f => decide (f.severity = severity) }

/-- The last scan of the image names the CVE, at a severity of rank `r`. -/
def Carries (scans : List Scan) (c : CveId) (i : ImageId) (r : ℕ) : Prop :=
  ∃ last, latest scans i = some last ∧
    ∃ f ∈ last.report.report.findings, f.cveId = c ∧ f.severity.rank = r

/-- `list_cves`: what the catalogue says of a CVE. -/
structure Summarises (scans : List Scan) (row : Api.CveSummary) : Prop where
  affectedImageCount : row.affectedImageCount = {i | ∃ r, Carries scans row.cveId i r}.ncard
  maxSeverity : IsGreatest {r | ∃ i, Carries scans row.cveId i r} row.maxSeverity.rank
  title : row.title = (description scans row.cveId).bind CveValues.title
  publishedAt : row.publishedAt = (description scans row.cveId).bind CveValues.publishedAt
  lastModifiedAt :
    row.lastModifiedAt = (description scans row.cveId).bind CveValues.lastModifiedAt

/-- `list_cves`: the CVEs in the last scan of some image, at the severity asked for. -/
structure IsListed (scans : List Scan) (severity : Option Severity) (row : Api.CveSummary) :
    Prop where
  carried : ∃ i r, Carries scans row.cveId i r
  summarises : Summarises scans row
  severity : (severity.all fun s => decide (row.maxSeverity = s)) = true

/-- `ORDER BY max_severity_rank DESC, cve_id`. -/
def worstCveFirst (a b : Api.CveSummary) : Prop :=
  b.maxSeverity.rank < a.maxSeverity.rank ∨
    a.maxSeverity.rank = b.maxSeverity.rank ∧ a.cveId < b.cveId

/-- `cve_images`: a finding of the CVE in the last scan of an image. -/
def imageAffected (name tag : String) (last : Scan) (f : ParsedFinding) :
    Api.ImageAffectedByCve where
  name := name
  tag := tag
  digest := last.metadata.digest
  severity := f.severity
  package := f.packageKey
  fixedVersion := f.fixedVersion
  lastSeenAt := some last.metadata.completedAt

/-- `cve_images`: over the registered images. -/
def imagesWith (scans : List Scan) (registered : List (ImageId × String × String)) (c : CveId) :
    List Api.ImageAffectedByCve :=
  registered.flatMap fun e =>
    (latest scans e.1).elim [] fun last =>
      (last.report.report.findings.filter fun f => decide (f.cveId = c)).map
        (imageAffected e.2.1 e.2.2 last)

/-- `ORDER BY severity_rank DESC, image.name, image.tag`. -/
def worstImageFirst (a b : Api.ImageAffectedByCve) : Prop :=
  b.severity.rank < a.severity.rank ∨ a.severity.rank = b.severity.rank ∧
    (a.name < b.name ∨ a.name = b.name ∧ a.tag ≤ b.tag)

/-! ### One more scan -/

variable {scans : List Scan} {scan : Scan} {i : ImageId}

theorem description_concat (scans : List Scan) (scan : Scan) (c : CveId) :
    description (scans ++ [scan]) c = redescribe c (description scans c) scan := by
  rw [description, List.foldl_concat, description]

/-- A CVE is known iff a scan named it. -/
theorem description_eq_none_iff {c : CveId} :
    description scans c = none ↔ ∀ scan ∈ scans, c ∉ scan.report.report.cveIds := by
  induction scans using List.reverseRecOn with
  | nil => simp [description]
  | append_singleton scans scan ih =>
    rw [description_concat, redescribe]
    by_cases hc : c ∈ scan.report.report.cveIds <;> simp [hc, ih, or_imp, forall_and]

/-- There is one summary of a CVE. -/
theorem Summarises.unique {row row' : Api.CveSummary} (h : Summarises scans row)
    (h' : Summarises scans row') (hid : row.cveId = row'.cveId) : row = row' := by
  obtain ⟨c, title, maxSeverity, publishedAt, lastModifiedAt, count⟩ := row
  obtain ⟨c', title', maxSeverity', publishedAt', lastModifiedAt', count'⟩ := row'
  obtain rfl : c = c' := hid
  have hmax : maxSeverity = maxSeverity' :=
    Severity.rank_injective (h.maxSeverity.unique h'.maxSeverity)
  rw [Api.CveSummary.mk.injEq]
  exact ⟨rfl, h.title.trans h'.title.symm, hmax, h.publishedAt.trans h'.publishedAt.symm,
    h.lastModifiedAt.trans h'.lastModifiedAt.symm,
    h.affectedImageCount.trans h'.affectedImageCount.symm⟩

theorem mem_of_latest (h : latest scans i = some scan) : scan ∈ scans ∧ scan.imageId = i := by
  have hmem := List.mem_filter.mp (List.mem_of_getLast? h)
  exact ⟨hmem.1, of_decide_eq_true hmem.2⟩

end Catalogue

end ContainerScanner
