import ContainerScanner.Domain.Settings
import ContainerScanner.Domain.Models
import ContainerScanner.Foundation.PyDatetime
import ContainerScanner.Foundation.PyValue
import Mathlib.Data.List.Sort
import Mathlib.Data.String.Basic
import Mathlib.Data.Prod.Lex

/-!
# The collection endpoints

`app/api/deps.py`, `routes/images.py` and `routes/cves.py`: what each `GET` answers, as a function
of the database its statements read. `image_cves` issues three statements, and each is a function
of its own, because nothing makes them read the same database.

A listing is what the `SELECT` returns before `LIMIT` and `OFFSET`. Rows that its `ORDER BY` leaves
tied stand in table order. Text is ordered by code point: the collation of the database is taken to
be `C`.

## Main definitions

* `PageParams`, `paginate`, `severityFilter` — the shared dependencies
* `applyFreshness` — the validators of a response
* `listImages`, `imageCves`, `listCves`, `cveImages` — the endpoints
-/

namespace ContainerScanner

open Foundation

namespace Api

/-! ### Shared dependencies -/

/-- An `HTTPException`. -/
structure HttpError where
  statusCode : ℕ
  detail : String
  deriving DecidableEq, Repr

structure PageParams where
  limit : ℕ
  offset : ℕ
  deriving DecidableEq, Repr

/-- The page a request asks for. A `limit` below one was rejected before this runs. A page size
below zero, which PostgreSQL refuses for a `LIMIT`, is taken for zero. -/
def pageParams (settings : Settings) (limit : Option ℕ) (offset : ℕ) : PageParams where
  limit :=
    let requested : ℤ := (limit.filter fun n => n ≠ 0).elim settings.pageSizeDefault fun n => n
    (min requested settings.pageSizeMax).toNat
  offset := offset

/-- `?severity=`, stripped and upper-cased. -/
def severityFilter : Option String → Except HttpError (Option Severity)
  | none => .ok none
  | some severity =>
    match Severity.ofValue? (PyStr.upper (PyStr.strip severity)) with
    | some parsed =>
      if parsed ∈ Severity.filterable then .ok (some parsed)
      else .error ⟨400, "severity must be one of CRITICAL, HIGH, MEDIUM, LOW"⟩
    | none => .error ⟨400, "severity must be one of CRITICAL, HIGH, MEDIUM, LOW"⟩

/-- A page of a collection with its envelope. -/
structure Page (α : Type) where
  items : List α
  total : ℕ
  limit : ℕ
  offset : ℕ
  deriving DecidableEq, Repr

/-- `LIMIT` and `OFFSET`. -/
def paginate {α : Type} (params : PageParams) (rows : List α) : List α :=
  (rows.drop params.offset).take params.limit

/-- `MAX(scan_run.completed_at)`, which ignores the runs that have none. -/
def newestCompletion (db : Db) : Option Timestamp :=
  (db.scanRun.rows.values.filterMap ScanRun.completedAt).max?

/-- `int(newest.timestamp())`: the seconds are a `float` before they are cut. -/
def stamp (newest : Timestamp) : ℤ := PyDatetime.wholeSeconds newest

/-- `W/"{stamp}"`. -/
def etagOf (newest : Timestamp) : String := "W/\"" ++ (stamp newest).repr ++ "\""

/-- The `ETag` that `apply_freshness` sets, when it sets one. -/
def applyFreshness (db : Db) : Option String := (newestCompletion db).map etagOf

/-- Does the conditional request get a `304`? -/
def notModified (db : Db) (ifNoneMatch : Option String) : Bool :=
  match applyFreshness db with
  | none => false
  | some etag => decide (ifNoneMatch = some etag)

/-! ### `GET /api/images` -/

structure ImageSummary where
  name : String
  tag : String
  digest : Option String
  lastScanAt : Option Timestamp
  lastScanStatus : Option RunStatus
  consecutiveFailures : ℕ
  scanIntervalSeconds : ℤ
  totalCves : ℕ
  severityCounts : Severity → ℕ
  deriving DecidableEq

/-- The summary of an image before its current run is looked up. -/
def ImageSummary.ofImage (settings : Settings) (image : Image) : ImageSummary where
  name := image.name
  tag := image.tag
  digest := none
  lastScanAt := image.lastScanAt
  lastScanStatus := image.lastScanStatus
  consecutiveFailures := image.consecutiveFailures
  scanIntervalSeconds := (image.scanIntervalSeconds.filter fun n => n ≠ 0).elim
    settings.defaultScanIntervalSeconds fun n => n
  totalCves := 0
  severityCounts := fun _ => 0

/-- `SeverityCounts.total`. -/
def totalCount (counts : Severity → ℕ) : ℕ :=
  counts .critical + counts .high + counts .medium + counts .low + counts .unknown

/-- Digest and counts come off the current run. -/
def ImageSummary.withRun (run : ScanRun) (summary : ImageSummary) : ImageSummary :=
  let counts := fun severity => (run.findingCount severity).getD 0
  { summary with digest := run.digest, severityCounts := counts, totalCves := totalCount counts }

/-- The images in the order of the listing. -/
def imagesByReference (db : Db) : List (ImageId × Image) :=
  db.image.entries.insertionSort fun a b =>
    toLex (a.2.name, a.2.tag) ≤ toLex (b.2.name, b.2.tag)

/-- `scan_run JOIN image ON image.current_scan_run_id = scan_run.id`. -/
def currentRuns (db : Db) : List ScanRun :=
  db.image.entries.filterMap fun e => e.2.currentScanRunId.bind db.scanRun.get?

/-- The summaries of a page, by image. -/
def summaries (settings : Settings) (params : PageParams) (db : Db) :
    Dict ImageId ImageSummary :=
  -- `update` passes over the runs of images on other pages, as `image_id IN (…)` does
  (currentRuns db).foldl
    (fun summaries run => summaries.update run.imageId (.withRun run))
    (Dict.ofList ((paginate params (imagesByReference db)).map fun e =>
      (e.1, .ofImage settings e.2)))

def listImages (settings : Settings) (params : PageParams) (db : Db) : Page ImageSummary where
  items := (summaries settings params db).values
  total := db.image.entries.length
  limit := params.limit
  offset := params.offset

/-! ### `GET /api/images/{name}/{tag}/cves` -/

structure CveInImage where
  cveId : CveId
  title : Option String
  severity : Severity
  package : PackageKey
  fixedVersion : Option String
  firstSeenAt : Option Timestamp
  lastSeenAt : Option Timestamp
  deriving DecidableEq, Repr

/-- `SELECT … FROM image WHERE name = … AND tag = …`. -/
def findImage (db : Db) (name tag : String) : Option (ImageId × Image) :=
  db.image.entries.find? fun e => decide (e.2.name = name ∧ e.2.tag = tag)

/-- The `conditions` of the count and of the select: the pointer is the one that was loaded. -/
structure Conditions where
  imageId : ImageId
  runId : RunId
  severity : Option Severity
  deriving DecidableEq, Repr

/-- Does a filter by severity let a finding through? -/
def severityMatches (severity : Option Severity) (f : Finding) : Bool :=
  match severity with
  | none => true
  | some s => decide (f.severityRank = s.rank)

def Conditions.hold (conditions : Conditions) (e : FindingKey × Finding) : Bool :=
  decide (e.1.imageId = conditions.imageId ∧ e.2.lastSeenRunId = conditions.runId)
    && severityMatches conditions.severity e.2

/-- `SELECT count(*) FROM finding WHERE …`. -/
def countFindings (db : Db) (conditions : Conditions) : ℕ :=
  (db.finding.entries.filter conditions.hold).length

/-- A finding joined with its CVE, its package and its two runs. -/
def cveInImage (db : Db) (e : FindingKey × Finding) : Option CveInImage := do
  let cve ← db.cve.get? e.1.cveId
  let package ← db.package.keyOf? e.1.packageId
  let firstRun ← db.scanRun.get? e.2.firstSeenRunId
  let lastRun ← db.scanRun.get? e.2.lastSeenRunId
  return {
    cveId := e.1.cveId
    title := cve.title
    severity := e.2.severity
    package
    fixedVersion := e.2.fixedVersion
    firstSeenAt := firstRun.completedAt
    lastSeenAt := lastRun.completedAt }

/-- `ORDER BY severity_rank DESC, cve_id`. -/
def worstFirst (a b : FindingKey × Finding) : Prop :=
  toLex (OrderDual.toDual a.2.severityRank, a.1.cveId)
    ≤ toLex (OrderDual.toDual b.2.severityRank, b.1.cveId)

instance : DecidableRel worstFirst := fun _ _ => inferInstanceAs (Decidable (_ ≤ _))

/-- The listing behind the select. -/
def selectFindings (db : Db) (conditions : Conditions) : List CveInImage :=
  ((db.finding.entries.filter conditions.hold).insertionSort worstFirst).filterMap (cveInImage db)

/-- The endpoint, with the database each of its three statements reads. -/
def imageCvesAt (load count select : Db) (name tag : String) (params : PageParams)
    (severity : Option Severity) : Except HttpError (Page CveInImage) :=
  match findImage load name tag with
  | none => .error ⟨404, "unknown image " ++ name ++ ":" ++ tag⟩
  | some (imageId, image) =>
    match image.currentScanRunId with
    | none => .ok ⟨[], 0, params.limit, params.offset⟩
    | some runId =>
      let conditions : Conditions := ⟨imageId, runId, severity⟩
      .ok {
        items := paginate params (selectFindings select conditions)
        total := countFindings count conditions
        limit := params.limit
        offset := params.offset }

/-- The endpoint on a database that nothing changes meanwhile. -/
def imageCves (db : Db) (name tag : String) (params : PageParams) (severity : Option Severity) :
    Except HttpError (Page CveInImage) :=
  imageCvesAt db db db name tag params severity

/-! ### `GET /api/cves` -/

structure CveSummary where
  cveId : CveId
  title : Option String
  maxSeverity : Severity
  publishedAt : Option Timestamp
  lastModifiedAt : Option Timestamp
  affectedImageCount : ℕ
  deriving DecidableEq, Repr

/-- "Currently found in at least one image", and the rollup's severity when one is asked for. -/
def listsCve (severity : Option Severity) (e : CveId × Cve) : Bool :=
  decide (0 < e.2.affectedImageCount)
    && match severity with
      | none => true
      | some s => decide (e.2.maxSeverityRank = s.rank)

def cveSummary (e : CveId × Cve) : CveSummary where
  cveId := e.1
  title := e.2.title
  maxSeverity := e.2.maxSeverity
  publishedAt := e.2.publishedAt
  lastModifiedAt := e.2.lastModifiedAt
  affectedImageCount := e.2.affectedImageCount

/-- The listing, worst first. -/
def selectCves (db : Db) (severity : Option Severity) : List CveSummary :=
  ((db.cve.entries.filter (listsCve severity)).insertionSort fun a b =>
    toLex (OrderDual.toDual a.2.maxSeverityRank, a.1)
      ≤ toLex (OrderDual.toDual b.2.maxSeverityRank, b.1)).map cveSummary

def listCves (params : PageParams) (severity : Option Severity) (db : Db) : Page CveSummary where
  items := paginate params (selectCves db severity)
  total := (db.cve.entries.filter (listsCve severity)).length
  limit := params.limit
  offset := params.offset

/-! ### `GET /api/cves/{cve_id}/images` -/

structure ImageAffectedByCve where
  name : String
  tag : String
  digest : Option String
  severity : Severity
  package : PackageKey
  fixedVersion : Option String
  lastSeenAt : Option Timestamp
  deriving DecidableEq, Repr

/-- `finding JOIN image` under the conditions: the current findings of a CVE with their images. -/
def affectedRows (db : Db) (c : CveId) : List ((FindingKey × Finding) × Image) :=
  db.finding.entries.filterMap fun e =>
    match db.image.get? e.1.imageId with
    | none => none
    | some image =>
      if e.1.cveId = c ∧ image.currentScanRunId = some e.2.lastSeenRunId then some (e, image)
      else none

/-- Such a row joined with its package and its run. -/
def imageAffectedByCve (db : Db) (e : (FindingKey × Finding) × Image) :
    Option ImageAffectedByCve := do
  let package ← db.package.keyOf? e.1.1.packageId
  let run ← db.scanRun.get? e.1.2.lastSeenRunId
  return {
    name := e.2.name
    tag := e.2.tag
    digest := run.digest
    severity := e.1.2.severity
    package
    fixedVersion := e.1.2.fixedVersion
    lastSeenAt := run.completedAt }

/-- The listing behind the select: `ORDER BY severity_rank DESC, image.name, image.tag`. -/
def selectAffected (db : Db) (c : CveId) : List ImageAffectedByCve :=
  ((affectedRows db c).insertionSort fun a b =>
    toLex (OrderDual.toDual a.1.2.severityRank, toLex (a.2.name, a.2.tag))
      ≤ toLex (OrderDual.toDual b.1.2.severityRank, toLex (b.2.name, b.2.tag))).filterMap
    (imageAffectedByCve db)

def cveImages (c : CveId) (params : PageParams) (db : Db) :
    Except HttpError (Page ImageAffectedByCve) :=
  match db.cve.get? c with
  | none => .error ⟨404, "unknown CVE " ++ c⟩
  | some _ =>
    .ok {
      items := paginate params (selectAffected db c)
      total := (affectedRows db c).length
      limit := params.limit
      offset := params.offset }

end Api

end ContainerScanner
