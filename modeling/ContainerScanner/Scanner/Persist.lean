import ContainerScanner.Scanner.Parser
import ContainerScanner.Foundation.Aggregate
import Mathlib.Data.Prod.Lex
import Mathlib.Data.String.Basic
import Mathlib.Data.List.Sort

/-!
# Writing a scan result

`app/scanner/persist.py`. Each SQL statement is a function on the database, and the three
recorders are the statements in the order the source issues them. A multi-row
`INSERT … ON CONFLICT DO UPDATE` is `Dict.upsertAll` of what it does to one row, so the row
functions (`upsertCve`, `upsertFinding`, `applyRollup`) are also what a statement does when other
transactions run between its rows.

## Main definitions

* `insertPackages`, `upsertCves`, `upsertFindings`, `recomputeCveRollup`
* `recordSuccess`, `recordSkip`, `recordFailure`
* `Call`, `runCalls` — a committed call of one of the three, and a serial history of them
-/

namespace ContainerScanner

open Foundation

/-! ### Ordering package keys -/

/-- The tuple Python compares. -/
def PackageKey.tuple (k : PackageKey) : String ×ₗ String ×ₗ String :=
  toLex (k.name, toLex (k.version, k.type))

theorem PackageKey.tuple_injective : Function.Injective PackageKey.tuple := by
  rintro ⟨n, v, t⟩ ⟨n', v', t'⟩ h
  simpa [PackageKey.tuple] using h

instance : LinearOrder PackageKey := LinearOrder.lift' PackageKey.tuple PackageKey.tuple_injective

namespace Persist

/-- The four invariant fields plus timing. -/
structure RunMetadata where
  digest : Option String
  trivyVersion : Option String
  trivyDbVersion : Option String
  scanFlagsHash : Option String
  startedAt : Timestamp
  completedAt : Timestamp
  deriving DecidableEq, Repr

def newRun (imageId : ImageId) (job : Option JobId) (status : RunStatus) (metadata : RunMetadata)
    (error : Option String) : ScanRun where
  imageId := imageId
  scanJobId := job
  startedAt := metadata.startedAt
  completedAt := some metadata.completedAt
  status := status
  digest := metadata.digest
  trivyVersion := metadata.trivyVersion
  trivyDbVersion := metadata.trivyDbVersion
  scanFlagsHash := metadata.scanFlagsHash
  error := error
  findingCount := fun _ => none

/-- The CVEs current for an image as it was loaded. -/
def currentCveIds (db : Db) (imageId : ImageId) (image : Image) : List CveId :=
  match image.currentScanRunId with
  | none => []
  | some runId =>
    (db.finding.entries.filter fun e =>
      decide (e.1.imageId = imageId ∧ e.2.lastSeenRunId = runId)).map fun e => e.1.cveId

/-! ### Packages -/

/-- The distinct package keys of a report, sorted. -/
def packageKeys (report : ParsedReport) : List PackageKey :=
  (report.findings.map ParsedFinding.packageKey).dedup.insertionSort (· ≤ ·)

/-- `INSERT … ON CONFLICT DO NOTHING` of every key. -/
def insertPackages (db : Db) (report : ParsedReport) : Db :=
  { db with package := db.package.internAll (packageKeys report) }

/-- The lookup that follows the insert. -/
def packageIds (db : Db) (report : ParsedReport) (k : PackageKey) : Option PackageId :=
  if k ∈ packageKeys report then db.package.get? k else none

/-! ### CVEs -/

/-- The descriptive columns of a row offered to `cve`. -/
structure CveValues where
  title : Option String
  description : Option String
  publishedAt : Option Timestamp
  lastModifiedAt : Option Timestamp
  deriving DecidableEq, Repr

/-- First non-null wins. -/
def CveValues.fill (current : CveValues) (finding : ParsedFinding) : CveValues where
  title := current.title.or finding.title
  description := current.description.or finding.description
  publishedAt := current.publishedAt.or finding.publishedAt
  lastModifiedAt := current.lastModifiedAt.or finding.lastModifiedAt

/-- The rows of the upsert, in the order the report first names them. -/
def cveRows (findings : List ParsedFinding) : Dict CveId CveValues :=
  findings.foldl
    (fun byId finding =>
      byId.set finding.cveId
        (((byId.get? finding.cveId).getD ⟨none, none, none, none⟩).fill finding))
    Dict.empty

/-- The `WHERE` of the upsert: the scan fills in a field the row was missing. -/
def CveValues.fills (excluded : CveValues) (cve : Cve) : Bool :=
  (cve.title.isNone && excluded.title.isSome)
    || (cve.description.isNone && excluded.description.isSome)
    || (cve.publishedAt.isNone && excluded.publishedAt.isSome)
    || (cve.lastModifiedAt.isNone && excluded.lastModifiedAt.isSome)

/-- One row of the upsert. A new row starts with the rollup columns' server defaults. -/
def upsertCve (excluded : CveValues) : Option Cve → Cve
  | none =>
    { title := excluded.title
      description := excluded.description
      maxSeverity := .unknown
      maxSeverityRank := 0
      affectedImageCount := 0
      publishedAt := excluded.publishedAt
      lastModifiedAt := excluded.lastModifiedAt }
  | some cve =>
    if excluded.fills cve then
      { cve with
        title := excluded.title.or cve.title
        description := excluded.description.or cve.description
        publishedAt := excluded.publishedAt.or cve.publishedAt
        lastModifiedAt := excluded.lastModifiedAt.or cve.lastModifiedAt }
    else cve

def upsertCves (db : Db) (report : ParsedReport) : Db :=
  { db with cve := db.cve.upsertAll upsertCve (cveRows report.findings).entries }

/-! ### Findings -/

/-- The row offered for one finding. -/
def newFinding (runId : RunId) (finding : ParsedFinding) : Finding where
  fixedVersion := finding.fixedVersion
  severity := finding.severity
  severityRank := finding.severity.rank
  firstSeenRunId := runId
  lastSeenRunId := runId

/-- The rows of the upsert. A finding whose package has no id is dropped. -/
def findingRows (imageId : ImageId) (ids : PackageKey → Option PackageId) (runId : RunId)
    (findings : List ParsedFinding) : List (FindingKey × Finding) :=
  findings.filterMap fun finding =>
    (ids finding.packageKey).map fun packageId =>
      (⟨imageId, finding.cveId, packageId⟩, newFinding runId finding)

/-- One row of the upsert: `first_seen_run_id` survives every later sighting. -/
def upsertFinding (excluded : Finding) : Option Finding → Finding
  | none => excluded
  | some finding =>
    { finding with
      fixedVersion := excluded.fixedVersion
      severity := excluded.severity
      severityRank := excluded.severityRank
      lastSeenRunId := excluded.lastSeenRunId }

/-- The counts `upsert_findings` returns, taken from the rows it wrote. -/
def countBySeverity (rows : List (FindingKey × Finding)) (severity : Severity) : ℕ :=
  rows.countP fun row => decide (row.2.severity = severity)

def upsertFindings (db : Db) (rows : List (FindingKey × Finding)) : Db :=
  { db with finding := db.finding.upsertAll upsertFinding rows }

/-! ### The rollup -/

/-- What the subquery of the rollup computes for one CVE, coalesced. -/
structure Rollup where
  rank : ℕ
  images : ℕ
  deriving DecidableEq, Repr

/-- The current findings of a CVE: their images and ranks. -/
def liveRows (db : Db) (c : CveId) : List (ImageId × ℕ) :=
  db.finding.entries.filterMap fun e =>
    match db.image.get? e.1.imageId with
    | none => none
    | some image =>
      if e.1.cveId = c ∧ image.currentScanRunId = some e.2.lastSeenRunId then
        some (e.1.imageId, e.2.severityRank)
      else none

/-- `COALESCE(MAX(severity_rank), 0)` and `COUNT(DISTINCT image_id)`. -/
def rollupOf (db : Db) (c : CveId) : Rollup where
  rank := maxOr 0 ((liveRows db c).map Prod.snd)
  images := countDistinct ((liveRows db c).map Prod.fst)

/-- The `IS DISTINCT FROM` guard. -/
def rollupDiffers (sub : Rollup) (cve : Cve) : Bool :=
  decide (cve.maxSeverityRank ≠ sub.rank ∨ cve.affectedImageCount ≠ sub.images)

/-- The `SET` of the rollup. -/
def writeRollup (sub : Rollup) (cve : Cve) : Cve :=
  { cve with
    maxSeverityRank := sub.rank
    maxSeverity := Severity.ofRank sub.rank
    affectedImageCount := sub.images }

def applyRollup (sub : Rollup) (cve : Cve) : Cve :=
  if rollupDiffers sub cve then writeRollup sub cve else cve

/-- The rollup is one `UPDATE`: every subquery reads the database the statement started on. -/
def recomputeCveRollup (db : Db) (cveIds : List CveId) : Db :=
  { db with cve := cveIds.dedup.foldl (fun t c => t.update c (applyRollup (rollupOf db c))) db.cve }

/-! ### The recorders -/

/-- `session.add(run); session.flush()`. -/
def insertRun (db : Db) (run : ScanRun) : Db := { db with scanRun := db.scanRun.insert run }

/-- The five `setattr(run, "finding_count_…", counts.get(severity, 0))`. -/
def withCounts (counts : Severity → ℕ) (run : ScanRun) : ScanRun :=
  { run with findingCount := fun severity => some (counts severity) }

def setCounts (db : Db) (runId : RunId) (counts : Severity → ℕ) : Db :=
  { db with scanRun := db.scanRun.update runId (withCounts counts) }

/-- The image columns a success writes. -/
def pointTo (runId : RunId) (metadata : RunMetadata) (image : Image) : Image :=
  { image with
    currentScanRunId := some runId
    lastScanAt := some metadata.completedAt
    lastScanStatus := some .success
    consecutiveFailures := 0 }

def movePointer (db : Db) (imageId : ImageId) (runId : RunId) (metadata : RunMetadata) : Db :=
  { db with image := db.image.update imageId (pointTo runId metadata) }

/-- The CVEs whose rollup a success recomputes: captured before the pointer moves. -/
def affectedCves (db : Db) (imageId : ImageId) (image : Image) (report : ParsedReport) :
    List CveId :=
  currentCveIds db imageId image ++ report.cveIds

/-- Everything `record_success` writes before the rollup. -/
def writeFindings (db : Db) (imageId : ImageId) (job : Option JobId) (report : ParsedReport)
    (metadata : RunMetadata) : Db :=
  let runId := db.scanRun.next
  let db := insertRun db (newRun imageId job .success metadata none)
  let db := insertPackages db report
  let ids := packageIds db report
  let db := upsertCves db report
  let rows := findingRows imageId ids runId report.findings
  let db := upsertFindings db rows
  let db := setCounts db runId (countBySeverity rows)
  movePointer db imageId runId metadata

def recordSuccess (db : Db) (imageId : ImageId) (image : Image) (job : Option JobId)
    (report : ParsedReport) (metadata : RunMetadata) : Db :=
  let affected := affectedCves db imageId image report
  recomputeCveRollup (writeFindings db imageId job report metadata) affected

/-- The image columns a skip writes: `current_scan_run_id` is left alone. -/
def skipImage (metadata : RunMetadata) (image : Image) : Image :=
  { image with
    lastScanAt := some metadata.completedAt
    lastScanStatus := some .skipped
    consecutiveFailures := 0 }

def recordSkip (db : Db) (imageId : ImageId) (job : Option JobId) (metadata : RunMetadata) : Db :=
  let db := insertRun db (newRun imageId job .skipped metadata none)
  { db with image := db.image.update imageId (skipImage metadata) }

/-- The image columns a failure writes: the last good findings are left alone. -/
def failImage (metadata : RunMetadata) (exhausted : Bool) (image : Image) : Image :=
  { image with
    lastScanAt := some metadata.completedAt
    lastScanStatus := some .failed
    consecutiveFailures :=
      if exhausted then image.consecutiveFailures + 1 else image.consecutiveFailures }

def recordFailure (db : Db) (imageId : ImageId) (job : Option JobId) (metadata : RunMetadata)
    (error : String) (exhausted : Bool) : Db :=
  let db := insertRun db (newRun imageId job .failed metadata (some (PyStr.truncate 4000 error)))
  { db with image := db.image.update imageId (failImage metadata exhausted) }

/-! ### Serial histories -/

/-- One committed call of a recorder, on the image as it is loaded in the same transaction. -/
inductive Call where
  | success (imageId : ImageId) (job : Option JobId) (report : AcceptedReport)
      (metadata : RunMetadata)
  | skip (imageId : ImageId) (job : Option JobId) (metadata : RunMetadata)
  | failure (imageId : ImageId) (job : Option JobId) (metadata : RunMetadata) (error : String)
      (exhausted : Bool)

namespace Call

/-- The image a call is about. -/
def imageId : Call → ImageId
  | success i _ _ _ => i
  | skip i _ _ => i
  | failure i _ _ _ _ => i

/-- The metadata of the run a call records. -/
def metadata : Call → RunMetadata
  | success _ _ _ m => m
  | skip _ _ m => m
  | failure _ _ m _ _ => m

/-- The state the call commits. A call is made for a row of `image`. -/
def commit (db : Db) (call : Call) : Db :=
  match db.image.get? call.imageId with
  | none => db
  | some image =>
    match call with
    | success i job report m => recordSuccess db i image job report.report m
    | skip i job m => recordSkip db i job m
    | failure i job m error exhausted => recordFailure db i job m error exhausted

end Call

/-- The state after a serial history. -/
def runCalls (db : Db) (calls : List Call) : Db := calls.foldl Call.commit db

@[simp] theorem runCalls_nil (db : Db) : runCalls db [] = db := rfl

@[simp] theorem runCalls_cons (db : Db) (call : Call) (calls : List Call) :
    runCalls db (call :: calls) = runCalls (call.commit db) calls := rfl

theorem runCalls_append (db : Db) (calls calls' : List Call) :
    runCalls db (calls ++ calls') = runCalls (runCalls db calls) calls' := List.foldl_append

theorem runCalls_concat (db : Db) (calls : List Call) (call : Call) :
    runCalls db (calls ++ [call]) = call.commit (runCalls db calls) := by
  rw [runCalls_append, runCalls_cons, runCalls_nil]

/-- What every call preserves, a serial history preserves. -/
theorem runCalls_invariant {P : Db → Prop} (hstep : ∀ db call, P db → P (Call.commit db call))
    {db : Db} (hdb : P db) (calls : List Call) : P (runCalls db calls) := by
  induction calls generalizing db with
  | nil => exact hdb
  | cons call calls ih => exact ih (hstep db call hdb)

end Persist

end ContainerScanner
