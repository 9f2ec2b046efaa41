import ContainerScanner.Domain.Severity
import ContainerScanner.Foundation.Serial
import ContainerScanner.Foundation.Surrogate
import Mathlib.Data.Fintype.Pi

/-!
# The database

`app/domain/models.py`. One record per table, in the source's words, and `Db`, the six tables
together. Surrogate keys that no query reads (`finding.id`) are left out, and so are the columns
that only `/api/stats` reads (`scan_run.duration_ms`).

A table is keyed by its unique constraint: `finding` by `uq_finding_img_cve_pkg`, `package` by
`uq_package_nvt`, `cve` and `image` by their primary keys. `scan_run` and `scan_job` number their
rows from a sequence.
-/

namespace ContainerScanner

open Foundation

/-- A point in time, in microseconds since the Unix epoch: the resolution of both
`datetime.now(UTC)` and a `timestamptz` column. -/
abbrev Timestamp : Type := ℤ

/-- Microseconds in a second. -/
def second : ℤ := 1000000

/-- The primary key of `image`. -/
abbrev ImageId : Type := ℕ

/-- The primary key of `scan_run`. -/
abbrev RunId : Type := ℕ

/-- The primary key of `scan_job`. -/
abbrev JobId : Type := ℕ

/-- The primary key of `package`. -/
abbrev PackageId : Type := ℕ

/-- The primary key of `cve`. -/
abbrev CveId : Type := String

inductive JobStatus where
  | pending
  | running
  | done
  | failed
  deriving DecidableEq, Repr

inductive RunStatus where
  | success
  | failed
  | skipped
  deriving DecidableEq, Repr

/-- A row of `image`: a tag to keep scanning. -/
structure Image where
  name : String
  tag : String
  /-- `NULL` means the default interval. -/
  scanIntervalSeconds : Option ℕ
  enabled : Bool
  /-- The run whose findings are live. -/
  currentScanRunId : Option RunId
  /-- Consecutive jobs that ended exhausted. -/
  consecutiveFailures : ℕ
  lastScanAt : Option Timestamp
  lastScanStatus : Option RunStatus
  createdAt : Timestamp
  deriving DecidableEq, Repr

/-- A row of `scan_job`, the queue. -/
structure ScanJob where
  imageId : ImageId
  status : JobStatus
  /-- Higher first. -/
  priority : ℤ
  scheduledFor : Timestamp
  leaseUntil : Option Timestamp
  attempts : ℕ
  lastError : Option String
  deriving DecidableEq, Repr

/-- A row of `scan_run`: one attempt and its outcome. -/
structure ScanRun where
  imageId : ImageId
  scanJobId : Option JobId
  startedAt : Timestamp
  completedAt : Option Timestamp
  status : RunStatus
  digest : Option String
  trivyVersion : Option String
  trivyDbVersion : Option String
  scanFlagsHash : Option String
  error : Option String
  /-- The five columns `finding_count_<severity>`. -/
  findingCount : Severity → Option ℕ
  deriving DecidableEq

/-- The columns of `uq_package_nvt`. -/
structure PackageKey where
  name : String
  version : String
  type : String
  deriving DecidableEq, Repr

/-- A row of `cve`. -/
structure Cve where
  title : Option String
  description : Option String
  /-- The name of `maxSeverityRank`. -/
  maxSeverity : Severity
  /-- The worst rank over the current findings. -/
  maxSeverityRank : ℕ
  /-- How many images currently carry the CVE. -/
  affectedImageCount : ℕ
  publishedAt : Option Timestamp
  lastModifiedAt : Option Timestamp
  deriving DecidableEq, Repr

/-- The columns of `uq_finding_img_cve_pkg`. -/
structure FindingKey where
  imageId : ImageId
  cveId : CveId
  packageId : PackageId
  deriving DecidableEq, Repr

/-- The other columns of `finding`. -/
structure Finding where
  fixedVersion : Option String
  severity : Severity
  severityRank : ℕ
  firstSeenRunId : RunId
  lastSeenRunId : RunId
  deriving DecidableEq, Repr

/-- The whole database. -/
structure Db where
  image : Dict ImageId Image
  scanJob : Serial ScanJob
  scanRun : Serial ScanRun
  package : Surrogate PackageKey
  cve : Dict CveId Cve
  finding : Dict FindingKey Finding

namespace Db

/-- A finding is current iff its `last_seen_run_id` is its image's `current_scan_run_id`. -/
def IsCurrent (db : Db) (imageId : ImageId) (f : Finding) : Prop :=
  ∃ image, db.image.get? imageId = some image ∧ image.currentScanRunId = some f.lastSeenRunId

/-- Nothing has been scanned yet: images are registered (`db/seed.py`, or by hand) with no run
behind them. The queue may hold anything. -/
structure Unscanned (db : Db) : Prop where
  /-- No image points at a run. -/
  pointer : ∀ i image, db.image.get? i = some image → image.currentScanRunId = none
  /-- No run was recorded. -/
  scanRun : ∀ i, db.scanRun.get? i = none
  /-- No package is known. -/
  package : db.package = Surrogate.empty
  /-- No CVE is known. -/
  cve : db.cve = Dict.empty
  /-- No finding was written. -/
  finding : db.finding = Dict.empty

end Db

end ContainerScanner
