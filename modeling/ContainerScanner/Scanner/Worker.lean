import ContainerScanner.Scanner.WellFormed
import ContainerScanner.Domain.Settings
import ContainerScanner.Foundation.Machine
import Mathlib.Data.Int.ConditionallyCompleteOrder

/-!
# One scan

`_execute` of `app/scanner/worker.py` with the probes of `app/scanner/trivy.py`, read by read: a
step is one thing the function learns from outside (a version, a digest, a report, the time) or one
transaction it commits. Jobs run one after another, each by some worker with some clock, so every
observation is an argument of its event. What happens to the job row is the queue's business.

## Main definitions

* `dbVersion`, `scanFlags` — what a probe reports
* `IsLastSuccessfulRun`, `isUnchanged` — the decision
* `State`, `Event`, `step` — the steps of `_execute`, and its failures

## Main results

* `step_cases` — everything a step can do
* `recorded_of_reaches` — every reachable database is that of a serial history
-/

namespace ContainerScanner

open Foundation Persist

/-- The four invariant fields. -/
structure Fingerprint where
  digest : Option String
  trivyVersion : Option String
  trivyDbVersion : Option String
  scanFlagsHash : Option String
  deriving DecidableEq, Repr

def ScanRun.fingerprint (run : ScanRun) : Fingerprint :=
  ⟨run.digest, run.trivyVersion, run.trivyDbVersion, run.scanFlagsHash⟩

def Persist.RunMetadata.fingerprint (metadata : RunMetadata) : Fingerprint :=
  ⟨metadata.digest, metadata.trivyVersion, metadata.trivyDbVersion, metadata.scanFlagsHash⟩

namespace Worker

/-! ### Probes -/

/-- `db/metadata.json` as a read of it goes. -/
inductive MetadataFile where
  /-- An `OSError` or a `JSONDecodeError`. -/
  | unreadable
  /-- What `str` makes of the two members, where they are truthy. -/
  | document (updatedAt version : Option String)
  deriving DecidableEq, Repr

def dbVersion : MetadataFile → String
  | .unreadable => "unknown"
  | .document updatedAt version => (updatedAt.or version).getD "unknown"

/-- Flags that affect the result of a scan. -/
def scanFlags (settings : Settings) : List String :=
  ["--format", "json", "--quiet", "--scanners", "vuln", "--image-src", "remote"] ++
    match settings.trivyServerUrl with
    | some url => ["--server", url]
    | none => ["--skip-db-update"]

/-! ### The decision -/

/-- The order of `completed_at DESC`, in which PostgreSQL puts nulls first. -/
def completedKey (run : ScanRun) : WithTop ℤ := run.completedAt.elim ⊤ fun t => (t : WithTop ℤ)

/-- The successful runs of an image. -/
def successes (db : Db) (imageId : ImageId) : List ScanRun :=
  (db.scanRun.rows.entries.map Prod.snd).filter fun run =>
    decide (run.imageId = imageId ∧ run.status = .success)

/-- May `_last_successful_run` return this? Of runs the `ORDER BY` leaves tied, any may come. -/
def IsLastSuccessfulRun (db : Db) (imageId : ImageId) : Option ScanRun → Prop
  | none => successes db imageId = []
  | some run => run ∈ successes db imageId ∧
      ∀ other ∈ successes db imageId, completedKey other ≤ completedKey run

instance (db : Db) (imageId : ImageId) (previous : Option ScanRun) :
    Decidable (IsLastSuccessfulRun db imageId previous) :=
  match previous with
  | none => inferInstanceAs (Decidable (_ = _))
  | some _ => inferInstanceAs (Decidable (_ ∧ _))

/-- The skip invariant. -/
def isUnchanged (previous : Option ScanRun) (digest trivyVersion dbVersion flagsHash : String) :
    Bool :=
  match previous with
  | none => false
  | some run =>
    decide (run.digest = some digest ∧ run.trivyVersion = some trivyVersion ∧
      run.trivyDbVersion = some dbVersion ∧ run.scanFlagsHash = some flagsHash)

/-! ### The steps -/

/-- What is known before the digest. -/
structure Probe where
  trivyVersion : String
  dbVersion : String
  flagsHash : String
  startedAt : Timestamp
  deriving DecidableEq, Repr

/-- `meta`, with the time at which it is called. -/
def Probe.metadata (probe : Probe) (digest : String) (now : Timestamp) : RunMetadata where
  digest := some digest
  trivyVersion := some probe.trivyVersion
  trivyDbVersion := some probe.dbVersion
  scanFlagsHash := some probe.flagsHash
  startedAt := probe.startedAt
  completedAt := now

/-- `report.digest or digest`. -/
def scannedDigest (report : ParsedReport) (digest : String) : String :=
  match report.digest with
  | some scanned => if scanned = "" then digest else scanned
  | none => digest

/-- How far `_execute` has come. -/
inductive Stage where
  | loaded
  | versioned (trivyVersion : String)
  | probed (trivyVersion dbVersion : String)
  | read (probe : Probe) (previous : Option ScanRun)
  | resolved (probe : Probe) (previous : Option ScanRun) (digest : String)
  | scanned (probe : Probe) (digest : String) (report : AcceptedReport)

/-- A job being executed. -/
structure Attempt where
  imageId : ImageId
  job : JobId
  /-- The ORM object, loaded first and not expired by the commit in between. -/
  image : Image
  stage : Stage

structure State where
  db : Db
  attempt : Option Attempt

inductive Event where
  /-- The job is claimed and its image loaded. -/
  | start (imageId : ImageId) (job : JobId)
  /-- `trivy --version`. -/
  | probeTrivy (trivyVersion : String)
  /-- `db_version`. -/
  | probeDb (dbVersion : String)
  /-- The flags, the clock and the previous run. -/
  | read (flagsHash : String) (startedAt : Timestamp) (previous : Option ScanRun)
  | resolve (digest : String)
  | skip (now : Timestamp)
  /-- Trivy runs, and `parse_report` accepts what it prints. -/
  | scan (report : AcceptedReport)
  | record (now : Timestamp)
  /-- An exception anywhere: `_record_failure`. -/
  | fail (startedAt completedAt : Timestamp) (error : String) (exhausted : Bool)
  /-- The job is deferred, or its worker dies. -/
  | release
  /-- The scheduler records the failure of a job whose worker died. -/
  | reap (imageId : ImageId) (job : JobId) (startedAt completedAt : Timestamp) (error : String)
      (exhausted : Bool)

/-- The metadata of a failed attempt. -/
def failedMetadata (startedAt completedAt : Timestamp) : RunMetadata :=
  ⟨none, none, none, none, startedAt, completedAt⟩

/-- A step of the job being executed. -/
def stepAttempt (db : Db) (a : Attempt) : Event → Option State
  | .probeTrivy trivyVersion =>
    match a.stage with
    | .loaded => some ⟨db, some { a with stage := .versioned trivyVersion }⟩
    | _ => none
  | .probeDb dbVersion =>
    match a.stage with
    | .versioned trivyVersion => some ⟨db, some { a with stage := .probed trivyVersion dbVersion }⟩
    | _ => none
  | .read flagsHash startedAt previous =>
    match a.stage with
    | .probed trivyVersion dbVersion =>
      if IsLastSuccessfulRun db a.imageId previous then
        some ⟨db, some { a with
          stage := .read ⟨trivyVersion, dbVersion, flagsHash, startedAt⟩ previous }⟩
      else none
    | _ => none
  | .resolve digest =>
    match a.stage with
    | .read probe previous => some ⟨db, some { a with stage := .resolved probe previous digest }⟩
    | _ => none
  | .skip now =>
    match a.stage with
    | .resolved probe previous digest =>
      if isUnchanged previous digest probe.trivyVersion probe.dbVersion probe.flagsHash then
        some ⟨recordSkip db a.imageId (some a.job) (probe.metadata digest now), none⟩
      else none
    | _ => none
  | .scan report =>
    match a.stage with
    | .resolved probe previous digest =>
      if isUnchanged previous digest probe.trivyVersion probe.dbVersion probe.flagsHash then none
      else some ⟨db, some { a with stage := .scanned probe digest report }⟩
    | _ => none
  | .record now =>
    match a.stage with
    | .scanned probe digest report =>
      -- what Trivy scanned, over what was resolved a moment earlier
      some ⟨recordSuccess db a.imageId a.image (some a.job) report.report
        (probe.metadata (scannedDigest report.report digest) now), none⟩
    | _ => none
  | .fail startedAt completedAt error exhausted =>
    some ⟨recordFailure db a.imageId (some a.job) (failedMetadata startedAt completedAt) error
      exhausted, none⟩
  | .release => some ⟨db, none⟩
  | _ => none

def step (s : State) : Event → Option State
  | .start imageId job =>
    match s.attempt with
    | none => (s.db.image.get? imageId).map fun image => ⟨s.db, some ⟨imageId, job, image, .loaded⟩⟩
    | some _ => none
  | .reap imageId job startedAt completedAt error exhausted =>
    if (s.db.image.get? imageId).isNone ∨ s.attempt.map Attempt.imageId = some imageId then none
    else some { s with
      db := recordFailure s.db imageId (some job) (failedMetadata startedAt completedAt) error
        exhausted }
  | event => s.attempt.bind fun a => stepAttempt s.db a event

/-- No job is being executed. -/
def State.start (db : Db) : State := ⟨db, none⟩

/-- The metadata of the success that the attempt would record. -/
def Attempt.success (a : Attempt) (now : Timestamp) : Option RunMetadata :=
  match a.stage with
  | .scanned probe digest report => some (probe.metadata (scannedDigest report.report digest) now)
  | _ => none

variable {s s' : State} {db db' : Db} {i j : ImageId} {a : Attempt} {e : Event} {now : Timestamp}

/-! ### Successful runs -/

theorem mem_successes {run : ScanRun} : run ∈ successes db i ↔
    ∃ r, db.scanRun.get? r = some run ∧ run.imageId = i ∧ run.status = .success := by
  simp only [successes, List.mem_filter, List.mem_map, decide_eq_true_eq, Prod.exists,
    exists_eq_right]
  constructor
  · rintro ⟨⟨r, hr⟩, himage, hstatus⟩
    exact ⟨r, Dict.get?_eq_some_iff.mpr hr, himage, hstatus⟩
  · rintro ⟨r, hr, himage, hstatus⟩
    exact ⟨⟨r, Dict.get?_eq_some_iff.mp hr⟩, himage, hstatus⟩

theorem isLastSuccessfulRun_congr (h : ∀ run, run ∈ successes db i ↔ run ∈ successes db' i)
    (previous : Option ScanRun) :
    IsLastSuccessfulRun db i previous ↔ IsLastSuccessfulRun db' i previous := by
  cases previous with
  | none =>
    show successes db i = [] ↔ successes db' i = []
    simp only [List.eq_nil_iff_forall_not_mem, h]
  | some run =>
    show (_ ∧ _) ↔ (_ ∧ _)
    simp only [h]

/-- A run that is not a success is not found. -/
theorem mem_successes_recordQuiet {run : ScanRun} (hrun : run.status ≠ .success) (i : ImageId)
    (f : Image → Image) (other : ScanRun) :
    other ∈ successes (recordQuiet db i run f) j ↔ other ∈ successes db j := by
  have hinsert : (recordQuiet db i run f).scanRun = db.scanRun.insert run := rfl
  rw [mem_successes, mem_successes, hinsert]
  constructor
  · rintro ⟨r, hr, himage, hstatus⟩
    rw [Serial.get?_insert] at hr
    split at hr
    · rw [← Option.some.inj hr] at hstatus
      exact absurd hstatus hrun
    · exact ⟨r, hr, himage, hstatus⟩
  · rintro ⟨r, hr, himage, hstatus⟩
    exact ⟨r, Serial.get?_insert_of_get? hr run, himage, hstatus⟩

/-- The run a success leaves in the table. -/
def successRun (db : Db) (i : ImageId) (job : Option JobId) (report : ParsedReport)
    (metadata : RunMetadata) : ScanRun :=
  withCounts (countBySeverity (writtenRows db i report)) (newRun i job .success metadata none)

theorem mem_successes_recordSuccess {image : Image} {job : Option JobId} {report : ParsedReport}
    {metadata : RunMetadata} (run : ScanRun) :
    run ∈ successes (recordSuccess db i image job report metadata) j ↔
      run ∈ successes db j ∨ j = i ∧ run = successRun db i job report metadata := by
  simp only [mem_successes, get?_scanRun_recordSuccess]
  constructor
  · rintro ⟨r, hr, himage, hstatus⟩
    split at hr
    · rw [← Option.some.inj hr] at himage
      exact Or.inr ⟨himage.symm, (Option.some.inj hr).symm⟩
    · exact Or.inl ⟨r, hr, himage, hstatus⟩
  · rintro (⟨r, hr, himage, hstatus⟩ | ⟨rfl, rfl⟩)
    · exact ⟨r, by rw [if_neg (Serial.lt_next hr).ne]; exact hr, himage, hstatus⟩
    · exact ⟨db.scanRun.next, by rw [if_pos rfl]; rfl, rfl, rfl⟩

theorem isUnchanged_eq_true {previous : Option ScanRun}
    {digest trivyVersion dbVersion flagsHash : String} :
    isUnchanged previous digest trivyVersion dbVersion flagsHash = true ↔
      ∃ run, previous = some run ∧
        run.fingerprint = ⟨some digest, some trivyVersion, some dbVersion, some flagsHash⟩ := by
  cases previous with
  | none => simp [isUnchanged]
  | some run => simp [isUnchanged, ScanRun.fingerprint]

/-! ### Attempts -/

/-- The previous run that the decision will use. -/
def Stage.previous : Stage → Option (Option ScanRun)
  | .read _ previous => some previous
  | .resolved _ previous _ => some previous
  | _ => none

/-- The digest resolved. -/
def Stage.digest : Stage → Option String
  | .resolved _ _ digest => some digest
  | .scanned _ digest _ => some digest
  | _ => none

/-- The image object is the row, and the previous run is the one that would be found now. -/
structure Attempt.Fresh (db : Db) (a : Attempt) : Prop where
  image : db.image.get? a.imageId = some a.image
  previous : ∀ previous, a.stage.previous = some previous →
    IsLastSuccessfulRun db a.imageId previous

/-! ### Event by event -/

theorem step_start {job : JobId} (h : step s (.start i job) = some s') :
    s.attempt = none ∧ ∃ image, s.db.image.get? i = some image ∧
      s' = ⟨s.db, some ⟨i, job, image, .loaded⟩⟩ := by
  simp only [step] at h
  split at h
  · next hidle =>
    obtain ⟨image, himage, rfl⟩ := Option.map_eq_some_iff.mp h
    exact ⟨hidle, image, himage, rfl⟩
  · cases h

theorem step_probeTrivy {trivyVersion : String} (h : step s (.probeTrivy trivyVersion) = some s') :
    ∃ a, s.attempt = some a ∧ a.stage = .loaded ∧
      s' = ⟨s.db, some { a with stage := .versioned trivyVersion }⟩ := by
  obtain ⟨a, ha, h⟩ := Option.bind_eq_some_iff.mp h
  simp only [stepAttempt] at h
  split at h
  · next hstage =>
    cases h
    exact ⟨a, ha, hstage, rfl⟩
  · cases h

theorem step_probeDb {dbVersion : String} (h : step s (.probeDb dbVersion) = some s') :
    ∃ a trivyVersion, s.attempt = some a ∧ a.stage = .versioned trivyVersion ∧
      s' = ⟨s.db, some { a with stage := .probed trivyVersion dbVersion }⟩ := by
  obtain ⟨a, ha, h⟩ := Option.bind_eq_some_iff.mp h
  simp only [stepAttempt] at h
  split at h
  · next trivyVersion hstage =>
    cases h
    exact ⟨a, trivyVersion, ha, hstage, rfl⟩
  · cases h

theorem step_read {flagsHash : String} {startedAt : Timestamp} {previous : Option ScanRun}
    (h : step s (.read flagsHash startedAt previous) = some s') :
    ∃ a trivyVersion dbVersion, s.attempt = some a ∧ a.stage = .probed trivyVersion dbVersion ∧
      IsLastSuccessfulRun s.db a.imageId previous ∧
      s' = ⟨s.db, some { a with
        stage := .read ⟨trivyVersion, dbVersion, flagsHash, startedAt⟩ previous }⟩ := by
  obtain ⟨a, ha, h⟩ := Option.bind_eq_some_iff.mp h
  simp only [stepAttempt] at h
  split at h
  · next trivyVersion dbVersion hstage =>
    split at h
    · next hlast =>
      cases h
      exact ⟨a, trivyVersion, dbVersion, ha, hstage, hlast, rfl⟩
    · cases h
  · cases h

theorem step_resolve {digest : String} (h : step s (.resolve digest) = some s') :
    ∃ a probe previous, s.attempt = some a ∧ a.stage = .read probe previous ∧
      s' = ⟨s.db, some { a with stage := .resolved probe previous digest }⟩ := by
  obtain ⟨a, ha, h⟩ := Option.bind_eq_some_iff.mp h
  simp only [stepAttempt] at h
  split at h
  · next probe previous hstage =>
    cases h
    exact ⟨a, probe, previous, ha, hstage, rfl⟩
  · cases h

/-- What a skip needs: the run found last has the four values just observed. -/
theorem step_skip (h : step s (.skip now) = some s') :
    ∃ a probe run digest, s.attempt = some a ∧ a.stage = .resolved probe (some run) digest ∧
      run.fingerprint = ⟨some digest, some probe.trivyVersion, some probe.dbVersion,
        some probe.flagsHash⟩ ∧
      s' = ⟨recordSkip s.db a.imageId (some a.job) (probe.metadata digest now), none⟩ := by
  obtain ⟨a, ha, h⟩ := Option.bind_eq_some_iff.mp h
  simp only [stepAttempt] at h
  split at h
  · next probe previous digest hstage =>
    split at h
    · next hunchanged =>
      obtain ⟨run, rfl, hfields⟩ := isUnchanged_eq_true.mp hunchanged
      cases h
      exact ⟨a, probe, run, digest, ha, hstage, hfields, rfl⟩
    · cases h
  · cases h

theorem step_scan {report : AcceptedReport} (h : step s (.scan report) = some s') :
    ∃ a probe previous digest, s.attempt = some a ∧ a.stage = .resolved probe previous digest ∧
      s' = ⟨s.db, some { a with stage := .scanned probe digest report }⟩ := by
  obtain ⟨a, ha, h⟩ := Option.bind_eq_some_iff.mp h
  simp only [stepAttempt] at h
  split at h
  · next probe previous digest hstage =>
    split at h
    · cases h
    · cases h
      exact ⟨a, probe, previous, digest, ha, hstage, rfl⟩
  · cases h

theorem step_record (h : step s (.record now) = some s') :
    ∃ a probe digest report, s.attempt = some a ∧ a.stage = .scanned probe digest report ∧
      s' = ⟨recordSuccess s.db a.imageId a.image (some a.job) report.report
        (probe.metadata (scannedDigest report.report digest) now), none⟩ := by
  obtain ⟨a, ha, h⟩ := Option.bind_eq_some_iff.mp h
  simp only [stepAttempt] at h
  split at h
  · next probe digest report hstage =>
    cases h
    exact ⟨a, probe, digest, report, ha, hstage, rfl⟩
  · cases h

theorem step_fail {startedAt completedAt : Timestamp} {error : String} {exhausted : Bool}
    (h : step s (.fail startedAt completedAt error exhausted) = some s') :
    ∃ a, s.attempt = some a ∧ s' = ⟨recordFailure s.db a.imageId (some a.job)
      (failedMetadata startedAt completedAt) error exhausted, none⟩ := by
  obtain ⟨a, ha, h⟩ := Option.bind_eq_some_iff.mp h
  cases h
  exact ⟨a, ha, rfl⟩

theorem step_release (h : step s .release = some s') : s' = ⟨s.db, none⟩ := by
  obtain ⟨a, -, h⟩ := Option.bind_eq_some_iff.mp h
  cases h
  rfl

theorem step_reap {job : JobId} {startedAt completedAt : Timestamp} {error : String}
    {exhausted : Bool} (h : step s (.reap i job startedAt completedAt error exhausted) = some s') :
    (∃ image, s.db.image.get? i = some image) ∧ (∀ a ∈ s.attempt, a.imageId ≠ i) ∧
      s' = ⟨recordFailure s.db i (some job) (failedMetadata startedAt completedAt) error exhausted,
        s.attempt⟩ := by
  simp only [step] at h
  split at h
  · cases h
  · next hnot =>
    obtain ⟨hexists, hother⟩ := not_or.mp hnot
    rw [Bool.not_eq_true, Option.isNone_eq_false_iff] at hexists
    cases h
    refine ⟨Option.isSome_iff_exists.mp hexists, ?_, rfl⟩
    rintro a ha rfl
    exact hother (congrArg (Option.map Attempt.imageId) ha)

/-! ### Everything a step can do -/

/-- It commits nothing, and what is left of an attempt is fresh. -/
structure Advances (s s' : State) : Prop where
  db : s'.db = s.db
  fresh : ∀ a ∈ s'.attempt, a.Fresh s.db

/-- It commits a call, and no attempt is left on the image of the call. -/
structure Commits (s : State) (call : Call) (s' : State) : Prop where
  db : s'.db = call.commit s.db
  fresh : ∀ a ∈ s'.attempt, a.Fresh s.db ∧ a.imageId ≠ call.imageId

theorem Attempt.Fresh.advances (h : a.Fresh s.db) {stage : Stage}
    (hprevious : ∀ previous, stage.previous = some previous →
      IsLastSuccessfulRun s.db a.imageId previous) :
    Advances s ⟨s.db, some { a with stage := stage }⟩ := by
  refine ⟨rfl, ?_⟩
  rintro a ⟨⟩
  exact ⟨h.image, hprevious⟩

/-- A success is committed by `record`, with the metadata of the attempt. -/
theorem step_cases (hfresh : ∀ a ∈ s.attempt, a.Fresh s.db) (h : step s e = some s') :
    Advances s s' ∨
    (∃ call, (∀ i job report metadata, call ≠ .success i job report metadata) ∧
      Commits s call s') ∨
    ∃ now a metadata report, e = .record now ∧ s.attempt = some a ∧
      a.success now = some metadata ∧
      Commits s (.success a.imageId (some a.job) report metadata) s' := by
  cases e with
  | start i job =>
    obtain ⟨-, image, himage, rfl⟩ := step_start h
    refine Or.inl ⟨rfl, ?_⟩
    rintro a ⟨⟩
    exact ⟨himage, fun _ hp => by cases hp⟩
  | probeTrivy trivyVersion =>
    obtain ⟨a, ha, -, rfl⟩ := step_probeTrivy h
    exact Or.inl ((hfresh a ha).advances fun _ hp => by cases hp)
  | probeDb dbVersion =>
    obtain ⟨a, _, ha, -, rfl⟩ := step_probeDb h
    exact Or.inl ((hfresh a ha).advances fun _ hp => by cases hp)
  | read flagsHash startedAt previous =>
    obtain ⟨a, _, _, ha, -, hlast, rfl⟩ := step_read h
    refine Or.inl ((hfresh a ha).advances ?_)
    rintro previous ⟨⟩
    exact hlast
  | resolve digest =>
    obtain ⟨a, probe, previous, ha, hstage, rfl⟩ := step_resolve h
    refine Or.inl ((hfresh a ha).advances ?_)
    rintro previous ⟨⟩
    exact (hfresh a ha).previous previous (by rw [hstage]; rfl)
  | skip now =>
    obtain ⟨a, probe, run, digest, ha, -, -, rfl⟩ := step_skip h
    refine Or.inr (Or.inl ⟨.skip a.imageId (some a.job) (probe.metadata digest now), ?_, ?_, ?_⟩)
    · rintro _ _ _ _ ⟨⟩
    · simp only [Call.commit, Call.imageId, (hfresh a ha).image]
    · rintro _ ⟨⟩
  | scan report =>
    obtain ⟨a, _, _, _, ha, -, rfl⟩ := step_scan h
    exact Or.inl ((hfresh a ha).advances fun _ hp => by cases hp)
  | record now =>
    obtain ⟨a, probe, digest, report, ha, hstage, rfl⟩ := step_record h
    refine Or.inr (Or.inr ⟨now, a, _, report, rfl, ha, by rw [Attempt.success, hstage], ?_, ?_⟩)
    · simp only [Call.commit, Call.imageId, (hfresh a ha).image]
    · rintro _ ⟨⟩
  | fail startedAt completedAt error exhausted =>
    obtain ⟨a, ha, rfl⟩ := step_fail h
    refine Or.inr (Or.inl ⟨.failure a.imageId (some a.job) (failedMetadata startedAt completedAt)
      error exhausted, ?_, ?_, ?_⟩)
    · rintro _ _ _ _ ⟨⟩
    · simp only [Call.commit, Call.imageId, (hfresh a ha).image]
    · rintro _ ⟨⟩
  | release =>
    obtain rfl := step_release h
    refine Or.inl ⟨rfl, ?_⟩
    rintro _ ⟨⟩
  | reap i job startedAt completedAt error exhausted =>
    obtain ⟨⟨image, himage⟩, hother, rfl⟩ := step_reap h
    refine Or.inr (Or.inl ⟨.failure i (some job) (failedMetadata startedAt completedAt) error
      exhausted, ?_, ?_, fun a ha => ⟨hfresh a ha, hother a ha⟩⟩)
    · rintro _ _ _ _ ⟨⟩
    · simp only [Call.commit, Call.imageId, himage]

/-! ### Other images -/

theorem get?_image_commit_of_ne {call : Call} (hj : j ≠ call.imageId) :
    (call.commit db).image.get? j = db.image.get? j := by
  rcases Call.commit_cases db call with ⟨-, heq⟩ | ⟨i, image, job, report, m, rfl, hi, heq⟩ |
    ⟨image, run, f, -, -, -, -, -, -, heq⟩
  · rw [heq]
  · have hji : j ≠ i := hj
    rw [heq, get?_image_recordSuccess hi, if_neg hji]
  · have himage : (recordQuiet db call.imageId run f).image = db.image.update call.imageId f := rfl
    rw [heq, himage, Dict.get?_update, if_neg hj]

/-- A call changes the successes of its own image only. -/
theorem mem_successes_commit_of_ne {call : Call} (hj : j ≠ call.imageId) (run : ScanRun) :
    run ∈ successes db j ↔ run ∈ successes (call.commit db) j := by
  rcases Call.commit_cases db call with ⟨-, heq⟩ | ⟨i, image, job, report, m, rfl, hi, heq⟩ |
    ⟨image, run', f, -, -, -, -, hstatus, -, heq⟩
  · rw [heq]
  · rw [heq, mem_successes_recordSuccess, or_iff_left]
    exact fun h => hj h.1
  · rw [heq, mem_successes_recordQuiet hstatus]

theorem Attempt.Fresh.commit_of_ne (h : a.Fresh db) {call : Call} (hne : a.imageId ≠ call.imageId) :
    a.Fresh (call.commit db) where
  image := (get?_image_commit_of_ne hne).trans h.image
  previous := fun previous hp =>
    (isLastSuccessfulRun_congr (mem_successes_commit_of_ne hne) previous).mp
      (h.previous previous hp)

/-! ### Runs -/

/-- The database is that of a serial history, and the attempt still knows what it read. -/
structure Recorded (db₀ : Db) (s : State) : Prop where
  calls : ∃ calls, s.db = runCalls db₀ calls
  fresh : ∀ a ∈ s.attempt, a.Fresh s.db

theorem Recorded.commits {db₀ : Db} (hs : Recorded db₀ s) {call : Call} (h : Commits s call s') :
    Recorded db₀ s' := by
  obtain ⟨history, hhistory⟩ := hs.calls
  refine ⟨⟨history ++ [call], ?_⟩, fun a ha => ?_⟩
  · rw [h.db, hhistory, runCalls_concat]
  · rw [h.db]
    exact (h.fresh a ha).1.commit_of_ne (h.fresh a ha).2

theorem Recorded.step {db₀ : Db} (hs : Recorded db₀ s) (h : Worker.step s e = some s') :
    Recorded db₀ s' := by
  obtain hadvances | ⟨call, -, hcommits⟩ | ⟨_, _, _, _, -, -, -, hcommits⟩ := step_cases hs.fresh h
  · refine ⟨?_, ?_⟩
    · rw [hadvances.db]
      exact hs.calls
    · rw [hadvances.db]
      exact hadvances.fresh
  · exact hs.commits hcommits
  · exact hs.commits hcommits

/-- **Every reachable database is that of a serial history.** -/
theorem recorded_of_reaches {P : State → Event → Prop} (hrun : Reaches step P (State.start db) s) :
    Recorded db s := by
  refine hrun.invariant (fun _ _ _ hs _ h => hs.step h) ⟨⟨[], rfl⟩, ?_⟩
  rintro a ⟨⟩

end Worker

end ContainerScanner
