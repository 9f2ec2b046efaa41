import ContainerScanner.Scanner.Rollup
import ContainerScanner.Jobs.Queue
import ContainerScanner.Foundation.Locks
import ContainerScanner.Foundation.Machine

/-!
# Concurrent successes

Any number of `record_success` transactions at once, under READ COMMITTED. A statement reads the
rows committed when it starts and those its own transaction has written; a statement that writes
many rows takes them one by one, and waits where another open transaction has written or locked the
row. So a transaction is a list of rows still to be visited in each statement, and a step visits
one.

A row that is locked without being changed is written with the values it has, which no one else can
change until the transaction ends. Foreign keys take `KEY SHARE` locks, which conflict with none of
these updates, and are left out.

## Main definitions

* `Txn`, `Txn.view` — an open transaction, and the database as it sees it
* `Txn.advance`, `Txn.recompute` — its statements, row by row
* `State`, `Event`, `step` — transactions that begin, advance, commit and abort

## Main results

* `exclusive_step` — no two open transactions hold one row
-/

namespace ContainerScanner

open Foundation Persist

namespace Concurrency

abbrev TxnId : Type := ℕ

/-- What a lock is taken on. -/
inductive Row where
  | package (key : PackageKey)
  | cve (cveId : CveId)
  | finding (key : FindingKey)
  | image (imageId : ImageId)
  deriving DecidableEq

/-- The statement a transaction has come to, with the rows it has yet to visit. -/
inductive Phase where
  | opened
  | inserting
  | packages (rest : List PackageKey)
  | cves (rest : List (CveId × CveValues))
  | findings (rest : List (FindingKey × Finding))
  | pointing
  | recomputing
  /-- The rollup `UPDATE` has computed its values and chosen the rows that differ from them. -/
  | targets (sub : CveId → Rollup) (rest : List CveId)

/-- An open transaction. -/
structure Txn where
  imageId : ImageId
  /-- The ORM object, as loaded before the scan. -/
  image : Image
  job : Option JobId
  report : AcceptedReport
  metadata : RunMetadata
  phase : Phase
  affected : List CveId
  runId : RunId
  /-- The rows of the finding upsert. -/
  rows : List (FindingKey × Finding)
  -- the rows it has written, which are those it has locked
  package : Dict PackageKey PackageId
  cve : Dict CveId Cve
  finding : Dict FindingKey Finding
  imageRow : Dict ImageId Image

namespace Txn

def start (imageId : ImageId) (image : Image) (job : Option JobId) (report : AcceptedReport)
    (metadata : RunMetadata) : Txn where
  imageId := imageId
  image := image
  job := job
  report := report
  metadata := metadata
  phase := .opened
  affected := []
  runId := 0
  rows := []
  package := Dict.empty
  cve := Dict.empty
  finding := Dict.empty
  imageRow := Dict.empty

/-- The database as the transaction sees it. -/
def view (db : Db) (x : Txn) : Db :=
  { db with
    package := { db.package with ids := db.package.ids.override x.package }
    cve := db.cve.override x.cve
    finding := db.finding.override x.finding
    image := db.image.override x.imageRow }

def holds (x : Txn) : Row → Prop
  | .package key => key ∈ x.package.keys
  | .cve cveId => cveId ∈ x.cve.keys
  | .finding key => key ∈ x.finding.keys
  | .image imageId => imageId ∈ x.imageRow.keys

instance (x : Txn) (row : Row) : Decidable (x.holds row) :=
  match row with
  | .package key => inferInstanceAs (Decidable (key ∈ x.package.keys))
  | .cve cveId => inferInstanceAs (Decidable (cveId ∈ x.cve.keys))
  | .finding key => inferInstanceAs (Decidable (key ∈ x.finding.keys))
  | .image imageId => inferInstanceAs (Decidable (imageId ∈ x.imageRow.keys))

/-- The row the transaction may visit next. -/
def wants (x : Txn) (row : Row) : Prop :=
  match x.phase with
  | .packages (key :: _) => row = .package key
  | .cves ((cveId, _) :: _) => row = .cve cveId
  | .findings ((key, _) :: _) => row = .finding key
  | .pointing => row = .image x.imageId
  | .targets _ rest => ∃ c ∈ rest, row = .cve c
  | _ => False

instance (x : Txn) (row : Row) : Decidable (x.wants row) :=
  match x with
  | { phase := .packages (key :: _), .. } => inferInstanceAs (Decidable (row = .package key))
  | { phase := .cves ((cveId, _) :: _), .. } => inferInstanceAs (Decidable (row = .cve cveId))
  | { phase := .findings ((key, _) :: _), .. } => inferInstanceAs (Decidable (row = .finding key))
  | { phase := .pointing, imageId := i, .. } => inferInstanceAs (Decidable (row = .image i))
  | { phase := .targets _ rest, .. } => inferInstanceAs (Decidable (∃ c ∈ rest, row = .cve c))
  | { phase := .packages [], .. } | { phase := .cves [], .. } | { phase := .findings [], .. }
  | { phase := .opened, .. } | { phase := .inserting, .. } | { phase := .recomputing, .. } =>
    inferInstanceAs (Decidable False)

/-- The flush of the image: the columns in which the object differs from what was loaded. The run
is new, so the pointer always does. -/
def flushImage (x : Txn) (row : Image) : Image :=
  { row with
    currentScanRunId := some x.runId
    lastScanAt :=
      Queue.flushColumn x.image.lastScanAt (some x.metadata.completedAt) row.lastScanAt
    lastScanStatus := Queue.flushColumn x.image.lastScanStatus (some .success) row.lastScanStatus
    consecutiveFailures :=
      Queue.flushColumn x.image.consecutiveFailures 0 row.consecutiveFailures }

/-- The rows the rollup `UPDATE` selects: those that differ from what the subquery computes. -/
def selectTargets (db : Db) (cveIds : List CveId) : List CveId :=
  cveIds.dedup.filter fun c =>
    match db.cve.get? c with
    | none => false
    | some cve => rollupDiffers (rollupOf db c) cve

/-- The next thing a transaction does, where `blocked` says which rows others hold. Of the
committed database only the sequences change. -/
def advance (blocked : Row → Bool) (db : Db) (x : Txn) : Option (Db × Txn) :=
  match x.phase with
  | .opened =>
    some (db, { x with
      affected := affectedCves (x.view db) x.imageId x.image x.report.report
      phase := .inserting })
  | .inserting =>
    some ({ db with scanRun := db.scanRun.allocate }, { x with
      runId := db.scanRun.next
      phase := .packages (packageKeys x.report.report) })
  | .packages (key :: rest) =>
    if blocked (.package key) then none
    else
      some ({ db with package := { db.package with next := db.package.next + 1 } },
        match db.package.get? key with
        | some _ => { x with phase := .packages rest }
        | none =>
          { x with package := x.package.set key db.package.next, phase := .packages rest })
  | .packages [] =>
    some (db, { x with
      rows := findingRows x.imageId (packageIds (x.view db) x.report.report) x.runId
        x.report.report.findings
      phase := .cves (cveRows x.report.report.findings).entries })
  | .cves ((cveId, values) :: rest) =>
    if blocked (.cve cveId) then none
    else
      some (db, { x with
        cve := x.cve.set cveId (upsertCve values ((x.view db).cve.get? cveId))
        phase := .cves rest })
  | .cves [] => some (db, { x with phase := .findings x.rows })
  | .findings ((key, finding) :: rest) =>
    if blocked (.finding key) then none
    else
      some (db, { x with
        finding := x.finding.set key (upsertFinding finding ((x.view db).finding.get? key))
        phase := .findings rest })
  | .findings [] => some (db, { x with phase := .pointing })
  | .pointing =>
    if blocked (.image x.imageId) then none
    else
      ((x.view db).image.get? x.imageId).map fun row =>
        (db, { x with
          imageRow := x.imageRow.set x.imageId (x.flushImage row)
          phase := .recomputing })
  | .recomputing =>
    some (db, { x with
      phase := .targets (rollupOf (x.view db)) (selectTargets (x.view db) x.affected) })
  | .targets _ _ => none

/-- The rollup `UPDATE` takes one of its rows, in whatever order the plan has them: the newest
version is locked, checked again, and written with the values computed before. -/
def recompute (blocked : Row → Bool) (db : Db) (x : Txn) (c : CveId) : Option Txn :=
  match x.phase with
  | .targets sub rest =>
    if c ∉ rest ∨ blocked (.cve c) then none
    else
      ((x.view db).cve.get? c).map fun row =>
        { x with
          cve := x.cve.set c (applyRollup (sub c) row)
          phase := .targets sub (rest.erase c) }
  | _ => none

/-- The run, with its counts. -/
def run (x : Txn) : ScanRun :=
  withCounts (countBySeverity x.rows) (newRun x.imageId x.job .success x.metadata none)

/-- What a commit makes of the database. -/
def commit (db : Db) (x : Txn) : Db :=
  { x.view db with scanRun := db.scanRun.put x.runId x.run }

end Txn

structure State where
  /-- What is committed, and the sequences. -/
  db : Db
  txns : Dict TxnId Txn

/-- No transaction is open. -/
def State.start (db : Db) : State := ⟨db, Dict.empty⟩

/-- An open transaction has the row. -/
def State.holds (s : State) (t : TxnId) (row : Row) : Prop :=
  ∃ x, s.txns.get? t = some x ∧ x.holds row

/-- An open transaction may visit the row next. -/
def State.wants (s : State) (t : TxnId) (row : Row) : Prop :=
  ∃ x, s.txns.get? t = some x ∧ x.wants row

instance (s : State) (t : TxnId) (row : Row) : Decidable (s.holds t row) :=
  decidable_of_iff ((s.txns.get? t).any (fun x => decide (x.holds row)) = true)
    (by simp [State.holds, Option.any_eq_true])

instance (s : State) (t : TxnId) (row : Row) : Decidable (s.wants t row) :=
  decidable_of_iff ((s.txns.get? t).any (fun x => decide (x.wants row)) = true)
    (by simp [State.wants, Option.any_eq_true])

/-- Does another open transaction hold the row? -/
def State.blocked (s : State) (t : TxnId) (row : Row) : Bool :=
  s.txns.entries.any fun e => decide (e.1 ≠ t ∧ e.2.holds row)

inductive Event where
  | start (t : TxnId) (imageId : ImageId) (image : Image) (job : Option JobId)
      (report : AcceptedReport) (metadata : RunMetadata)
  | next (t : TxnId)
  | recompute (t : TxnId) (c : CveId)
  | commit (t : TxnId)
  | abort (t : TxnId)

/-- Has the rollup been through all its rows? -/
def Phase.isFinished : Phase → Bool
  | .targets _ [] => true
  | _ => false

def step (s : State) : Event → Option State
  | .start t imageId image job report metadata =>
    if (s.txns.get? t).isNone ∧ (s.db.image.get? imageId).isSome then
      some { s with txns := s.txns.set t (Txn.start imageId image job report metadata) }
    else none
  | .next t =>
    (s.txns.get? t).bind fun x =>
      (x.advance (s.blocked t) s.db).map fun (db, x) => ⟨db, s.txns.set t x⟩
  | .recompute t c =>
    (s.txns.get? t).bind fun x =>
      (x.recompute (s.blocked t) s.db c).map fun x => ⟨s.db, s.txns.set t x⟩
  | .commit t =>
    (s.txns.get? t).bind fun x =>
      if x.phase.isFinished then some ⟨x.commit s.db, s.txns.erase t⟩ else none
  | .abort t => (s.txns.get? t).map fun _ => ⟨s.db, s.txns.erase t⟩

variable {db db' : Db} {x x' : Txn} {s s' : State} {t u : TxnId} {blocked : Row → Bool}
  {row : Row} {c : CveId}

/-! ### What one step does -/

namespace Txn

/-- The steps of `advance`, one case a kind. -/
inductive Advances (blocked : Row → Bool) (db : Db) (x : Txn) : Db → Txn → Prop where
  | capture (hphase : x.phase = .opened) :
      Advances blocked db x db { x with
        affected := affectedCves (x.view db) x.imageId x.image x.report.report
        phase := .inserting }
  | insertRun (hphase : x.phase = .inserting) :
      Advances blocked db x { db with scanRun := db.scanRun.allocate } { x with
        runId := db.scanRun.next
        phase := .packages (packageKeys x.report.report) }
  | knownPackage {key : PackageKey} {rest : List PackageKey}
      (hphase : x.phase = .packages (key :: rest)) (hknown : (db.package.get? key).isSome) :
      Advances blocked db x { db with package := { db.package with next := db.package.next + 1 } }
        { x with phase := .packages rest }
  | newPackage {key : PackageKey} {rest : List PackageKey}
      (hphase : x.phase = .packages (key :: rest)) (hfree : blocked (.package key) = false)
      (hnew : db.package.get? key = none) :
      Advances blocked db x { db with package := { db.package with next := db.package.next + 1 } }
        { x with package := x.package.set key db.package.next, phase := .packages rest }
  | selectPackages (hphase : x.phase = .packages []) :
      Advances blocked db x db { x with
        rows := findingRows x.imageId (packageIds (x.view db) x.report.report) x.runId
          x.report.report.findings
        phase := .cves (cveRows x.report.report.findings).entries }
  | upsertCve {cveId : CveId} {values : CveValues} {rest : List (CveId × CveValues)}
      (hphase : x.phase = .cves ((cveId, values) :: rest)) (hfree : blocked (.cve cveId) = false) :
      Advances blocked db x db { x with
        cve := x.cve.set cveId (Persist.upsertCve values ((x.view db).cve.get? cveId))
        phase := .cves rest }
  | cvesDone (hphase : x.phase = .cves []) :
      Advances blocked db x db { x with phase := .findings x.rows }
  | upsertFinding {key : FindingKey} {finding : Finding} {rest : List (FindingKey × Finding)}
      (hphase : x.phase = .findings ((key, finding) :: rest))
      (hfree : blocked (.finding key) = false) :
      Advances blocked db x db { x with
        finding := x.finding.set key
          (Persist.upsertFinding finding ((x.view db).finding.get? key))
        phase := .findings rest }
  | findingsDone (hphase : x.phase = .findings []) :
      Advances blocked db x db { x with phase := .pointing }
  | point {row : Image} (hphase : x.phase = .pointing)
      (hfree : blocked (.image x.imageId) = false)
      (hrow : (x.view db).image.get? x.imageId = some row) :
      Advances blocked db x db { x with
        imageRow := x.imageRow.set x.imageId (x.flushImage row)
        phase := .recomputing }
  | select (hphase : x.phase = .recomputing) :
      Advances blocked db x db { x with
        phase := .targets (rollupOf (x.view db)) (selectTargets (x.view db) x.affected) }

theorem advances_of_advance (h : x.advance blocked db = some (db', x')) :
    Advances blocked db x db' x' := by
  unfold advance at h
  split at h
  · next hphase =>
    cases h
    exact .capture hphase
  · next hphase =>
    cases h
    exact .insertRun hphase
  · next key rest hphase =>
    obtain ⟨hfree, h⟩ := Option.ite_none_left_eq_some.mp h
    cases hknown : db.package.get? key with
    | some id =>
      rw [hknown] at h
      cases h
      exact .knownPackage hphase (by rw [hknown]; rfl)
    | none =>
      rw [hknown] at h
      cases h
      exact .newPackage hphase (Bool.eq_false_iff.mpr hfree) hknown
  · next hphase =>
    cases h
    exact .selectPackages hphase
  · next cveId values rest hphase =>
    obtain ⟨hfree, h⟩ := Option.ite_none_left_eq_some.mp h
    cases h
    exact .upsertCve hphase (Bool.eq_false_iff.mpr hfree)
  · next hphase =>
    cases h
    exact .cvesDone hphase
  · next key finding rest hphase =>
    obtain ⟨hfree, h⟩ := Option.ite_none_left_eq_some.mp h
    cases h
    exact .upsertFinding hphase (Bool.eq_false_iff.mpr hfree)
  · next hphase =>
    cases h
    exact .findingsDone hphase
  · next hphase =>
    obtain ⟨hfree, h⟩ := Option.ite_none_left_eq_some.mp h
    obtain ⟨row, hrow, heq⟩ := Option.map_eq_some_iff.mp h
    cases heq
    exact .point hphase (Bool.eq_false_iff.mpr hfree) hrow
  · next hphase =>
    cases h
    exact .select hphase
  · cases h

theorem of_recompute (h : x.recompute blocked db c = some x') :
    ∃ sub rest row, x.phase = .targets sub rest ∧ c ∈ rest ∧ blocked (.cve c) = false ∧
      (x.view db).cve.get? c = some row ∧
      x' = { x with
        cve := x.cve.set c (applyRollup (sub c) row), phase := .targets sub (rest.erase c) } := by
  unfold recompute at h
  split at h
  · next sub rest hphase =>
    obtain ⟨hfree, h⟩ := Option.ite_none_left_eq_some.mp h
    obtain ⟨row, hrow, heq⟩ := Option.map_eq_some_iff.mp h
    rw [not_or, not_not] at hfree
    exact ⟨sub, rest, row, hphase, hfree.1, Bool.eq_false_iff.mpr hfree.2, hrow, heq.symm⟩
  · cases h

/-- A step takes rows that are not blocked. -/
theorem Advances.holds (h : Advances blocked db x db' x') (hrow : x'.holds row) :
    x.holds row ∨ blocked row = false := by
  cases h with
  | newPackage _ hfree _ =>
    cases row with
    | package key =>
      rcases Dict.mem_keys_set.mp hrow with rfl | hold
      · exact Or.inr hfree
      · exact Or.inl hold
    | _ => exact Or.inl hrow
  | upsertCve _ hfree =>
    cases row with
    | cve c =>
      rcases Dict.mem_keys_set.mp hrow with rfl | hold
      · exact Or.inr hfree
      · exact Or.inl hold
    | _ => exact Or.inl hrow
  | upsertFinding _ hfree =>
    cases row with
    | finding key =>
      rcases Dict.mem_keys_set.mp hrow with rfl | hold
      · exact Or.inr hfree
      · exact Or.inl hold
    | _ => exact Or.inl hrow
  | point _ hfree _ =>
    cases row with
    | image i =>
      rcases Dict.mem_keys_set.mp hrow with rfl | hold
      · exact Or.inr hfree
      · exact Or.inl hold
    | _ => exact Or.inl hrow
  | _ => exact Or.inl hrow

theorem holds_of_recompute (h : x.recompute blocked db c = some x') (hrow : x'.holds row) :
    x.holds row ∨ blocked row = false := by
  obtain ⟨sub, rest, old, -, -, hfree, -, rfl⟩ := of_recompute h
  cases row with
  | cve c' =>
    rcases Dict.mem_keys_set.mp hrow with rfl | hold
    · exact Or.inr hfree
    · exact Or.inl hold
  | _ => exact Or.inl hrow

end Txn

theorem step_start {i : ImageId} {image : Image} {job : Option JobId} {report : AcceptedReport}
    {m : RunMetadata} (h : step s (.start t i image job report m) = some s') :
    s.txns.get? t = none ∧ (s.db.image.get? i).isSome ∧
      s' = ⟨s.db, s.txns.set t (Txn.start i image job report m)⟩ := by
  obtain ⟨⟨hnone, hsome⟩, heq⟩ := Option.ite_none_right_eq_some.mp h
  exact ⟨Option.isNone_iff_eq_none.mp hnone, hsome, (Option.some.inj heq).symm⟩

theorem step_next (h : step s (.next t) = some s') :
    ∃ x db' x', s.txns.get? t = some x ∧ x.Advances (s.blocked t) s.db db' x' ∧
      s' = ⟨db', s.txns.set t x'⟩ := by
  obtain ⟨x, hx, h⟩ := Option.bind_eq_some_iff.mp h
  obtain ⟨⟨db', x'⟩, hadv, heq⟩ := Option.map_eq_some_iff.mp h
  exact ⟨x, db', x', hx, Txn.advances_of_advance hadv, heq.symm⟩

theorem step_recompute (h : step s (.recompute t c) = some s') :
    ∃ x x', s.txns.get? t = some x ∧ x.recompute (s.blocked t) s.db c = some x' ∧
      s' = ⟨s.db, s.txns.set t x'⟩ := by
  obtain ⟨x, hx, h⟩ := Option.bind_eq_some_iff.mp h
  obtain ⟨x', hx', heq⟩ := Option.map_eq_some_iff.mp h
  exact ⟨x, x', hx, hx', heq.symm⟩

theorem step_commit (h : step s (.commit t) = some s') :
    ∃ x sub, s.txns.get? t = some x ∧ x.phase = .targets sub [] ∧
      s' = ⟨x.commit s.db, s.txns.erase t⟩ := by
  obtain ⟨x, hx, h⟩ := Option.bind_eq_some_iff.mp h
  obtain ⟨hfinished, heq⟩ := Option.ite_none_right_eq_some.mp h
  unfold Phase.isFinished at hfinished
  split at hfinished
  · next sub hphase => exact ⟨x, sub, hx, hphase, (Option.some.inj heq).symm⟩
  · cases hfinished

theorem step_abort (h : step s (.abort t) = some s') :
    ∃ x, s.txns.get? t = some x ∧ s' = ⟨s.db, s.txns.erase t⟩ := by
  obtain ⟨x, hx, heq⟩ := Option.map_eq_some_iff.mp h
  exact ⟨x, hx, heq.symm⟩

/-! ### Locks -/

theorem State.not_holds_of_not_blocked (h : s.blocked t row = false) (hne : u ≠ t) :
    ¬ s.holds u row := by
  rintro ⟨x, hx, hrow⟩
  rw [State.blocked, List.any_eq_false] at h
  exact h (u, x) (Dict.get?_eq_some_iff.mp hx) (decide_eq_true ⟨hne, hrow⟩)

/-- The transaction that took a step holds what it held, and rows no one else had. -/
theorem State.exclusive_set (hex : Locks.Exclusive s.holds)
    (hrows : ∀ row, x'.holds row → s.holds t row ∨ s.blocked t row = false) (db : Db) :
    Locks.Exclusive (State.holds ⟨db, s.txns.set t x'⟩) := by
  refine hex.grant (t := t) ?_
  rintro v row ⟨y, hy, hrow⟩
  rw [Dict.get?_set] at hy
  split at hy
  · next hv =>
    subst hv
    rw [← Option.some.inj hy] at hrow
    rcases hrows row hrow with hold | hfree
    · exact Or.inl hold
    · exact Or.inr ⟨rfl, fun w hw => State.not_holds_of_not_blocked hfree hw⟩
  · exact Or.inl ⟨y, hy, hrow⟩

theorem State.exclusive_erase (hex : Locks.Exclusive s.holds) (db : Db) (t : TxnId) :
    Locks.Exclusive (State.holds ⟨db, s.txns.erase t⟩) := by
  refine hex.release ?_
  rintro v row ⟨y, hy, hrow⟩
  rw [Dict.get?_erase] at hy
  split at hy
  · cases hy
  · exact ⟨y, hy, hrow⟩

theorem Txn.not_holds_start {i : ImageId} {image : Image} {job : Option JobId}
    {report : AcceptedReport} {m : RunMetadata} (row : Row) :
    ¬ (Txn.start i image job report m).holds row := by
  cases row <;> exact List.not_mem_nil

/-- **No two open transactions hold one row.** -/
theorem exclusive_step (hex : Locks.Exclusive s.holds) {e : Event} (h : step s e = some s') :
    Locks.Exclusive s'.holds := by
  cases e with
  | start t i image job report m =>
    obtain ⟨-, -, rfl⟩ := step_start h
    exact State.exclusive_set hex (fun row hrow => absurd hrow (Txn.not_holds_start row)) s.db
  | next t =>
    obtain ⟨x, db', x', hx, hadv, rfl⟩ := step_next h
    refine State.exclusive_set hex (fun row hrow => ?_) db'
    exact (hadv.holds hrow).imp_left fun hold => ⟨x, hx, hold⟩
  | recompute t c =>
    obtain ⟨x, x', hx, hrec, rfl⟩ := step_recompute h
    refine State.exclusive_set hex (fun row hrow => ?_) s.db
    exact (Txn.holds_of_recompute hrec hrow).imp_left fun hold => ⟨x, hx, hold⟩
  | commit t =>
    obtain ⟨x, sub, -, -, rfl⟩ := step_commit h
    exact State.exclusive_erase hex _ t
  | abort t =>
    obtain ⟨x, -, rfl⟩ := step_abort h
    exact State.exclusive_erase hex _ t

end Concurrency

end ContainerScanner
