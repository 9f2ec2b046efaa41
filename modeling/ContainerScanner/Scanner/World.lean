import ContainerScanner.Scanner.Skip
import ContainerScanner.Scanner.History

/-!
# Scans and what they depend on

`_execute` in a world where tags move, Trivy is upgraded and its database refreshed between any two
of its steps. What Trivy reports is a function of the digest, its version, the database and the
flags at the moment it runs; the worker sees a digest, a version and whatever
`db/metadata.json` gives it, each at a moment of its own.

Upgrades and refreshes are counted, so that a version or the contents of the database never come
back. What the probe and the scan of an attempt really met is recorded beside the state, and read
by no step.

## Main definitions

* `currentAt`, `FindingsAre` — the current findings of an image
* `World`, `Env`, `advance` — the worker and its environment
* `Transparent` — a step on which no placeholder hides a refresh, and stamps follow commits

## Main results

* `skip_sound` — in a run of such steps, a skip leaves the findings a scan would produce
-/

namespace ContainerScanner

open Foundation

namespace Persist

variable {db : Db} {i j : ImageId} {image : Image} {job : Option JobId} {m : RunMetadata}
  {key : CveId × PackageKey}

/-! ### Current findings -/

/-- The current finding of an image for a CVE and a package: the fixed version and the severity. -/
def currentAt (db : Db) (i : ImageId) (key : CveId × PackageKey) :
    Option (Option String × Severity) :=
  (db.image.get? i).bind fun image => (rowAt db i key).bind fun f =>
    if image.currentScanRunId = some f.lastSeenRunId then some (f.fixedVersion, f.severity)
    else none

/-- The current findings are those of the report. -/
def FindingsAre (db : Db) (i : ImageId) (report : ParsedReport) : Prop :=
  ∀ key, currentAt db i key =
    (report.findKey? key).map fun g => (g.fixedVersion, g.severity)

/-- **A success makes the findings of its report current**, and no other. -/
theorem findingsAre_recordSuccess (hdb : WellFormed db) (hi : db.image.get? i = some image)
    (report : AcceptedReport) :
    FindingsAre (recordSuccess db i image job report.report m) i report.report := by
  intro key
  rw [currentAt, get?_image_recordSuccess hi, if_pos rfl, Option.bind_some,
    rowAt_recordSuccess hdb]
  cases report.report.findKey? key with
  | some g =>
    rw [Option.bind_some, lastSeenRunId_upsertFinding, fixedVersion_upsertFinding,
      severity_upsertFinding]
    exact if_pos rfl
  | none =>
    show (rowAt db i key).bind _ = none
    rw [Option.bind_eq_none_iff]
    intro f hf
    obtain ⟨p, -, hrow⟩ := rowAt_eq_some.mp hf
    refine if_neg fun heq => ?_
    -- the row was last seen by an older run
    have hlt := hdb.lastSeen_lt hrow
    rw [← Option.some.inj heq] at hlt
    exact Nat.lt_irrefl _ hlt

theorem currentAt_recordSuccess_of_ne (hdb : WellFormed db) (hi : db.image.get? i = some image)
    (report : ParsedReport) (hj : j ≠ i) :
    currentAt (recordSuccess db i image job report m) j key = currentAt db j key := by
  rw [currentAt, get?_image_recordSuccess hi, if_neg hj, rowAt_recordSuccess_of_ne hdb report hj,
    currentAt]

/-- A quiet run leaves the current findings alone. -/
theorem currentAt_recordQuiet {f : Image → Image} (hf : Quiet f) (run : ScanRun) :
    currentAt (recordQuiet db i run f) j key = currentAt db j key := by
  have hsame := currentScanRunId_recordQuiet hf db i run j
  have hrow : rowAt (recordQuiet db i run f) j key = rowAt db j key := rfl
  rw [currentAt, currentAt, hrow]
  cases hold : db.image.get? j with
  | none =>
    rw [hold, Option.map_none, Option.map_eq_none_iff] at hsame
    rw [hsame]
  | some old =>
    rw [hold] at hsame
    obtain ⟨new, hnew, hpointer⟩ := Option.map_eq_some_iff.mp hsame
    rw [hnew, Option.bind_some, Option.bind_some, hpointer]

end Persist

namespace Worker

open Persist

/-! ### The world -/

/-- A digest as a registry names it. -/
abbrev Digest : Type := {s : String // s ≠ ""}

/-- What is fixed: the names of Trivy's versions and of the database's contents, by the number of
upgrades and refreshes before them, and what a scan reports. -/
structure World where
  version : ℕ → String
  version_injective : Function.Injective version
  updatedAt : ℕ → String
  updatedAt_injective : Function.Injective updatedAt
  flagsHash : List String → String
  scan : Digest → ℕ → ℕ → List String → AcceptedReport
  /-- A report carries the digest actually scanned. -/
  scan_digest : ∀ digest trivy contents flags,
    (scan digest trivy contents flags).report.digest = some digest.1

/-- Does the file name the database by its `UpdatedAt`? -/
def MetadataFile.named : MetadataFile → Bool
  | .document (some _) _ => true
  | _ => false

/-- If it does, the name is right. -/
def MetadataFile.Honest (world : World) (contents : ℕ) : MetadataFile → Prop
  | .document (some updatedAt) _ => updatedAt = world.updatedAt contents
  | .document none _ => True
  | .unreadable => True

instance (world : World) (contents : ℕ) (file : MetadataFile) :
    Decidable (file.Honest world contents) :=
  match file with
  | .document (some updatedAt) _ =>
    inferInstanceAs (Decidable (updatedAt = world.updatedAt contents))
  | .document none _ => isTrue trivial
  | .unreadable => isTrue trivial

/-- What may change under a worker. -/
structure Env (world : World) where
  tag : ImageId → Digest
  /-- How often Trivy was upgraded. -/
  trivy : ℕ
  /-- How often the database was refreshed. -/
  contents : ℕ
  file : MetadataFile
  honest : file.Honest world contents

inductive Change where
  | moveTag (imageId : ImageId) (digest : Digest)
  | upgrade
  /-- The database is replaced, and with it the file. -/
  | refresh (file : MetadataFile)
  /-- The file goes missing, is damaged, or comes back. -/
  | rewrite (file : MetadataFile)

variable {world : World}

def Env.change (env : Env world) : Change → Option (Env world)
  | .moveTag imageId digest => some { env with tag := Function.update env.tag imageId digest }
  | .upgrade => some { env with trivy := env.trivy + 1 }
  | .refresh file =>
    if h : file.Honest world (env.contents + 1) then
      some { env with contents := env.contents + 1, file := file, honest := h }
    else none
  | .rewrite file =>
    if h : file.Honest world env.contents then some { env with file := file, honest := h } else none

/-- What the worker does next; what it observes is up to the environment. -/
inductive Action where
  | start (imageId : ImageId) (job : JobId)
  | probeTrivy
  | probeDb
  | read (startedAt : Timestamp) (previous : Option ScanRun)
  | resolve
  | skip (now : Timestamp)
  | scan
  | record (now : Timestamp)
  | fail (startedAt completedAt : Timestamp) (error : String) (exhausted : Bool)
  | release
  | reap (imageId : ImageId) (job : JobId) (startedAt completedAt : Timestamp) (error : String)
      (exhausted : Bool)

/-- The event an action is, for the image being scanned. -/
def Action.event (settings : Settings) (env : Env world) (imageId : ImageId) : Action → Event
  | start imageId job => .start imageId job
  | probeTrivy => .probeTrivy (world.version env.trivy)
  | probeDb => .probeDb (dbVersion env.file)
  | read startedAt previous => .read (world.flagsHash (scanFlags settings)) startedAt previous
  | resolve => .resolve (env.tag imageId).1
  | skip now => .skip now
  | scan => .scan (world.scan (env.tag imageId) env.trivy env.contents (scanFlags settings))
  | record now => .record now
  | fail startedAt completedAt error exhausted => .fail startedAt completedAt error exhausted
  | release => .release
  | reap imageId job startedAt completedAt error exhausted =>
    .reap imageId job startedAt completedAt error exhausted

/-- What the probe of an attempt met. -/
structure Probed where
  trivy : ℕ
  contents : ℕ
  named : Bool
  deriving DecidableEq

/-- What the scan of an attempt met. -/
structure Ran where
  digest : Digest
  trivy : ℕ
  contents : ℕ
  deriving DecidableEq

structure Scene (world : World) where
  worker : State
  env : Env world
  probed : Probed
  ran : Option Ran
  /-- What the probe and the scan of an image's last success met. -/
  origin : ImageId → Option (Probed × Ran)

def Scene.start (db : Db) (env : Env world) : Scene world where
  worker := State.start db
  env := env
  probed := ⟨0, 0, false⟩
  ran := none
  origin := fun _ => none

/-- The image being scanned. -/
def Scene.imageId (s : Scene world) : ImageId := (s.worker.attempt.map Attempt.imageId).getD 0

def Scene.probedAfter (s : Scene world) : Action → Probed
  | .probeTrivy => { s.probed with trivy := s.env.trivy }
  | .probeDb => { s.probed with contents := s.env.contents, named := s.env.file.named }
  | _ => s.probed

def Scene.ranAfter (s : Scene world) : Action → Option Ran
  | .scan => some ⟨s.env.tag s.imageId, s.env.trivy, s.env.contents⟩
  | _ => s.ran

def Scene.originAfter (s : Scene world) : Action → ImageId → Option (Probed × Ran)
  | .record _ => Function.update s.origin s.imageId (s.ran.map fun ran => (s.probed, ran))
  | _ => s.origin

inductive Happening where
  | change (change : Change)
  | act (action : Action)

def advance (settings : Settings) (s : Scene world) : Happening → Option (Scene world)
  | .change change => (s.env.change change).map fun env => { s with env := env }
  | .act action =>
    (step s.worker (action.event settings s.env s.imageId)).map fun worker =>
      { worker := worker
        env := s.env
        probed := s.probedAfter action
        ran := s.ranAfter action
        origin := s.originAfter action }

/-- The four fields of the run an image points at. -/
def liveFingerprint (db : Db) (i : ImageId) : Option Fingerprint :=
  (db.image.get? i).bind fun image => image.currentScanRunId.bind fun r =>
    (db.scanRun.get? r).map ScanRun.fingerprint

/-- A probe that finds the version recorded with the live findings, and that on one of the two
sides is not an `UpdatedAt`, finds the database those findings were made with. -/
def NoHiddenRefresh (s : Scene world) : Prop :=
  ∀ o ∈ s.origin s.imageId, ∀ fields ∈ liveFingerprint s.worker.db s.imageId,
    fields.trivyDbVersion = some (dbVersion s.env.file) →
      s.env.file.named = true ∧ o.1.named = true ∨ o.2.contents = s.env.contents

/-- No placeholder hides a refresh, and stamps follow commits. -/
def Transparent (settings : Settings) (s : Scene world) : Happening → Prop
  | .change _ => True
  | .act .probeDb => NoHiddenRefresh s
  | .act action => Stamped s.worker (action.event settings s.env s.imageId)

instance (settings : Settings) (s : Scene world) (h : Happening) :
    Decidable (Transparent settings s h) :=
  match h with
  | .change _ => isTrue trivial
  | .act .probeDb => inferInstanceAs (Decidable (∀ o ∈ s.origin s.imageId,
      ∀ fields ∈ liveFingerprint s.worker.db s.imageId,
        fields.trivyDbVersion = some (dbVersion s.env.file) →
          s.env.file.named = true ∧ o.1.named = true ∨ o.2.contents = s.env.contents))
  | .act (.start _ _) => isTrue trivial
  | .act .probeTrivy => isTrue trivial
  | .act (.read _ _) => isTrue trivial
  | .act .resolve => isTrue trivial
  | .act (.skip _) => isTrue trivial
  | .act .scan => isTrue trivial
  | .act (.record now) => inferInstanceAs (Decidable (Stamped s.worker (.record now)))
  | .act (.fail _ _ _ _) => isTrue trivial
  | .act .release => isTrue trivial
  | .act (.reap _ _ _ _ _ _) => isTrue trivial

/-- The time a worker reads to stamp a run. -/
def Happening.stamp : Happening → Option Timestamp
  | .act (.skip now) => some now
  | .act (.record now) => some now
  | .act (.fail _ completedAt _ _) => some completedAt
  | _ => none

/-- The worker's clock has not gone back. -/
def ClockForward (s : Scene world) (h : Happening) : Prop :=
  ∀ now ∈ h.stamp, ∀ e ∈ s.worker.db.scanRun.rows.entries,
    completedKey e.2 ≤ (now : WithTop ℤ)

instance (s : Scene world) (h : Happening) : Decidable (ClockForward s h) :=
  inferInstanceAs (Decidable (∀ now ∈ h.stamp, ∀ e ∈ s.worker.db.scanRun.rows.entries,
    completedKey e.2 ≤ (now : WithTop ℤ)))

variable {settings : Settings} {db : Db} {i j : ImageId} {w w' : State} {s s' : Scene world}
  {e : Event} {action : Action} {fields : Fingerprint}

/-! ### The live run through a commit -/

theorem live_iff : LiveRun db i fields ↔ liveFingerprint db i = some fields := by
  simp only [LiveRun, liveFingerprint, Option.bind_eq_some_iff, Option.map_eq_some_iff]
  constructor
  · rintro ⟨image, r, run, himage, hpointer, hr, hfields⟩
    exact ⟨image, himage, r, hpointer, run, hr, hfields⟩
  · rintro ⟨image, himage, r, hpointer, run, hr, hfields⟩
    exact ⟨image, r, run, himage, hpointer, hr, hfields⟩

theorem live_of_recordQuiet (hdb : WellFormed db) {f : Image → Image} (hf : Quiet f)
    {run : ScanRun} (h : LiveRun (recordQuiet db i run f) j fields) : LiveRun db j fields := by
  obtain ⟨image, r, run', himage, hpointer, hr, hfields⟩ := h
  have hsame := currentScanRunId_recordQuiet hf db i run j
  rw [himage] at hsame
  obtain ⟨old, hold, hcur⟩ := Option.map_eq_some_iff.mp hsame.symm
  -- the pointer is older than the new run
  have hne : r ≠ db.scanRun.next := (hdb.pointer_lt hold (hcur.trans hpointer)).ne
  have hinsert : (recordQuiet db i run f).scanRun = db.scanRun.insert run := rfl
  rw [hinsert, Serial.get?_insert_of_ne _ hne] at hr
  exact ⟨old, r, run', hold, hcur.trans hpointer, hr, hfields⟩

theorem live_recordSuccess_cases (hdb : WellFormed db) {image : Image}
    (hi : db.image.get? i = some image) {job : Option JobId} {report : ParsedReport}
    {m : RunMetadata} (h : LiveRun (recordSuccess db i image job report m) j fields) :
    j = i ∧ fields = m.fingerprint ∨ j ≠ i ∧ LiveRun db j fields := by
  obtain ⟨image', r, run, himage, hpointer, hr, hfields⟩ := h
  rw [get?_image_recordSuccess hi] at himage
  rw [get?_scanRun_recordSuccess] at hr
  by_cases hj : j = i
  · rw [if_pos hj] at himage
    rw [← Option.some.inj himage] at hpointer
    rw [if_pos (Option.some.inj hpointer).symm] at hr
    rw [← Option.some.inj hr] at hfields
    exact Or.inl ⟨hj, hfields.symm⟩
  · rw [if_neg hj] at himage
    rw [if_neg (hdb.pointer_lt himage hpointer).ne] at hr
    exact Or.inr ⟨hj, image', r, run, himage, hpointer, hr, hfields⟩

/-- A step that records no success moves no live run and no current finding. -/
structure Still (db db' : Db) : Prop where
  live : ∀ i fields, LiveRun db' i fields → LiveRun db i fields
  current : ∀ i key, currentAt db' i key = currentAt db i key

theorem Recorded.wellFormed {db₀ : Db} (hdb : db₀.Unscanned) (h : Recorded db₀ w) :
    WellFormed w.db := by
  obtain ⟨calls, hcalls⟩ := h.calls
  rw [hcalls]
  exact wellFormed_runCalls (wellFormed_of_unscanned hdb) calls

theorem still_of_step {db₀ : Db} (hdb : db₀.Unscanned) (hw : Recorded db₀ w)
    (h : step w e = some w') (he : ∀ now, e ≠ .record now) : Still w.db w'.db := by
  obtain hadvances | ⟨call, hquiet, hcommits⟩ | ⟨now, _, _, _, heq, -⟩ := step_cases hw.fresh h
  · rw [hadvances.db]
    exact ⟨fun _ _ h => h, fun _ _ => rfl⟩
  · rw [hcommits.db]
    rcases Call.commit_cases w.db call with ⟨-, heq⟩ | ⟨i, image, job, report, m, hcall, -⟩ |
      ⟨image, run, f, -, -, hf, -, -, -, heq⟩
    · rw [heq]
      exact ⟨fun _ _ h => h, fun _ _ => rfl⟩
    · exact absurd hcall (hquiet i job report m)
    · rw [heq]
      exact ⟨fun _ _ h => live_of_recordQuiet (hw.wellFormed hdb) hf h,
        fun _ _ => currentAt_recordQuiet hf run⟩
  · exact absurd heq (he now)

/-! ### The invariant -/

/-- The version a probe gave is that of the Trivy it met, which the last scan preceded. -/
structure VersionFits (s : Scene world) (i : ImageId) (trivyVersion : String) : Prop where
  name : trivyVersion = world.version s.probed.trivy
  after : ∀ o ∈ s.origin i, o.2.trivy ≤ s.probed.trivy

/-- The same of the database, as far as the file named it. -/
structure DbFits (s : Scene world) (i : ImageId) (dbVersion : String) : Prop where
  name : s.probed.named = true → dbVersion = world.updatedAt s.probed.contents
  after : ∀ o ∈ s.origin i, o.2.contents ≤ s.probed.contents
  hidden : ∀ o ∈ s.origin i, ∀ fields, LiveRun s.worker.db i fields →
    fields.trivyDbVersion = some dbVersion →
      s.probed.named = true ∧ o.1.named = true ∨ o.2.contents = s.probed.contents

structure ProbeFits (s : Scene world) (i : ImageId) (probe : Probe) : Prop where
  version : VersionFits s i probe.trivyVersion
  db : DbFits s i probe.dbVersion

/-- What the attempt knows, it observed. -/
def Fits (settings : Settings) (s : Scene world) (i : ImageId) : Stage → Prop
  | .loaded => True
  | .versioned trivyVersion => VersionFits s i trivyVersion
  | .probed trivyVersion dbVersion => VersionFits s i trivyVersion ∧ DbFits s i dbVersion
  | .read probe _ => ProbeFits s i probe
  | .resolved probe _ digest => ProbeFits s i probe ∧ ∃ d : Digest, digest = d.1
  | .scanned probe _ report => ProbeFits s i probe ∧ ∃ ran ∈ s.ran,
      report = world.scan ran.digest ran.trivy ran.contents (scanFlags settings) ∧
      s.probed.trivy ≤ ran.trivy ∧ s.probed.contents ≤ ran.contents

/-- The live run of an image was recorded for what its origin says, and its findings are still
those of that scan. -/
structure OriginFits (settings : Settings) (s : Scene world) (i : ImageId) (fields : Fingerprint)
    (o : Probed × Ran) : Prop where
  digest : fields.digest = some o.2.digest.1
  version : fields.trivyVersion = some (world.version o.1.trivy)
  name : o.1.named = true → fields.trivyDbVersion = some (world.updatedAt o.1.contents)
  trivy : o.1.trivy ≤ o.2.trivy
  contents : o.1.contents ≤ o.2.contents
  findings : FindingsAre s.worker.db i
    (world.scan o.2.digest o.2.trivy o.2.contents (scanFlags settings)).report

/-- The invariant of a transparent run. -/
structure Accurate (settings : Settings) (db₀ : Db) (s : Scene world) : Prop where
  recorded : Recorded db₀ s.worker
  agrees : PointerAgrees s.worker.db
  probed : s.probed.trivy ≤ s.env.trivy ∧ s.probed.contents ≤ s.env.contents
  ran : ∀ ran ∈ s.ran, ran.trivy ≤ s.env.trivy ∧ ran.contents ≤ s.env.contents
  past : ∀ i, ∀ o ∈ s.origin i, o.2.trivy ≤ s.env.trivy ∧ o.2.contents ≤ s.env.contents
  fits : ∀ a ∈ s.worker.attempt, Fits settings s a.imageId a.stage
  origin : ∀ i fields, LiveRun s.worker.db i fields →
    ∃ o ∈ s.origin i, OriginFits settings s i fields o

theorem accurate_start (settings : Settings) (hdb : db.Unscanned) (env : Env world) :
    Accurate settings db (Scene.start db env) where
  recorded := recorded_of_reaches (Reaches.refl (P := Stamped) _)
  agrees := pointerAgrees_of_unscanned hdb
  probed := ⟨Nat.zero_le _, Nat.zero_le _⟩
  ran := by rintro _ ⟨⟩
  past := by rintro _ _ ⟨⟩
  fits := by rintro _ ⟨⟩
  origin := by
    rintro i fields ⟨image, r, run, himage, hpointer, -⟩
    rw [hdb.pointer i image himage] at hpointer
    cases hpointer

/-! ### Steps -/

theorem Env.change_le {env env' : Env world} {change : Change}
    (h : env.change change = some env') :
    env.trivy ≤ env'.trivy ∧ env.contents ≤ env'.contents := by
  cases change with
  | moveTag i digest =>
    cases h
    exact ⟨le_rfl, le_rfl⟩
  | upgrade =>
    cases h
    exact ⟨Nat.le_succ _, le_rfl⟩
  | refresh file =>
    simp only [Env.change] at h
    split at h
    · cases h
      exact ⟨le_rfl, Nat.le_succ _⟩
    · cases h
  | rewrite file =>
    simp only [Env.change] at h
    split at h
    · cases h
      exact ⟨le_rfl, le_rfl⟩
    · cases h

theorem DbFits.still {dbVersion : String} (h : DbFits s i dbVersion)
    (hprobed : s'.probed = s.probed) (horigin : s'.origin = s.origin)
    (hlive : ∀ fields, LiveRun s'.worker.db i fields → LiveRun s.worker.db i fields) :
    DbFits s' i dbVersion where
  name := by
    rw [hprobed]
    exact h.name
  after := by
    rw [hprobed, horigin]
    exact h.after
  hidden := by
    rw [hprobed, horigin]
    exact fun o ho fields hfields => h.hidden o ho fields (hlive fields hfields)

theorem VersionFits.still {trivyVersion : String} (h : VersionFits s i trivyVersion)
    (hprobed : s'.probed.trivy = s.probed.trivy) (horigin : s'.origin = s.origin) :
    VersionFits s' i trivyVersion where
  name := by
    rw [hprobed]
    exact h.name
  after := by
    rw [hprobed, horigin]
    exact h.after

/-- What an attempt knows stays true while nothing touches its image. -/
theorem Fits.still {stage : Stage} (h : Fits settings s i stage) (hprobed : s'.probed = s.probed)
    (hran : s'.ran = s.ran) (horigin : s'.origin = s.origin)
    (hlive : ∀ fields, LiveRun s'.worker.db i fields → LiveRun s.worker.db i fields) :
    Fits settings s' i stage := by
  have htrivy : s'.probed.trivy = s.probed.trivy := by rw [hprobed]
  have hprobe : ∀ probe, ProbeFits s i probe → ProbeFits s' i probe := fun probe h =>
    ⟨h.version.still htrivy horigin, h.db.still hprobed horigin hlive⟩
  cases stage with
  | loaded => trivial
  | versioned trivyVersion => exact VersionFits.still h htrivy horigin
  | probed trivyVersion dbVersion =>
    exact ⟨h.1.still htrivy horigin, h.2.still hprobed horigin hlive⟩
  | read probe previous => exact hprobe probe h
  | resolved probe previous digest => exact ⟨hprobe probe h.1, h.2⟩
  | scanned probe digest report =>
    obtain ⟨ran, hmem, hreport, hlate⟩ := h.2
    refine ⟨hprobe probe h.1, ran, ?_, hreport, ?_⟩
    · rw [hran]
      exact hmem
    · rw [hprobed]
      exact hlate

theorem OriginFits.still {o : Probed × Ran} (h : OriginFits settings s i fields o)
    (hcurrent : ∀ key, currentAt s'.worker.db i key = currentAt s.worker.db i key) :
    OriginFits settings s' i fields o where
  digest := h.digest
  version := h.version
  name := h.name
  trivy := h.trivy
  contents := h.contents
  findings := fun key => (hcurrent key).trans (h.findings key)

variable {db₀ : Db}

theorem Accurate.change (hs : Accurate settings db₀ s) {change : Change}
    (h : advance settings s (.change change) = some s') : Accurate settings db₀ s' := by
  obtain ⟨env, henv, rfl⟩ := Option.map_eq_some_iff.mp h
  obtain ⟨htrivy, hcontents⟩ := Env.change_le henv
  exact
    { recorded := hs.recorded
      agrees := hs.agrees
      probed := ⟨hs.probed.1.trans htrivy, hs.probed.2.trans hcontents⟩
      ran := fun ran hran => ⟨(hs.ran ran hran).1.trans htrivy, (hs.ran ran hran).2.trans hcontents⟩
      past := fun i o ho => ⟨(hs.past i o ho).1.trans htrivy, (hs.past i o ho).2.trans hcontents⟩
      fits := fun a ha => (hs.fits a ha).still rfl rfl rfl fun _ h => h
      origin := fun i fields hlive => by
        obtain ⟨o, ho, hfits⟩ := hs.origin i fields hlive
        exact ⟨o, ho, hfits.still fun _ => rfl⟩ }

/-- A step that records no success keeps the invariant, once what the attempt now knows is
right. -/
theorem Accurate.still (hdb : db₀.Unscanned) (hs : Accurate settings db₀ s)
    (h : step s.worker e = some s'.worker) (he : ∀ now, e ≠ .record now)
    (henv : s'.env = s.env) (horigin : s'.origin = s.origin)
    (hprobed : s'.probed.trivy ≤ s.env.trivy ∧ s'.probed.contents ≤ s.env.contents)
    (hran : ∀ ran ∈ s'.ran, ran.trivy ≤ s.env.trivy ∧ ran.contents ≤ s.env.contents)
    (hfits : ∀ a ∈ s'.worker.attempt, Fits settings s' a.imageId a.stage) :
    Accurate settings db₀ s' := by
  have hstill := still_of_step hdb hs.recorded h he
  have hstamped : Stamped s.worker e := by
    cases e with
    | record now => exact absurd rfl (he now)
    | _ => trivial
  exact
    { recorded := hs.recorded.step h
      agrees := pointerAgrees_step hs.recorded hs.agrees hstamped h
      probed := by
        rw [henv]
        exact hprobed
      ran := by
        rw [henv]
        exact hran
      past := by
        rw [henv, horigin]
        exact hs.past
      fits := hfits
      origin := fun i fields hlive => by
        obtain ⟨o, ho, ho'⟩ := hs.origin i fields (hstill.live i fields hlive)
        rw [horigin]
        exact ⟨o, ho, ho'.still (hstill.current i)⟩ }

theorem Scene.imageId_of_attempt {a : Attempt} (ha : s.worker.attempt = some a) :
    s.imageId = a.imageId := by
  rw [Scene.imageId, ha]
  rfl

/-- A file that names the database names it rightly. -/
theorem dbVersion_of_named (env : Env world) (h : env.file.named = true) :
    dbVersion env.file = world.updatedAt env.contents := by
  obtain ⟨tag, trivy, contents, file, honest⟩ := env
  cases file with
  | unreadable => cases h
  | document updatedAt version =>
    cases updatedAt with
    | none => cases h
    | some updatedAt => exact honest

theorem Accurate.probeTrivy (hdb : db₀.Unscanned) (hs : Accurate settings db₀ s)
    (h : advance settings s (.act .probeTrivy) = some s') : Accurate settings db₀ s' := by
  obtain ⟨worker, hstep, rfl⟩ := Option.map_eq_some_iff.mp h
  obtain ⟨a, ha, -, hworker⟩ := step_probeTrivy hstep
  refine hs.still hdb hstep (by rintro _ ⟨⟩) rfl rfl ⟨le_rfl, hs.probed.2⟩ hs.ran ?_
  rw [hworker]
  rintro _ ⟨⟩
  exact ⟨rfl, fun o ho => (hs.past a.imageId o ho).1⟩

theorem Accurate.probeDb (hdb : db₀.Unscanned) (hs : Accurate settings db₀ s)
    (hhidden : NoHiddenRefresh s) (h : advance settings s (.act .probeDb) = some s') :
    Accurate settings db₀ s' := by
  obtain ⟨worker, hstep, rfl⟩ := Option.map_eq_some_iff.mp h
  obtain ⟨a, trivyVersion, ha, hstage, hworker⟩ := step_probeDb hstep
  have hfits := hs.fits a ha
  rw [hstage] at hfits
  rw [NoHiddenRefresh, Scene.imageId_of_attempt ha] at hhidden
  refine hs.still hdb hstep (by rintro _ ⟨⟩) rfl rfl ⟨hs.probed.1, le_rfl⟩ hs.ran ?_
  rw [hworker]
  rintro _ ⟨⟩
  refine ⟨VersionFits.still hfits rfl rfl, dbVersion_of_named s.env,
    fun o ho => (hs.past a.imageId o ho).2, fun o ho fields hlive hsame => ?_⟩
  exact hhidden o ho fields (live_iff.mp hlive) hsame

theorem Accurate.scan (hdb : db₀.Unscanned) (hs : Accurate settings db₀ s)
    (h : advance settings s (.act .scan) = some s') : Accurate settings db₀ s' := by
  obtain ⟨worker, hstep, rfl⟩ := Option.map_eq_some_iff.mp h
  obtain ⟨a, probe, previous, digest, ha, hstage, hworker⟩ := step_scan hstep
  have hfits := hs.fits a ha
  rw [hstage] at hfits
  refine hs.still hdb hstep (by rintro _ ⟨⟩) rfl rfl hs.probed ?_ ?_
  · rintro _ ⟨⟩
    exact ⟨le_rfl, le_rfl⟩
  · rw [hworker]
    rintro _ ⟨⟩
    refine ⟨⟨hfits.1.version.still rfl rfl, hfits.1.db.still rfl rfl fun _ h => h⟩, _, rfl, rfl,
      hs.probed⟩

/-- The success that is recorded is of what the probe and the scan met. -/
theorem Accurate.record (hdb : db₀.Unscanned) (hs : Accurate settings db₀ s) {now : Timestamp}
    (hstamped : Stamped s.worker (.record now))
    (h : advance settings s (.act (.record now)) = some s') : Accurate settings db₀ s' := by
  obtain ⟨worker, hstep, rfl⟩ := Option.map_eq_some_iff.mp h
  obtain ⟨a, probe, digest, report, ha, hstage, hworker⟩ := step_record hstep
  have hwf := hs.recorded.wellFormed hdb
  have himage := (hs.recorded.fresh a ha).image
  have hfits := hs.fits a ha
  rw [hstage] at hfits
  obtain ⟨hprobe, ran, hran, hreport, htrivy, hcontents⟩ := hfits
  have hself : s.originAfter (.record now) a.imageId = some (s.probed, ran) := by
    rw [Scene.originAfter, Scene.imageId_of_attempt ha, Function.update_self,
      Option.mem_def.mp hran, Option.map_some]
  have hother : ∀ i, i ≠ a.imageId → s.originAfter (.record now) i = s.origin i := by
    intro i hi
    rw [Scene.originAfter, Scene.imageId_of_attempt ha, Function.update_of_ne hi]
  refine ⟨hs.recorded.step hstep, pointerAgrees_step hs.recorded hs.agrees hstamped hstep,
    hs.probed, hs.ran, ?_, ?_, ?_⟩
  · intro i o ho
    have ho : o ∈ s.originAfter (.record now) i := ho
    by_cases hi : i = a.imageId
    · rw [hi, hself] at ho
      cases ho
      exact hs.ran ran hran
    · rw [hother i hi] at ho
      exact hs.past i o ho
  · rw [hworker]
    rintro _ ⟨⟩
  · intro i fields hlive
    rw [hworker] at hlive
    obtain ⟨rfl, rfl⟩ | ⟨hi, hlive⟩ := live_recordSuccess_cases hwf himage hlive
    · refine ⟨(s.probed, ran), hself, ?_⟩
      refine ⟨?_, ?_, fun hnamed => ?_, htrivy, hcontents, ?_⟩
      · -- the report's own digest, which is not empty
        have hscanned : report.report.digest = some ran.digest.1 := by
          rw [hreport]
          exact world.scan_digest _ _ _ _
        show some (scannedDigest report.report digest) = some ran.digest.1
        rw [scannedDigest, hscanned]
        exact congrArg some (if_neg ran.digest.2)
      · exact congrArg some hprobe.version.name
      · exact congrArg some (hprobe.db.name hnamed)
      · rw [hworker, ← hreport]
        exact findingsAre_recordSuccess hwf himage report
    · obtain ⟨o, ho, hfits⟩ := hs.origin i fields hlive
      refine ⟨o, (hother i hi).trans ho, hfits.still fun key => ?_⟩
      rw [hworker]
      exact currentAt_recordSuccess_of_ne hwf himage report.report hi

/-- An action that observes nothing of the environment's past keeps the invariant. -/
theorem Accurate.act (hdb : db₀.Unscanned) (hs : Accurate settings db₀ s)
    (hP : Transparent settings s (.act action))
    (h : advance settings s (.act action) = some s') : Accurate settings db₀ s' := by
  cases action with
  | probeTrivy => exact hs.probeTrivy hdb h
  | probeDb => exact hs.probeDb hdb hP h
  | scan => exact hs.scan hdb h
  | record now => exact hs.record hdb hP h
  | start i job =>
    obtain ⟨worker, hstep, rfl⟩ := Option.map_eq_some_iff.mp h
    obtain ⟨-, image, -, hworker⟩ := step_start hstep
    refine hs.still hdb hstep (by rintro _ ⟨⟩) rfl rfl hs.probed hs.ran ?_
    rw [hworker]
    rintro _ ⟨⟩
    trivial
  | read startedAt previous =>
    obtain ⟨worker, hstep, rfl⟩ := Option.map_eq_some_iff.mp h
    obtain ⟨a, trivyVersion, dbVersion, ha, hstage, -, hworker⟩ := step_read hstep
    have hfits := hs.fits a ha
    rw [hstage] at hfits
    refine hs.still hdb hstep (by rintro _ ⟨⟩) rfl rfl hs.probed hs.ran ?_
    rw [hworker]
    rintro _ ⟨⟩
    exact ⟨hfits.1.still rfl rfl, hfits.2.still rfl rfl fun _ h => h⟩
  | resolve =>
    obtain ⟨worker, hstep, rfl⟩ := Option.map_eq_some_iff.mp h
    obtain ⟨a, probe, previous, ha, hstage, hworker⟩ := step_resolve hstep
    have hfits := hs.fits a ha
    rw [hstage] at hfits
    refine hs.still hdb hstep (by rintro _ ⟨⟩) rfl rfl hs.probed hs.ran ?_
    rw [hworker]
    rintro _ ⟨⟩
    exact ⟨⟨hfits.version.still rfl rfl, hfits.db.still rfl rfl fun _ h => h⟩, _, rfl⟩
  | skip now =>
    obtain ⟨worker, hstep, rfl⟩ := Option.map_eq_some_iff.mp h
    obtain ⟨a, probe, run, digest, -, -, -, hworker⟩ := step_skip hstep
    refine hs.still hdb hstep (by rintro _ ⟨⟩) rfl rfl hs.probed hs.ran ?_
    rw [hworker]
    rintro _ ⟨⟩
  | fail startedAt completedAt error exhausted =>
    obtain ⟨worker, hstep, rfl⟩ := Option.map_eq_some_iff.mp h
    obtain ⟨a, -, hworker⟩ := step_fail hstep
    refine hs.still hdb hstep (by rintro _ ⟨⟩) rfl rfl hs.probed hs.ran ?_
    rw [hworker]
    rintro _ ⟨⟩
  | release =>
    obtain ⟨worker, hstep, rfl⟩ := Option.map_eq_some_iff.mp h
    have hworker := step_release hstep
    refine hs.still hdb hstep (by rintro _ ⟨⟩) rfl rfl hs.probed hs.ran ?_
    rw [hworker]
    rintro _ ⟨⟩
  | reap i job startedAt completedAt error exhausted =>
    obtain ⟨worker, hstep, rfl⟩ := Option.map_eq_some_iff.mp h
    obtain ⟨-, -, hworker⟩ := step_reap hstep
    have hstill := still_of_step hdb hs.recorded hstep (by rintro _ ⟨⟩)
    refine hs.still hdb hstep (by rintro _ ⟨⟩) rfl rfl hs.probed hs.ran fun a ha => ?_
    rw [hworker] at ha
    exact (hs.fits a ha).still rfl rfl rfl (hstill.live a.imageId)

theorem accurate_of_reaches {env : Env world} (hdb : db.Unscanned)
    (hrun : Reaches (advance settings) (Transparent settings) (Scene.start db env) s) :
    Accurate settings db s := by
  refine hrun.invariant (fun s e t hs hP h => ?_) (accurate_start settings hdb env)
  cases e with
  | change change => exact hs.change h
  | act action => exact hs.act hdb hP h

/-- **Skips are sound.** In every transparent run, when `_execute` skips, the current findings of
the image are those that a scan of the digest just resolved would report with the version and the
database the probe met. -/
theorem skip_sound {env : Env world} {now : Timestamp} (hdb : db.Unscanned)
    (hrun : Reaches (advance settings) (Transparent settings) (Scene.start db env) s)
    (h : advance settings s (.act (.skip now)) = some s') :
    ∃ a probe previous, ∃ digest : Digest, s.worker.attempt = some a ∧
      a.stage = .resolved probe previous digest.1 ∧
      FindingsAre s.worker.db a.imageId
        (world.scan digest s.probed.trivy s.probed.contents (scanFlags settings)).report := by
  have hs := accurate_of_reaches hdb hrun
  obtain ⟨worker, hstep, -⟩ := Option.map_eq_some_iff.mp h
  obtain ⟨a, probe, run, digest, ha, hstage, hfields, -⟩ := step_skip hstep
  have hfits := hs.fits a ha
  rw [hstage] at hfits
  obtain ⟨hprobe, digest, rfl⟩ := hfits
  refine ⟨a, probe, some run, digest, ha, hstage, ?_⟩
  have hlast : IsLastSuccessfulRun s.worker.db a.imageId (some run) :=
    (hs.recorded.fresh a ha).previous (some run) (by rw [hstage]; rfl)
  have hlive := hs.agrees a.imageId run hlast
  rw [hfields] at hlive
  obtain ⟨o, ho, horigin⟩ := hs.origin a.imageId _ hlive
  have hdigest : o.2.digest = digest := Subtype.ext (Option.some.inj horigin.digest).symm
  -- between two probes that give one version Trivy was not upgraded, so the scan ran that one
  have hversion : o.1.trivy = s.probed.trivy := by
    refine world.version_injective ?_
    rw [← hprobe.version.name]
    exact (Option.some.inj horigin.version).symm
  have htrivy : o.2.trivy = s.probed.trivy := by
    refine le_antisymm (hprobe.version.after o ho) ?_
    rw [← hversion]
    exact horigin.trivy
  have hcontents : o.2.contents = s.probed.contents := by
    obtain ⟨hnamed, hnamed'⟩ | hsame := hprobe.db.hidden o ho _ hlive rfl
    · have hname : o.1.contents = s.probed.contents := by
        refine world.updatedAt_injective ?_
        rw [← hprobe.db.name hnamed]
        exact (Option.some.inj (horigin.name hnamed')).symm
      refine le_antisymm (hprobe.db.after o ho) ?_
      rw [← hname]
      exact horigin.contents
    · exact hsame
  rw [← hdigest, ← htrivy, ← hcontents]
  exact horigin.findings

/-! ### One image -/

/-- Names in unary. -/
def unary (n : ℕ) : String := String.ofList (List.replicate (n + 1) 'v')

theorem unary_injective : Function.Injective unary := by
  intro m n h
  have hlength := congrArg (fun s => s.toList.length) h
  simp only [unary, String.toList_ofList, List.length_replicate] at hlength
  omega

/-- The first refresh brings the database its only entry. -/
def debianWorld : World where
  version := unary
  version_injective := unary_injective
  updatedAt := unary
  updatedAt_injective := unary_injective
  flagsHash := fun _ => "flags"
  scan := fun digest _ contents _ => AcceptedReport.debianImage digest.1
    (if contents = 0 then [] else [("CVE-1", "openssl", "HIGH")])
  scan_digest := fun _ _ _ _ => rfl

def digestA : Digest := ⟨"sha256:a", by decide⟩

/-- Before any upgrade or refresh. -/
def debianEnv (file : MetadataFile) (h : file.Honest debianWorld 0) : Env debianWorld where
  tag := fun _ => digestA
  trivy := 0
  contents := 0
  file := file
  honest := h

def resolveActions (previous : Option ScanRun) : List Happening :=
  [.act (.start 1 1), .act .probeTrivy, .act .probeDb, .act (.read 0 previous), .act .resolve]

/-- What the first job leaves: a success without findings. -/
def emptyRun (dbVersion : String) : ScanRun :=
  withCounts (fun _ => 0) (newRun 1 (some 1) .success
    (Probe.metadata ⟨unary 0, dbVersion, "flags", 0⟩ digestA.1 second) none)

/-- A scan, and a second job when nothing has changed but that the file was gone for a while. -/
def quietRun : List Happening :=
  resolveActions none ++ [.act .scan, .act (.record second), .change (.rewrite .unreadable),
    .change (.rewrite (.document (some (unary 0)) none))] ++
      resolveActions (some (emptyRun (unary 0)))

theorem skip_sound_quietRun :
    ∃ s s' : Scene debianWorld, advance {} s (.act (.skip (2 * second))) = some s' ∧
      ∃ a probe previous, ∃ digest : Digest, s.worker.attempt = some a ∧
        a.stage = .resolved probe previous digest.1 ∧
        FindingsAre s.worker.db a.imageId (debianWorld.scan digest s.probed.trivy
          s.probed.contents (scanFlags {})).report := by
  have hrun : ((execute (restrict (advance {}) (Transparent {}))
      (Scene.start (Db.seeded 0 briefImages) (debianEnv (.document (some (unary 0)) none) rfl))
        quietRun).bind fun s => advance {} s (.act (.skip (2 * second)))).isSome := by decide
  obtain ⟨s', hrun⟩ := Option.isSome_iff_exists.mp hrun
  obtain ⟨s, hs, hskip⟩ := Option.bind_eq_some_iff.mp hrun
  exact ⟨s, s', hskip,
    skip_sound (unscanned_seeded 0 briefImages) (reaches_of_execute hs) hskip⟩

/-- A scan, a refresh, and a second job, with no readable file at all. -/
def blindRun : List Happening :=
  resolveActions none ++ [.act .scan, .act (.record second), .change (.refresh .unreadable)] ++
    resolveActions (some (emptyRun "unknown"))

/-- Two probes that could not read the file agree, so the refresh between them is skipped over. -/
theorem not_skip_sound_blindRun :
    ¬ ∀ (world : World) (settings : Settings) (db : Db) (env : Env world) (s s' : Scene world)
      (now : Timestamp), db.Unscanned →
        Reaches (advance settings) ClockForward (Scene.start db env) s →
          ClockForward s (.act (.skip now)) → advance settings s (.act (.skip now)) = some s' →
            ∃ a probe previous, ∃ digest : Digest, s.worker.attempt = some a ∧
              a.stage = .resolved probe previous digest.1 ∧
              FindingsAre s.worker.db a.imageId (world.scan digest s.probed.trivy
                s.probed.contents (scanFlags settings)).report := by
  intro hall
  have hrun : ((execute (restrict (advance {}) ClockForward)
      (Scene.start (Db.seeded 0 briefImages) (debianEnv .unreadable trivial)) blindRun).bind
        fun s => (restrict (advance {}) ClockForward s (.act (.skip (2 * second)))).bind fun _ =>
          some (s.imageId, s.probed.contents,
            currentAt s.worker.db 1 ("CVE-1", ⟨"openssl", "1.1.1", "debian"⟩))) =
      some (1, 1, none) := by decide
  obtain ⟨s, hs, hrun⟩ := Option.bind_eq_some_iff.mp hrun
  obtain ⟨s', hs', hrun⟩ := Option.bind_eq_some_iff.mp hrun
  obtain ⟨hforward, hskip⟩ := restrict_eq_some.mp hs'
  obtain ⟨himage, hrun⟩ := Prod.mk.inj (Option.some.inj hrun)
  obtain ⟨hcontents, hnone⟩ := Prod.mk.inj hrun
  obtain ⟨a, probe, previous, digest, ha, -, hfindings⟩ :=
    hall debianWorld {} _ _ s s' _ (unscanned_seeded 0 briefImages) (reaches_of_execute hs) hforward
      hskip
  have hnew := hfindings ("CVE-1", ⟨"openssl", "1.1.1", "debian"⟩)
  rw [← Scene.imageId_of_attempt ha, himage, hnone, hcontents] at hnew
  have hreported : ((AcceptedReport.debian [("CVE-1", "openssl", "HIGH")]).report.findKey?
      ("CVE-1", ⟨"openssl", "1.1.1", "debian"⟩)).isSome := by decide
  obtain ⟨g, hg⟩ := Option.isSome_iff_exists.mp hreported
  have hsome : (debianWorld.scan digest s.probed.trivy 1 (scanFlags {})).report.findKey?
      ("CVE-1", ⟨"openssl", "1.1.1", "debian"⟩) = some g := hg
  rw [hsome] at hnew
  cases hnew

end Worker

end ContainerScanner
