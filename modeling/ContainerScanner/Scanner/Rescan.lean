import ContainerScanner.Scanner.Worker
import ContainerScanner.Domain.Seed

/-!
# Unchanged rescans

A success stores `report.digest or digest`, and the next job of the image compares what it stores
with the digest the registry gives. The report's digest is the first repo digest that Trivy names;
without one it is `ImageID`, the digest of the local configuration, which the registry never gives.
A run that stores another digest than the one resolved is never recognised, so every job of the
image scans again.

The other way to miss is a tie: `ORDER BY completed_at DESC` may return an earlier run stamped at
the same microsecond.

## Main definitions

* `Confirms` — the report names the digest resolved, or none
* `SkipsRescans` — every job of the image that observes the same values is skipped

## Main results

* `mem_successes_of_reaches` — the successes of an image stay the same until its next one
* `skipsRescans_iff` — exactly when unchanged rescans are skipped after a success
-/

namespace ContainerScanner

open Foundation Persist

/-! ### Where the digest comes from -/

/-- Without a repo digest the report has the `ImageID`. -/
theorem extractDigest_imageId {metadata : List (String × Json)} {imageId : String}
    (hrepo : Json.get metadata "RepoDigests" = .null)
    (himage : Json.get metadata "ImageID" = .str imageId) (hne : imageId ≠ "") :
    extractDigest metadata = some imageId := by
  rw [extractDigest, hrepo, himage]
  exact if_neg hne

namespace Worker

variable {s s' : State} {db db₀ : Db} {i : ImageId} {a : Attempt} {e : Event} {now : Timestamp}
  {probe : Probe} {digest : String} {report : AcceptedReport}

/-- The report names no digest, or the one resolved. -/
def Confirms (report : ParsedReport) (digest : String) : Prop :=
  report.digest = none ∨ report.digest = some "" ∨ report.digest = some digest

theorem scannedDigest_eq_iff {report : ParsedReport} :
    scannedDigest report digest = digest ↔ Confirms report digest := by
  rw [scannedDigest, Confirms]
  split
  · next scanned hscanned =>
    rw [hscanned, Option.some.injEq, Option.some.injEq]
    split
    · next hempty => simp [hempty]
    · next hne => simp [hne]
  · next hnone => simp [hnone]

/-! ### Jobs that observe the same -/

/-- What `_is_unchanged` compares with the previous run. -/
def Probe.fingerprint (probe : Probe) (digest : String) : Fingerprint :=
  ⟨some digest, some probe.trivyVersion, some probe.dbVersion, some probe.flagsHash⟩

/-- The steps that commit no success of the image. -/
def Elsewhere (i : ImageId) (s : State) : Event → Prop
  | .record _ => ∀ a ∈ s.attempt, a.imageId ≠ i
  | _ => True

/-- A job of the image has resolved the digest, and has the same versions and flags. -/
def Rescan (i : ImageId) (fields : Fingerprint) (s : State) : Prop :=
  ∃ a probe previous digest, s.attempt = some a ∧ a.imageId = i ∧
    a.stage = .resolved probe previous digest ∧ probe.fingerprint digest = fields

/-- The skip branch is taken, and Trivy is not invoked. -/
def Skips (s : State) : Prop :=
  (∀ now, (step s (.skip now)).isSome) ∧ ∀ report, step s (.scan report) = none

/-- Until the next success of the image, every job of it that observes these values is skipped. -/
def SkipsRescans (i : ImageId) (fields : Fingerprint) (s : State) : Prop :=
  ∀ s', Reaches step (Elsewhere i) s s' → Rescan i fields s' → Skips s'

/-- The decision, at the state it is taken in. -/
theorem skips_iff {previous : Option ScanRun} (ha : s.attempt = some a)
    (hstage : a.stage = .resolved probe previous digest) :
    Skips s ↔ ∃ run, previous = some run ∧ run.fingerprint = probe.fingerprint digest := by
  have hskip : ∀ now, step s (.skip now) =
      if isUnchanged previous digest probe.trivyVersion probe.dbVersion probe.flagsHash then
        some ⟨recordSkip s.db a.imageId (some a.job) (probe.metadata digest now), none⟩
      else none := by
    intro now
    simp only [step, ha, Option.bind_some, stepAttempt, hstage]
  have hscan : ∀ report, step s (.scan report) =
      if isUnchanged previous digest probe.trivyVersion probe.dbVersion probe.flagsHash then none
      else some ⟨s.db, some { a with stage := .scanned probe digest report }⟩ := by
    intro report
    simp only [step, ha, Option.bind_some, stepAttempt, hstage]
  rw [Skips, Probe.fingerprint, ← isUnchanged_eq_true]
  simp only [hskip, hscan]
  by_cases hunchanged :
      isUnchanged previous digest probe.trivyVersion probe.dbVersion probe.flagsHash = true
  · simp [hunchanged]
  · simp [hunchanged]

/-! ### The successes of the image -/

/-- Only a success of the image changes the successes of the image. -/
theorem mem_successes_step (hs : Recorded db₀ s) (hP : Elsewhere i s e)
    (h : step s e = some s') (run : ScanRun) :
    run ∈ successes s'.db i ↔ run ∈ successes s.db i := by
  obtain hadvances | ⟨call, hquiet, hcommits⟩ |
    ⟨now, a, metadata, report, rfl, ha, -, hcommits⟩ := step_cases hs.fresh h
  · rw [hadvances.db]
  · rw [hcommits.db]
    rcases Call.commit_cases s.db call with ⟨-, heq⟩ | ⟨j, image, job, report, m, hcall, -⟩ |
      ⟨image, run', f, -, -, -, -, hstatus, -, heq⟩
    · rw [heq]
    · exact absurd hcall (hquiet j job report m)
    · rw [heq]
      exact mem_successes_recordQuiet hstatus _ f run
  · have hother : i ≠ a.imageId := (hP a ha).symm
    rw [hcommits.db, ← mem_successes_commit_of_ne hother]

/-- The successes of an image stay the same until its next one. -/
theorem mem_successes_of_reaches (hs : Recorded db₀ s) (hrun : Reaches step (Elsewhere i) s s') :
    Recorded db₀ s' ∧ ∀ run, run ∈ successes s'.db i ↔ run ∈ successes s.db i := by
  refine hrun.invariant (I := fun t => Recorded db₀ t ∧
    ∀ run, run ∈ successes t.db i ↔ run ∈ successes s.db i) ?_ ⟨hs, fun _ => Iff.rfl⟩
  intro t e t' ht hP hstep
  exact ⟨ht.1.step hstep, fun run => (mem_successes_step ht.1 hP hstep run).trans (ht.2 run)⟩

/-- Unchanged rescans are skipped exactly when every run that may be found has the values. -/
theorem skipsRescans_iff_forall_last (hs : Recorded db₀ s) (hidle : s.attempt = none)
    {image : Image} (hi : s.db.image.get? i = some image) (job : JobId) (startedAt : Timestamp) :
    SkipsRescans i (probe.fingerprint digest) s ↔
      ∀ previous, IsLastSuccessfulRun s.db i previous →
        ∃ run, previous = some run ∧ run.fingerprint = probe.fingerprint digest := by
  constructor
  · intro hskips previous hlast
    -- the job that follows at once, and finds that run
    let next (stage : Stage) : State := ⟨s.db, some ⟨i, job, image, stage⟩⟩
    let probe' : Probe := { probe with startedAt := startedAt }
    have hstart : step s (.start i job) = some (next .loaded) := by
      simp only [step, hidle, hi, Option.map_some, next]
    have hread : step (next (.probed probe.trivyVersion probe.dbVersion))
        (.read probe.flagsHash startedAt previous) = some (next (.read probe' previous)) := by
      exact if_pos hlast
    have hnext : Reaches step (Elsewhere i) s (next (.resolved probe' previous digest)) :=
      Reaches.head (e := .start i job) trivial hstart <|
        Reaches.head (e := .probeTrivy probe.trivyVersion) trivial rfl <|
        Reaches.head (e := .probeDb probe.dbVersion) trivial rfl <|
        Reaches.head (e := .read probe.flagsHash startedAt previous) trivial hread <|
        Reaches.head (e := .resolve digest) trivial rfl (Reaches.refl _)
    have hdecision : Skips (next (.resolved probe' previous digest)) ↔
        ∃ run, previous = some run ∧ run.fingerprint = probe'.fingerprint digest :=
      skips_iff rfl rfl
    exact hdecision.mp (hskips _ hnext ⟨_, probe', previous, digest, rfl, rfl, rfl, rfl⟩)
  · rintro hall s' hrun ⟨a, probe', previous, digest', ha, himage, hstage, hfields⟩
    obtain ⟨hs', hsame⟩ := mem_successes_of_reaches hs hrun
    have hlast : IsLastSuccessfulRun s'.db a.imageId previous :=
      (hs'.fresh a ha).previous previous (by rw [hstage]; rfl)
    rw [himage, isLastSuccessfulRun_congr hsame] at hlast
    obtain ⟨run, hfound, hrun⟩ := hall previous hlast
    exact (skips_iff ha hstage).mpr ⟨run, hfound, hrun.trans hfields.symm⟩

/-! ### After a success -/

theorem completedKey_successRun (db : Db) (i : ImageId) (job : Option JobId)
    (report : ParsedReport) (metadata : RunMetadata) :
    completedKey (successRun db i job report metadata) = metadata.completedAt := rfl

/-- The runs that may be found after a success that no earlier one is stamped after: it, and the
earlier ones of the same stamp. -/
theorem isLastSuccessfulRun_recordSuccess {image : Image} {job : Option JobId}
    {report : ParsedReport} {metadata : RunMetadata}
    (hclock : ∀ run ∈ successes db i, completedKey run ≤ metadata.completedAt)
    (previous : Option ScanRun) :
    IsLastSuccessfulRun (recordSuccess db i image job report metadata) i previous ↔
      previous = some (successRun db i job report metadata) ∨
        ∃ run ∈ successes db i, completedKey run = metadata.completedAt ∧ previous = some run := by
  have hmem : ∀ run, run ∈ successes (recordSuccess db i image job report metadata) i ↔
      run ∈ successes db i ∨ i = i ∧ run = successRun db i job report metadata :=
    fun run => mem_successes_recordSuccess run
  have hnew : successRun db i job report metadata ∈
      successes (recordSuccess db i image job report metadata) i := (hmem _).mpr (.inr ⟨rfl, rfl⟩)
  have htop : ∀ run ∈ successes (recordSuccess db i image job report metadata) i,
      completedKey run ≤ metadata.completedAt := by
    intro run hrun
    obtain hold | ⟨-, rfl⟩ := (hmem run).mp hrun
    · exact hclock run hold
    · exact le_rfl
  cases previous with
  | none =>
    constructor
    · intro hnone
      rw [IsLastSuccessfulRun] at hnone
      rw [hnone] at hnew
      cases hnew
    · rintro (h | ⟨_, -, -, h⟩) <;> cases h
  | some found =>
    constructor
    · rintro ⟨hfound, hmax⟩
      obtain hold | ⟨-, rfl⟩ := (hmem found).mp hfound
      · have hlate := hmax _ hnew
        rw [completedKey_successRun] at hlate
        exact .inr ⟨found, hold, le_antisymm (hclock found hold) hlate, rfl⟩
      · exact .inl rfl
    · rintro (h | ⟨run, hold, hkey, h⟩)
      · cases h
        exact ⟨hnew, fun other hother => (htop other hother).trans_eq rfl⟩
      · cases h
        exact ⟨(hmem found).mpr (.inl hold), fun other hother =>
          (htop other hother).trans_eq hkey.symm⟩

/-- The jobs after a success find it, or an earlier one of the same stamp. -/
theorem skipsRescans_iff_forall_found
    (hrun : Reaches step (fun _ _ => True) (State.start db) s) (ha : s.attempt = some a)
    (hstage : a.stage = .scanned probe digest report)
    (hclock : ∀ run ∈ successes s.db a.imageId, completedKey run ≤ now)
    (hrecord : step s (.record now) = some s') :
    SkipsRescans a.imageId (probe.fingerprint digest) s' ↔
      (probe.metadata (scannedDigest report.report digest) now).fingerprint =
          probe.fingerprint digest ∧
        ∀ run ∈ successes s.db a.imageId, completedKey run = now →
          run.fingerprint = probe.fingerprint digest := by
  have hs := recorded_of_reaches hrun
  have hs' : Recorded db s' := hs.step hrecord
  have himage := (hs.fresh a ha).image
  obtain ⟨b, probe', digest', report', hb, hstage', rfl⟩ := step_record hrecord
  rw [ha] at hb
  cases hb
  rw [hstage] at hstage'
  cases hstage'
  have hrow : (recordSuccess s.db a.imageId a.image (some a.job) report.report
      (probe.metadata (scannedDigest report.report digest) now)).image.get? a.imageId =
        some (pointTo s.db.scanRun.next
          (probe.metadata (scannedDigest report.report digest) now) a.image) := by
    rw [get?_image_recordSuccess himage, if_pos rfl]
  have hlast : ∀ previous, IsLastSuccessfulRun (recordSuccess s.db a.imageId a.image (some a.job)
      report.report (probe.metadata (scannedDigest report.report digest) now)) a.imageId previous ↔
        previous = some (successRun s.db a.imageId (some a.job) report.report
          (probe.metadata (scannedDigest report.report digest) now)) ∨
        ∃ run ∈ successes s.db a.imageId, completedKey run = now ∧ previous = some run :=
    isLastSuccessfulRun_recordSuccess hclock
  rw [skipsRescans_iff_forall_last hs' rfl hrow a.job now]
  simp only [hlast]
  constructor
  · intro hall
    refine ⟨?_, fun run hmem hkey => ?_⟩
    · obtain ⟨run, hfound, hfields⟩ := hall _ (.inl rfl)
      cases hfound
      exact hfields
    · obtain ⟨found, hfound, hfields⟩ := hall (some run) (.inr ⟨run, hmem, hkey, rfl⟩)
      cases hfound
      exact hfields
  · rintro ⟨hnew, htied⟩ previous (rfl | ⟨run, hmem, hkey, rfl⟩)
    · exact ⟨_, rfl, hnew⟩
    · exact ⟨run, rfl, htied run hmem hkey⟩

theorem fingerprint_metadata_eq_iff {report : ParsedReport} :
    (probe.metadata (scannedDigest report digest) now).fingerprint = probe.fingerprint digest ↔
      Confirms report digest := by
  rw [← scannedDigest_eq_iff]
  simp [Probe.fingerprint, Probe.metadata, RunMetadata.fingerprint]

/-- **Exactly when unchanged rescans are skipped.** After a success on clocks that do not go back,
every job of the image that resolves the same digest with the same versions and flags is skipped
when, and only when, the report names that digest or none, and the earlier successes stamped at the
same time had the same four values. -/
theorem skipsRescans_iff (hrun : Reaches step (fun _ _ => True) (State.start db) s)
    (ha : s.attempt = some a) (hstage : a.stage = .scanned probe digest report)
    (hclock : ∀ run ∈ successes s.db a.imageId, completedKey run ≤ now)
    (hrecord : step s (.record now) = some s') :
    SkipsRescans a.imageId (probe.fingerprint digest) s' ↔
      Confirms report.report digest ∧
        ∀ run ∈ successes s.db a.imageId, completedKey run = now →
          run.fingerprint = probe.fingerprint digest := by
  rw [skipsRescans_iff_forall_found hrun ha hstage hclock hrecord, fingerprint_metadata_eq_iff]

/-- A first scan of image 1, up to the report. -/
def scanned (report : AcceptedReport) (digest : String) : List Event :=
  [.start 1 1, .probeTrivy "0.69.3", .probeDb "2026-07-01", .read "flags" 0 none, .resolve digest,
    .scan report]

/-- The state it is in then. -/
theorem exists_scanned (report : AcceptedReport) (digest : String) :
    ∃ s s' a, Reaches step (fun _ _ => True) (State.start (Db.seeded 0 briefImages)) s ∧
      s.attempt = some a ∧
      a.stage = .scanned ⟨"0.69.3", "2026-07-01", "flags", 0⟩ digest report ∧
      successes s.db a.imageId = [] ∧ step s (.record second) = some s' := by
  have hscanned : ∃ s, execute (restrict step fun _ _ => True)
      (State.start (Db.seeded 0 briefImages)) (scanned report digest) = some s ∧ ∃ s' a,
        s.attempt = some a ∧ a.stage = .scanned ⟨"0.69.3", "2026-07-01", "flags", 0⟩ digest report ∧
        successes s.db a.imageId = [] ∧ step s (.record second) = some s' :=
    ⟨_, rfl, _, _, rfl, rfl, rfl, rfl⟩
  obtain ⟨s, hs, s', a, h⟩ := hscanned
  exact ⟨s, s', a, reaches_of_execute hs, h⟩

theorem skipsRescans_iff_silent :
    ∃ s s' a, step s (.record second) = some s' ∧ s.attempt = some a ∧
      SkipsRescans a.imageId
        ⟨some "sha256:a", some "0.69.3", some "2026-07-01", some "flags"⟩ s' := by
  obtain ⟨s, s', a, hrun, ha, hstage, hnone, hrecord⟩ :=
    exists_scanned (AcceptedReport.debian []) "sha256:a"
  refine ⟨s, s', a, hrecord, ha, (skipsRescans_iff hrun ha hstage ?_ hrecord).mpr ⟨?_, ?_⟩⟩
  · rw [hnone]
    rintro _ ⟨⟩
  · exact Or.inl rfl
  · rw [hnone]
    rintro _ ⟨⟩

/-- What Trivy writes of an image that has no repo digest. -/
def configReport : AcceptedReport :=
  .ofDocument
    (.dict [("Metadata", .dict [("ImageID", .str "sha256:c0ff")]),
      ("Results", .list [.dict [("Type", .str "debian"), ("Vulnerabilities", .list [])]])])
    { (AcceptedReport.debian []).report with digest := some "sha256:c0ff" } (by
      have himage : extractDigest [("ImageID", .str "sha256:c0ff")] = some "sha256:c0ff" :=
        extractDigest_imageId rfl rfl (by decide)
      rw [← himage]
      exact parseDocument_metadata (AcceptedReport.parseDocument_debian []))

/-- An image without a repo digest is scanned again each time. -/
theorem not_skipsRescans_imageId :
    ¬ ∀ (db : Db) (s s' : State) (a : Attempt) (probe : Probe) (digest : String)
      (report : AcceptedReport) (now : Timestamp), db.Unscanned →
      Reaches step (fun _ _ => True) (State.start db) s → s.attempt = some a →
      a.stage = .scanned probe digest report →
      (∀ run ∈ successes s.db a.imageId, completedKey run ≤ now) →
      step s (.record now) = some s' →
        SkipsRescans a.imageId (probe.fingerprint digest) s' := by
  intro hall
  obtain ⟨s, s', a, hrun, ha, hstage, hnone, hrecord⟩ :=
    exists_scanned configReport "sha256:a"
  have hclock : ∀ run ∈ successes s.db a.imageId, completedKey run ≤ second := by
    rw [hnone]
    rintro _ ⟨⟩
  have hskips := hall _ s s' a _ _ _ _ (unscanned_seeded 0 briefImages) hrun ha hstage hclock
    hrecord
  have hfields := ((skipsRescans_iff_forall_found hrun ha hstage hclock hrecord).mp hskips).1
  have hdigest : some "sha256:c0ff" = some "sha256:a" := congrArg Fingerprint.digest hfields
  exact absurd hdigest (by decide)

end Worker

end ContainerScanner
