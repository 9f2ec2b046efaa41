import ContainerScanner.Scanner.WellFormed
import ContainerScanner.Domain.Seed

/-!
# The history of a finding

What the `finding` table says is a function of the scan history alone. For one image and one key
the history is the list of successful runs that reported it; the row is empty while the list is,
its first run is the head of the list, and everything else comes from the last element.

Package ids are bookkeeping: `rowAt` looks a key up through the `package` table, and no statement
here mentions an id otherwise.

## Main definitions

* `rowAt` — the finding row of an image for a CVE and a package
* `history` — the successful runs of an image, with their reports, in commit order
* `sightings`, `expectedRow` — the runs that reported a key, and the row they call for

## Main results

* `rowAt_recordSuccess` — what one success does to every row
* `rowAt_runCalls` — every row is the one its history calls for
* `finding_history_law` — the table, the pointer and the runs, all from the history
-/

namespace ContainerScanner

open Foundation

/-! ### The finding with a key -/

/-- The finding of a report with a given key. -/
def ParsedReport.findKey? (r : ParsedReport) (key : CveId × PackageKey) : Option ParsedFinding :=
  r.findings.find? fun f => decide (f.key = key)

theorem ParsedReport.findKey?_eq_none {r : ParsedReport} {key : CveId × PackageKey} :
    r.findKey? key = none ↔ ∀ f ∈ r.findings, f.key ≠ key := by
  simp [ParsedReport.findKey?]

theorem ParsedReport.of_findKey?_eq_some {r : ParsedReport} {key : CveId × PackageKey}
    {f : ParsedFinding} (h : r.findKey? key = some f) : f ∈ r.findings ∧ f.key = key :=
  ⟨List.mem_of_find?_eq_some h, by simpa using List.find?_some h⟩

/-- An accepted report has one finding a key. -/
theorem AcceptedReport.findKey?_eq_some {r : AcceptedReport} {key : CveId × PackageKey}
    {f : ParsedFinding} :
    r.report.findKey? key = some f ↔ f ∈ r.report.findings ∧ f.key = key := by
  constructor
  · exact ParsedReport.of_findKey?_eq_some
  · rintro ⟨hf, rfl⟩
    cases hg : r.report.findKey? f.key with
    | none => exact absurd rfl (ParsedReport.findKey?_eq_none.mp hg f hf)
    | some g =>
      obtain ⟨hmem, hkey⟩ := ParsedReport.of_findKey?_eq_some hg
      rw [r.eq_of_key_eq hmem hf hkey]

namespace Persist

variable {db : Db} {i j : ImageId} {image : Image} {job : Option JobId} {m : RunMetadata}

/-! ### Rows by key -/

/-- The finding row of an image for a CVE and a package. -/
def rowAt (db : Db) (i : ImageId) (key : CveId × PackageKey) : Option Finding :=
  (db.package.get? key.2).bind fun p => db.finding.get? ⟨i, key.1, p⟩

theorem rowAt_eq_some {key : CveId × PackageKey} {f : Finding} :
    rowAt db i key = some f
      ↔ ∃ p, db.package.get? key.2 = some p ∧ db.finding.get? ⟨i, key.1, p⟩ = some f :=
  Option.bind_eq_some_iff

/-- Every finding row has a key. -/
theorem WellFormed.exists_rowAt (hdb : WellFormed db) {c : CveId} {p : PackageId} {f : Finding}
    (hf : db.finding.get? ⟨i, c, p⟩ = some f) :
    ∃ k, db.package.get? k = some p ∧ rowAt db i (c, k) = some f := by
  obtain ⟨k, hk⟩ := hdb.findingPackage _ f hf
  exact ⟨k, hk, rowAt_eq_some.mpr ⟨p, hk, hf⟩⟩

/-- A finding at the id a key has after some packages were interned was there under that key. -/
theorem WellFormed.get?_finding_internAll (hdb : WellFormed db) {ks : List PackageKey}
    {k : PackageKey} {p : PackageId} (hp : (db.package.internAll ks).get? k = some p)
    (i : ImageId) (c : CveId) : db.finding.get? ⟨i, c, p⟩ = rowAt db i (c, k) := by
  cases hk : db.package.get? k with
  | some q =>
    have hqp : q = p := by
      rw [Surrogate.get?_internAll_of_get? hk ks] at hp
      exact Option.some.inj hp
    rw [rowAt, hk, hqp]
    rfl
  | none =>
    have hrow : rowAt db i (c, k) = none := by rw [rowAt, hk]; rfl
    rw [hrow, Option.eq_none_iff_forall_ne_some]
    intro f hf
    -- the id is new to `k`, so a finding that carries it belongs to another key
    obtain ⟨k', hk'⟩ := hdb.findingPackage _ f hf
    have heq : k' = k :=
      (hdb.package.internAll ks).injective k' k p (Surrogate.get?_internAll_of_get? hk' ks) hp
    rw [heq, hk] at hk'
    cases hk'

/-- A key the report does not name is not among the rows written. -/
theorem notMem_writtenRows (hdb : db.package.Faithful) {report : ParsedReport} {c : CveId}
    {k : PackageKey} {p : PackageId}
    (hp : (db.package.internAll (packageKeys report)).get? k = some p)
    (hkey : report.findKey? (c, k) = none) :
    (⟨i, c, p⟩ : FindingKey) ∉ (writtenRows db i report).map Prod.fst := by
  intro hmem
  obtain ⟨⟨key, f⟩, hrow, heq⟩ := List.mem_map.mp hmem
  obtain ⟨g, hg, q, hq, rfl, -⟩ := mem_writtenRows.mp hrow
  obtain ⟨-, hc, rfl⟩ := FindingKey.mk.inj heq
  have hk : g.packageKey = k := (hdb.internAll (packageKeys report)).injective _ _ q hq hp
  exact ParsedReport.findKey?_eq_none.mp hkey g hg (Prod.ext hc hk)

/-- **What a success does to every row of its image**: a key the report names is upserted, every
other row stays. -/
theorem rowAt_recordSuccess (hdb : WellFormed db) (report : AcceptedReport)
    (key : CveId × PackageKey) :
    rowAt (recordSuccess db i image job report.report m) i key
      = match report.report.findKey? key with
        | some g => some (upsertFinding (newFinding db.scanRun.next g) (rowAt db i key))
        | none => rowAt db i key := by
  obtain ⟨c, k⟩ := key
  have hrowAt : rowAt (recordSuccess db i image job report.report m) i (c, k)
      = ((db.package.internAll (packageKeys report.report)).get? k).bind fun p =>
          (recordSuccess db i image job report.report m).finding.get? ⟨i, c, p⟩ := rfl
  rw [hrowAt]
  cases hg : report.report.findKey? (c, k) with
  | some g =>
    obtain ⟨hmem, hkey⟩ := ParsedReport.of_findKey?_eq_some hg
    obtain ⟨rfl, rfl⟩ := Prod.mk.inj hkey
    obtain ⟨p, hp⟩ := exists_packageIds db hmem
    have hget : (db.package.internAll (packageKeys report.report)).get? g.packageKey = some p :=
      get?_package_of_packageIds hp
    rw [hget, Option.bind_some, get?_finding_of_mem hdb.package report hmem hget,
      hdb.get?_finding_internAll hget]
  | none =>
    cases hp : (db.package.internAll (packageKeys report.report)).get? k with
    | none =>
      have hk : db.package.get? k = none := by
        rw [Option.eq_none_iff_forall_ne_some]
        intro p hk
        rw [Surrogate.get?_internAll_of_get? hk] at hp
        cases hp
      show none = rowAt db i (c, k)
      rw [rowAt, hk]
      rfl
    | some p =>
      rw [Option.bind_some, get?_finding_of_notMem (notMem_writtenRows hdb.package hp hg),
        hdb.get?_finding_internAll hp]

/-- A success of another image changes no row. -/
theorem rowAt_recordSuccess_of_ne (hdb : WellFormed db) (report : ParsedReport) (hj : j ≠ i)
    (key : CveId × PackageKey) :
    rowAt (recordSuccess db i image job report m) j key = rowAt db j key := by
  have hrowAt : rowAt (recordSuccess db i image job report m) j key
      = ((db.package.internAll (packageKeys report)).get? key.2).bind fun p =>
          (recordSuccess db i image job report m).finding.get? ⟨j, key.1, p⟩ := rfl
  rw [hrowAt]
  cases hp : (db.package.internAll (packageKeys report)).get? key.2 with
  | none =>
    have hk : db.package.get? key.2 = none := by
      rw [Option.eq_none_iff_forall_ne_some]
      intro p hk
      rw [Surrogate.get?_internAll_of_get? hk] at hp
      cases hp
    show none = rowAt db j key
    rw [rowAt, hk]
    rfl
  | some p => rw [Option.bind_some, get?_finding_of_ne hj, hdb.get?_finding_internAll hp]

/-! ### Histories -/

/-- What a call adds to the history of image `i`: the run of a success and its report. -/
def Call.recorded (db : Db) (i : ImageId) : Call → List (RunId × AcceptedReport)
  | .success j _ report _ =>
    if j = i ∧ (db.image.get? i).isSome then [(db.scanRun.next, report)] else []
  | _ => []

/-- The successful runs of an image with their reports, oldest first. -/
def history (i : ImageId) (db : Db) : List Call → List (RunId × AcceptedReport)
  | [] => []
  | call :: calls => call.recorded db i ++ history i (call.commit db) calls

theorem history_concat (i : ImageId) (db : Db) (calls : List Call) (call : Call) :
    history i db (calls ++ [call])
      = history i db calls ++ call.recorded (runCalls db calls) i := by
  induction calls generalizing db with
  | nil => simp [history]
  | cons c calls ih =>
    rw [List.cons_append, history, history, ih, runCalls_cons, List.append_assoc]

/-- The runs that reported a key, with what they reported. -/
def sightings (key : CveId × PackageKey) (h : List (RunId × AcceptedReport)) :
    List (RunId × ParsedFinding) :=
  h.filterMap fun e => (e.2.report.findKey? key).map fun f => (e.1, f)

/-- The row a list of sightings calls for: the first one gives the first run, the last one
everything else. -/
def expectedRow (s : List (RunId × ParsedFinding)) : Option Finding :=
  s.getLast?.map fun last =>
    { fixedVersion := last.2.fixedVersion
      severity := last.2.severity
      severityRank := last.2.severity.rank
      firstSeenRunId := (s.head?.map Prod.fst).getD last.1
      lastSeenRunId := last.1 }

/-- One more sighting is one more upsert. -/
theorem expectedRow_concat (s : List (RunId × ParsedFinding)) (r : RunId) (f : ParsedFinding) :
    expectedRow (s ++ [(r, f)]) = some (upsertFinding (newFinding r f) (expectedRow s)) := by
  cases hs : s.getLast? with
  | none =>
    rw [List.getLast?_eq_none_iff] at hs
    subst hs
    rfl
  | some last =>
    obtain ⟨first, hfirst⟩ : ∃ first, s.head? = some first := by
      cases s with
      | nil => cases hs
      | cons a s => exact ⟨a, rfl⟩
    rw [expectedRow, List.getLast?_concat, expectedRow, hs]
    simp [hfirst, upsertFinding, newFinding]

theorem sightings_concat (key : CveId × PackageKey) (h : List (RunId × AcceptedReport)) (r : RunId)
    (report : AcceptedReport) :
    sightings key (h ++ [(r, report)])
      = sightings key h ++ ((report.report.findKey? key).map fun f => (r, f)).toList := by
  simp only [sightings, List.filterMap_append, List.filterMap_cons, List.filterMap_nil]
  cases report.report.findKey? key <;> rfl

theorem Call.recorded_of_not_success {call : Call}
    (h : ∀ i job report m, call ≠ .success i job report m) (db : Db) (i : ImageId) :
    call.recorded db i = [] := by
  cases call with
  | success j job report m => exact absurd rfl (h j job report m)
  | skip | failure => rfl

theorem Call.recorded_of_get?_eq_none {call : Call} (h : db.image.get? call.imageId = none)
    (i : ImageId) : call.recorded db i = [] := by
  cases call with
  | success j job report m =>
    have hnot : ¬ (j = i ∧ (db.image.get? i).isSome) := by
      rintro ⟨rfl, hsome⟩
      rw [Call.imageId] at h
      rw [h] at hsome
      cases hsome
    exact if_neg hnot
  | skip | failure => rfl

/-- One call moves a row as it moves the history. -/
theorem rowAt_commit (hdb : WellFormed db) (call : Call) (i : ImageId) (key : CveId × PackageKey)
    {h : List (RunId × AcceptedReport)} (hrow : rowAt db i key = expectedRow (sightings key h)) :
    rowAt (call.commit db) i key = expectedRow (sightings key (h ++ call.recorded db i)) := by
  rcases Call.commit_cases db call with ⟨hnone, heq⟩ | ⟨j, image, job, report, m, rfl, hj, heq⟩ |
    ⟨image, run, f, hnot, -, -, -, -, -, heq⟩
  · rw [heq, Call.recorded_of_get?_eq_none hnone, List.append_nil, hrow]
  · rw [heq]
    by_cases hji : j = i
    · subst hji
      have hrec : (Call.success j job report m).recorded db j = [(db.scanRun.next, report)] :=
        if_pos ⟨rfl, by rw [hj]; rfl⟩
      rw [hrec, sightings_concat, rowAt_recordSuccess hdb]
      cases report.report.findKey? key with
      | none => simpa using hrow
      | some g =>
        rw [hrow]
        exact (expectedRow_concat _ _ _).symm
    · have hrec : (Call.success j job report m).recorded db i = [] := if_neg fun h => hji h.1
      rw [hrec, List.append_nil, rowAt_recordSuccess_of_ne hdb _ (Ne.symm hji), hrow]
  · rw [heq, Call.recorded_of_not_success hnot, List.append_nil, ← hrow]
    rfl

/-- **Every row is the one its history calls for.** -/
theorem rowAt_runCalls (hdb : db.Unscanned) (calls : List Call) (i : ImageId)
    (key : CveId × PackageKey) :
    rowAt (runCalls db calls) i key = expectedRow (sightings key (history i db calls)) := by
  induction calls using List.reverseRecOn with
  | nil =>
    show rowAt db i key = none
    rw [rowAt, hdb.package]
    rfl
  | append_singleton calls call ih =>
    rw [runCalls_concat, history_concat]
    exact rowAt_commit (wellFormed_runCalls (wellFormed_of_unscanned hdb) calls) call i key ih

/-! ### The pointer and the runs -/

/-- The pointer follows the history through one call. -/
theorem pointer_commit (call : Call) (i : ImageId) {h : List (RunId × AcceptedReport)}
    (hpointer : ∀ image, db.image.get? i = some image →
      image.currentScanRunId = h.getLast?.map Prod.fst)
    {image : Image} (hi : (call.commit db).image.get? i = some image) :
    image.currentScanRunId = (h ++ call.recorded db i).getLast?.map Prod.fst := by
  rcases Call.commit_cases db call with ⟨hnone, heq⟩ | ⟨j, image', job, report, m, rfl, hj, heq⟩ |
    ⟨image', run, f, hnot, -, hf, -, -, -, heq⟩
  · rw [heq] at hi
    rw [Call.recorded_of_get?_eq_none hnone, List.append_nil]
    exact hpointer image hi
  · rw [heq, get?_image_recordSuccess hj] at hi
    by_cases hji : i = j
    · subst hji
      have hrec : (Call.success i job report m).recorded db i = [(db.scanRun.next, report)] :=
        if_pos ⟨rfl, by rw [hj]; rfl⟩
      rw [if_pos rfl] at hi
      rw [hrec, List.getLast?_concat, ← Option.some.inj hi]
      rfl
    · have hrec : (Call.success j job report m).recorded db i = [] :=
        if_neg fun h => hji h.1.symm
      rw [if_neg hji] at hi
      rw [hrec, List.append_nil]
      exact hpointer image hi
  · have hsame := currentScanRunId_recordQuiet hf db call.imageId run i
    rw [← heq, hi] at hsame
    obtain ⟨old, hold, hcur⟩ := Option.map_eq_some_iff.mp hsame.symm
    rw [Call.recorded_of_not_success hnot, List.append_nil, ← hcur]
    exact hpointer old hold

/-- The image points at the last run of its history. -/
theorem pointer_runCalls (hdb : db.Unscanned) (calls : List Call) (i : ImageId) {image : Image}
    (hi : (runCalls db calls).image.get? i = some image) :
    image.currentScanRunId = (history i db calls).getLast?.map Prod.fst := by
  induction calls using List.reverseRecOn generalizing image with
  | nil => exact hdb.pointer i image hi
  | append_singleton calls call ih =>
    rw [runCalls_concat] at hi
    rw [history_concat]
    exact pointer_commit call i (fun _ h => ih h) hi

/-- A call adds the run it records, and no other, to the successes of an image. -/
theorem successOf_commit (call : Call) (i : ImageId) (r : RunId) :
    SuccessOf (call.commit db) i r
      ↔ SuccessOf db i r ∨ ∃ report, (r, report) ∈ call.recorded db i := by
  rcases Call.commit_cases db call with ⟨hnone, heq⟩ | ⟨j, image', job, report, m, rfl, hj, heq⟩ |
    ⟨image', run, f, hnot, -, -, -, hstatus, -, heq⟩
  · rw [heq, Call.recorded_of_get?_eq_none hnone]
    simp
  · rw [heq]
    constructor
    · rintro ⟨run, hrun, hi, hs⟩
      rw [get?_scanRun_recordSuccess] at hrun
      split at hrun
      · next hr =>
        have hji : j = i := by rw [← hi, ← Option.some.inj hrun]; rfl
        right
        refine ⟨report, ?_⟩
        rw [Call.recorded, if_pos ⟨hji, by rw [← hji, hj]; rfl⟩, hr]
        exact List.mem_singleton_self _
      · exact Or.inl ⟨run, hrun, hi, hs⟩
    · rintro (h | ⟨report', h⟩)
      · exact h.recordSuccess
      · rw [Call.recorded] at h
        split at h
        · next hji =>
          rw [← hji.1, (Prod.mk.inj (List.mem_singleton.mp h)).1]
          exact successOf_next
        · cases h
  · rw [heq, Call.recorded_of_not_success hnot]
    constructor
    · rintro ⟨run', hrun, hi, hs⟩
      refine Or.inl ⟨run', ?_, hi, hs⟩
      have hinsert : (recordQuiet db call.imageId run f).scanRun = db.scanRun.insert run := rfl
      rw [hinsert, Serial.get?_insert] at hrun
      split at hrun
      · rw [← Option.some.inj hrun] at hs
        exact absurd hs hstatus
      · exact hrun
    · rintro (h | ⟨report', h⟩)
      · exact h.recordQuiet run f
      · cases h

/-- The successful runs of an image are those of its history. -/
theorem successOf_runCalls (hdb : db.Unscanned) (calls : List Call) (i : ImageId) (r : RunId) :
    SuccessOf (runCalls db calls) i r ↔ ∃ report, (r, report) ∈ history i db calls := by
  induction calls using List.reverseRecOn with
  | nil =>
    constructor
    · rintro ⟨run, hrun, -⟩
      rw [runCalls_nil, hdb.scanRun] at hrun
      cases hrun
    · rintro ⟨report, h⟩
      cases h
  | append_singleton calls call ih =>
    rw [runCalls_concat, history_concat, successOf_commit, ih]
    simp only [List.mem_append, exists_or]

/-! ### Order of the runs -/

/-- The sequence never goes back, and a recorded run is the number it was at. -/
theorem next_commit (db : Db) (call : Call) :
    db.scanRun.next ≤ (call.commit db).scanRun.next ∧
    ∀ i, ∀ e ∈ call.recorded db i,
      e.1 = db.scanRun.next ∧ db.scanRun.next < (call.commit db).scanRun.next := by
  rcases Call.commit_cases db call with ⟨hnone, heq⟩ | ⟨j, image', job, report, m, rfl, hj, heq⟩ |
    ⟨image', run, f, hnot, -, -, -, -, -, heq⟩
  · rw [heq]
    refine ⟨le_rfl, fun i e he => ?_⟩
    rw [Call.recorded_of_get?_eq_none hnone] at he
    cases he
  · have hnext : ((Call.success j job report m).commit db).scanRun.next = db.scanRun.next + 1 := by
      rw [heq, scanRun_recordSuccess, Serial.next_update, Serial.next_insert]
    refine ⟨by omega, fun i e he => ⟨?_, by omega⟩⟩
    rw [Call.recorded] at he
    split at he
    · rw [List.mem_singleton.mp he]
    · cases he
  · have hnext : (call.commit db).scanRun.next = db.scanRun.next + 1 := by
      rw [heq]
      exact Serial.next_insert db.scanRun run
    refine ⟨by omega, fun i e he => ?_⟩
    rw [Call.recorded_of_not_success hnot] at he
    cases he

theorem le_of_mem_history (calls : List Call) (i : ImageId) (db : Db) :
    ∀ e ∈ history i db calls, db.scanRun.next ≤ e.1 := by
  induction calls generalizing db with
  | nil => intro e he; cases he
  | cons call calls ih =>
    intro e he
    obtain ⟨hle, hrec⟩ := next_commit db call
    rcases List.mem_append.mp he with he | he
    · exact (hrec i e he).1.ge
    · exact hle.trans (ih (call.commit db) e he)

/-- Runs are numbered in commit order. -/
theorem pairwise_history (calls : List Call) (i : ImageId) (db : Db) :
    (history i db calls).Pairwise fun a b => a.1 < b.1 := by
  induction calls generalizing db with
  | nil => exact List.Pairwise.nil
  | cons call calls ih =>
    obtain ⟨-, hrec⟩ := next_commit db call
    refine List.pairwise_append.mpr ⟨?_, ih (call.commit db), fun a ha b hb => ?_⟩
    · cases call with
      | success j job report m =>
        rw [Call.recorded]
        split
        · exact List.pairwise_singleton _ _
        · exact List.Pairwise.nil
      | skip | failure => exact List.Pairwise.nil
    · have hlt := (hrec i a ha).2
      have hle := le_of_mem_history calls i (call.commit db) b hb
      show a.1 < b.1
      rw [(hrec i a ha).1]
      exact lt_of_lt_of_le hlt hle

/-! ### Currency -/

/-- With distinct runs, the row a history calls for carries its last run exactly when its last
report names the key. -/
theorem lastSeen_eq_last_iff {h : List (RunId × AcceptedReport)}
    (hh : h.Pairwise fun a b => a.1 < b.1) (key : CveId × PackageKey) :
    (∃ f, expectedRow (sightings key h) = some f ∧
        h.getLast?.map Prod.fst = some f.lastSeenRunId)
      ↔ ∃ last, h.getLast? = some last ∧ ∃ g ∈ last.2.report.findings, g.key = key := by
  induction h using List.reverseRecOn with
  | nil => simp [sightings, expectedRow]
  | append_singleton h e _ =>
    obtain ⟨r, report⟩ := e
    have hlast : (h ++ [(r, report)]).getLast? = some (r, report) := List.getLast?_concat
    rw [hlast, sightings_concat]
    cases hg : report.report.findKey? key with
    | some g =>
      obtain ⟨hmem, hkey⟩ := ParsedReport.of_findKey?_eq_some hg
      refine iff_of_true ⟨_, expectedRow_concat _ r g, ?_⟩ ⟨_, rfl, g, hmem, hkey⟩
      rw [lastSeenRunId_upsertFinding]
      rfl
    | none =>
      refine iff_of_false ?_ ?_
      · rintro ⟨f, hf, hr⟩
        -- the row was last seen by an older run
        simp only [Option.map_none, Option.toList_none, List.append_nil] at hf
        obtain ⟨s, hs, rfl⟩ := Option.map_eq_some_iff.mp hf
        obtain ⟨e, he, hse⟩ := List.mem_filterMap.mp (List.mem_of_getLast? hs)
        obtain ⟨g, -, rfl⟩ := Option.map_eq_some_iff.mp hse
        have hlt : e.1 < r :=
          (List.pairwise_append.mp hh).2.2 e he (r, report) (List.mem_singleton_self _)
        have heq : r = e.1 := Option.some.inj hr
        exact absurd heq hlt.ne'
      · rintro ⟨last, hlast, g, hmem, hkey⟩
        rw [← Option.some.inj hlast] at hmem
        exact ParsedReport.findKey?_eq_none.mp hg g hmem hkey

/-! ### Nothing is deleted -/

theorem mem_keys_finding_commit (call : Call) {key : FindingKey} (h : key ∈ db.finding.keys) :
    key ∈ (call.commit db).finding.keys := by
  rcases Call.commit_cases db call with ⟨-, heq⟩ | ⟨j, image', job, report, m, -, -, heq⟩ |
    ⟨image', run, f, -, -, -, -, -, -, heq⟩
  · rw [heq]
    exact h
  · rw [heq, finding_recordSuccess, Dict.mem_keys_upsertAll]
    exact Or.inr h
  · rw [heq]
    exact h

/-- No finding row is ever deleted. -/
theorem mem_keys_finding_runCalls (calls : List Call) {key : FindingKey}
    (h : key ∈ db.finding.keys) : key ∈ (runCalls db calls).finding.keys :=
  runCalls_invariant (P := fun db => key ∈ db.finding.keys)
    (fun _ call h => mem_keys_finding_commit call h) h calls

/-- **The finding history law.** After any serial history of calls, the findings of an image are
the rows its successful runs call for, one a key; they are current exactly when the last of these
runs reported them; and no later call deletes one. -/
theorem finding_history_law (hdb : db.Unscanned) (calls : List Call) (i : ImageId) :
    (∀ key, rowAt (runCalls db calls) i key
      = expectedRow (sightings key (history i db calls))) ∧
    (∀ c p f, (runCalls db calls).finding.get? ⟨i, c, p⟩ = some f →
      ∃! k, (runCalls db calls).package.get? k = some p ∧
        sightings (c, k) (history i db calls) ≠ []) ∧
    (∀ r, SuccessOf (runCalls db calls) i r ↔ ∃ report, (r, report) ∈ history i db calls) ∧
    ((history i db calls).Pairwise fun a b => a.1 < b.1) ∧
    (∀ image, (runCalls db calls).image.get? i = some image → ∀ key,
      (∃ f, rowAt (runCalls db calls) i key = some f ∧
          image.currentScanRunId = some f.lastSeenRunId)
        ↔ ∃ last, (history i db calls).getLast? = some last ∧
            ∃ g ∈ last.2.report.findings, g.key = key) ∧
    (∀ more key, key ∈ (runCalls db calls).finding.keys →
      key ∈ (runCalls db (calls ++ more)).finding.keys) := by
  have hwf := wellFormed_runCalls (wellFormed_of_unscanned hdb) calls
  refine ⟨rowAt_runCalls hdb calls i, fun c p f hf => ?_, successOf_runCalls hdb calls i,
    pairwise_history calls i db, fun image hi key => ?_, fun more key hkey => ?_⟩
  · obtain ⟨k, hk, hrow⟩ := hwf.exists_rowAt hf
    refine ⟨k, ⟨hk, fun hnil => ?_⟩, fun k' hk' => hwf.package.injective k' k p hk'.1 hk⟩
    rw [rowAt_runCalls hdb, hnil] at hrow
    cases hrow
  · rw [pointer_runCalls hdb calls i hi, rowAt_runCalls hdb]
    exact lastSeen_eq_last_iff (pairwise_history calls i db) key
  · rw [runCalls_append]
    exact mem_keys_finding_runCalls more hkey

/-- Two scans of `nginx:1.19` with a skip between them: one finding turns critical, the other
disappears and keeps the run that saw it last. -/
def rescanned : List Call :=
  [.success 1 none (.debian [("CVE-1", "openssl", "HIGH"), ("CVE-2", "zlib", "LOW")])
      ⟨none, none, none, none, 0, second⟩,
    .skip 1 none ⟨none, none, none, none, 0, 2 * second⟩,
    .success 1 none (.debian [("CVE-1", "openssl", "CRITICAL")])
      ⟨none, none, none, none, 0, 3 * second⟩]

theorem finding_history_law_rescanned :
    rowAt (runCalls (Db.seeded 0 briefImages) rescanned) 1 ("CVE-1", ⟨"openssl", "1.1.1", "debian"⟩)
      = some ⟨none, .critical, 4, 1, 3⟩ ∧
    rowAt (runCalls (Db.seeded 0 briefImages) rescanned) 1 ("CVE-2", ⟨"zlib", "1.1.1", "debian"⟩)
      = some ⟨none, .low, 1, 1, 1⟩ := by
  obtain ⟨hrow, -⟩ := finding_history_law (unscanned_seeded 0 briefImages) rescanned 1
  refine ⟨(hrow _).trans ?_, (hrow _).trans ?_⟩
  · decide
  · decide

end Persist

end ContainerScanner
