import ContainerScanner.Api.Listings

/-!
# One request, three statements

`image_cves` remembers `current_scan_run_id` and then counts and selects by the remembered run. A
success that commits in between advances `last_seen_run_id` on every finding it reports again, so
these rows drop out of what the later statements see. The response then describes no state that
was ever committed, unless none of the rows dropped out, or all of them did while some state of the
request had none to show.

## Main definitions

* `matchingCurrent` — the current findings of an image under a filter
* `reReported` — a finding some later report names again
* `SnapshotConsistent` — the response is that of one committed state

## Main results

* `filter_runCalls` — what a remembered run still selects after further successes
* `snapshotConsistent_iff` — exactly when every page is that of one committed state
-/

namespace ContainerScanner

open Foundation

namespace Persist

/-- The call records a success of the image. -/
def Call.IsSuccessOf (i : ImageId) (call : Call) : Prop :=
  ∃ job report m, call = .success i job report m

/-- Does the report of the call name the key? -/
def Call.names (key : CveId × PackageKey) : Call → Bool
  | .success _ _ report _ => (report.report.findKey? key).isSome
  | _ => false

end Persist

namespace Api

open Persist

variable {db : Db} {i : ImageId} {image : Image} {job : Option JobId} {m : RunMetadata}

/-- Does a report of the calls name the finding again? -/
def reReported (db : Db) (calls : List Call) (e : FindingKey × Finding) : Bool :=
  (db.package.keyOf? e.1.packageId).any fun k => calls.any (Call.names (e.1.cveId, k))

/-- The findings a filter selects while the image is as it stands. -/
def matchingCurrent (db : Db) (i : ImageId) (severity : Option Severity) :
    List (FindingKey × Finding) :=
  match (db.image.get? i).bind Image.currentScanRunId with
  | none => []
  | some runId => db.finding.entries.filter (Conditions.hold ⟨i, runId, severity⟩)

/-- What the endpoint lists while the image is as it stands. -/
def currentListing (db : Db) (i : ImageId) (severity : Option Severity) : List CveInImage :=
  ((matchingCurrent db i severity).insertionSort worstFirst).filterMap (cveInImage db)

/-! ### One success -/

theorem commit_success (hi : db.image.get? i = some image) (report : AcceptedReport) :
    (Call.success i job report m).commit db = recordSuccess db i image job report.report m := by
  have hget : db.image.get? (Call.success i job report m).imageId = some image := hi
  rw [Call.commit, hget]

/-- The rows a success writes over are those its report names again. -/
theorem mem_writtenRows_iff_reReported (hdb : WellFormed db) {e : FindingKey × Finding}
    (he : e ∈ db.finding.entries) (hei : e.1.imageId = i) (job : Option JobId)
    (report : AcceptedReport) (m : RunMetadata) :
    e.1 ∈ (writtenRows db i report.report).map Prod.fst
      ↔ reReported db [.success i job report m] e = true := by
  obtain ⟨⟨i', c, p⟩, f⟩ := e
  obtain ⟨k, hk⟩ := hdb.findingPackage _ f (Dict.get?_eq_some_iff.mpr he)
  have hkeyOf : db.package.keyOf? p = some k := hdb.package.keyOf?_eq_some.mpr hk
  have hnames : reReported db [.success i job report m] (⟨i', c, p⟩, f)
      = (report.report.findKey? (c, k)).isSome := by
    simp [reReported, hkeyOf, Call.names]
  have hp := Surrogate.get?_internAll_of_get? hk (packageKeys report.report)
  have hi' : i' = i := hei
  subst hi'
  rw [hnames]
  constructor
  · intro hmem
    by_contra hnone
    rw [Bool.not_eq_true, Option.isSome_eq_false_iff, Option.isNone_iff_eq_none] at hnone
    exact notMem_writtenRows hdb.package hp hnone hmem
  · intro hsome
    obtain ⟨g, hg⟩ := Option.isSome_iff_exists.mp hsome
    obtain ⟨hmem, hkey⟩ := ParsedReport.of_findKey?_eq_some hg
    obtain ⟨rfl, rfl⟩ := Prod.mk.inj hkey
    exact List.mem_map.mpr ⟨_, mem_writtenRows.mpr ⟨g, hmem, p, hp, rfl, rfl⟩, rfl⟩

/-- What an older run still selects after a success: what it selected, less the rows the report
names again. -/
theorem filter_recordSuccess (hdb : WellFormed db) (report : AcceptedReport) {r : RunId}
    (hr : r < db.scanRun.next) (severity : Option Severity) :
    (recordSuccess db i image job report.report m).finding.entries.filter
        (Conditions.hold ⟨i, r, severity⟩)
      = (db.finding.entries.filter (Conditions.hold ⟨i, r, severity⟩)).filter fun e =>
          !reReported db [.success i job report m] e := by
  have hreject : ∀ row ∈ writtenRows db i report.report, ∀ old,
      Conditions.hold ⟨i, r, severity⟩ (row.1, upsertFinding row.2 old) = false := by
    rintro ⟨key, f⟩ hrow old
    obtain ⟨g, -, p, -, -, rfl⟩ := mem_writtenRows.mp hrow
    have hlast : (upsertFinding (newFinding db.scanRun.next g) old).lastSeenRunId
        = db.scanRun.next := lastSeenRunId_upsertFinding _ old
    have hne : db.scanRun.next ≠ r := hr.ne'
    simp [Conditions.hold, hlast, hne]
  rw [finding_recordSuccess, Dict.filter_upsertAll hreject, List.filter_filter]
  refine List.filter_congr fun e he => ?_
  by_cases hold : Conditions.hold ⟨i, r, severity⟩ e = true
  · have hei : e.1.imageId = i := by
      simp only [Conditions.hold, Bool.and_eq_true, decide_eq_true_eq] at hold
      exact hold.1.1
    have hiff := mem_writtenRows_iff_reReported hdb he hei job report m
    rw [hold, Bool.true_and, Bool.and_true]
    by_cases hmem : e.1 ∈ (writtenRows db i report.report).map Prod.fst
    · simp [hmem, hiff.mp hmem]
    · have hnot : reReported db [.success i job report m] e = false :=
        Bool.eq_false_iff.mpr fun h => hmem (hiff.mpr h)
      simp [hmem, hnot]
  · rw [Bool.not_eq_true] at hold
    rw [hold, Bool.false_and, Bool.and_false]

/-! ### Many successes -/

/-- The package of a stored finding keeps its key. -/
theorem keyOf?_recordSuccess (hdb : WellFormed db) {report : ParsedReport} {p : PackageId}
    {k : PackageKey} (hk : db.package.keyOf? p = some k) :
    (recordSuccess db i image job report m).package.keyOf? p = some k := by
  rw [package_recordSuccess, (hdb.package.internAll _).keyOf?_eq_some]
  exact Surrogate.get?_internAll_of_get? (hdb.package.keyOf?_eq_some.mp hk) _

theorem reReported_recordSuccess (hdb : WellFormed db) {e : FindingKey × Finding}
    (he : e ∈ db.finding.entries) (report : ParsedReport) (calls : List Call) :
    reReported (recordSuccess db i image job report m) calls e = reReported db calls e := by
  obtain ⟨k, hk⟩ := exists_keyOf? hdb (Dict.get?_eq_some_iff.mpr he)
  rw [reReported, reReported, hk, keyOf?_recordSuccess hdb hk]

theorem reReported_cons (db : Db) (call : Call) (calls : List Call) (e : FindingKey × Finding) :
    reReported db (call :: calls) e = (reReported db [call] e || reReported db calls e) := by
  rw [reReported, reReported, reReported]
  cases db.package.keyOf? e.1.packageId <;> simp

theorem reReported_append (db : Db) (calls calls' : List Call) (e : FindingKey × Finding) :
    reReported db (calls ++ calls') e = (reReported db calls e || reReported db calls' e) := by
  rw [reReported, reReported, reReported]
  cases db.package.keyOf? e.1.packageId <;> simp

/-- **What a remembered run still selects** after further successes of the image: what it
selected, less the rows that were named again. -/
theorem filter_runCalls (hdb : WellFormed db) (hi : db.image.get? i = some image)
    {calls : List Call} (hcalls : ∀ call ∈ calls, call.IsSuccessOf i) {r : RunId}
    (hr : r < db.scanRun.next) (severity : Option Severity) :
    (runCalls db calls).finding.entries.filter (Conditions.hold ⟨i, r, severity⟩)
      = (db.finding.entries.filter (Conditions.hold ⟨i, r, severity⟩)).filter fun e =>
          !reReported db calls e := by
  induction calls generalizing db image with
  | nil =>
    have hnone : ∀ e, reReported db [] e = false := by
      intro e
      rw [reReported]
      cases db.package.keyOf? e.1.packageId <;> simp
    simp [hnone]
  | cons call calls ih =>
    obtain ⟨job, report, m, rfl⟩ := hcalls call List.mem_cons_self
    have hnext : db.scanRun.next ≤ (recordSuccess db i image job report.report m).scanRun.next := by
      rw [scanRun_recordSuccess, Serial.next_update, Serial.next_insert]
      exact Nat.le_succ _
    rw [runCalls_cons, commit_success hi,
      ih (wellFormed_recordSuccess hdb hi report)
        (by rw [get?_image_recordSuccess hi, if_pos rfl])
        (fun c hc => hcalls c (List.mem_cons_of_mem _ hc)) (lt_of_lt_of_le hr hnext),
      filter_recordSuccess hdb report hr, List.filter_filter]
    refine List.filter_congr fun e he => ?_
    rw [reReported_recordSuccess hdb (List.mem_filter.mp he).1, reReported_cons db _ calls,
      Bool.not_or, Bool.and_comm]

theorem lastSeen_le_commit (hdb : WellFormed db) (call : Call) {key : FindingKey} {f : Finding}
    (hf : db.finding.get? key = some f) :
    ∃ f', (call.commit db).finding.get? key = some f' ∧
      f.lastSeenRunId ≤ f'.lastSeenRunId := by
  rcases Call.commit_cases db call with ⟨-, heq⟩ | ⟨j, image, job, report, m, -, -, heq⟩ |
    ⟨image, run, g, -, -, -, -, -, -, heq⟩
  · rw [heq]
    exact ⟨f, hf, le_rfl⟩
  · rw [heq]
    have hkey : key ∈ (recordSuccess db j image job report.report m).finding.keys := by
      rw [finding_recordSuccess, Dict.mem_keys_upsertAll]
      exact Or.inr (Dict.mem_keys_of_get? hf)
    obtain ⟨f', hf'⟩ := Dict.mem_keys_iff.mp hkey
    refine ⟨f', hf', ?_⟩
    rcases cases_finding_recordSuccess hdb.package hf' with ⟨-, hold⟩ | ⟨g, -, p, -, rfl, rfl⟩
    · rw [hf] at hold
      rw [Option.some.inj hold]
    · rw [lastSeenRunId_upsertFinding]
      exact (hdb.lastSeen_lt hf).le
  · rw [heq]
    exact ⟨f, hf, le_rfl⟩

/-- A row that was seen is never seen earlier. -/
theorem lastSeen_le_runCalls (hdb : WellFormed db) (calls : List Call) {key : FindingKey}
    {f : Finding} (hf : db.finding.get? key = some f) :
    ∃ f', (runCalls db calls).finding.get? key = some f' ∧
      f.lastSeenRunId ≤ f'.lastSeenRunId := by
  refine (runCalls_invariant (P := fun db => WellFormed db ∧ ∃ f',
    db.finding.get? key = some f' ∧ f.lastSeenRunId ≤ f'.lastSeenRunId) ?_
    ⟨hdb, f, hf, le_rfl⟩ calls).2
  rintro db' call ⟨hdb', f', hf', hle⟩
  obtain ⟨f'', hf'', hle'⟩ := lastSeen_le_commit hdb' call hf'
  exact ⟨wellFormed_commit hdb' call, f'', hf'', hle.trans hle'⟩

theorem next_le_runCalls (db : Db) (calls : List Call) :
    db.scanRun.next ≤ (runCalls db calls).scanRun.next :=
  runCalls_invariant (P := fun db' => db.scanRun.next ≤ db'.scanRun.next)
    (fun db' call hle => hle.trans (next_commit db' call).1) le_rfl calls

/-- After a success the pointer names a run that was not there before. -/
theorem pointer_ge (hi : db.image.get? i = some image) {calls : List Call}
    (hcalls : ∀ call ∈ calls, call.IsSuccessOf i) (hne : calls ≠ []) :
    ∃ r, ((runCalls db calls).image.get? i).bind Image.currentScanRunId = some r ∧
      db.scanRun.next ≤ r := by
  obtain ⟨init, last, rfl⟩ := (List.eq_nil_or_concat' calls).resolve_left hne
  obtain ⟨job, report, m, rfl⟩ := hcalls last (by simp)
  have hmem : i ∈ (runCalls db init).image.keys := by
    rw [keys_image_runCalls]
    exact Dict.mem_keys_of_get? hi
  obtain ⟨image', hi'⟩ := Dict.mem_keys_iff.mp hmem
  refine ⟨(runCalls db init).scanRun.next, ?_, next_le_runCalls db init⟩
  rw [runCalls_concat, commit_success hi', get?_image_recordSuccess hi', if_pos rfl]
  rfl

/-! ### Items -/

/-- The title an item of the CVE shows. -/
def titleOf (db : Db) (c : CveId) : Option String := (db.cve.get? c).bind Cve.title

theorem get?_scanRun_commit {r : RunId} {run : ScanRun} (h : db.scanRun.get? r = some run)
    (call : Call) : (call.commit db).scanRun.get? r = some run := by
  rcases Call.commit_cases db call with ⟨-, heq⟩ | ⟨j, image, job, report, m, -, -, heq⟩ |
    ⟨image, new, g, -, -, -, -, -, -, heq⟩
  · rw [heq]
    exact h
  · rw [heq, get?_scanRun_recordSuccess, if_neg (Serial.lt_next h).ne]
    exact h
  · rw [heq]
    exact Serial.get?_insert_of_get? h new

theorem get?_scanRun_runCalls {r : RunId} {run : ScanRun} (h : db.scanRun.get? r = some run)
    (calls : List Call) : (runCalls db calls).scanRun.get? r = some run :=
  runCalls_invariant (P := fun db => db.scanRun.get? r = some run)
    (fun _ call h => get?_scanRun_commit h call) h calls

theorem get?_package_commit {k : PackageKey} {p : PackageId} (h : db.package.get? k = some p)
    (call : Call) : (call.commit db).package.get? k = some p := by
  rcases Call.commit_cases db call with ⟨-, heq⟩ | ⟨j, image, job, report, m, -, -, heq⟩ |
    ⟨image, new, g, -, -, -, -, -, -, heq⟩
  · rw [heq]
    exact h
  · rw [heq]
    exact Surrogate.get?_internAll_of_get? h _
  · rw [heq]
    exact h

theorem get?_package_runCalls {k : PackageKey} {p : PackageId} (h : db.package.get? k = some p)
    (calls : List Call) : (runCalls db calls).package.get? k = some p :=
  runCalls_invariant (P := fun db => db.package.get? k = some p)
    (fun _ call h => get?_package_commit h call) h calls

/-- A stored finding makes the same item later, up to the title. -/
theorem cveInImage_runCalls (hdb : WellFormed db) {e : FindingKey × Finding}
    (he : e ∈ db.finding.entries) (calls : List Call) :
    cveInImage (runCalls db calls) e = cveInImage db e
      ↔ titleOf (runCalls db calls) e.1.cveId = titleOf db e.1.cveId := by
  have hafter := wellFormed_runCalls hdb calls
  have hf : db.finding.get? e.1 = some e.2 := Dict.get?_eq_some_iff.mpr he
  obtain ⟨f', hf', -⟩ := lastSeen_le_runCalls hdb calls hf
  obtain ⟨cve, hcve⟩ := hdb.findingCve _ _ hf
  obtain ⟨cve', hcve'⟩ := hafter.findingCve _ _ hf'
  obtain ⟨k, hk⟩ := hdb.findingPackage _ _ hf
  obtain ⟨firstRun, hfirst, -⟩ := hdb.firstSeen _ _ hf
  obtain ⟨lastRun, hlast, -⟩ := hdb.lastSeen _ _ hf
  have hkeyOf := hdb.package.keyOf?_eq_some.mpr hk
  have hkeyOf' := hafter.package.keyOf?_eq_some.mpr (get?_package_runCalls hk calls)
  have hfirst' := get?_scanRun_runCalls hfirst calls
  have hlast' := get?_scanRun_runCalls hlast calls
  rw [titleOf, titleOf, hcve, hcve']
  simp [cveInImage, hcve, hcve', hkeyOf, hkeyOf', hfirst, hfirst', hlast, hlast']

theorem mem_selectFindings {conditions : Conditions} {item : CveInImage} :
    item ∈ selectFindings db conditions
      ↔ ∃ e ∈ db.finding.entries, conditions.hold e = true ∧ cveInImage db e = some item := by
  rw [selectFindings, List.mem_filterMap]
  constructor
  · rintro ⟨e, he, hitem⟩
    obtain ⟨hmem, hhold⟩ := List.mem_filter.mp ((List.mem_insertionSort _).mp he)
    exact ⟨e, hmem, hhold, hitem⟩
  · rintro ⟨e, hmem, hhold, hitem⟩
    exact ⟨e, (List.mem_insertionSort _).mpr (List.mem_filter.mpr ⟨hmem, hhold⟩), hitem⟩

/-- **No item is shown for an old run and for a newer one**: a row carries one run, and the newer
run's row never goes back. -/
theorem notMem_of_mem_selectFindings (hdb : WellFormed db) {calls more : List Call} {r r' : RunId}
    (hrr' : r < r') {severity : Option Severity} {item : CveInImage}
    (hold : item ∈ selectFindings (runCalls db (calls ++ more)) ⟨i, r, severity⟩) :
    item ∉ selectFindings (runCalls db calls) ⟨i, r', severity⟩ := by
  intro hnew
  obtain ⟨e, he, hhold, hitem⟩ := mem_selectFindings.mp hold
  obtain ⟨e', he', hhold', hitem'⟩ := mem_selectFindings.mp hnew
  simp only [Conditions.hold, Bool.and_eq_true, decide_eq_true_eq] at hhold hhold'
  have hcalls := wellFormed_runCalls hdb calls
  obtain ⟨hc, hk⟩ := of_cveInImage_eq_some hitem
  obtain ⟨hc', hk'⟩ := of_cveInImage_eq_some hitem'
  have hp := (wellFormed_runCalls hdb (calls ++ more)).package.keyOf?_eq_some.mp hk
  have hp' := hcalls.package.keyOf?_eq_some.mp hk'
  -- both rows are the row of the item's image, CVE and package
  rw [runCalls_append] at hp he
  rw [get?_package_runCalls hp' more] at hp
  have hkey : e.1 = e'.1 := by
    obtain ⟨⟨i₁, c₁, p₁⟩, f⟩ := e
    obtain ⟨⟨i₂, c₂, p₂⟩, f'⟩ := e'
    obtain rfl : i₁ = i := hhold.1.1
    obtain rfl : i₂ = i₁ := hhold'.1.1
    obtain rfl : c₁ = c₂ := hc.symm.trans hc'
    obtain rfl : p₂ = p₁ := Option.some.inj hp
    rfl
  obtain ⟨f, hf, hle⟩ := lastSeen_le_runCalls hcalls more (Dict.get?_eq_some_iff.mpr he')
  rw [← hkey, Dict.get?_eq_some_iff.mpr he] at hf
  rw [← Option.some.inj hf, hhold.1.2, hhold'.1.2] at hle
  exact absurd hrr' (Nat.not_lt.mpr hle)

/-! ### The response -/

/-- The response of three statements that read the states after `[]`, `first` and
`first ++ second`. -/
def response (db : Db) (first second : List Call) (name tag : String)
    (severity : Option Severity) (params : PageParams) : Except HttpError (Page CveInImage) :=
  imageCvesAt db (runCalls db first) (runCalls db (first ++ second)) name tag params severity

/-- The response is that of one state committed during the request. -/
def SnapshotConsistent (db : Db) (first second : List Call) (name tag : String)
    (severity : Option Severity) (params : PageParams) : Prop :=
  ∃ calls, calls <+: first ++ second ∧
    response db first second name tag severity params
      = imageCves (runCalls db calls) name tag params severity

/-- No matching finding is named again while the request runs, and no title changes. -/
def Undisturbed (db : Db) (calls : List Call) (i : ImageId) (severity : Option Severity) : Prop :=
  ∀ e ∈ matchingCurrent db i severity, reReported db calls e = false ∧
    titleOf (runCalls db calls) e.1.cveId = titleOf db e.1.cveId

/-- Every matching finding is named again before the count, and some state of the request has none
to show. -/
def Emptied (db : Db) (first second : List Call) (i : ImageId) (severity : Option Severity) :
    Prop :=
  (∀ e ∈ matchingCurrent db i severity, reReported db first e = true) ∧
    ∃ calls, calls <+: first ++ second ∧ matchingCurrent (runCalls db calls) i severity = []

/-- The endpoint on one state: a page of what it lists. -/
theorem imageCves_eq {name tag : String} (hfind : findImage db name tag = some (i, image))
    (hi : db.image.get? i = some image) (params : PageParams) (severity : Option Severity) :
    imageCves db name tag params severity
      = .ok ⟨paginate params (currentListing db i severity),
          (matchingCurrent db i severity).length, params.limit, params.offset⟩ := by
  rw [imageCves, imageCvesAt, hfind, currentListing, matchingCurrent, hi]
  cases hr : image.currentScanRunId with
  | none => simp [hr, paginate]
  | some r => simp [hr, selectFindings, countFindings]

theorem currentListing_eq {r : RunId}
    (hr : (db.image.get? i).bind Image.currentScanRunId = some r) (severity : Option Severity) :
    currentListing db i severity = selectFindings db ⟨i, r, severity⟩ := by
  rw [currentListing, matchingCurrent, hr]
  rfl

theorem length_currentListing (hdb : WellFormed db) (severity : Option Severity) :
    (currentListing db i severity).length = (matchingCurrent db i severity).length := by
  cases hr : (db.image.get? i).bind Image.currentScanRunId with
  | none => simp [currentListing, matchingCurrent, hr]
  | some r =>
    rw [currentListing_eq hr, length_selectFindings hdb, matchingCurrent, hr]
    rfl

/-- Pages that agree agree on the row at their offset. -/
theorem getElem?_eq_of_paginate_eq {α : Type} {limit offset : ℕ} (hlimit : 1 ≤ limit)
    {l l' : List α} (h : paginate ⟨limit, offset⟩ l = paginate ⟨limit, offset⟩ l') :
    l[offset]? = l'[offset]? := by
  have hhead := congrArg (fun rows : List α => rows[0]?) h
  have hpos : 0 < limit := hlimit
  simpa [paginate, List.getElem?_take, List.getElem?_drop, hpos] using hhead

/-- Two total selections that agree as lists agree row by row. -/
theorem eq_of_filterMap_eq {α β : Type} {f g : α → Option β} {l : List α}
    (hf : ∀ a ∈ l, (f a).isSome) (hg : ∀ a ∈ l, (g a).isSome) (h : l.filterMap f = l.filterMap g) :
    ∀ a ∈ l, f a = g a := by
  induction l with
  | nil => intro a ha; cases ha
  | cons a l ih =>
    obtain ⟨x, hx⟩ := Option.isSome_iff_exists.mp (hf a List.mem_cons_self)
    obtain ⟨y, hy⟩ := Option.isSome_iff_exists.mp (hg a List.mem_cons_self)
    rw [List.filterMap_cons_some hx, List.filterMap_cons_some hy, List.cons.injEq] at h
    intro b hb
    rcases List.mem_cons.mp hb with rfl | hb
    · rw [hx, hy, h.1]
    · exact ih (fun c hc => hf c (List.mem_cons_of_mem _ hc))
        (fun c hc => hg c (List.mem_cons_of_mem _ hc)) h.2 b hb

section Request

variable {first second : List Call} {name tag : String} {severity : Option Severity} {r : RunId}

/-- The response, when the loaded image has a run. -/
theorem response_eq (hfind : findImage db name tag = some (i, image))
    (hr : image.currentScanRunId = some r) (params : PageParams) :
    response db first second name tag severity params
      = .ok ⟨paginate params (selectFindings (runCalls db (first ++ second)) ⟨i, r, severity⟩),
          countFindings (runCalls db first) ⟨i, r, severity⟩, params.limit, params.offset⟩ := by
  rw [response, imageCvesAt, hfind]
  simp [hr]

theorem matchingCurrent_eq (hi : db.image.get? i = some image)
    (hr : image.currentScanRunId = some r) (severity : Option Severity) :
    matchingCurrent db i severity
      = db.finding.entries.filter (Conditions.hold ⟨i, r, severity⟩) := by
  rw [matchingCurrent, hi]
  simp [hr]

/-- An initial part of successes consists of successes. -/
theorem isSuccessOf_of_initial {calls : List Call} (hfirst : ∀ call ∈ first, call.IsSuccessOf i)
    (hsecond : ∀ call ∈ second, call.IsSuccessOf i) (hpre : calls <+: first ++ second) :
    ∀ call ∈ calls, call.IsSuccessOf i := by
  intro call hcall
  rcases List.mem_append.mp (hpre.subset hcall) with h | h
  · exact hfirst call h
  · exact hsecond call h

/-- Consistency of one page, spelt out: the total and the rows are those of one state. -/
theorem snapshotConsistent_iff_exists (hfind : findImage db name tag = some (i, image))
    (hr : image.currentScanRunId = some r) (params : PageParams) :
    SnapshotConsistent db first second name tag severity params
      ↔ ∃ calls, calls <+: first ++ second ∧
          paginate params (selectFindings (runCalls db (first ++ second)) ⟨i, r, severity⟩)
            = paginate params (currentListing (runCalls db calls) i severity) ∧
          countFindings (runCalls db first) ⟨i, r, severity⟩
            = (matchingCurrent (runCalls db calls) i severity).length := by
  rw [SnapshotConsistent]
  refine exists_congr fun calls => and_congr_right fun _ => ?_
  obtain ⟨image', hfind', hi'⟩ := findImage_runCalls hfind calls
  rw [response_eq hfind hr, imageCves_eq hfind' hi', Except.ok.injEq, Page.mk.injEq]
  simp

/-- The rows counted and selected by the remembered run. -/
theorem remembered_rows (hdb : WellFormed db) (hi : db.image.get? i = some image)
    (hr : image.currentScanRunId = some r) {calls : List Call}
    (hcalls : ∀ call ∈ calls, call.IsSuccessOf i) (severity : Option Severity) :
    (runCalls db calls).finding.entries.filter (Conditions.hold ⟨i, r, severity⟩)
      = (matchingCurrent db i severity).filter fun e => !reReported db calls e := by
  rw [filter_runCalls hdb hi hcalls (hdb.pointer_lt hi hr), matchingCurrent_eq hi hr]

/-- A response of untouched rows is that of the state the image was loaded in. -/
theorem snapshotConsistent_of_undisturbed (hdb : WellFormed db)
    (hfind : findImage db name tag = some (i, image)) (hi : db.image.get? i = some image)
    (hr : image.currentScanRunId = some r) (hfirst : ∀ call ∈ first, call.IsSuccessOf i)
    (hsecond : ∀ call ∈ second, call.IsSuccessOf i)
    (h : Undisturbed db (first ++ second) i severity) (params : PageParams) :
    SnapshotConsistent db first second name tag severity params := by
  have hboth : ∀ call ∈ first ++ second, call.IsSuccessOf i :=
    isSuccessOf_of_initial hfirst hsecond (List.prefix_refl _)
  refine (snapshotConsistent_iff_exists hfind hr params).mpr ⟨[], List.nil_prefix, ?_, ?_⟩
  · -- the select still finds every row, and makes the same item of it
    have hrows : (matchingCurrent db i severity).filter
        (fun e => !reReported db (first ++ second) e) = matchingCurrent db i severity :=
      List.filter_eq_self.mpr fun e he => by rw [(h e he).1, Bool.not_false]
    rw [selectFindings, remembered_rows hdb hi hr hboth, hrows, runCalls_nil, currentListing]
    refine congrArg (paginate params) (List.filterMap_congr fun e he => ?_)
    rw [List.mem_insertionSort] at he
    have hmem : e ∈ db.finding.entries := by
      rw [matchingCurrent_eq hi hr] at he
      exact (List.mem_filter.mp he).1
    exact (cveInImage_runCalls hdb hmem _).mpr (h e he).2
  · have hrows : (matchingCurrent db i severity).filter (fun e => !reReported db first e)
        = matchingCurrent db i severity := by
      refine List.filter_eq_self.mpr fun e he => ?_
      have hnone := (h e he).1
      rw [reReported_append, Bool.or_eq_false_iff] at hnone
      rw [hnone.1, Bool.not_false]
    rw [countFindings, remembered_rows hdb hi hr hfirst, hrows, runCalls_nil]

/-- A response without rows is that of a state without matching findings. -/
theorem snapshotConsistent_of_emptied (hdb : WellFormed db)
    (hfind : findImage db name tag = some (i, image)) (hi : db.image.get? i = some image)
    (hr : image.currentScanRunId = some r) (hfirst : ∀ call ∈ first, call.IsSuccessOf i)
    (hsecond : ∀ call ∈ second, call.IsSuccessOf i)
    (h : Emptied db first second i severity) (params : PageParams) :
    SnapshotConsistent db first second name tag severity params := by
  obtain ⟨hall, calls, hpre, hempty⟩ := h
  have hboth : ∀ call ∈ first ++ second, call.IsSuccessOf i :=
    isSuccessOf_of_initial hfirst hsecond (List.prefix_refl _)
  refine (snapshotConsistent_iff_exists hfind hr params).mpr ⟨calls, hpre, ?_, ?_⟩
  · have hrows : (matchingCurrent db i severity).filter
        (fun e => !reReported db (first ++ second) e) = [] := by
      refine List.filter_eq_nil_iff.mpr fun e he => ?_
      rw [reReported_append, hall e he]
      simp
    rw [selectFindings, remembered_rows hdb hi hr hboth, hrows, currentListing, hempty]
    rfl
  · have hrows : (matchingCurrent db i severity).filter (fun e => !reReported db first e) = [] :=
      List.filter_eq_nil_iff.mpr fun e he => by rw [hall e he]; simp
    rw [countFindings, remembered_rows hdb hi hr hfirst, hrows, hempty]

/-- A state after a success of the request shows none of the rows the remembered run selects. -/
theorem notMem_currentListing (hdb : WellFormed db) (hi : db.image.get? i = some image)
    (hr : image.currentScanRunId = some r) (hboth : ∀ call ∈ first ++ second, call.IsSuccessOf i)
    {calls : List Call} (hpre : calls <+: first ++ second) (hne : calls ≠ []) {item : CveInImage}
    (hitem : item ∈ selectFindings (runCalls db (first ++ second)) ⟨i, r, severity⟩) :
    item ∉ currentListing (runCalls db calls) i severity := by
  obtain ⟨more, hmore⟩ := hpre
  have hcalls : ∀ call ∈ calls, call.IsSuccessOf i := fun call hcall =>
    hboth call (hmore ▸ List.mem_append_left more hcall)
  obtain ⟨r', hr', hle⟩ := pointer_ge hi hcalls hne
  rw [currentListing_eq hr']
  rw [← hmore] at hitem
  exact notMem_of_mem_selectFindings hdb (lt_of_lt_of_le (hdb.pointer_lt hi hr) hle) hitem

/-- So where such a state agrees with the response, neither has a row. -/
theorem getElem?_selectFindings_eq_none (hdb : WellFormed db) (hi : db.image.get? i = some image)
    (hr : image.currentScanRunId = some r) (hboth : ∀ call ∈ first ++ second, call.IsSuccessOf i)
    {calls : List Call} (hpre : calls <+: first ++ second) (hne : calls ≠ []) {offset : ℕ}
    (hsame : (selectFindings (runCalls db (first ++ second)) ⟨i, r, severity⟩)[offset]?
      = (currentListing (runCalls db calls) i severity)[offset]?) :
    (selectFindings (runCalls db (first ++ second)) ⟨i, r, severity⟩)[offset]? = none := by
  rw [Option.eq_none_iff_forall_ne_some]
  intro item hitem
  refine notMem_currentListing hdb hi hr hboth hpre hne (List.mem_of_getElem? hitem) ?_
  rw [hsame] at hitem
  exact List.mem_of_getElem? hitem

/-- When the remembered run selects what was listed before, it selects the same rows, and they make
the same items. -/
theorem undisturbed_of_selectFindings_eq (hdb : WellFormed db) (hi : db.image.get? i = some image)
    (hr : image.currentScanRunId = some r) {calls : List Call}
    (hcalls : ∀ call ∈ calls, call.IsSuccessOf i)
    (hlisting : selectFindings (runCalls db calls) ⟨i, r, severity⟩
      = currentListing db i severity) : Undisturbed db calls i severity := by
  have hremembered := remembered_rows hdb hi hr hcalls severity
  have hlength : ((matchingCurrent db i severity).filter fun e =>
      !reReported db calls e).length = (matchingCurrent db i severity).length := by
    rw [← length_currentListing hdb, ← hlisting,
      length_selectFindings (wellFormed_runCalls hdb _), countFindings, hremembered]
  have hkept := List.length_filter_eq_length_iff.mp hlength
  rw [List.filter_eq_self.mpr hkept] at hremembered
  rw [selectFindings, hremembered, currentListing] at hlisting
  have hbefore : ∀ e ∈ matchingCurrent db i severity, e ∈ db.finding.entries := by
    intro e he
    rw [matchingCurrent_eq hi hr] at he
    exact (List.mem_filter.mp he).1
  have hafter : ∀ e ∈ matchingCurrent db i severity,
      e ∈ (runCalls db calls).finding.entries := by
    intro e he
    rw [← hremembered] at he
    exact (List.mem_filter.mp he).1
  intro e he
  have hitem := eq_of_filterMap_eq
    (fun e he => cveInImage_isSome (wellFormed_runCalls hdb _)
      (hafter e ((List.mem_insertionSort _).mp he)))
    (fun e he => cveInImage_isSome hdb (hbefore e ((List.mem_insertionSort _).mp he)))
    hlisting e ((List.mem_insertionSort _).mpr he)
  exact ⟨by simpa using hkept e he, (cveInImage_runCalls hdb (hbefore e he) _).mp hitem⟩

/-- **The condition is forced**: pages that are all consistent leave no other case. -/
theorem undisturbed_or_emptied (hdb : WellFormed db)
    (hfind : findImage db name tag = some (i, image)) (hi : db.image.get? i = some image)
    (hr : image.currentScanRunId = some r) (hfirst : ∀ call ∈ first, call.IsSuccessOf i)
    (hsecond : ∀ call ∈ second, call.IsSuccessOf i) {limit : ℕ} (hlimit : 1 ≤ limit)
    (h : ∀ offset, SnapshotConsistent db first second name tag severity ⟨limit, offset⟩) :
    Undisturbed db (first ++ second) i severity ∨ Emptied db first second i severity := by
  have hboth : ∀ call ∈ first ++ second, call.IsSuccessOf i :=
    isSuccessOf_of_initial hfirst hsecond (List.prefix_refl _)
  -- what consistency says of the row at one offset, and of the total
  have hrow : ∀ offset : ℕ, ∃ calls, calls <+: first ++ second ∧
      (selectFindings (runCalls db (first ++ second)) ⟨i, r, severity⟩)[offset]?
        = (currentListing (runCalls db calls) i severity)[offset]? ∧
      ((matchingCurrent db i severity).filter fun e => !reReported db first e).length
        = (matchingCurrent (runCalls db calls) i severity).length := by
    intro offset
    obtain ⟨calls, hpre, hitems, htotal⟩ :=
      (snapshotConsistent_iff_exists hfind hr ⟨limit, offset⟩).mp (h offset)
    rw [countFindings, remembered_rows hdb hi hr hfirst] at htotal
    exact ⟨calls, hpre, getElem?_eq_of_paginate_eq hlimit hitems, htotal⟩
  obtain ⟨calls₀, hpre₀, hrow₀, htotal₀⟩ := hrow 0
  by_cases hnil : calls₀ = []
  · left
    rw [hnil, runCalls_nil] at htotal₀
    refine undisturbed_of_selectFindings_eq hdb hi hr hboth ?_
    refine List.ext_getElem? fun offset => ?_
    obtain ⟨calls, hpre, hsame, htotal⟩ := hrow offset
    by_cases hne : calls = []
    · rw [hsame, hne, runCalls_nil]
    · have hnone := getElem?_selectFindings_eq_none hdb hi hr hboth hpre hne hsame
      rw [hnone, eq_comm, List.getElem?_eq_none_iff, length_currentListing hdb, ← htotal₀,
        htotal, ← length_currentListing (wellFormed_runCalls hdb calls),
        ← List.getElem?_eq_none_iff, ← hsame, hnone]
  · right
    have hnone := getElem?_selectFindings_eq_none hdb hi hr hboth hpre₀ hnil hrow₀
    rw [hrow₀, List.getElem?_eq_none_iff,
      length_currentListing (wellFormed_runCalls hdb calls₀)] at hnone
    have hempty : matchingCurrent (runCalls db calls₀) i severity = [] :=
      List.eq_nil_of_length_eq_zero (Nat.le_zero.mp hnone)
    rw [hempty, List.length_nil, List.length_eq_zero_iff, List.filter_eq_nil_iff] at htotal₀
    exact ⟨fun e he => by simpa using htotal₀ e he, calls₀, hpre₀, hempty⟩

end Request

/-- **When a response is a snapshot.** In a reachable database, whatever successes of the image
commit between the three statements, every page under a filter is that of one state committed
during the request if and only if no matching finding is named again and no title changes before
the select, or every matching finding is named again before the count and some state of the request
has none to show. -/
theorem snapshotConsistent_iff {start : Db} (hstart : start.Unscanned)
    (past first second : List Call) {name tag : String}
    (hfind : findImage (runCalls start past) name tag = some (i, image))
    (hfirst : ∀ call ∈ first, call.IsSuccessOf i) (hsecond : ∀ call ∈ second, call.IsSuccessOf i)
    (severity : Option Severity) {limit : ℕ} (hlimit : 1 ≤ limit) :
    (∀ offset, SnapshotConsistent (runCalls start past) first second name tag severity
        ⟨limit, offset⟩)
      ↔ Undisturbed (runCalls start past) (first ++ second) i severity ∨
          Emptied (runCalls start past) first second i severity := by
  have hdb := wellFormed_runCalls (wellFormed_of_unscanned hstart) past
  have hi : (runCalls start past).image.get? i = some image :=
    Dict.get?_eq_some_iff.mpr (List.mem_of_find?_eq_some hfind)
  cases hr : image.currentScanRunId with
  | none =>
    -- nothing was ever found: the response is the empty page of the state it was loaded in
    have hnone : matchingCurrent (runCalls start past) i severity = [] := by
      rw [matchingCurrent, hi]
      simp [hr]
    refine iff_of_true (fun offset => ⟨[], List.nil_prefix, ?_⟩) (Or.inl ?_)
    · rw [response, imageCves, imageCvesAt, imageCvesAt, runCalls_nil, hfind]
      simp [hr]
    · intro e he
      rw [hnone] at he
      cases he
  | some r =>
    constructor
    · exact undisturbed_or_emptied hdb hfind hi hr hfirst hsecond hlimit
    · rintro (h | h) offset
      · exact snapshotConsistent_of_undisturbed hdb hfind hi hr hfirst hsecond h _
      · exact snapshotConsistent_of_emptied hdb hfind hi hr hfirst hsecond h _

/-- A scan of `nginx:1.19` that finds one CVE in one package, completed at second `t`. -/
def nginxScan (t : ℤ) (cveId package : String) : Call :=
  .success 1 none (.debian [(cveId, package, "HIGH")])
    ⟨none, none, none, none, t * second, t * second⟩

theorem isSuccessOf_nginxScan (t : ℤ) (cveId package : String) :
    ∀ call ∈ [nginxScan t cveId package], call.IsSuccessOf 1 := by
  intro call hcall
  rw [List.mem_singleton.mp hcall]
  exact ⟨_, _, _, rfl⟩

theorem findImage_nginx :
    findImage (runCalls (Db.seeded 0 briefImages) [nginxScan 1 "CVE-1" "openssl"]) "nginx" "1.19"
      = some (1, ⟨"nginx", "1.19", none, true, some 1, 0, some second, some .success, 0⟩) := by
  decide

theorem snapshotConsistent_iff_nginxScan :
    SnapshotConsistent
      (runCalls (Db.seeded 0 briefImages) [nginxScan 1 "CVE-1" "openssl"])
      [nginxScan 2 "CVE-2" "zlib"] [] "nginx" "1.19" none ⟨100, 0⟩ := by
  refine (snapshotConsistent_iff (unscanned_seeded 0 briefImages)
    [nginxScan 1 "CVE-1" "openssl"] [nginxScan 2 "CVE-2" "zlib"] [] findImage_nginx
    (isSuccessOf_nginxScan 2 "CVE-2" "zlib") (fun call h => by cases h) none (by decide)).mpr
    (Or.inl ?_) 0
  unfold Undisturbed
  decide

/-- A rescan that finds the same CVE again, committed between the load and the count: the first
page is empty, and no committed state had an empty one. -/
theorem not_snapshotConsistent_rescan :
    response (runCalls (Db.seeded 0 briefImages) [nginxScan 1 "CVE-1" "openssl"])
        [nginxScan 2 "CVE-1" "openssl"] [] "nginx" "1.19" none ⟨100, 0⟩
      = .ok ⟨[], 0, 100, 0⟩ ∧
    ¬ SnapshotConsistent
        (runCalls (Db.seeded 0 briefImages) [nginxScan 1 "CVE-1" "openssl"])
        [nginxScan 2 "CVE-1" "openssl"] [] "nginx" "1.19" none ⟨100, 0⟩ := by
  refine ⟨by decide, ?_⟩
  rintro ⟨calls, hpre, heq⟩
  have hcalls : calls = [] ∨ calls = [nginxScan 2 "CVE-1" "openssl"] := by
    have hmem := (List.mem_inits _ _).mpr hpre
    simpa using hmem
  revert heq
  rcases hcalls with rfl | rfl
  · decide
  · decide

end Api

end ContainerScanner
