import ContainerScanner.Api.Listings
import ContainerScanner.Scanner.Integrity

/-!
# Counts read and counts aggregated

`GET /api/stats` of `app/api/routes/stats.py`, and what every endpoint that reads a run's counts
says about the findings. The joins of the endpoints are inner joins over columns that no foreign
key guards, so that they drop nothing and duplicate nothing rests on the invariants of the
recorders.

## Main definitions

* `stats` — the numbers of the endpoint, its ages, ratios and percentiles apart
* `currentTotal`, `severityTotal` — the aggregates over the finding table

## Main results

* `items_listImages` — every image has its own run, if it has one, and is listed once
* `counts_agree` — the counts of the runs are the aggregates, wherever they are read
* `pointers_sound` — pointers name runs of their image, in order, and the joins lose no row
-/

namespace ContainerScanner

open Foundation Persist

namespace Api

/-! ### `GET /api/stats` -/

structure QueueStats where
  pending : ℕ
  running : ℕ
  failed : ℕ
  deriving DecidableEq, Repr

structure ImageStats where
  total : ℕ
  enabled : ℕ
  neverScanned : ℕ
  failing : ℕ
  deriving DecidableEq, Repr

/-- Scan attempts in the window, by outcome. -/
structure RunOutcomes where
  success : ℕ
  failed : ℕ
  skipped : ℕ
  deriving DecidableEq, Repr

structure Stats where
  queue : QueueStats
  images : ImageStats
  runs : RunOutcomes
  /-- Live findings across every image, read from the counts of the current runs. -/
  findings : Severity → ℕ

/-- `SELECT status, count(*) FROM scan_job GROUP BY status`. -/
def jobCount (db : Db) (status : JobStatus) : ℕ :=
  db.scanJob.rows.values.countP fun job => decide (job.status = status)

/-- `SELECT status, count(*) FROM scan_run WHERE completed_at >= … GROUP BY status`. -/
def runCount (db : Db) (cutoff : Timestamp) (status : RunStatus) : ℕ :=
  db.scanRun.rows.values.countP fun run =>
    run.completedAt.any (fun t => decide (cutoff ≤ t)) && decide (run.status = status)

/-- `COALESCE(SUM(finding_count_…), 0)` over the current runs. A sum passes over nulls. -/
def findingTotal (db : Db) (severity : Severity) : ℕ :=
  ((currentRuns db).map fun run => (run.findingCount severity).getD 0).sum

def stats (db : Db) (now : Timestamp) (windowHours : ℕ) : Stats where
  queue := ⟨jobCount db .pending, jobCount db .running, jobCount db .failed⟩
  images :=
    { total := db.image.entries.length
      enabled := db.image.values.countP Image.enabled
      neverScanned := db.image.values.countP fun image => image.lastScanAt.isNone
      failing := db.image.values.countP fun image => decide (0 < image.consecutiveFailures) }
  runs :=
    let cutoff := now - windowHours * 3600 * second
    ⟨runCount db cutoff .success, runCount db cutoff .failed, runCount db cutoff .skipped⟩
  findings := findingTotal db

/-! ### Aggregates -/

/-- The current findings of an image. -/
def currentTotal (db : Db) (i : ImageId) : ℕ := db.finding.entries.countP (isCurrentIn db i)

/-- The current findings of all images at a severity. -/
def severityTotal (db : Db) (severity : Severity) : ℕ :=
  db.finding.entries.countP fun e =>
    isCurrentIn db e.1.imageId e && decide (e.2.severity = severity)

variable {db : Db} {i : ImageId} {image : Image}

theorem pointerOf_eq (hi : db.image.get? i = some image) :
    pointerOf db i = image.currentScanRunId := by
  rw [pointerOf, hi]
  rfl

/-- Counting severity by severity counts everything. -/
theorem totalCount_countP {α : Type} (p : α → Bool) (severity : α → Severity) (l : List α) :
    totalCount (fun s => l.countP fun a => p a && decide (severity a = s)) = l.countP p := by
  have hsum : totalCount (fun s => l.countP fun a => p a && decide (severity a = s))
      = ([Severity.critical, .high, .medium, .low, .unknown].map fun s =>
          l.countP fun a => p a && decide (severity a = s)).sum := by
    simp [totalCount]
    omega
  rw [hsum]
  refine sum_countP (by decide) p severity l fun a _ _ => ?_
  cases severity a <;> decide

/-! ### `GET /api/images` -/

/-- The summary of an image with its current run, when it has one. -/
def summaryOf (settings : Settings) (db : Db) (e : ImageId × Image) : ImageSummary :=
  match e.2.currentScanRunId.bind db.scanRun.get? with
  | none => .ofImage settings e.2
  | some run => (ImageSummary.ofImage settings e.2).withRun run

/-- The runs of an image, among those that are current. -/
theorem filter_currentRuns (hdb : WellFormed db) (i : ImageId) :
    (currentRuns db).filter (fun run => decide (run.imageId = i))
      = (pointerOf db i).toList.filterMap db.scanRun.get? := by
  have hrun : ∀ e ∈ db.image.entries, ∀ run,
      (e.2.currentScanRunId.bind db.scanRun.get?) = some run → run.imageId = e.1 := by
    intro e he run hrun
    obtain ⟨r, hr, hrun⟩ := Option.bind_eq_some_iff.mp hrun
    obtain ⟨run', hrun', himage, -⟩ :=
      hdb.pointer e.1 e.2 r (Dict.get?_eq_some_iff.mpr he) hr
    rw [hrun] at hrun'
    rw [Option.some.inj hrun', himage]
  have hcomm : (currentRuns db).filter (fun run => decide (run.imageId = i))
      = (db.image.entries.filter fun e => decide (e.1 = i)).filterMap
          fun e => e.2.currentScanRunId.bind db.scanRun.get? := by
    rw [currentRuns, List.filter_filterMap, List.filterMap_filter]
    refine List.filterMap_congr fun e he => ?_
    cases hbind : e.2.currentScanRunId.bind db.scanRun.get? with
    | none => simp
    | some run => simp [Option.filter, hrun e he run hbind]
  rw [hcomm, Dict.filter_key, pointerOf]
  cases db.image.get? i with
  | none => rfl
  | some image =>
    cases h : image.currentScanRunId with
    | none => simp [h]
    | some r => cases hr : db.scanRun.get? r <;> simp [h, hr]

/-- What the runs do to the summary of one image. -/
theorem get?_foldl_withRun (runs : List ScanRun) (d : Dict ImageId ImageSummary) (i : ImageId) :
    (runs.foldl (fun d run => d.update run.imageId (.withRun run)) d).get? i
      = (d.get? i).map fun summary =>
          (runs.filter fun run => decide (run.imageId = i)).foldl
            (fun summary run => summary.withRun run) summary := by
  induction runs generalizing d with
  | nil => simp
  | cons run runs ih =>
    rw [List.foldl_cons, ih, Dict.get?_update]
    by_cases h : i = run.imageId
    · subst h
      simp [Option.map_map, Function.comp_def]
    · simp [h, Ne.symm h]

theorem lookup_map {α β : Type} (f : ImageId × α → β) (l : List (ImageId × α)) (i : ImageId) :
    (l.map fun e => (e.1, f e)).lookup i = (l.lookup i).map fun v => f (i, v) := by
  induction l with
  | nil => rfl
  | cons e l ih =>
    rw [List.map_cons, Dict.lookup_cons_eq_ite, Dict.lookup_cons_eq_ite, ih]
    by_cases h : i = e.1 <;> simp [h]

theorem nodup_imagesByReference (params : PageParams) (db : Db) :
    ((paginate params (imagesByReference db)).map Prod.fst).Nodup := by
  have hperm : (imagesByReference db).Perm db.image.entries := List.perm_insertionSort _ _
  have hnodup : ((imagesByReference db).map Prod.fst).Nodup :=
    (hperm.map Prod.fst).nodup_iff.mpr db.image.nodup
  refine hnodup.sublist (List.Sublist.map Prod.fst ?_)
  exact (List.take_sublist _ _).trans (List.drop_sublist _ _)

theorem get?_of_mem_page {params : PageParams} {e : ImageId × Image}
    (he : e ∈ paginate params (imagesByReference db)) : db.image.get? e.1 = some e.2 := by
  have hmem : e ∈ imagesByReference db := List.mem_of_mem_drop (List.mem_of_mem_take he)
  exact Dict.get?_eq_some_iff.mpr ((List.mem_insertionSort _).mp hmem)

/-- **Each image of the page is listed once, with its own run.** -/
theorem items_listImages (hdb : WellFormed db) (settings : Settings) (params : PageParams) :
    (listImages settings params db).items
      = (paginate params (imagesByReference db)).map (summaryOf settings db) := by
  have hkeys : (((paginate params (imagesByReference db)).map fun e =>
      (e.1, summaryOf settings db e)).map Prod.fst).Nodup := by
    rw [List.map_map]
    exact nodup_imagesByReference params db
  have hkeys' : (((paginate params (imagesByReference db)).map fun e =>
      (e.1, ImageSummary.ofImage settings e.2)).map Prod.fst).Nodup := by
    rw [List.map_map]
    exact nodup_imagesByReference params db
  have hsame : summaries settings params db
      = Dict.ofList ((paginate params (imagesByReference db)).map fun e =>
          (e.1, summaryOf settings db e)) := by
    refine Dict.ext_keys_get? ?_ fun i => ?_
    · rw [summaries, keys_foldl_withRun]
      refine Dict.keys_ofList_congr ?_
      rw [List.map_map, List.map_map]
      rfl
    · rw [summaries, get?_foldl_withRun, filter_currentRuns hdb, Dict.get?_ofList hkeys,
        Dict.get?_ofList hkeys', lookup_map, lookup_map]
      cases hlookup : (paginate params (imagesByReference db)).lookup i with
      | none => rfl
      | some image =>
        have hi : db.image.get? i = some image := get?_of_mem_page
          ((Dict.lookup_eq_some_iff_mem (nodup_imagesByReference params db)).mp hlookup)
        rw [pointerOf_eq hi]
        show some (List.foldl _ (ImageSummary.ofImage settings image) _)
          = some (summaryOf settings db (i, image))
        rw [summaryOf]
        cases hr : image.currentScanRunId with
        | none => simp
        | some r => cases hrun : db.scanRun.get? r <;> simp [hrun]
  have hvalues : (Dict.ofList ((paginate params (imagesByReference db)).map fun e =>
      (e.1, summaryOf settings db e))).values
      = (paginate params (imagesByReference db)).map (summaryOf settings db) := by
    rw [Dict.values, Dict.entries_ofList hkeys, List.map_map]
    rfl
  exact (congrArg Dict.values hsame).trans hvalues

/-! ### Counts -/

section Integral

variable (hwf : WellFormed db) (h : Integral db)

include hwf h

/-- The counts of an image are the aggregates, whether or not it has a run. -/
theorem severityCounts_summaryOf (settings : Settings) (hi : db.image.get? i = some image)
    (severity : Severity) :
    (summaryOf settings db (i, image)).severityCounts severity = currentCount db i severity := by
  rw [summaryOf]
  cases hr : image.currentScanRunId with
  | none =>
    have hzero : currentCount db i severity = 0 := by
      simp [currentCount, isCurrentIn_of_none ((pointerOf_eq hi).trans hr)]
    simp [ImageSummary.ofImage, hzero]
  | some r =>
    obtain ⟨run, hrun, -⟩ := hwf.pointer i image r hi hr
    have hcount := h.counts i r run ((pointerOf_eq hi).trans hr) hrun severity
    simp [hrun, ImageSummary.withRun, hcount]

theorem totalCves_summaryOf (settings : Settings) (hi : db.image.get? i = some image) :
    (summaryOf settings db (i, image)).totalCves = currentTotal db i := by
  have htotal : (summaryOf settings db (i, image)).totalCves
      = totalCount (summaryOf settings db (i, image)).severityCounts := by
    rw [summaryOf]
    cases (i, image).2.currentScanRunId.bind db.scanRun.get? <;> rfl
  have hcounts : (summaryOf settings db (i, image)).severityCounts
      = fun severity => currentCount db i severity := by
    funext severity
    exact severityCounts_summaryOf hwf h settings hi severity
  rw [htotal, hcounts]
  exact totalCount_countP (isCurrentIn db i) (fun e => e.2.severity) _

omit h in
/-- The total of `image_cves` is the aggregate under the filter. -/
theorem countFindings_eq (hi : db.image.get? i = some image) {r : RunId}
    (hr : image.currentScanRunId = some r) (severity : Option Severity) :
    countFindings db ⟨i, r, severity⟩ = match severity with
      | none => currentTotal db i
      | some s => currentCount db i s := by
  have hcurrent : ∀ e : FindingKey × Finding,
      decide (e.1.imageId = i ∧ e.2.lastSeenRunId = r) = isCurrentIn db i e := by
    intro e
    simp only [isCurrentIn, pointerOf_eq hi, hr, Bool.decide_and, Option.some.injEq,
      @eq_comm _ r]
  rw [countFindings, ← List.countP_eq_length_filter]
  cases severity with
  | none =>
    refine List.countP_congr fun e _ => ?_
    simp only [Conditions.hold, hcurrent, severityMatches, Bool.and_true]
  | some s =>
    refine List.countP_congr fun e he => ?_
    -- the filter is on the rank, which is that of the severity
    have hrank := hwf.severityRank e.1 e.2 (Dict.get?_eq_some_iff.mpr he)
    simp only [Conditions.hold, hcurrent, severityMatches, hrank,
      Severity.rank_injective.eq_iff]

omit hwf h in
theorem sum_map_filterMap {α β : Type} (f : α → Option β) (g : β → ℕ) (l : List α) :
    ((l.filterMap f).map g).sum = (l.map fun a => ((f a).map g).getD 0).sum := by
  induction l with
  | nil => rfl
  | cons a l ih => cases hf : f a <;> simp [hf, ih]

/-- The sum over the current runs is the aggregate over the images. -/
theorem findingTotal_eq (severity : Severity) :
    findingTotal db severity = severityTotal db severity := by
  have hruns : findingTotal db severity
      = (db.image.keys.map fun i => currentCount db i severity).sum := by
    rw [findingTotal, currentRuns, sum_map_filterMap, Dict.keys, List.map_map]
    refine congrArg List.sum (List.map_congr_left fun e he => ?_)
    have hi : db.image.get? e.1 = some e.2 := Dict.get?_eq_some_iff.mpr he
    have hcount := severityCounts_summaryOf hwf h {} hi severity
    rw [summaryOf] at hcount
    show _ = currentCount db e.1 severity
    rw [← hcount]
    cases e.2.currentScanRunId.bind db.scanRun.get? <;> rfl
  have hgroups : ∀ i, currentCount db i severity = db.finding.entries.countP fun e =>
      (isCurrentIn db e.1.imageId e && decide (e.2.severity = severity))
        && decide (e.1.imageId = i) := by
    intro i
    refine List.countP_congr fun e _ => ?_
    by_cases hei : e.1.imageId = i
    · subst hei
      simp
    · simp [isCurrentIn, hei]
  simp only [hruns, hgroups]
  refine sum_countP (Dict.nodup_keys _) _ _ _ fun e he _ => ?_
  obtain ⟨image, hi⟩ := hwf.findingImage e.1 e.2 (Dict.get?_eq_some_iff.mpr he)
  exact Dict.mem_keys_of_get? hi

end Integral

/-! ### Agreement -/

/-- Each image of a page is shown with its own counts. -/
theorem forall₂_listImages (hwf : WellFormed db) {P : ImageId × Image → ImageSummary → Prop}
    {settings : Settings} {params : PageParams}
    (hP : ∀ i image, db.image.get? i = some image →
      P (i, image) (summaryOf settings db (i, image))) :
    List.Forall₂ P (paginate params (imagesByReference db))
      (listImages settings params db).items := by
  rw [items_listImages hwf, List.forall₂_map_right_iff, List.forall₂_same]
  exact fun e he => hP e.1 e.2 (get?_of_mem_page he)

theorem reference_summaryOf (settings : Settings) (db : Db) (e : ImageId × Image) :
    (summaryOf settings db e).name = e.2.name ∧ (summaryOf settings db e).tag = e.2.tag := by
  rw [summaryOf]
  cases e.2.currentScanRunId.bind db.scanRun.get? <;> exact ⟨rfl, rfl⟩

/-- **The counts of the runs are the aggregates of the finding table**, wherever they are read, and
a run that is not a success has none. -/
theorem counts_agree (hdb : db.Unscanned) (calls : List Call) :
    (∀ i r, pointerOf (runCalls db calls) i = some r →
      ∃ run, (runCalls db calls).scanRun.get? r = some run ∧
        ∀ severity, run.findingCount severity
          = some (currentCount (runCalls db calls) i severity)) ∧
    (∀ settings params, List.Forall₂
      (fun (e : ImageId × Image) (item : ImageSummary) =>
        item.name = e.2.name ∧ item.tag = e.2.tag ∧
        (∀ severity, item.severityCounts severity
          = currentCount (runCalls db calls) e.1 severity) ∧
        item.totalCves = currentTotal (runCalls db calls) e.1)
      (paginate params (imagesByReference (runCalls db calls)))
      (listImages settings params (runCalls db calls)).items) ∧
    (∀ name tag params severity page,
      imageCves (runCalls db calls) name tag params severity = .ok page →
        ∃ i image, findImage (runCalls db calls) name tag = some (i, image) ∧
          page.total = match severity with
            | none => currentTotal (runCalls db calls) i
            | some s => currentCount (runCalls db calls) i s) ∧
    (∀ now windowHours severity, (stats (runCalls db calls) now windowHours).findings severity
      = severityTotal (runCalls db calls) severity) ∧
    ∀ r run, (runCalls db calls).scanRun.get? r = some run →
      run.status = .failed ∨ run.status = .skipped →
        ∀ severity, run.findingCount severity = none := by
  have hwf := wellFormed_runCalls (wellFormed_of_unscanned hdb) calls
  have h := integral_runCalls (wellFormed_of_unscanned hdb) (integral_of_unscanned hdb) calls
  refine ⟨fun i r hr => ?_, fun settings params => ?_,
    fun name tag params severity page hpage => ?_,
    fun _ _ severity => findingTotal_eq hwf h severity, fun r run hrun hstatus => ?_⟩
  · obtain ⟨run, hrun, -⟩ := hwf.successOf_pointer hr
    exact ⟨run, hrun, h.counts i r run hr hrun⟩
  · refine forall₂_listImages hwf fun i image hi => ?_
    obtain ⟨hname, htag⟩ := reference_summaryOf settings (runCalls db calls) (i, image)
    exact ⟨hname, htag, severityCounts_summaryOf hwf h settings hi,
      totalCves_summaryOf hwf h settings hi⟩
  · rw [imageCves, imageCvesAt] at hpage
    split at hpage
    · cases hpage
    · next i image hfind =>
      have hi : (runCalls db calls).image.get? i = some image :=
        Dict.get?_eq_some_iff.mpr (List.mem_of_find?_eq_some hfind)
      refine ⟨i, image, hfind, ?_⟩
      split at hpage
      · next hr =>
        cases hpage
        have hnone : isCurrentIn (runCalls db calls) i = fun _ => false := by
          funext e
          exact isCurrentIn_of_none ((pointerOf_eq hi).trans hr) e
        cases severity <;> simp [currentTotal, currentCount, hnone]
      · next r hr =>
        cases hpage
        exact countFindings_eq hwf hi hr severity
  · refine h.uncounted r run hrun fun hsuccess => ?_
    rw [hsuccess] at hstatus
    simp at hstatus

theorem counts_agree_rescanned :
    (stats (runCalls (Db.seeded 0 briefImages) rescanned) 0 24).findings .critical
      = severityTotal (runCalls (Db.seeded 0 briefImages) rescanned) .critical := by
  obtain ⟨-, -, -, hstats, -⟩ := counts_agree (unscanned_seeded 0 briefImages) rescanned
  exact hstats 0 24 .critical

/-! ### Pointers -/

/-- A page that begins with the first row and is long enough holds all of them. -/
theorem paginate_eq_self {α : Type} {params : PageParams} {l : List α} (hoffset : params.offset = 0)
    (hlimit : l.length ≤ params.limit) : paginate params l = l := by
  rw [paginate, hoffset, List.drop_zero, List.take_of_length_le hlimit]

/-- **Pointers name runs of their own image, in order, and the joins on them lose and repeat no
row.** -/
theorem pointers_sound (hdb : db.Unscanned) (calls : List Call) :
    (∀ i image, (runCalls db calls).image.get? i = some image →
      image.currentScanRunId = none ∨
      ∃ r run, image.currentScanRunId = some r ∧
        (runCalls db calls).scanRun.get? r = some run ∧ run.imageId = i ∧
        run.status = .success ∧ ∀ severity, (run.findingCount severity).isSome) ∧
    (∀ key f, (runCalls db calls).finding.get? key = some f →
      SuccessOf (runCalls db calls) key.imageId f.firstSeenRunId ∧
      SuccessOf (runCalls db calls) key.imageId f.lastSeenRunId ∧
      f.firstSeenRunId ≤ f.lastSeenRunId ∧
      ∃ r, pointerOf (runCalls db calls) key.imageId = some r ∧ f.lastSeenRunId ≤ r) ∧
    (∀ name tag params severity page,
      imageCves (runCalls db calls) name tag params severity = .ok page →
        params.offset = 0 → page.total ≤ params.limit → page.items.length = page.total) ∧
    (∀ c params page, cveImages c params (runCalls db calls) = .ok page →
      params.offset = 0 → page.total ≤ params.limit → page.items.length = page.total) ∧
    (∀ settings params, params.offset = 0 →
      (listImages settings params (runCalls db calls)).total ≤ params.limit →
        (listImages settings params (runCalls db calls)).items.length
          = (listImages settings params (runCalls db calls)).total) ∧
    ∀ settings params, List.Forall₂
      (fun (e : ImageId × Image) (item : ImageSummary) =>
        match e.2.currentScanRunId with
        | none => item = .ofImage settings e.2
        | some r => ∃ run, (runCalls db calls).scanRun.get? r = some run ∧ run.imageId = e.1 ∧
            item = (ImageSummary.ofImage settings e.2).withRun run)
      (paginate params (imagesByReference (runCalls db calls)))
      (listImages settings params (runCalls db calls)).items := by
  have hwf := wellFormed_runCalls (wellFormed_of_unscanned hdb) calls
  have h := integral_runCalls (wellFormed_of_unscanned hdb) (integral_of_unscanned hdb) calls
  refine ⟨fun i image hi => ?_, fun key f hf => ?_, fun name tag params severity page hpage hoffset
    hlimit => ?_, fun c params page hpage hoffset hlimit => ?_, fun settings params hoffset hlimit
    => ?_, fun settings params => forall₂_listImages hwf fun i image hi => ?_⟩
  · cases hr : image.currentScanRunId with
    | none => exact Or.inl rfl
    | some r =>
      obtain ⟨run, hrun, himage, hstatus⟩ := hwf.pointer i image r hi hr
      exact Or.inr ⟨r, run, rfl, hrun, himage, hstatus, h.counted r run hrun hstatus⟩
  · exact ⟨hwf.firstSeen key f hf, hwf.lastSeen key f hf, h.ordered key f hf, h.pointed key f hf⟩
  · rw [imageCves, imageCvesAt] at hpage
    split at hpage
    · cases hpage
    · split at hpage
      · cases hpage
        rfl
      · cases hpage
        show (paginate params (selectFindings _ _)).length = countFindings _ _
        rw [paginate_eq_self hoffset (by rw [length_selectFindings hwf]; exact hlimit),
          length_selectFindings hwf]
  · rw [cveImages] at hpage
    split at hpage
    · cases hpage
    · cases hpage
      show (paginate params (selectAffected _ _)).length = (affectedRows _ _).length
      rw [paginate_eq_self hoffset (by rw [length_selectAffected hwf]; exact hlimit),
        length_selectAffected hwf]
  · have hlength : (imagesByReference (runCalls db calls)).length
        = (runCalls db calls).image.entries.length := List.length_insertionSort _ _
    rw [items_listImages hwf, List.length_map, paginate_eq_self hoffset (hlength.trans_le hlimit),
      hlength]
    rfl
  · cases hr : image.currentScanRunId with
    | none => simp [summaryOf, hr]
    | some r =>
      obtain ⟨run, hrun, himage, -⟩ := hwf.pointer i image r hi hr
      exact ⟨run, hrun, himage, by simp [summaryOf, hr, hrun]⟩

theorem pointers_sound_rescanned :
    ∃ run, (runCalls (Db.seeded 0 briefImages) rescanned).scanRun.get? 3 = some run ∧
      run.imageId = 1 ∧ run.status = .success := by
  obtain ⟨hpointer, -⟩ := pointers_sound (unscanned_seeded 0 briefImages) rescanned
  have hrun : ((runCalls (Db.seeded 0 briefImages) rescanned).image.get? 1).map
      Image.currentScanRunId = some (some 3) := by decide
  obtain ⟨image, hi, hr⟩ := Option.map_eq_some_iff.mp hrun
  rcases hpointer 1 image hi with hnone | ⟨r, run, hr', hget, himage, hstatus, -⟩
  · rw [hnone] at hr
    cases hr
  · rw [hr'] at hr
    rw [Option.some.inj hr] at hget
    exact ⟨run, hget, himage, hstatus⟩

end Api

end ContainerScanner
