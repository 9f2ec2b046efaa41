import ContainerScanner.Api.Stats
import ContainerScanner.Foundation.Paging

/-!
# Walking through a collection

A client reads a collection page by page until it has read `total` rows. Each page is a statement
of its own, and the database may sort tied rows differently each time. `list_images` and
`list_cves` sort by a unique key. The other two sort findings by rank and then by a column that
several findings of one rank may share, since a CVE may be in several packages of an image. As in
`Api.Endpoints`, text is ordered by code point.

## Main definitions

* `listImagesIn`, `imageCvesIn`, `listCvesIn`, `cveImagesIn` — the endpoints where the database
  returns the rows in a given order
* `PagesPartition` — every row is on exactly one page
* `Constrained` — what a stored state satisfies

## Main results

* `pagesPartition_iff` — the pages partition a listing iff no tie is across a boundary
* `pagesPartition_iff_noTieAcross` — which of the four listings are partitioned when
-/

namespace ContainerScanner

open Foundation Paging Persist

namespace Api

/-! ### The endpoints on sorted rows -/

/-- `list_images` where the query returns the images as `sorted`. -/
def listImagesIn (settings : Settings) (db : Db) (sorted : List (ImageId × Image))
    (params : PageParams) : Page ImageSummary where
  items := ((currentRuns db).foldl
    (fun summaries run => summaries.update run.imageId (.withRun run))
    (Dict.ofList ((paginate params sorted).map fun e => (e.1, .ofImage settings e.2)))).values
  total := db.image.entries.length
  limit := params.limit
  offset := params.offset

/-- `image_cves` where the select returns the findings as `sorted`. -/
def imageCvesIn (db : Db) (name tag : String) (severity : Option Severity)
    (sorted : List (FindingKey × Finding)) (params : PageParams) :
    Except HttpError (Page CveInImage) :=
  match findImage db name tag with
  | none => .error ⟨404, "unknown image " ++ name ++ ":" ++ tag⟩
  | some (imageId, image) =>
    match image.currentScanRunId with
    | none => .ok ⟨[], 0, params.limit, params.offset⟩
    | some runId =>
      .ok {
        items := paginate params (sorted.filterMap (cveInImage db))
        total := countFindings db ⟨imageId, runId, severity⟩
        limit := params.limit
        offset := params.offset }

/-- `list_cves` where the query returns the CVEs as `sorted`. -/
def listCvesIn (db : Db) (severity : Option Severity) (sorted : List (CveId × Cve))
    (params : PageParams) : Page CveSummary where
  items := paginate params (sorted.map cveSummary)
  total := (db.cve.entries.filter (listsCve severity)).length
  limit := params.limit
  offset := params.offset

/-- `cve_images` where the query returns the joined rows as `sorted`. -/
def cveImagesIn (db : Db) (c : CveId) (sorted : List ((FindingKey × Finding) × Image))
    (params : PageParams) : Except HttpError (Page ImageAffectedByCve) :=
  match db.cve.get? c with
  | none => .error ⟨404, "unknown CVE " ++ c⟩
  | some _ =>
    .ok {
      items := paginate params (sorted.filterMap (imageAffectedByCve db))
      total := (affectedRows db c).length
      limit := params.limit
      offset := params.offset }

/-! ### Rows and sort keys -/

/-- The findings that a request of `image_cves` selects. -/
def matchingFindings (db : Db) (name tag : String) (severity : Option Severity) :
    List (FindingKey × Finding) :=
  match findImage db name tag with
  | none => []
  | some (imageId, image) =>
    match image.currentScanRunId with
    | none => []
    | some runId => db.finding.entries.filter (Conditions.hold ⟨imageId, runId, severity⟩)

/-- `ORDER BY name, tag`. -/
def referenceKey (e : ImageId × Image) : String ×ₗ String := toLex (e.2.name, e.2.tag)

/-- `ORDER BY severity_rank DESC, cve_id`. -/
def findingKey (e : FindingKey × Finding) : ℕᵒᵈ ×ₗ CveId :=
  toLex (OrderDual.toDual e.2.severityRank, e.1.cveId)

/-- `ORDER BY max_severity_rank DESC, id`. -/
def cveKey (e : CveId × Cve) : ℕᵒᵈ ×ₗ CveId := toLex (OrderDual.toDual e.2.maxSeverityRank, e.1)

/-- `ORDER BY severity_rank DESC, image.name, image.tag`. -/
def affectedKey (e : (FindingKey × Finding) × Image) : ℕᵒᵈ ×ₗ (String ×ₗ String) :=
  toLex (OrderDual.toDual e.1.2.severityRank, toLex (e.2.name, e.2.tag))

theorem listImages_eq_listImagesIn (settings : Settings) (params : PageParams) (db : Db) :
    listImages settings params db = listImagesIn settings db (imagesByReference db) params := rfl

theorem imageCves_eq_imageCvesIn (db : Db) (name tag : String) (params : PageParams)
    (severity : Option Severity) :
    imageCves db name tag params severity = imageCvesIn db name tag severity
      ((matchingFindings db name tag severity).insertionSort worstFirst) params := by
  rw [imageCves, imageCvesAt, imageCvesIn, matchingFindings]
  cases findImage db name tag with
  | none => rfl
  | some e =>
    obtain ⟨i, image⟩ := e
    cases h : image.currentScanRunId with
    | none => simp [h]
    | some r =>
      simp only [h]
      rfl

theorem cveImages_eq_cveImagesIn (db : Db) (c : CveId) (params : PageParams) :
    cveImages c params db = cveImagesIn db c ((affectedRows db c).insertionSort fun a b =>
      affectedKey a ≤ affectedKey b) params := rfl

theorem listCves_eq_listCvesIn (db : Db) (severity : Option Severity) (params : PageParams) :
    listCves params severity db = listCvesIn db severity
      ((db.cve.entries.filter (listsCve severity)).insertionSort fun a b => cveKey a ≤ cveKey b)
      params := rfl

/-! ### Partitions -/

section Partition

variable {ρ κ α : Type} [LinearOrder κ] {key : ρ → κ} {rows : List ρ} {item : ρ → Option α}
  {limit : ℕ} {answer : List ρ → PageParams → Except HttpError (Page α)}

/-- The items of the pages at the offsets `0`, `limit`, `2 * limit`, … up to the total. -/
def collected (limit : ℕ) (page : ℕ → Page α) : List α :=
  (List.range ((page 0).total / limit + 1)).flatMap fun k => (page k).items

/-- However the database sorts the rows for each of the pages, every row is on exactly one. -/
def PagesPartition (key : ρ → κ) (rows : List ρ) (item : ρ → Option α) (limit : ℕ)
    (answer : List ρ → PageParams → Except HttpError (Page α)) : Prop :=
  ∀ order : ℕ → List ρ, (∀ k, Admissible key rows (order k)) → ∀ page : ℕ → Page α,
    (∀ k, answer (order k) ⟨limit, k * limit⟩ = .ok (page k)) →
      ((collected limit page).map some).Perm (rows.map item)

/-- A request that is refused has no pages. -/
theorem pagesPartition_of_error {e : HttpError}
    (h : ∀ sorted params, answer sorted params = .error e) :
    PagesPartition key rows item limit answer := by
  intro order _ page hpage
  have hzero := (h _ _).symm.trans (hpage 0)
  cases hzero

theorem map_some_filterMap {l : List ρ} (h : ∀ e ∈ l, (item e).isSome) :
    (l.filterMap item).map some = l.map item := by
  induction l with
  | nil => rfl
  | cons e l ih =>
    obtain ⟨a, ha⟩ := Option.isSome_iff_exists.mp (h e List.mem_cons_self)
    rw [List.filterMap_cons_some ha, List.map_cons, List.map_cons, ha,
      ih fun e' he' => h e' (List.mem_cons_of_mem _ he')]

/-- **The pages partition a listing** iff no tie is across a boundary. -/
theorem pagesPartition_iff (hlimit : 1 ≤ limit) (hnodup : rows.Nodup)
    (hsome : ∀ e ∈ rows, (item e).isSome) (hitem : Set.InjOn item {e | e ∈ rows})
    (hanswer : ∀ sorted, Admissible key rows sorted → ∀ params, answer sorted params
      = .ok ⟨paginate params (sorted.filterMap item), rows.length, params.limit, params.offset⟩) :
    PagesPartition key rows item limit answer ↔ NoTieAcross key rows limit := by
  have hlength : rows.length ≤ (rows.length / limit + 1) * limit :=
    (Nat.lt_mul_of_div_lt (Nat.lt_succ_self _) hlimit).le
  rw [← perm_pages_iff hnodup hitem hlength]
  refine forall_congr' fun order => forall_congr' fun horder => ?_
  let page : ℕ → Page α := fun k =>
    ⟨paginate ⟨limit, k * limit⟩ ((order k).filterMap item), rows.length, limit, k * limit⟩
  have hpage : ∀ k, answer (order k) ⟨limit, k * limit⟩ = .ok (page k) :=
    fun k => hanswer (order k) (horder k) _
  have hcollected : (collected limit page).map some
      = (pages limit (rows.length / limit + 1) order).map item := by
    rw [collected, pages, List.map_flatMap, List.map_flatMap]
    refine List.flatMap_congr fun k _ => ?_
    show (paginate ⟨limit, k * limit⟩ ((order k).filterMap item)).map some
      = (Paging.page limit k (order k)).map item
    rw [paginate, Paging.page, List.map_take, List.map_drop, List.map_take, List.map_drop,
      map_some_filterMap fun e he => hsome e ((horder k).perm.subset he)]
  constructor
  · intro h
    rw [← hcollected]
    exact h page hpage
  · intro h page' hpage'
    have hsame : page' = page := by
      funext k
      exact Except.ok.inj ((hpage' k).symm.trans (hpage k))
    rw [hsame, hcollected]
    exact h

end Partition

/-! ### Stored states -/

/-- What the schema and the recorders promise of a stored state. -/
structure Constrained (db : Db) : Prop where
  /-- `uq_image_name_tag`. -/
  reference : ∀ i image j image', db.image.get? i = some image → db.image.get? j = some image' →
    image.name = image'.name → image.tag = image'.tag → i = j
  /-- `uq_package_nvt` and the primary key of `package`. -/
  package : db.package.Faithful
  /-- The foreign key of `finding.cve_id`. -/
  findingCve : ∀ key f, db.finding.get? key = some f → ∃ cve, db.cve.get? key.cveId = some cve
  /-- The foreign key of `finding.package_id`. -/
  findingPackage : ∀ key f, db.finding.get? key = some f →
    ∃ k, db.package.get? k = some key.packageId
  /-- No code deletes a run. -/
  findingRuns : ∀ key f, db.finding.get? key = some f →
    ∃ firstRun lastRun, db.scanRun.get? f.firstSeenRunId = some firstRun ∧
      db.scanRun.get? f.lastSeenRunId = some lastRun

variable {db : Db} {limit : ℕ}

/-- The states of every serial history are such. -/
theorem constrained_runCalls {db₀ : Db} (h : WellFormed db₀)
    (hreference : ((references db₀).map Prod.snd).Nodup) (calls : List Call) :
    Constrained (runCalls db₀ calls) := by
  have hwf := wellFormed_runCalls h calls
  refine ⟨fun i image j image' hi hj hname htag => ?_, hwf.package, hwf.findingCve,
    hwf.findingPackage, fun key f hf => ?_⟩
  · rw [← references_runCalls db₀ calls] at hreference
    have hmem : ∀ i image, (runCalls db₀ calls).image.get? i = some image →
        (i, image.name, image.tag) ∈ references (runCalls db₀ calls) := fun i image hi =>
      List.mem_map_of_mem (f := fun e : ImageId × Image => (e.1, e.2.name, e.2.tag))
        (Dict.get?_eq_some_iff.mp hi)
    have hsame := List.inj_on_of_nodup_map hreference (hmem i image hi) (hmem j image' hj)
      (Prod.ext hname htag)
    exact (Prod.mk.inj hsame).1
  · obtain ⟨firstRun, hfirst, -⟩ := hwf.firstSeen key f hf
    obtain ⟨lastRun, hlast, -⟩ := hwf.lastSeen key f hf
    exact ⟨firstRun, lastRun, hfirst, hlast⟩

theorem Constrained.keyOf? (hdb : Constrained db) {key : FindingKey} {f : Finding}
    (hf : db.finding.get? key = some f) : ∃ k, db.package.keyOf? key.packageId = some k := by
  obtain ⟨k, hk⟩ := hdb.findingPackage key f hf
  exact ⟨k, hdb.package.keyOf?_eq_some.mpr hk⟩

/-- A name, a version and a type are those of one package. -/
theorem Constrained.packageId_inj (hdb : Constrained db) {p q : PackageId} {k : PackageKey}
    (hp : db.package.keyOf? p = some k) (hq : db.package.keyOf? q = some k) : p = q := by
  rw [hdb.package.keyOf?_eq_some] at hp hq
  exact Option.some.inj (hp.symm.trans hq)

/-! ### `GET /api/images` -/

/-- The summary that a listed image gets. -/
def summaryIn (settings : Settings) (db : Db) (e : ImageId × Image) : ImageSummary :=
  ((currentRuns db).filter fun run => decide (run.imageId = e.1)).foldl
    (fun summary run => summary.withRun run) (.ofImage settings e.2)

/-- Looking up runs changes neither the name nor the tag. -/
theorem reference_summaryIn (settings : Settings) (db : Db) (e : ImageId × Image) :
    (summaryIn settings db e).name = e.2.name ∧ (summaryIn settings db e).tag = e.2.tag := by
  have hfold : ∀ (runs : List ScanRun) (summary : ImageSummary),
      (runs.foldl (fun summary run => summary.withRun run) summary).name = summary.name ∧
      (runs.foldl (fun summary run => summary.withRun run) summary).tag = summary.tag := by
    intro runs
    induction runs with
    | nil => exact fun summary => ⟨rfl, rfl⟩
    | cons run runs ih => exact fun summary => ih (summary.withRun run)
  exact hfold _ _

/-- However the images are sorted, each of the page is listed once. -/
theorem items_listImagesIn (settings : Settings) {sorted : List (ImageId × Image)}
    (hnodup : (sorted.map Prod.fst).Nodup) (params : PageParams) :
    (listImagesIn settings db sorted params).items
      = (paginate params sorted).map (summaryIn settings db) := by
  have hpage : ((paginate params sorted).map Prod.fst).Nodup :=
    hnodup.sublist (((List.take_sublist _ _).trans (List.drop_sublist _ _)).map Prod.fst)
  have hkeys : ∀ f : ImageId × Image → ImageSummary,
      (((paginate params sorted).map fun e => (e.1, f e)).map Prod.fst).Nodup := by
    intro f
    rw [List.map_map]
    exact hpage
  have hsame : (currentRuns db).foldl
        (fun summaries run => summaries.update run.imageId (.withRun run))
        (Dict.ofList ((paginate params sorted).map fun e => (e.1, .ofImage settings e.2)))
      = Dict.ofList ((paginate params sorted).map fun e => (e.1, summaryIn settings db e)) := by
    refine Dict.ext_keys_get? ?_ fun i => ?_
    · rw [keys_foldl_withRun]
      refine Dict.keys_ofList_congr ?_
      rw [List.map_map, List.map_map]
      rfl
    · rw [get?_foldl_withRun, Dict.get?_ofList (hkeys _), Dict.get?_ofList (hkeys _), lookup_map,
        lookup_map, Option.map_map]
      rfl
  rw [listImagesIn, hsame, Dict.values, Dict.entries_ofList (hkeys _), List.map_map]
  rfl

/-- The pages of `list_images` partition the images. -/
def ListImagesPartition (settings : Settings) (db : Db) (limit : ℕ) : Prop :=
  PagesPartition referenceKey db.image.entries (fun e => some (summaryIn settings db e)) limit
    fun sorted params => .ok (listImagesIn settings db sorted params)

theorem listImagesPartition (hdb : Constrained db) (hlimit : 1 ≤ limit) (settings : Settings) :
    ListImagesPartition settings db limit := by
  have hnodup : db.image.entries.Nodup := List.Nodup.of_map Prod.fst db.image.nodup
  have hinj : ∀ e ∈ db.image.entries, ∀ e' ∈ db.image.entries,
      e.2.name = e'.2.name → e.2.tag = e'.2.tag → e = e' := by
    intro e he e' he' hname htag
    have hi : db.image.get? e.1 = some e.2 := Dict.get?_eq_some_iff.mpr he
    have hi' : db.image.get? e'.1 = some e'.2 := Dict.get?_eq_some_iff.mpr he'
    have hsame := hdb.reference _ _ _ _ hi hi' hname htag
    rw [hsame] at hi
    exact Prod.ext hsame (Option.some.inj (hi.symm.trans hi'))
  have hkey : Set.InjOn referenceKey {e | e ∈ db.image.entries} := by
    intro e he e' he' h
    obtain ⟨hname, htag⟩ := Prod.mk.inj (toLex.injective h)
    exact hinj e he e' he' hname htag
  refine (pagesPartition_iff hlimit hnodup (fun e _ => rfl) (fun e he e' he' h => ?_)
    fun sorted hsorted params => ?_).mpr (noTieAcross_of_injOn hnodup hkey limit)
  · have hsummary : summaryIn settings db e = summaryIn settings db e' := Option.some.inj h
    have hname := (reference_summaryIn settings db e).1
    have htag := (reference_summaryIn settings db e).2
    rw [hsummary] at hname htag
    exact hinj e he e' he' (hname.symm.trans (reference_summaryIn settings db e').1)
      (htag.symm.trans (reference_summaryIn settings db e').2)
  · have hids : (sorted.map Prod.fst).Nodup :=
      (hsorted.perm.map Prod.fst).nodup_iff.mpr db.image.nodup
    have hitems : (listImagesIn settings db sorted params).items
        = (paginate params sorted).map (summaryIn settings db) :=
      items_listImagesIn settings hids params
    have hmap : sorted.filterMap (fun e => some (summaryIn settings db e))
        = sorted.map (summaryIn settings db) := by
      rw [← List.filterMap_eq_map]
      rfl
    rw [hmap, paginate, ← List.map_drop, ← List.map_take]
    show Except.ok (listImagesIn settings db sorted params) = Except.ok _
    rw [← paginate, ← hitems]
    rfl

/-! ### `GET /api/cves` -/

/-- The pages of `list_cves` partition the CVEs that a filter lets through. -/
def ListCvesPartition (db : Db) (severity : Option Severity) (limit : ℕ) : Prop :=
  PagesPartition cveKey (db.cve.entries.filter (listsCve severity)) (fun e => some (cveSummary e))
    limit fun sorted params => .ok (listCvesIn db severity sorted params)

theorem listCvesPartition (db : Db) (hlimit : 1 ≤ limit) (severity : Option Severity) :
    ListCvesPartition db severity limit := by
  have hnodup : (db.cve.entries.filter (listsCve severity)).Nodup :=
    (List.Nodup.of_map Prod.fst db.cve.nodup).filter _
  have hinj : ∀ e ∈ db.cve.entries.filter (listsCve severity),
      ∀ e' ∈ db.cve.entries.filter (listsCve severity), e.1 = e'.1 → e = e' := by
    intro e he e' he' hc
    exact List.inj_on_of_nodup_map db.cve.nodup (List.mem_of_mem_filter he)
      (List.mem_of_mem_filter he') hc
  have hkey : Set.InjOn cveKey {e | e ∈ db.cve.entries.filter (listsCve severity)} := by
    intro e he e' he' h
    exact hinj e he e' he' (Prod.mk.inj (toLex.injective h)).2
  refine (pagesPartition_iff hlimit hnodup (fun e _ => rfl) (fun e he e' he' h => ?_)
    fun sorted _ params => ?_).mpr (noTieAcross_of_injOn hnodup hkey limit)
  · exact hinj e he e' he' (congrArg CveSummary.cveId (Option.some.inj h))
  · have hmap : sorted.filterMap (fun e => some (cveSummary e)) = sorted.map cveSummary := by
      rw [← List.filterMap_eq_map]
      rfl
    rw [hmap]
    rfl

/-! ### `GET /api/images/{name}/{tag}/cves` -/

/-- The pages of `image_cves` partition the findings of a request. -/
def ImageCvesPartition (db : Db) (name tag : String) (severity : Option Severity) (limit : ℕ) :
    Prop :=
  PagesPartition findingKey (matchingFindings db name tag severity) (cveInImage db) limit
    (imageCvesIn db name tag severity)

/-- What a request selects are current findings of one image. -/
theorem mem_matchingFindings {name tag : String} {severity : Option Severity}
    {e : FindingKey × Finding} (he : e ∈ matchingFindings db name tag severity) :
    e ∈ db.finding.entries ∧ ∃ image, findImage db name tag = some (e.1.imageId, image) := by
  rw [matchingFindings] at he
  split at he
  · simp at he
  · rename_i i image hfind
    split at he
    · simp at he
    · obtain ⟨hmem, hold⟩ := List.mem_filter.mp he
      simp only [Conditions.hold, Bool.and_eq_true, decide_eq_true_eq] at hold
      exact ⟨hmem, image, by rw [hold.1.1]; exact hfind⟩

theorem nodup_matchingFindings (db : Db) (name tag : String) (severity : Option Severity) :
    (matchingFindings db name tag severity).Nodup := by
  rw [matchingFindings]
  split
  · exact List.nodup_nil
  · split
    · exact List.nodup_nil
    · exact (List.Nodup.of_map Prod.fst db.finding.nodup).filter _

theorem Constrained.cveInImage_isSome (hdb : Constrained db) {e : FindingKey × Finding}
    (he : e ∈ db.finding.entries) : (cveInImage db e).isSome := by
  have hf : db.finding.get? e.1 = some e.2 := Dict.get?_eq_some_iff.mpr he
  obtain ⟨cve, hcve⟩ := hdb.findingCve _ _ hf
  obtain ⟨k, hk⟩ := hdb.keyOf? hf
  obtain ⟨firstRun, lastRun, hfirst, hlast⟩ := hdb.findingRuns _ _ hf
  simp [cveInImage, hcve, hk, hfirst, hlast]

/-- The identifier and the package tell the findings of an image apart. -/
theorem Constrained.injOn_cveInImage (hdb : Constrained db) (name tag : String)
    (severity : Option Severity) :
    Set.InjOn (cveInImage db) {e | e ∈ matchingFindings db name tag severity} := by
  intro e he e' he' h
  obtain ⟨hmem, image, hfind⟩ := mem_matchingFindings he
  obtain ⟨hmem', image', hfind'⟩ := mem_matchingFindings he'
  obtain ⟨item, hitem⟩ := Option.isSome_iff_exists.mp (hdb.cveInImage_isSome hmem)
  obtain ⟨hcve, hk⟩ := of_cveInImage_eq_some hitem
  obtain ⟨hcve', hk'⟩ := of_cveInImage_eq_some (h.symm.trans hitem)
  have himage : e.1.imageId = e'.1.imageId :=
    (Prod.mk.inj (Option.some.inj (hfind.symm.trans hfind'))).1
  have hkey : e.1 = e'.1 := by
    rw [FindingKey.mk.injEq]
    exact ⟨himage, hcve.symm.trans hcve', hdb.packageId_inj hk hk'⟩
  exact List.inj_on_of_nodup_map db.finding.nodup hmem hmem' hkey

theorem imageCvesPartition_iff (hdb : Constrained db) (hlimit : 1 ≤ limit) (name tag : String)
    (severity : Option Severity) :
    ImageCvesPartition db name tag severity limit
      ↔ NoTieAcross findingKey (matchingFindings db name tag severity) limit := by
  cases hfind : findImage db name tag with
  | none =>
    have hrefused : ImageCvesPartition db name tag severity limit :=
      pagesPartition_of_error fun sorted params => by rw [imageCvesIn, hfind]
    have hrows : matchingFindings db name tag severity = [] := by rw [matchingFindings, hfind]
    exact iff_of_true hrefused (by rw [hrows]; exact fun i hi => absurd hi (Nat.not_lt_zero i))
  | some e =>
    obtain ⟨i, image⟩ := e
    refine pagesPartition_iff hlimit (nodup_matchingFindings db name tag severity)
      (fun e he => hdb.cveInImage_isSome (mem_matchingFindings he).1)
      (hdb.injOn_cveInImage name tag severity) fun sorted hsorted params => ?_
    rw [imageCvesIn, hfind]
    rw [matchingFindings, hfind] at hsorted ⊢
    cases hr : image.currentScanRunId with
    | none =>
      simp only [hr] at hsorted ⊢
      rw [List.perm_nil.mp hsorted.perm]
      simp [paginate]
    | some r =>
      simp only [hr]
      rfl

/-! ### `GET /api/cves/{cve_id}/images` -/

/-- The pages of `cve_images` partition the current findings of a CVE. -/
def CveImagesPartition (db : Db) (c : CveId) (limit : ℕ) : Prop :=
  PagesPartition affectedKey (affectedRows db c) (imageAffectedByCve db) limit (cveImagesIn db c)

/-- A selection that keeps what it is made from has no row twice. -/
theorem nodup_filterMap_of_fst {α β : Type} {f : α → Option (α × β)} {l : List α} (hl : l.Nodup)
    (hf : ∀ a row, f a = some row → row.1 = a) : (l.filterMap f).Nodup :=
  hl.filterMap fun a a' row hrow hrow' => (hf a row hrow).symm.trans (hf a' row hrow')

theorem nodup_affectedRows (db : Db) (c : CveId) : (affectedRows db c).Nodup := by
  refine nodup_filterMap_of_fst (List.Nodup.of_map Prod.fst db.finding.nodup) fun e row hrow => ?_
  cases himage : db.image.get? e.1.imageId with
  | none => simp [himage] at hrow
  | some image =>
    simp only [himage, Option.ite_none_right_eq_some, Option.some.injEq] at hrow
    rw [← hrow.2]

theorem Constrained.imageAffectedByCve_isSome (hdb : Constrained db) {c : CveId}
    {e : (FindingKey × Finding) × Image} (he : e ∈ affectedRows db c) :
    (imageAffectedByCve db e).isSome := by
  have hf : db.finding.get? e.1.1 = some e.1.2 :=
    Dict.get?_eq_some_iff.mpr (mem_affectedRows.mp he).1
  obtain ⟨k, hk⟩ := hdb.keyOf? hf
  obtain ⟨-, lastRun, -, hlast⟩ := hdb.findingRuns _ _ hf
  simp [imageAffectedByCve, hk, hlast]

theorem of_imageAffectedByCve_eq_some {e : (FindingKey × Finding) × Image}
    {item : ImageAffectedByCve} (h : imageAffectedByCve db e = some item) :
    item.name = e.2.name ∧ item.tag = e.2.tag ∧
      db.package.keyOf? e.1.1.packageId = some item.package := by
  simp only [imageAffectedByCve, Option.bind_eq_bind, Option.bind_eq_some_iff, Option.pure_def,
    Option.some.injEq] at h
  obtain ⟨k, hk, run, -, rfl⟩ := h
  exact ⟨rfl, rfl, hk⟩

/-- The reference and the package tell the findings of a CVE apart. -/
theorem Constrained.injOn_imageAffectedByCve (hdb : Constrained db) (c : CveId) :
    Set.InjOn (imageAffectedByCve db) {e | e ∈ affectedRows db c} := by
  rintro ⟨e, image⟩ he ⟨e', image'⟩ he' h
  obtain ⟨item, hitem⟩ := Option.isSome_iff_exists.mp (hdb.imageAffectedByCve_isSome he)
  obtain ⟨hname, htag, hk⟩ := of_imageAffectedByCve_eq_some hitem
  obtain ⟨hname', htag', hk'⟩ := of_imageAffectedByCve_eq_some (h.symm.trans hitem)
  obtain ⟨hmem, hi, hc, -⟩ := mem_affectedRows.mp he
  obtain ⟨hmem', hi', hc', -⟩ := mem_affectedRows.mp he'
  have himage : e.1.imageId = e'.1.imageId :=
    hdb.reference _ _ _ _ hi hi' (hname.symm.trans hname') (htag.symm.trans htag')
  have hkey : e.1 = e'.1 := by
    rw [FindingKey.mk.injEq]
    exact ⟨himage, hc.trans hc'.symm, hdb.packageId_inj hk hk'⟩
  rw [himage] at hi
  rw [List.inj_on_of_nodup_map db.finding.nodup hmem hmem' hkey,
    Option.some.inj (hi.symm.trans hi')]

theorem cveImagesPartition_iff (hdb : Constrained db) (hlimit : 1 ≤ limit) (c : CveId) :
    CveImagesPartition db c limit ↔ NoTieAcross affectedKey (affectedRows db c) limit := by
  cases hc : db.cve.get? c with
  | none =>
    have hrefused : CveImagesPartition db c limit :=
      pagesPartition_of_error fun sorted params => by rw [cveImagesIn, hc]
    have hrows : affectedRows db c = [] := by
      refine List.eq_nil_iff_forall_not_mem.mpr fun e he => ?_
      obtain ⟨hmem, -, hcve, -⟩ := mem_affectedRows.mp he
      obtain ⟨cve, hknown⟩ := hdb.findingCve _ _ (Dict.get?_eq_some_iff.mpr hmem)
      rw [hcve, hc] at hknown
      cases hknown
    exact iff_of_true hrefused (by rw [hrows]; exact fun i hi => absurd hi (Nat.not_lt_zero i))
  | some cve =>
    refine pagesPartition_iff hlimit (nodup_affectedRows db c)
      (fun e he => hdb.imageAffectedByCve_isSome he) (hdb.injOn_imageAffectedByCve c)
      fun sorted _ params => ?_
    rw [cveImagesIn, hc]

/-! ### The four collections -/

/-- **Which listings are partitioned.** The images and the CVEs always are. The findings of an image
and the images of a CVE are iff no page boundary separates rows of one rank and one CVE, or of one
rank and one image. -/
theorem pagesPartition_iff_noTieAcross (hdb : Constrained db) (hlimit : 1 ≤ limit) :
    (∀ settings, ListImagesPartition settings db limit) ∧
    (∀ severity, ListCvesPartition db severity limit) ∧
    (∀ name tag severity, ImageCvesPartition db name tag severity limit
      ↔ NoTieAcross findingKey (matchingFindings db name tag severity) limit) ∧
    ∀ c, CveImagesPartition db c limit ↔ NoTieAcross affectedKey (affectedRows db c) limit :=
  ⟨listImagesPartition hdb hlimit, listCvesPartition db hlimit,
    imageCvesPartition_iff hdb hlimit, cveImagesPartition_iff hdb hlimit⟩

/-- A scan of `nginx:1.19` that finds one CVE in two packages, at one severity, and another CVE. -/
def openssl : List Call :=
  [.success 1 none (.debian [("CVE-1", "libssl1.1", "HIGH"), ("CVE-1", "openssl", "HIGH"),
      ("CVE-2", "zlib", "LOW")])
    ⟨none, none, none, none, 0, second⟩]

theorem constrained_openssl : Constrained (runCalls (Db.seeded 0 briefImages) openssl) :=
  constrained_runCalls (wellFormed_of_unscanned (unscanned_seeded 0 briefImages)) (by decide)
    openssl

/-- Two rows to a page: the tied ones are on the first, the other one on the second. -/
theorem pagesPartition_iff_noTieAcross_openssl :
    ImageCvesPartition (runCalls (Db.seeded 0 briefImages) openssl) "nginx" "1.19" none 2 := by
  obtain ⟨-, -, hfindings, -⟩ := pagesPartition_iff_noTieAcross constrained_openssl one_le_two
  exact (hfindings "nginx" "1.19" none).mpr (by decide)

/-- One row to a page, and the two packages may change places between the queries. -/
theorem not_imageCvesPartition_openssl :
    ¬ ImageCvesPartition (runCalls (Db.seeded 0 briefImages) openssl) "nginx" "1.19" none 1 := by
  rw [imageCvesPartition_iff constrained_openssl le_rfl]
  decide

end Api

end ContainerScanner
