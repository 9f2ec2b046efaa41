import ContainerScanner.Api.Snapshot
import ContainerScanner.Api.Stats
import ContainerScanner.Scanner.Dedup
import Mathlib

/-!
# The conditional-request path

The `ETag` is the second of the newest `completed_at`, while a body can change with every
transaction that commits. `GET /api/images` shows what every transaction does to its image; the
other endpoints show findings, which only a success publishes. So a validator is sound for an
endpoint between two states exactly when the transactions between them show nothing there, or move
the second: when one of them was stamped in a later one than everything before. Which second a
transaction is stamped in is the worker's clock at the end of its scan, and says nothing about when
it commits.

## Main definitions

* `Endpoint`, `Request`, `respond` — the collection endpoints, with their parameters as sent
* `Completed` — the completion times on record
* `ValidatorSound` — a `304` stands for the body that was served before
* `Shape`, `Endpoint.shows` — what of a transaction decides that

## Main results

* `completed_runCalls` — what a history adds to the completion times
* `respond_runCalls` — transactions that show nothing at an endpoint leave its bodies
* `exists_respond_ne` — one that shows something can change a body
* `validatorSound_iff` — when the validator is sound
-/

namespace ContainerScanner

open Foundation Persist

namespace Api

variable {db : Db}

/-! ### Requests -/

/-- A collection endpoint. -/
inductive Endpoint where
  | listImages
  | imageCves
  | listCves
  | cveImages
  deriving DecidableEq, Repr

/-- A request to one of them, with its parameters as they are sent. -/
inductive Request where
  | listImages (limit : Option ℕ) (offset : ℕ)
  | imageCves (name tag : String) (limit : Option ℕ) (offset : ℕ) (severity : Option String)
  | listCves (limit : Option ℕ) (offset : ℕ) (severity : Option String)
  | cveImages (cveId : CveId) (limit : Option ℕ) (offset : ℕ)

def Request.endpoint : Request → Endpoint
  | .listImages .. => .listImages
  | .imageCves .. => .imageCves
  | .listCves .. => .listCves
  | .cveImages .. => .cveImages

/-- The body of a response. -/
inductive Response where
  | images (page : Page ImageSummary)
  | imageCves (page : Except HttpError (Page CveInImage))
  | cves (page : Except HttpError (Page CveSummary))
  | cveImages (page : Except HttpError (Page ImageAffectedByCve))

/-- The response to a request that is not conditional. -/
def respond (settings : Settings) (db : Db) : Request → Response
  | .listImages limit offset => .images (listImages settings (pageParams settings limit offset) db)
  | .imageCves name tag limit offset severity =>
    .imageCves ((severityFilter severity).bind
      (imageCves db name tag (pageParams settings limit offset)))
  | .listCves limit offset severity =>
    .cves ((severityFilter severity).map fun severity =>
      listCves (pageParams settings limit offset) severity db)
  | .cveImages cveId limit offset =>
    .cveImages (cveImages cveId (pageParams settings limit offset) db)

/-- A client that saw `before` and is answered `304` in `after` has the body it would be sent. -/
def ValidatorSound (endpoint : Endpoint) (before after : Db) : Prop :=
  ∀ etag, applyFreshness before = some etag → notModified after (some etag) = true →
    ∀ settings request, request.endpoint = endpoint →
      respond settings after request = respond settings before request

theorem notModified_iff {etag : String} :
    notModified db (some etag) = true ↔ applyFreshness db = some etag := by
  rw [notModified]
  cases applyFreshness db <;> simp [eq_comm]

/-! ### Completion times -/

/-- Some run completed at `t`. -/
def Completed (db : Db) (t : Timestamp) : Prop :=
  ∃ r run, db.scanRun.get? r = some run ∧ run.completedAt = some t

theorem mem_completions {t : Timestamp} :
    t ∈ db.scanRun.rows.values.filterMap ScanRun.completedAt ↔ Completed db t := by
  simp only [List.mem_filterMap, Dict.mem_values_iff, Completed]
  constructor
  · rintro ⟨run, ⟨r, hr⟩, ht⟩
    exact ⟨r, run, hr, ht⟩
  · rintro ⟨r, run, hr, ht⟩
    exact ⟨run, ⟨r, hr⟩, ht⟩

/-- The newest completion is the greatest one. -/
theorem newestCompletion_eq_some_iff {n : Timestamp} :
    newestCompletion db = some n ↔ Completed db n ∧ ∀ t, Completed db t → t ≤ n := by
  simp only [newestCompletion, List.max?_eq_some_iff, mem_completions]

theorem exists_newestCompletion {t : Timestamp} (h : Completed db t) :
    ∃ n, newestCompletion db = some n ∧ t ≤ n := by
  cases hn : newestCompletion db with
  | none =>
    rw [newestCompletion, List.max?_eq_none_iff] at hn
    have hmem := mem_completions.mpr h
    rw [hn] at hmem
    cases hmem
  | some n => exact ⟨n, rfl, (newestCompletion_eq_some_iff.mp hn).2 t h⟩

theorem stamp_mono {t u : Timestamp} (h : t ≤ u) : stamp t ≤ stamp u :=
  PyDatetime.wholeSeconds_mono h

/-- Up to the year 2514 the stamp is the second the completion falls in. -/
theorem stamp_of_lt {t : Timestamp} (ht : 0 ≤ t) (hlt : t < 2 ^ 34 * second) :
    stamp t = t / second := PyDatetime.wholeSeconds_of_lt ht hlt

/-- Two stamps make the same `ETag` only when they are equal. -/
theorem etagOf_inj {t u : Timestamp} : etagOf t = etagOf u ↔ stamp t = stamp u := by
  constructor
  · intro h
    have hlist := congrArg String.toList h
    simp only [etagOf, String.toList_append, List.append_cancel_right_eq,
      List.append_cancel_left_eq, String.toList_inj, Int.repr_inj] at hlist
    exact hlist
  · intro h
    rw [etagOf, etagOf, h]

/-! ### Completion times over a history -/

/-- A new run adds its completion time. -/
theorem exists_insert_iff {runs : Serial ScanRun} {run : ScanRun} {t : Timestamp} :
    (∃ r s, (if r = runs.next then some run else runs.get? r) = some s ∧ s.completedAt = some t)
      ↔ (∃ r s, runs.get? r = some s ∧ s.completedAt = some t) ∨ run.completedAt = some t := by
  constructor
  · rintro ⟨r, s, hs, ht⟩
    split at hs
    · rw [← Option.some.inj hs] at ht
      exact Or.inr ht
    · exact Or.inl ⟨r, s, hs, ht⟩
  · rintro (⟨r, s, hs, ht⟩ | ht)
    · exact ⟨r, s, by rw [if_neg (Serial.lt_next hs).ne]; exact hs, ht⟩
    · exact ⟨runs.next, run, if_pos rfl, ht⟩

/-- A transaction adds its own completion time, and no other. -/
theorem completed_commit {call : Call} (hcall : call.imageId ∈ db.image.keys) (t : Timestamp) :
    Completed (call.commit db) t ↔ Completed db t ∨ call.metadata.completedAt = t := by
  rcases Call.commit_cases db call with ⟨hnone, -⟩ | ⟨j, image, job, report, m, rfl, -, heq⟩ |
    ⟨image, run, f, -, -, -, -, -, hcompleted, heq⟩
  · rw [Dict.get?_eq_none_iff] at hnone
    exact absurd hcall hnone
  · rw [heq]
    simp only [Completed, get?_scanRun_recordSuccess]
    rw [exists_insert_iff]
    exact or_congr_right Option.some_inj
  · have hruns : (recordQuiet db call.imageId run f).scanRun = db.scanRun.insert run := rfl
    rw [heq]
    simp only [Completed, hruns, Serial.get?_insert]
    rw [exists_insert_iff, hcompleted]
    exact or_congr_right Option.some_inj

/-- **What a history adds to the completion times.** -/
theorem completed_runCalls {calls : List Call} (hcalls : ∀ call ∈ calls,
    call.imageId ∈ db.image.keys) (t : Timestamp) :
    Completed (runCalls db calls) t
      ↔ Completed db t ∨ t ∈ calls.map fun call => call.metadata.completedAt := by
  induction calls generalizing db with
  | nil => simp
  | cons call calls ih =>
    have hrest : ∀ c ∈ calls, c.imageId ∈ (call.commit db).image.keys := by
      intro c hc
      rw [keys_image_commit]
      exact hcalls c (List.mem_cons_of_mem _ hc)
    rw [runCalls_cons, ih hrest, completed_commit (hcalls call List.mem_cons_self), List.map_cons,
      List.mem_cons, or_assoc, @eq_comm _ t]

/-! ### Transactions that publish nothing -/

/-- Does the transaction publish a scan? -/
def publishes : Call → Bool
  | .success .. => true
  | _ => false

/-- What the endpoints other than `GET /api/images` read of an image. -/
def located (image : Image) : String × String × Option RunId :=
  (image.name, image.tag, image.currentScanRunId)

/-- A transaction that publishes nothing inserts a run and writes columns of its image that only
`GET /api/images` shows. -/
structure Unpublished (db after : Db) : Prop where
  finding : after.finding = db.finding
  cve : after.cve = db.cve
  package : after.package = db.package
  images : after.image.entries.map (fun e => (e.1, located e.2))
    = db.image.entries.map fun e => (e.1, located e.2)

theorem unpublished_commit (db : Db) {call : Call} (hcall : publishes call = false) :
    Unpublished db (call.commit db) := by
  rcases Call.commit_cases db call with ⟨-, heq⟩ | ⟨i, image, job, report, m, rfl, -, -⟩ |
    ⟨image, run, f, -, -, hf, -, -, -, heq⟩
  · rw [heq]
    exact ⟨rfl, rfl, rfl, rfl⟩
  · cases hcall
  · rw [heq]
    refine ⟨rfl, rfl, rfl, Dict.map_update (fun v => ?_) db.image⟩
    rw [located, located, hf.name, hf.tag, hf.pointer]

namespace Unpublished

variable {after : Db}

theorem get?_image (h : Unpublished db after) (i : ImageId) :
    (after.image.get? i).map located = (db.image.get? i).map located := by
  have hlookup : ∀ d : Db, (d.image.get? i).map located
      = (d.image.entries.map fun e => (e.1, located e.2)).lookup i :=
    fun d => (lookup_map (fun e => located e.2) d.image.entries i).symm
  rw [hlookup, hlookup, h.images]

theorem findImage_map (h : Unpublished db after) (name tag : String) :
    (findImage after name tag).map (fun e => (e.1, located e.2))
      = (findImage db name tag).map fun e => (e.1, located e.2) := by
  have hfind : ∀ d : Db, (findImage d name tag).map (fun e => (e.1, located e.2))
      = (d.image.entries.map fun e => (e.1, located e.2)).find? fun e =>
          decide (e.2.1 = name ∧ e.2.2.1 = tag) := by
    intro d
    rw [List.find?_map]
    rfl
  rw [hfind, hfind, h.images]

end Unpublished

theorem selectFindings_commit (hdb : WellFormed db) {call : Call} (hcall : publishes call = false)
    (conditions : Conditions) :
    selectFindings (call.commit db) conditions = selectFindings db conditions := by
  have hsame := unpublished_commit db hcall
  rw [selectFindings, selectFindings, hsame.finding]
  refine List.filterMap_congr fun e he => ?_
  have hmem : e ∈ db.finding.entries := (List.mem_filter.mp ((List.mem_insertionSort _).mp he)).1
  refine (cveInImage_runCalls hdb hmem [call]).mpr ?_
  rw [runCalls_cons, runCalls_nil, titleOf, titleOf, hsame.cve]

theorem imageCves_commit (hdb : WellFormed db) {call : Call} (hcall : publishes call = false)
    (name tag : String) (params : PageParams) (severity : Option Severity) :
    imageCves (call.commit db) name tag params severity
      = imageCves db name tag params severity := by
  have hsame := unpublished_commit db hcall
  have hfind := hsame.findImage_map name tag
  rw [imageCves, imageCves, imageCvesAt, imageCvesAt]
  cases hbefore : findImage db name tag with
  | none =>
    rw [hbefore, Option.map_none, Option.map_eq_none_iff] at hfind
    rw [hfind]
  | some e =>
    rw [hbefore, Option.map_some, Option.map_eq_some_iff] at hfind
    obtain ⟨e', he', heq⟩ := hfind
    obtain ⟨hid, hlocated⟩ := Prod.mk.inj heq
    have hpointer : e'.2.currentScanRunId = e.2.currentScanRunId :=
      congrArg (fun l => l.2.2) hlocated
    rw [he']
    simp only [hid, hpointer, selectFindings_commit hdb hcall, countFindings, hsame.finding]

/-! ### The images of a CVE -/

/-- A row of `finding JOIN image`, with what is read of the image. -/
def affectedRow (e : (FindingKey × Finding) × Image) : (FindingKey × Finding) × String × String :=
  (e.1, e.2.name, e.2.tag)

/-- Such a row joined with its package and its run. -/
def affectedItem (db : Db) (e : (FindingKey × Finding) × String × String) :
    Option ImageAffectedByCve := do
  let package ← db.package.keyOf? e.1.1.packageId
  let run ← db.scanRun.get? e.1.2.lastSeenRunId
  return {
    name := e.2.1
    tag := e.2.2
    digest := run.digest
    severity := e.1.2.severity
    package
    fixedVersion := e.1.2.fixedVersion
    lastSeenAt := run.completedAt }

/-- The listing reads of an image its name, its tag and its pointer. -/
theorem selectAffected_eq (db : Db) (c : CveId) :
    selectAffected db c = (((affectedRows db c).map affectedRow).insertionSort fun a b =>
      toLex (OrderDual.toDual a.1.2.severityRank, toLex a.2)
        ≤ toLex (OrderDual.toDual b.1.2.severityRank, toLex b.2)).filterMap (affectedItem db) := by
  have hsort := List.map_insertionSort (r := fun a b : (FindingKey × Finding) × Image =>
      toLex (OrderDual.toDual a.1.2.severityRank, toLex (a.2.name, a.2.tag))
        ≤ toLex (OrderDual.toDual b.1.2.severityRank, toLex (b.2.name, b.2.tag)))
    (s := fun a b : (FindingKey × Finding) × String × String =>
      toLex (OrderDual.toDual a.1.2.severityRank, toLex a.2)
        ≤ toLex (OrderDual.toDual b.1.2.severityRank, toLex b.2))
    affectedRow (affectedRows db c) fun a _ b _ => Iff.rfl
  rw [← hsort, List.filterMap_map, selectAffected]
  rfl

theorem map_affectedRows (db : Db) (c : CveId) :
    (affectedRows db c).map affectedRow = db.finding.entries.filterMap fun e =>
      ((db.image.get? e.1.imageId).map located).bind fun l =>
        if e.1.cveId = c ∧ l.2.2 = some e.2.lastSeenRunId then some (e, l.1, l.2.1) else none := by
  rw [affectedRows, List.map_filterMap]
  refine List.filterMap_congr fun e _ => ?_
  cases db.image.get? e.1.imageId with
  | none => rfl
  | some image =>
    by_cases hrow : e.1.cveId = c ∧ image.currentScanRunId = some e.2.lastSeenRunId
    · simp [hrow, located, affectedRow]
    · simp [hrow, located]

theorem selectAffected_commit (hdb : WellFormed db) {call : Call} (hcall : publishes call = false)
    (c : CveId) : selectAffected (call.commit db) c = selectAffected db c := by
  have hsame := unpublished_commit db hcall
  have hrows : (affectedRows (call.commit db) c).map affectedRow
      = (affectedRows db c).map affectedRow := by
    rw [map_affectedRows, map_affectedRows, hsame.finding]
    simp only [hsame.get?_image]
  rw [selectAffected_eq, selectAffected_eq, hrows]
  refine List.filterMap_congr fun e he => ?_
  obtain ⟨row, hrow, rfl⟩ := List.mem_map.mp ((List.mem_insertionSort _).mp he)
  have hf : db.finding.get? row.1.1 = some row.1.2 :=
    Dict.get?_eq_some_iff.mpr (mem_affectedRows.mp hrow).1
  obtain ⟨run, hrun, -⟩ := hdb.lastSeen _ _ hf
  have hrun' := get?_scanRun_commit hrun call
  simp only [affectedItem, affectedRow, hsame.package, hrun, hrun']

theorem cveImages_commit (hdb : WellFormed db) {call : Call} (hcall : publishes call = false)
    (c : CveId) (params : PageParams) :
    cveImages c params (call.commit db) = cveImages c params db := by
  have hsame := unpublished_commit db hcall
  have hlength : (affectedRows (call.commit db) c).length = (affectedRows db c).length := by
    rw [← length_selectAffected (wellFormed_commit hdb call), selectAffected_commit hdb hcall,
      length_selectAffected hdb]
  rw [cveImages, cveImages, hsame.cve, selectAffected_commit hdb hcall, hlength]

/-! ### What a transaction shows -/

/-- What a transaction is to an endpoint: does it publish a scan, and when did it complete? -/
structure Shape where
  publishes : Bool
  completedAt : Timestamp
  deriving DecidableEq, Repr

def shape (call : Call) : Shape := ⟨publishes call, call.metadata.completedAt⟩

/-- Can a transaction of the shape change a body of the endpoint? -/
def Endpoint.shows (endpoint : Endpoint) (s : Shape) : Bool :=
  match endpoint with
  | .listImages => true
  | _ => s.publishes

/-- **What shows nothing changes nothing**, step by step. -/
theorem respond_commit (hdb : WellFormed db) (settings : Settings) {request : Request} {call : Call}
    (hcall : request.endpoint.shows (shape call) = false) :
    respond settings (call.commit db) request = respond settings db request := by
  cases request with
  | listImages limit offset => cases hcall
  | imageCves name tag limit offset severity =>
    have hbody : imageCves (call.commit db) name tag (pageParams settings limit offset)
        = imageCves db name tag (pageParams settings limit offset) := by
      funext severity
      exact imageCves_commit hdb hcall name tag _ severity
    rw [respond, respond, hbody]
  | listCves limit offset severity =>
    simp only [respond, listCves, selectCves, (unpublished_commit db hcall).cve]
  | cveImages c limit offset =>
    rw [respond, respond, cveImages_commit hdb hcall]

/-- And over a history. -/
theorem respond_runCalls (hdb : WellFormed db) (settings : Settings) {request : Request}
    {calls : List Call} (hcalls : ∀ call ∈ calls, request.endpoint.shows (shape call) = false) :
    respond settings (runCalls db calls) request = respond settings db request := by
  induction calls generalizing db with
  | nil => rfl
  | cons call calls ih =>
    rw [runCalls_cons, ih (wellFormed_commit hdb call) fun c hc =>
      hcalls c (List.mem_cons_of_mem _ hc), respond_commit hdb settings
      (hcalls call List.mem_cons_self)]

/-! ### Bodies that change -/

/-- What a run of no interest records. -/
def stamped (t : Timestamp) : RunMetadata := ⟨none, none, none, none, t, t⟩

/-- A transaction of the shape. -/
def callOf (i : ImageId) (s : Shape) : Call :=
  if s.publishes then .success i none (.debian []) (stamped s.completedAt)
  else .failure i none (stamped s.completedAt) "" false

theorem shape_callOf (i : ImageId) (s : Shape) : shape (callOf i s) = s := by
  obtain ⟨publishes, t⟩ := s
  cases publishes <;> rfl

theorem imageId_callOf (i : ImageId) (s : Shape) : (callOf i s).imageId = i := by
  rw [callOf]
  split <;> rfl

variable {i : ImageId} {image : Image} {name tag : String}

/-- Images that have not been renamed stand at the same place of the listing. -/
theorem exists_page {d d' : Db} {image' : Image} (href : references d = references d')
    (hi : d.image.get? i = some image) (hi' : d'.image.get? i = some image') :
    ∃ offset, paginate ⟨1, offset⟩ (imagesByReference d) = [(i, image)] ∧
      paginate ⟨1, offset⟩ (imagesByReference d') = [(i, image')] := by
  -- the order is that of the projected rows, which are the same
  have hsorted : ∀ d : Db, (imagesByReference d).map (fun e => (e.1, e.2.name, e.2.tag))
      = (references d).insertionSort fun a b => toLex (a.2.1, a.2.2) ≤ toLex (b.2.1, b.2.2) :=
    fun d => List.map_insertionSort _ _ _ _ fun a _ b _ => Iff.rfl
  have hids : (imagesByReference d).map Prod.fst = (imagesByReference d').map Prod.fst := by
    have hsame := congrArg (List.map Prod.fst)
      ((hsorted d).trans ((congrArg _ href).trans (hsorted d').symm))
    rwa [List.map_map, List.map_map] at hsame
  have hone : ∀ (d : Db) (image : Image) (n : ℕ), d.image.get? i = some image →
      ((imagesByReference d).map Prod.fst)[n]? = some i →
        paginate ⟨1, n⟩ (imagesByReference d) = [(i, image)] := by
    intro d image n hi hn
    rw [List.getElem?_map, Option.map_eq_some_iff] at hn
    obtain ⟨e, he, rfl⟩ := hn
    have hmem : d.image.get? e.1 = some e.2 := Dict.get?_eq_some_iff.mpr
      ((List.mem_insertionSort _).mp (List.mem_of_getElem? he))
    rw [hi] at hmem
    rw [Option.some.inj hmem]
    obtain ⟨hlt, rfl⟩ := List.getElem?_eq_some_iff.mp he
    rw [paginate, List.drop_eq_getElem_cons hlt]
    rfl
  have hmem : i ∈ (imagesByReference d).map Prod.fst := List.mem_map.mpr
    ⟨(i, image), (List.mem_insertionSort _).mpr (Dict.get?_eq_some_iff.mp hi), rfl⟩
  obtain ⟨n, hn⟩ := List.mem_iff_getElem?.mp hmem
  exact ⟨n, hone d image n hi hn, hone d' image' n hi' (hids ▸ hn)⟩

/-- Two summaries of an image that differ are seen on a page of one. -/
theorem exists_respond_listImages_ne {d d' : Db} {image' : Image} (hd : WellFormed d)
    (hd' : WellFormed d') (href : references d = references d')
    (hi : d.image.get? i = some image) (hi' : d'.image.get? i = some image')
    (hne : summaryOf {} d (i, image) ≠ summaryOf {} d' (i, image')) :
    ∃ offset, respond {} d (.listImages (some 1) offset)
      ≠ respond {} d' (.listImages (some 1) offset) := by
  obtain ⟨offset, hpage, hpage'⟩ := exists_page href hi hi'
  refine ⟨offset, fun heq => hne ?_⟩
  have hitems : (listImages {} ⟨1, offset⟩ d).items = (listImages {} ⟨1, offset⟩ d').items :=
    congrArg Page.items (Response.images.inj heq)
  rw [items_listImages hd, items_listImages hd', hpage, hpage'] at hitems
  exact (List.cons.inj hitems).1

/-- Failures that exhaust their jobs move the streak, and others do not. -/
theorem exists_failures_ne (hdb : WellFormed db) (hi : db.image.get? i = some image)
    (t : Timestamp) : ∃ offset,
      respond {} ((Call.failure i none (stamped t) "" false).commit db)
          (.listImages (some 1) offset)
        ≠ respond {} ((Call.failure i none (stamped t) "" true).commit db)
          (.listImages (some 1) offset) := by
  have hnew : ∀ exhausted, ((Call.failure i none (stamped t) "" exhausted).commit db).image.get? i
      = some (failImage (stamped t) exhausted image) := by
    intro exhausted
    have hget : db.image.get? (Call.failure i none (stamped t) "" exhausted).imageId
        = some image := hi
    have himage : (recordFailure db i none (stamped t) "" exhausted).image
        = db.image.update i (failImage (stamped t) exhausted) := rfl
    rw [Call.commit, hget]
    show (recordFailure db i none (stamped t) "" exhausted).image.get? i = _
    rw [himage, Dict.get?_update, if_pos rfl, hi]
    rfl
  refine exists_respond_listImages_ne (wellFormed_commit hdb _) (wellFormed_commit hdb _)
    ((references_commit db _).trans (references_commit db _).symm) (hnew false) (hnew true)
    fun heq => ?_
  have hstreak : ∀ (d : Db) (image : Image),
      (summaryOf {} d (i, image)).consecutiveFailures = image.consecutiveFailures := by
    intro d image
    rw [summaryOf]
    split <;> rfl
  have hsame := congrArg ImageSummary.consecutiveFailures heq
  rw [hstreak, hstreak] at hsame
  exact absurd hsame (Nat.lt_succ_self _).ne

/-- Successes with different digests are shown with different digests. -/
theorem exists_successes_ne (hdb : WellFormed db) (hi : db.image.get? i = some image)
    (t : Timestamp) : ∃ offset,
      respond {} ((Call.success i none (.debian []) (stamped t)).commit db)
          (.listImages (some 1) offset)
        ≠ respond {} ((Call.success i none (.debian [])
            { stamped t with digest := some "sha256:1" }).commit db)
          (.listImages (some 1) offset) := by
  have hnew : ∀ m, ((Call.success i none (.debian []) m).commit db).image.get? i
      = some (pointTo db.scanRun.next m image) := by
    intro m
    rw [commit_success hi, get?_image_recordSuccess hi, if_pos rfl]
  have hdigest : ∀ m, (summaryOf {} ((Call.success i none (.debian []) m).commit db)
      (i, pointTo db.scanRun.next m image)).digest = m.digest := by
    intro m
    have hrun : (pointTo db.scanRun.next m image).currentScanRunId.bind
        ((Call.success i none (.debian []) m).commit db).scanRun.get?
        = some (withCounts (countBySeverity (writtenRows db i (AcceptedReport.debian []).report))
            (newRun i none .success m none)) := by
      rw [commit_success hi]
      show (recordSuccess db i image none _ m).scanRun.get? db.scanRun.next = _
      rw [get?_scanRun_recordSuccess, if_pos rfl]
    rw [summaryOf, hrun]
    rfl
  refine exists_respond_listImages_ne (wellFormed_commit hdb _) (wellFormed_commit hdb _)
    ((references_commit db _).trans (references_commit db _).symm) (hnew _) (hnew _) fun heq => ?_
  have hsame := congrArg ImageSummary.digest heq
  rw [hdigest, hdigest] at hsame
  cases hsame

/-- Some identifier is not in the table. -/
theorem exists_unknownCve (db : Db) : ∃ c, clean (.str c) = some c ∧ c ∉ db.cve.keys := by
  have hinj : Function.Injective fun n : ℕ => "CVE-" ++ n.repr := by
    intro m n h
    have hlist := congrArg String.toList h
    simp only [String.toList_append, List.append_cancel_left_eq, String.toList_inj,
      Nat.repr_inj] at hlist
    exact hlist
  obtain ⟨c, ⟨n, rfl⟩, hfresh⟩ :=
    (Set.infinite_range_of_injective hinj).exists_notMem_finset db.cve.keys.toFinset
  have hspace : ∀ c ∈ ("CVE-" ++ n.repr).toList, PyStr.isSpace c = false := by
    intro c hc
    rw [String.toList_append, List.mem_append, Nat.toList_repr] at hc
    rcases hc with hc | hc
    · have hprefix : c = 'C' ∨ c = 'V' ∨ c = 'E' ∨ c = '-' := by simpa using hc
      rcases hprefix with rfl | rfl | rfl | rfl <;> rfl
    · exact PyStr.isSpace_of_isDigit (Nat.isDigit_of_mem_toDigits (by decide) (by decide) hc)
  have hne : "CVE-" ++ n.repr ≠ "" := by
    intro h
    have hlist := congrArg String.toList h
    rw [String.toList_append] at hlist
    cases hlist
  refine ⟨"CVE-" ++ n.repr, ?_, fun hmem => hfresh (List.mem_toFinset.mpr hmem)⟩
  rw [clean, PyStr.strip_eq_self hspace, if_neg hne]

section Published

variable {c : CveId} (hi : db.image.get? i = some image)

include hi

/-- A report without findings leaves an unknown CVE unknown. -/
theorem get?_cve_noFindings (hc : c ∉ db.cve.keys) (m : RunMetadata) :
    ((Call.success i none (.debian []) m).commit db).cve.get? c = none := by
  have hreport : (AcceptedReport.debian []).report.cveIds = [] := by decide
  rw [commit_success hi, Dict.get?_eq_none_iff, mem_keys_cve_recordSuccess, hreport]
  exact fun h => h.elim (fun h => nomatch h) hc

/-- A report that names the CVE makes it live in the image. -/
theorem live_oneFinding (hdb : WellFormed db) (hc : clean (.str c) = some c) (m : RunMetadata) :
    ∃ r, Live ((Call.success i none (.debian [(c, "openssl", "HIGH")]) m).commit db) c i r := by
  have hname : clean (.str "openssl") = some "openssl" := by decide
  have hentry : entryOf? "debian" (debianEntry (c, "openssl", "HIGH"))
      = some ⟨"debian", [("VulnerabilityID", .str c), ("PkgName", .str "openssl"),
          ("InstalledVersion", .str "1.1.1"), ("Severity", .str "HIGH")], c, "openssl"⟩ :=
    entryOf_dict hc hname
  have hentries : ([(c, "openssl", "HIGH")].filterMap fun e => entryOf? "debian" (debianEntry e))
      = [⟨"debian", _, c, "openssl"⟩] := List.filterMap_cons_some hentry
  have hkeys := (deduplicated_debian [(c, "openssl", "HIGH")]).keys
  rw [hentries] at hkeys
  obtain ⟨g, hg, hkey⟩ := List.mem_map.mp ((hkeys _).mpr List.mem_cons_self)
  rw [commit_success hi]
  exact ⟨_, (live_recordSuccess_self hdb hi _).mpr ⟨g, hg, (Prod.mk.inj hkey).1, rfl⟩⟩

/-- And its row counts the image. -/
theorem counted_oneFinding (hdb : WellFormed db) (hc : clean (.str c) = some c) (m : RunMetadata) :
    ∃ cve, ((Call.success i none (.debian [(c, "openssl", "HIGH")]) m).commit db).cve.get? c
      = some cve ∧ 0 < cve.affectedImageCount := by
  obtain ⟨r, hlive⟩ := live_oneFinding hi hdb hc m
  obtain ⟨p, f, hf, -⟩ := id hlive
  obtain ⟨cve, hcve⟩ := (wellFormed_commit hdb _).findingCve _ f hf
  refine ⟨cve, hcve, ?_⟩
  rw [commit_success hi] at hcve hlive
  have hmem : c ∈ affectedCves db i image
      (AcceptedReport.debian [(c, "openssl", "HIGH")]).report := by
    obtain ⟨g, hg, hgc, -⟩ := (live_recordSuccess_self hdb hi _).mp hlive
    exact List.mem_append_right _ (ParsedReport.mem_cveIds.mpr ⟨g, hg, hgc⟩)
  have himages : cve.affectedImageCount = _ := (isRollup_recordSuccess hmem hcve).images
  rw [himages, Set.ncard_pos (finite_live _ c)]
  exact ⟨i, r, hlive⟩

/-- After a success the endpoint shows the findings of the new run. -/
theorem imageCves_success (hfind : findImage db name tag = some (i, image))
    (report : AcceptedReport) (m : RunMetadata) (params : PageParams) :
    imageCves ((Call.success i none report m).commit db) name tag params none
      = .ok {
          items := paginate params (selectFindings ((Call.success i none report m).commit db)
            ⟨i, db.scanRun.next, none⟩)
          total := countFindings ((Call.success i none report m).commit db)
            ⟨i, db.scanRun.next, none⟩
          limit := params.limit
          offset := params.offset } := by
  obtain ⟨image', hfind', hi'⟩ := findImage_runCalls hfind [.success i none report m]
  have hpointer : image' = pointTo db.scanRun.next m image := by
    rw [runCalls_cons, runCalls_nil, commit_success hi, get?_image_recordSuccess hi,
      if_pos rfl] at hi'
    exact (Option.some.inj hi').symm
  rw [runCalls_cons, runCalls_nil] at hfind'
  rw [imageCves, imageCvesAt, hfind', hpointer]
  rfl

end Published

/-- A finding that only one of two reports has is on some page of the image. -/
theorem exists_imageCves_ne (hdb : WellFormed db) (hfind : findImage db name tag = some (i, image))
    {c : CveId} (hclean : clean (.str c) = some c) (hc : c ∉ db.cve.keys) (m : RunMetadata) :
    ∃ offset, respond {} ((Call.success i none (.debian []) m).commit db)
          (.imageCves name tag (some 1) offset none)
        ≠ respond {} ((Call.success i none (.debian [(c, "openssl", "HIGH")]) m).commit db)
          (.imageCves name tag (some 1) offset none) := by
  have hi : db.image.get? i = some image :=
    Dict.get?_eq_some_iff.mpr (List.mem_of_find?_eq_some hfind)
  obtain ⟨r, p, f, hf, hcurrent, -⟩ := live_oneFinding hi hdb hclean m
  obtain ⟨item, hitem⟩ := Option.isSome_iff_exists.mp
    (cveInImage_isSome (wellFormed_commit hdb _) (Dict.get?_eq_some_iff.mp hf))
  have hpointer :
      ((Call.success i none (.debian [(c, "openssl", "HIGH")]) m).commit db).image.get? i
        = some (pointTo db.scanRun.next m image) := by
    rw [commit_success hi, get?_image_recordSuccess hi, if_pos rfl]
  have hlast : f.lastSeenRunId = db.scanRun.next := by
    rw [isCurrent_iff hpointer] at hcurrent
    exact (Option.some.inj hcurrent).symm
  have hselected : item ∈ selectFindings
      ((Call.success i none (.debian [(c, "openssl", "HIGH")]) m).commit db)
      ⟨i, db.scanRun.next, none⟩ :=
    mem_selectFindings.mpr ⟨_, Dict.get?_eq_some_iff.mp hf,
      by simp [Conditions.hold, severityMatches, hlast], hitem⟩
  obtain ⟨offset, hpage⟩ := (exists_mem_paginate_iff le_rfl _ item).mpr hselected
  refine ⟨offset, fun heq => ?_⟩
  have hbodies : imageCves ((Call.success i none (.debian []) m).commit db) name tag
      ⟨1, offset⟩ none
      = imageCves ((Call.success i none (.debian [(c, "openssl", "HIGH")]) m).commit db) name tag
      ⟨1, offset⟩ none := Response.imageCves.inj heq
  rw [imageCves_success hi hfind, imageCves_success hi hfind] at hbodies
  have hitems := congrArg Page.items (Except.ok.inj hbodies)
  have hpage' : item ∈ paginate ⟨1, offset⟩
      (selectFindings ((Call.success i none (.debian []) m).commit db)
        ⟨i, db.scanRun.next, none⟩) := (congrArg (item ∈ ·) hitems).mpr hpage
  -- a finding of the other state would have its CVE in the table
  obtain ⟨e, he, -, hitem'⟩ :=
    mem_selectFindings.mp ((exists_mem_paginate_iff le_rfl _ item).mp ⟨offset, hpage'⟩)
  obtain ⟨cve, hcve⟩ := (wellFormed_commit hdb (.success i none (.debian []) m)).findingCve _ _
    (Dict.get?_eq_some_iff.mpr he)
  rw [← (of_cveInImage_eq_some hitem').1, (of_cveInImage_eq_some hitem).1,
    get?_cve_noFindings hi hc] at hcve
  cases hcve

/-- **One that shows something can change a body.** Of two transactions of the shape, which differ
in what they say, some request tells which one has committed. -/
theorem exists_respond_ne (hdb : WellFormed db) (hfind : findImage db name tag = some (i, image))
    (endpoint : Endpoint) {s : Shape} (hs : endpoint.shows s = true) :
    ∃ call call' request, (shape call = s ∧ call.imageId = i) ∧
      (shape call' = s ∧ call'.imageId = i) ∧ request.endpoint = endpoint ∧
      respond {} (call.commit db) request ≠ respond {} (call'.commit db) request := by
  have hi : db.image.get? i = some image :=
    Dict.get?_eq_some_iff.mpr (List.mem_of_find?_eq_some hfind)
  obtain ⟨publishes, t⟩ := s
  obtain ⟨c, hclean, hc⟩ := exists_unknownCve db
  have hunknown := get?_cve_noFindings hi hc (stamped t)
  obtain ⟨cve, hcve, hpos⟩ := counted_oneFinding hi hdb hclean (stamped t)
  cases endpoint with
  | listImages =>
    cases publishes with
    | false =>
      obtain ⟨offset, hne⟩ := exists_failures_ne hdb hi t
      exact ⟨.failure i none (stamped t) "" false, .failure i none (stamped t) "" true, _,
        ⟨rfl, rfl⟩, ⟨rfl, rfl⟩, rfl, hne⟩
    | true =>
      obtain ⟨offset, hne⟩ := exists_successes_ne hdb hi t
      exact ⟨.success i none (.debian []) (stamped t),
        .success i none (.debian []) { stamped t with digest := some "sha256:1" }, _,
        ⟨rfl, rfl⟩, ⟨rfl, rfl⟩, rfl, hne⟩
  | imageCves =>
    obtain rfl : publishes = true := hs
    obtain ⟨offset, hne⟩ := exists_imageCves_ne hdb hfind hclean hc (stamped t)
    exact ⟨.success i none (.debian []) (stamped t),
      .success i none (.debian [(c, "openssl", "HIGH")]) (stamped t), _,
      ⟨rfl, rfl⟩, ⟨rfl, rfl⟩, rfl, hne⟩
  | listCves =>
    obtain rfl : publishes = true := hs
    obtain ⟨item, hitem, hid⟩ := mem_selectCves_iff.mpr ⟨cve, hcve, hpos⟩
    obtain ⟨offset, hpage⟩ := (exists_mem_paginate_iff le_rfl _ item).mpr hitem
    refine ⟨.success i none (.debian []) (stamped t),
      .success i none (.debian [(c, "openssl", "HIGH")]) (stamped t),
      .listCves (some 1) offset none, ⟨rfl, rfl⟩, ⟨rfl, rfl⟩, rfl, fun heq => ?_⟩
    have hitems := congrArg Page.items (Except.ok.inj (Response.cves.inj heq))
    have hpage' : item ∈ paginate ⟨1, offset⟩
        (selectCves ((Call.success i none (.debian []) (stamped t)).commit db) none) :=
      (congrArg (item ∈ ·) hitems).mpr hpage
    obtain ⟨cve', hcve', -⟩ := mem_selectCves_iff.mp
      ⟨item, (exists_mem_paginate_iff le_rfl _ item).mp ⟨offset, hpage'⟩, hid⟩
    rw [hunknown] at hcve'
    cases hcve'
  | cveImages =>
    obtain rfl : publishes = true := hs
    refine ⟨.success i none (.debian []) (stamped t),
      .success i none (.debian [(c, "openssl", "HIGH")]) (stamped t),
      .cveImages c (some 1) 0, ⟨rfl, rfl⟩, ⟨rfl, rfl⟩, rfl, fun heq => ?_⟩
    have hbodies : cveImages c ⟨1, 0⟩ ((Call.success i none (.debian []) (stamped t)).commit db)
        = cveImages c ⟨1, 0⟩
          ((Call.success i none (.debian [(c, "openssl", "HIGH")]) (stamped t)).commit db) :=
      Response.cveImages.inj heq
    rw [cveImages, cveImages, hunknown, hcve] at hbodies
    cases hbodies

/-- The last transaction that shows something decides what is served. -/
theorem exists_runs_ne (hdb : WellFormed db) (hfind : findImage db name tag = some (i, image))
    (endpoint : Endpoint) {shapes : List Shape} (hshapes : ∃ s ∈ shapes, endpoint.shows s = true) :
    ∃ calls calls' request, (calls.map shape = shapes ∧ ∀ call ∈ calls, call.imageId = i) ∧
      (calls'.map shape = shapes ∧ ∀ call ∈ calls', call.imageId = i) ∧
      request.endpoint = endpoint ∧
      respond {} (runCalls db calls) request ≠ respond {} (runCalls db calls') request := by
  induction shapes generalizing db image with
  | nil => cases hshapes.choose_spec.1
  | cons s shapes ih =>
    by_cases hlater : ∃ s ∈ shapes, endpoint.shows s = true
    · obtain ⟨image', hfind', -⟩ := findImage_runCalls hfind [callOf i s]
      obtain ⟨calls, calls', request, ⟨hcalls, hids⟩, ⟨hcalls', hids'⟩, hendpoint, hne⟩ :=
        ih (wellFormed_commit hdb (callOf i s)) hfind' hlater
      refine ⟨callOf i s :: calls, callOf i s :: calls', request, ⟨?_, ?_⟩, ⟨?_, ?_⟩, hendpoint,
        hne⟩
      · rw [List.map_cons, shape_callOf, hcalls]
      · exact List.forall_mem_cons.mpr ⟨imageId_callOf i s, hids⟩
      · rw [List.map_cons, shape_callOf, hcalls']
      · exact List.forall_mem_cons.mpr ⟨imageId_callOf i s, hids'⟩
    · have hs : endpoint.shows s = true := by
        obtain ⟨t, ht, hshows⟩ := hshapes
        rcases List.mem_cons.mp ht with rfl | ht
        · exact hshows
        · exact absurd ⟨t, ht, hshows⟩ hlater
      obtain ⟨call, call', request, ⟨hcall, hid⟩, ⟨hcall', hid'⟩, hendpoint, hne⟩ :=
        exists_respond_ne hdb hfind endpoint hs
      have hmap : (shapes.map (callOf i)).map shape = shapes := by
        rw [List.map_map]
        exact (List.map_congr_left fun s _ => shape_callOf i s).trans (List.map_id shapes)
      have hids : ∀ call ∈ shapes.map (callOf i), call.imageId = i := by
        intro call hmem
        obtain ⟨s, -, rfl⟩ := List.mem_map.mp hmem
        exact imageId_callOf i s
      have hquiet : ∀ c ∈ shapes.map (callOf i), request.endpoint.shows (shape c) = false := by
        intro c hmem
        obtain ⟨s, hs, rfl⟩ := List.mem_map.mp hmem
        rw [shape_callOf, hendpoint]
        exact Bool.eq_false_iff.mpr fun hshows => hlater ⟨s, hs, hshows⟩
      refine ⟨call :: shapes.map (callOf i), call' :: shapes.map (callOf i), request, ⟨?_, ?_⟩,
        ⟨?_, ?_⟩, hendpoint, ?_⟩
      · rw [List.map_cons, hcall, hmap]
      · exact List.forall_mem_cons.mpr ⟨hid, hids⟩
      · rw [List.map_cons, hcall', hmap]
      · exact List.forall_mem_cons.mpr ⟨hid', hids⟩
      · rw [runCalls_cons, runCalls_cons, respond_runCalls (wellFormed_commit hdb call) {} hquiet,
          respond_runCalls (wellFormed_commit hdb call') {} hquiet]
        exact hne

/-! ### Soundness of the validator -/

/-- **The `ETag` stays** exactly when nothing that commits was stamped in a later second. -/
theorem applyFreshness_runCalls_iff {calls : List Call}
    (hcalls : ∀ call ∈ calls, call.imageId ∈ db.image.keys) {newest : Timestamp}
    (hnewest : newestCompletion db = some newest) :
    applyFreshness (runCalls db calls) = some (etagOf newest)
      ↔ ∀ call ∈ calls, stamp call.metadata.completedAt ≤ stamp newest := by
  obtain ⟨hmem, hmax⟩ := newestCompletion_eq_some_iff.mp hnewest
  obtain ⟨newest', hnewest', hle⟩ :=
    exists_newestCompletion ((completed_runCalls hcalls newest).mpr (Or.inl hmem))
  obtain ⟨hmem', hmax'⟩ := newestCompletion_eq_some_iff.mp hnewest'
  rw [applyFreshness, hnewest', Option.map_some, Option.some.injEq, etagOf_inj]
  constructor
  · intro hsame call hcall
    have hcompleted := (completed_runCalls hcalls call.metadata.completedAt).mpr
      (Or.inr (List.mem_map.mpr ⟨call, hcall, rfl⟩))
    exact (stamp_mono (hmax' _ hcompleted)).trans_eq hsame
  · intro hold
    refine le_antisymm ?_ (stamp_mono hle)
    rcases (completed_runCalls hcalls newest').mp hmem' with h | h
    · exact stamp_mono (hmax newest' h)
    · obtain ⟨call, hcall, hcompleted⟩ := List.mem_map.mp h
      rw [← hcompleted]
      exact hold call hcall

/-- **When the validator is sound.** For an endpoint, between a state with an image and the states
reached by transactions that publish a scan or do not, and complete, as given: a `304` stands for
the body that was served before, whatever the transactions say, if and only if none of them shows
anything at the endpoint or one of them was stamped in a later second than the newest run on
record. -/
theorem validatorSound_iff (hdb : WellFormed db) {i : ImageId} (hi : i ∈ db.image.keys)
    (endpoint : Endpoint) (shapes : List Shape) :
    (∀ calls : List Call, calls.map shape = shapes →
        (∀ call ∈ calls, call.imageId ∈ db.image.keys) →
          ValidatorSound endpoint db (runCalls db calls))
      ↔ ∀ newest, newestCompletion db = some newest →
          (∀ s ∈ shapes, endpoint.shows s = false) ∨
            ∃ s ∈ shapes, stamp newest < stamp s.completedAt := by
  constructor
  · intro hsound newest hnewest
    by_contra hnot
    push Not at hnot
    obtain ⟨⟨s, hs, hshows⟩, hold⟩ := hnot
    obtain ⟨image, himage⟩ := Dict.mem_keys_iff.mp hi
    obtain ⟨⟨j, image'⟩, hfind⟩ : ∃ e, findImage db image.name image.tag = some e := by
      refine Option.isSome_iff_exists.mp (List.find?_isSome.mpr
        ⟨(i, image), Dict.get?_eq_some_iff.mp himage, ?_⟩)
      exact decide_eq_true ⟨rfl, rfl⟩
    have hj : j ∈ db.image.keys := Dict.mem_keys_of_get?
      (Dict.get?_eq_some_iff.mpr (List.mem_of_find?_eq_some hfind))
    obtain ⟨calls, calls', request, ⟨hcalls, hids⟩, ⟨hcalls', hids'⟩, hendpoint, hne⟩ :=
      exists_runs_ne hdb hfind endpoint ⟨s, hs, Bool.eq_true_of_not_eq_false hshows⟩
    have hbefore : applyFreshness db = some (etagOf newest) := by
      rw [applyFreshness, hnewest, Option.map_some]
    -- both runs leave the tag, so both would have to leave the body
    have hserved : ∀ calls : List Call, calls.map shape = shapes →
        (∀ call ∈ calls, call.imageId = j) →
          respond {} (runCalls db calls) request = respond {} db request := by
      intro calls hcalls hids
      have hkeys : ∀ call ∈ calls, call.imageId ∈ db.image.keys := by
        intro call hcall
        rw [hids call hcall]
        exact hj
      have hafter : applyFreshness (runCalls db calls) = some (etagOf newest) := by
        refine (applyFreshness_runCalls_iff hkeys hnewest).mpr fun call hcall => ?_
        exact hold (shape call) (hcalls ▸ List.mem_map.mpr ⟨call, hcall, rfl⟩)
      exact hsound calls hcalls hkeys _ hbefore (notModified_iff.mpr hafter) {} request hendpoint
    exact hne ((hserved calls hcalls hids).trans (hserved calls' hcalls' hids').symm)
  · rintro hcondition calls rfl hkeys etag hbefore hafter settings request rfl
    obtain ⟨newest, hnewest, rfl⟩ := Option.map_eq_some_iff.mp hbefore
    rcases hcondition newest hnewest with hquiet | ⟨s, hs, hlt⟩
    · exact respond_runCalls hdb settings fun call hcall =>
        hquiet (shape call) (List.mem_map.mpr ⟨call, hcall, rfl⟩)
    · -- a later second is another tag
      obtain ⟨call, hcall, rfl⟩ := List.mem_map.mp hs
      have hle := (applyFreshness_runCalls_iff hkeys hnewest).mp (notModified_iff.mp hafter) call
        hcall
      exact absurd hlt hle.not_gt

/-- A scan of `nginx:1.19` stamped late in second ten. -/
def firstScan : List Call :=
  [.success 1 none (.debian [("CVE-1", "openssl", "HIGH")])
    ⟨none, none, none, none, 9 * second, 10 * second + 900000⟩]

/-- A scan of `postgres:12` stamped early in the same second, and committed later. -/
def secondScan : List Call :=
  [.success 2 none (.debian [("CVE-2", "zlib", "CRITICAL")])
    ⟨none, none, none, none, 9 * second, 10 * second + 100000⟩]

/-- A scan of `postgres:12` ten seconds later. -/
def lateScan : List Call :=
  [.success 2 none (.debian [("CVE-2", "zlib", "CRITICAL")])
    ⟨none, none, none, none, 19 * second, 20 * second⟩]

theorem validatorSound_iff_lateScan :
    ValidatorSound .listCves (runCalls (Db.seeded 0 briefImages) firstScan)
      (runCalls (runCalls (Db.seeded 0 briefImages) firstScan) lateScan) := by
  have hmem : (1 : ImageId) ∈ (runCalls (Db.seeded 0 briefImages) firstScan).image.keys := by
    decide
  refine (validatorSound_iff
    (wellFormed_runCalls (wellFormed_of_unscanned (unscanned_seeded 0 briefImages)) firstScan) hmem
    .listCves [⟨true, 20 * second⟩]).mpr (fun newest hnewest => Or.inr ?_) lateScan rfl (by decide)
  have hten : newestCompletion (runCalls (Db.seeded 0 briefImages) firstScan)
      = some (10 * second + 900000) := by decide
  rw [hten] at hnewest
  refine ⟨_, List.mem_singleton_self _, ?_⟩
  rw [← Option.some.inj hnewest, stamp_of_lt (by decide) (by decide),
    stamp_of_lt (by decide) (by decide)]
  decide

/-- The `ETag` of the first scan is still served after the second one, over another body. -/
theorem not_validatorSound_secondScan :
    ¬ ValidatorSound .listCves (runCalls (Db.seeded 0 briefImages) firstScan)
        (runCalls (runCalls (Db.seeded 0 briefImages) firstScan) secondScan) := by
  intro hsound
  have hnewest : newestCompletion (runCalls (Db.seeded 0 briefImages) firstScan)
      = some (10 * second + 900000) := by decide
  have hnewest' : newestCompletion
      (runCalls (runCalls (Db.seeded 0 briefImages) firstScan) secondScan)
      = some (10 * second + 900000) := by decide
  have hetag : etagOf (10 * second + 900000) = "W/\"10\"" := by
    rw [etagOf, stamp_of_lt (by decide) (by decide)]
    decide
  have hsame := hsound "W/\"10\"" (by rw [applyFreshness, hnewest, ← hetag]; rfl)
    (by rw [notModified_iff, applyFreshness, hnewest', ← hetag]; rfl) {}
    (.listCves (some 100) 0 none) rfl
  have hbody : listCves ⟨100, 0⟩ none
      (runCalls (runCalls (Db.seeded 0 briefImages) firstScan) secondScan)
      = listCves ⟨100, 0⟩ none (runCalls (Db.seeded 0 briefImages) firstScan) :=
    Except.ok.inj (Response.cves.inj hsame)
  revert hbody
  decide

end Api

end ContainerScanner
