import ContainerScanner.Api.Endpoints
import ContainerScanner.Scanner.Rollup

/-!
# What the listings contain

In a well-formed database the inner joins of the endpoints lose nothing, so a listing has one row
for each finding it selects. `list_cves` reads the rollup where `cve_images` reads the findings;
that the two agree is what the rollup is maintained for.

## Main results

* `exists_mem_paginate_iff` — the pages of a listing cover it
* `cveInImage_isSome`, `imageAffectedByCve_isSome` — the joins are total
* `mem_selectCves_iff`, `selectAffected_ne_nil_iff` — who is listed
* `incremental_rollup_exact` — rollups equal recomputation, and the two endpoints agree
-/

namespace ContainerScanner

open Foundation Persist

namespace Api

variable {db : Db} {c : CveId}

/-! ### Pages -/

/-- The pages of a listing cover it, whatever their size. -/
theorem exists_mem_paginate_iff {α : Type} {limit : ℕ} (hlimit : 1 ≤ limit) (l : List α) (x : α) :
    (∃ offset, x ∈ paginate ⟨limit, offset⟩ l) ↔ x ∈ l := by
  constructor
  · rintro ⟨offset, hx⟩
    exact List.mem_of_mem_drop (List.mem_of_mem_take hx)
  · intro hx
    obtain ⟨n, hn, rfl⟩ := List.mem_iff_getElem.mp hx
    refine ⟨n, ?_⟩
    obtain ⟨k, rfl⟩ := Nat.exists_eq_add_of_le' hlimit
    rw [paginate, List.drop_eq_getElem_cons hn, List.take_succ_cons]
    exact List.mem_cons_self

/-- The first page is empty only when the listing is. -/
theorem paginate_zero_ne_nil_iff {α : Type} {limit : ℕ} (hlimit : 1 ≤ limit) (l : List α) :
    paginate ⟨limit, 0⟩ l ≠ [] ↔ l ≠ [] := by
  obtain ⟨k, rfl⟩ := Nat.exists_eq_add_of_le' hlimit
  cases l <;> simp [paginate]

/-! ### References -/

/-- The images with their names and tags, in table order. -/
def references (db : Db) : List (ImageId × String × String) :=
  db.image.entries.map fun e => (e.1, e.2.name, e.2.tag)

/-- No call renames an image. -/
theorem references_commit (db : Db) (call : Call) :
    references (call.commit db) = references db := by
  rcases Call.commit_cases db call with ⟨-, heq⟩ | ⟨j, image, job, report, m, -, -, heq⟩ |
    ⟨image, run, f, -, -, hf, -, -, -, heq⟩
  · rw [heq]
  · rw [heq, references, image_recordSuccess]
    refine Dict.map_update (fun v => ?_) db.image
    rfl
  · have himage : (recordQuiet db call.imageId run f).image = db.image.update call.imageId f := rfl
    rw [heq, references, himage]
    refine Dict.map_update (fun v => ?_) db.image
    rw [hf.name v, hf.tag v]

theorem references_runCalls (db : Db) (calls : List Call) :
    references (runCalls db calls) = references db := by
  refine runCalls_invariant (P := fun db' => references db' = references db) ?_ rfl calls
  intro db' call hsame
  rw [references_commit, hsame]

/-- A reference that resolves to an image resolves to it after every history. -/
theorem findImage_runCalls {name tag : String} {i : ImageId} {image : Image}
    (h : findImage db name tag = some (i, image)) (calls : List Call) :
    ∃ image', findImage (runCalls db calls) name tag = some (i, image') ∧
      (runCalls db calls).image.get? i = some image' := by
  have hfind : ∀ d : Db, (findImage d name tag).map (fun e => (e.1, e.2.name, e.2.tag))
      = (references d).find? fun e => decide (e.2.1 = name ∧ e.2.2 = tag) := by
    intro d
    rw [references, List.find?_map]
    rfl
  have hsame := hfind (runCalls db calls)
  rw [references_runCalls, ← hfind db, h] at hsame
  obtain ⟨⟨j, image'⟩, hj, heq⟩ := Option.map_eq_some_iff.mp hsame
  have hji : j = i := (Prod.mk.inj heq).1
  subst hji
  exact ⟨image', hj, Dict.get?_eq_some_iff.mpr (List.mem_of_find?_eq_some hj)⟩

/-- Looking up runs adds and removes no summary. -/
theorem keys_foldl_withRun (runs : List ScanRun) (d : Dict ImageId ImageSummary) :
    (runs.foldl (fun d run => d.update run.imageId (.withRun run)) d).keys = d.keys := by
  induction runs generalizing d with
  | nil => rfl
  | cons run runs ih => rw [List.foldl_cons, ih, Dict.keys_update]

/-! ### The joins -/

theorem exists_keyOf? (hdb : WellFormed db) {key : FindingKey} {f : Finding}
    (hf : db.finding.get? key = some f) : ∃ k, db.package.keyOf? key.packageId = some k := by
  obtain ⟨k, hk⟩ := hdb.findingPackage key f hf
  exact ⟨k, hdb.package.keyOf?_eq_some.mpr hk⟩

/-- The joins of `image_cves` keep every finding. -/
theorem cveInImage_isSome (hdb : WellFormed db) {e : FindingKey × Finding}
    (he : e ∈ db.finding.entries) : (cveInImage db e).isSome := by
  have hf : db.finding.get? e.1 = some e.2 := Dict.get?_eq_some_iff.mpr he
  obtain ⟨cve, hcve⟩ := hdb.findingCve _ _ hf
  obtain ⟨k, hk⟩ := exists_keyOf? hdb hf
  obtain ⟨firstRun, hfirst, -⟩ := hdb.firstSeen _ _ hf
  obtain ⟨lastRun, hlast, -⟩ := hdb.lastSeen _ _ hf
  simp [cveInImage, hcve, hk, hfirst, hlast]

/-- What an item says of its finding. -/
theorem of_cveInImage_eq_some {e : FindingKey × Finding} {item : CveInImage}
    (h : cveInImage db e = some item) :
    item.cveId = e.1.cveId ∧ db.package.keyOf? e.1.packageId = some item.package := by
  simp only [cveInImage, Option.bind_eq_bind, Option.bind_eq_some_iff, Option.pure_def,
    Option.some.injEq] at h
  obtain ⟨cve, -, k, hk, firstRun, -, lastRun, -, rfl⟩ := h
  exact ⟨rfl, hk⟩

theorem mem_affectedRows {e : FindingKey × Finding} {image : Image} :
    (e, image) ∈ affectedRows db c
      ↔ e ∈ db.finding.entries ∧ db.image.get? e.1.imageId = some image ∧ e.1.cveId = c ∧
          image.currentScanRunId = some e.2.lastSeenRunId := by
  rw [affectedRows, List.mem_filterMap]
  constructor
  · rintro ⟨e', he', hrow⟩
    cases himage : db.image.get? e'.1.imageId with
    | none => simp [himage] at hrow
    | some image' =>
      simp only [himage, Option.ite_none_right_eq_some, Option.some.injEq, Prod.mk.injEq] at hrow
      obtain ⟨hcond, rfl, rfl⟩ := hrow
      exact ⟨he', himage, hcond⟩
  · rintro ⟨he, himage, hcond⟩
    exact ⟨e, he, by simp [himage, hcond]⟩

/-- The joins of `cve_images` keep every row. -/
theorem imageAffectedByCve_isSome (hdb : WellFormed db) {e : (FindingKey × Finding) × Image}
    (he : e ∈ affectedRows db c) : (imageAffectedByCve db e).isSome := by
  have hf : db.finding.get? e.1.1 = some e.1.2 :=
    Dict.get?_eq_some_iff.mpr (mem_affectedRows.mp he).1
  obtain ⟨k, hk⟩ := exists_keyOf? hdb hf
  obtain ⟨run, hrun, -⟩ := hdb.lastSeen _ _ hf
  simp [imageAffectedByCve, hk, hrun]

theorem length_filterMap_of_isSome {α β : Type} {f : α → Option β} {l : List α}
    (hl : ∀ a ∈ l, (f a).isSome) : (l.filterMap f).length = l.length := by
  induction l with
  | nil => rfl
  | cons a l ih =>
    obtain ⟨b, hb⟩ := Option.isSome_iff_exists.mp (hl a List.mem_cons_self)
    rw [List.filterMap_cons_some hb, List.length_cons, List.length_cons,
      ih fun a' ha' => hl a' (List.mem_cons_of_mem _ ha')]

/-- `image_cves` lists as many rows as it counts. -/
theorem length_selectFindings (hdb : WellFormed db) (conditions : Conditions) :
    (selectFindings db conditions).length = countFindings db conditions := by
  rw [selectFindings, length_filterMap_of_isSome, List.length_insertionSort, countFindings]
  exact fun e he =>
    cveInImage_isSome hdb (List.mem_filter.mp ((List.mem_insertionSort _).mp he)).1

/-- So does `cve_images`. -/
theorem length_selectAffected (hdb : WellFormed db) (c : CveId) :
    (selectAffected db c).length = (affectedRows db c).length := by
  rw [selectAffected, length_filterMap_of_isSome, List.length_insertionSort]
  exact fun e he => imageAffectedByCve_isSome hdb ((List.mem_insertionSort _).mp he)

/-! ### Who is listed -/

theorem affectedRows_ne_nil_iff : affectedRows db c ≠ [] ↔ ∃ i r, Live db c i r := by
  constructor
  · intro hne
    obtain ⟨⟨⟨⟨i, c', p⟩, f⟩, image⟩, he⟩ := List.exists_mem_of_ne_nil _ hne
    obtain ⟨hmem, himage, rfl, hcur⟩ := mem_affectedRows.mp he
    exact ⟨i, _, p, f, Dict.get?_eq_some_iff.mpr hmem, ⟨image, himage, hcur⟩, rfl⟩
  · rintro ⟨i, r, p, f, hf, ⟨image, himage, hcur⟩, -⟩
    have hmem : (((⟨i, c, p⟩, f), image) : (FindingKey × Finding) × Image) ∈ affectedRows db c :=
      mem_affectedRows.mpr ⟨Dict.get?_eq_some_iff.mp hf, himage, rfl, hcur⟩
    exact List.ne_nil_of_mem hmem

/-- `cve_images` has a row exactly when the CVE is current somewhere. -/
theorem selectAffected_ne_nil_iff (hdb : WellFormed db) :
    selectAffected db c ≠ [] ↔ ∃ i r, Live db c i r := by
  rw [← affectedRows_ne_nil_iff]
  constructor
  · intro hne
    obtain ⟨item, hitem⟩ := List.exists_mem_of_ne_nil _ hne
    obtain ⟨e, he, -⟩ := List.mem_filterMap.mp hitem
    exact List.ne_nil_of_mem ((List.mem_insertionSort _).mp he)
  · intro hne
    obtain ⟨e, he⟩ := List.exists_mem_of_ne_nil _ hne
    obtain ⟨item, hitem⟩ := Option.isSome_iff_exists.mp (imageAffectedByCve_isSome hdb he)
    exact List.ne_nil_of_mem
      (List.mem_filterMap.mpr ⟨e, (List.mem_insertionSort _).mpr he, hitem⟩)

/-- `list_cves` lists the CVEs whose row counts an image. -/
theorem mem_selectCves_iff :
    (∃ item ∈ selectCves db none, item.cveId = c)
      ↔ ∃ cve, db.cve.get? c = some cve ∧ 0 < cve.affectedImageCount := by
  constructor
  · rintro ⟨item, hitem, rfl⟩
    obtain ⟨e, he, rfl⟩ := List.mem_map.mp hitem
    obtain ⟨hmem, hlists⟩ := List.mem_filter.mp ((List.mem_insertionSort _).mp he)
    exact ⟨e.2, Dict.get?_eq_some_iff.mpr hmem, by simpa [listsCve] using hlists⟩
  · rintro ⟨cve, hcve, hpos⟩
    refine ⟨cveSummary (c, cve), List.mem_map.mpr ⟨(c, cve), ?_, rfl⟩, rfl⟩
    exact (List.mem_insertionSort _).mpr
      (List.mem_filter.mpr ⟨Dict.get?_eq_some_iff.mp hcve, by simpa [listsCve] using hpos⟩)

theorem finite_live (db : Db) (c : CveId) : {i | ∃ r, Live db c i r}.Finite := by
  refine (List.finite_toSet ((liveRows db c).map Prod.fst)).subset fun i hi => ?_
  obtain ⟨r, hr⟩ := hi
  exact List.mem_map.mpr ⟨(i, r), mem_liveRows.mpr hr, rfl⟩

/-- Where rollups are right, a counted CVE is a live one. -/
theorem counted_iff_live (hdb : WellFormed db) (hexact : RollupExact db) :
    (∃ cve, db.cve.get? c = some cve ∧ 0 < cve.affectedImageCount) ↔ ∃ i r, Live db c i r := by
  constructor
  · rintro ⟨cve, hcve, hpos⟩
    have himages : cve.affectedImageCount = {i | ∃ r, Live db c i r}.ncard :=
      (hexact c cve hcve).1.images
    rw [himages, Set.ncard_pos (finite_live db c)] at hpos
    exact hpos
  · rintro ⟨i, r, p, f, hf, hcur, hr⟩
    obtain ⟨cve, hcve⟩ := hdb.findingCve _ f hf
    have himages : cve.affectedImageCount = {i | ∃ r, Live db c i r}.ncard :=
      (hexact c cve hcve).1.images
    refine ⟨cve, hcve, ?_⟩
    rw [himages, Set.ncard_pos (finite_live db c)]
    exact ⟨i, r, p, f, hf, hcur, hr⟩

/-- **Incremental maintenance equals recomputation.** After any serial history every row of `cve`
has the count, the rank and the name a full recomputation would give it, and `list_cves` lists
exactly the CVEs for which `cve_images` returns a row. -/
theorem incremental_rollup_exact (hdb : db.Unscanned) (calls : List Call) :
    (∀ c cve, (runCalls db calls).cve.get? c = some cve →
      cve.affectedImageCount = {i | ∃ r, Live (runCalls db calls) c i r}.ncard ∧
      IsGreatest (insert 0 {r | ∃ i, Live (runCalls db calls) c i r}) cve.maxSeverityRank ∧
      cve.maxSeverity = Severity.ofRank cve.maxSeverityRank) ∧
    ∀ limit, 1 ≤ limit → ∀ c,
      (∃ offset, ∃ item ∈ (listCves ⟨limit, offset⟩ none (runCalls db calls)).items,
          item.cveId = c)
        ↔ ∃ page, cveImages c ⟨limit, 0⟩ (runCalls db calls) = .ok page ∧ page.items ≠ [] := by
  have hwf := wellFormed_runCalls (wellFormed_of_unscanned hdb) calls
  have hexact :=
    rollupExact_runCalls (wellFormed_of_unscanned hdb) (rollupExact_of_unscanned hdb) calls
  refine ⟨fun c cve hc => ?_, fun limit hlimit c => ?_⟩
  · obtain ⟨hrollup, hname⟩ := hexact c cve hc
    exact ⟨hrollup.images, hrollup.rank, hname⟩
  · have hlisted : (∃ offset, ∃ item ∈ (listCves ⟨limit, offset⟩ none (runCalls db calls)).items,
        item.cveId = c) ↔ ∃ item ∈ selectCves (runCalls db calls) none, item.cveId = c := by
      rw [exists_comm]
      refine exists_congr fun item => ?_
      rw [← exists_mem_paginate_iff hlimit]
      simp only [listCves, exists_and_right]
    rw [hlisted, mem_selectCves_iff, counted_iff_live hwf hexact, ← selectAffected_ne_nil_iff hwf,
      ← paginate_zero_ne_nil_iff hlimit]
    constructor
    · intro hne
      obtain ⟨i, r, p, f, hf, -⟩ := (selectAffected_ne_nil_iff hwf).mp
        ((paginate_zero_ne_nil_iff hlimit _).mp hne)
      obtain ⟨cve, hcve⟩ := hwf.findingCve _ f hf
      have hknown : (runCalls db calls).cve.get? c = some cve := hcve
      exact ⟨_, by rw [cveImages, hknown], hne⟩
    · rintro ⟨page, hpage, hne⟩
      rw [cveImages] at hpage
      split at hpage
      · cases hpage
      · cases hpage
        exact hne

theorem incremental_rollup_exact_rescanned :
    ∃ offset, ∃ item ∈
      (listCves ⟨1, offset⟩ none (runCalls (Db.seeded 0 briefImages) rescanned)).items,
      item.cveId = "CVE-1" := by
  obtain ⟨-, hlisted⟩ := incremental_rollup_exact (unscanned_seeded 0 briefImages) rescanned
  refine (hlisted 1 le_rfl "CVE-1").mpr ⟨⟨[⟨"nginx", "1.19", none, .critical,
    ⟨"openssl", "1.1.1", "debian"⟩, none, some (3 * second)⟩], 1, 1, 0⟩, ?_, ?_⟩
  · decide
  · decide

end Api

end ContainerScanner
