import ContainerScanner.Scanner.History

/-!
# The rollup

`cve.affected_image_count`, `max_severity_rank` and `max_severity` are maintained by each success
for the CVEs it affects, and nowhere else. What they are *for* is stated on sets: the number of
images with a current finding, and the greatest severity among the current findings. The
incremental `UPDATE` refines that specification over every history, because a success changes the
set of current findings of no CVE outside `affectedCves`.

## Main definitions

* `Live` — a CVE is current in an image at some severity
* `IsRollup` — what the two columns must be, given who is live
* `RollupExact` — every row of `cve` is right

## Main results

* `isRollup_rollupOf` — the subquery computes the specification
* `live_recordSuccess_self`, `live_recordSuccess_of_ne` — who is live after a success
* `rollupExact_recordSuccess`, `rollupExact_runCalls` — rows stay right
-/

namespace ContainerScanner

open Foundation

namespace Persist

variable {db db' : Db} {i j : ImageId} {image : Image} {job : Option JobId} {m : RunMetadata}
  {c : CveId}

/-! ### Specification -/

/-- The CVE is current in the image, at rank `r`. -/
def Live (db : Db) (c : CveId) (i : ImageId) (r : ℕ) : Prop :=
  ∃ p f, db.finding.get? ⟨i, c, p⟩ = some f ∧ db.IsCurrent i f ∧ f.severityRank = r

/-- The rollup of a set of live findings: how many images, and the greatest rank. -/
structure IsRollup (live : ImageId → ℕ → Prop) (sub : Rollup) : Prop where
  /-- The images are counted once each. -/
  images : sub.images = {i | ∃ r, live i r}.ncard
  /-- The rank is the greatest, and `0` when there is none. -/
  rank : IsGreatest (insert 0 {r | ∃ i, live i r}) sub.rank

/-- A set of live findings has one rollup. -/
theorem IsRollup.unique {live : ImageId → ℕ → Prop} {sub sub' : Rollup} (h : IsRollup live sub)
    (h' : IsRollup live sub') : sub = sub' := by
  have himages : sub.images = sub'.images := h.images.trans h'.images.symm
  have hrank : sub.rank = sub'.rank := h.rank.unique h'.rank
  obtain ⟨rank, images⟩ := sub
  obtain ⟨rank', images'⟩ := sub'
  exact congrArg₂ Rollup.mk hrank himages

theorem IsRollup.congr {live live' : ImageId → ℕ → Prop} {sub : Rollup} (h : IsRollup live sub)
    (heq : ∀ i r, live i r ↔ live' i r) : IsRollup live' sub := by
  have hfun : live = live' := by
    funext i r
    exact propext (heq i r)
  exact hfun ▸ h

/-! ### The subquery -/

theorem mem_liveRows {r : ℕ} : (i, r) ∈ liveRows db c ↔ Live db c i r := by
  rw [liveRows, List.mem_filterMap]
  constructor
  · rintro ⟨⟨⟨i', c', p⟩, f⟩, he, hrow⟩
    cases himage : db.image.get? i' with
    | none => simp [himage] at hrow
    | some image =>
      simp only [himage, Option.ite_none_right_eq_some, Option.some.injEq, Prod.mk.injEq] at hrow
      obtain ⟨⟨rfl, hcur⟩, rfl, rfl⟩ := hrow
      exact ⟨p, f, Dict.get?_eq_some_iff.mpr he, ⟨image, himage, hcur⟩, rfl⟩
  · rintro ⟨p, f, hf, ⟨image, himage, hcur⟩, rfl⟩
    exact ⟨(⟨i, c, p⟩, f), Dict.get?_eq_some_iff.mp hf, by simp [himage, hcur]⟩

/-- **The subquery computes the specification.** -/
theorem isRollup_rollupOf (db : Db) (c : CveId) : IsRollup (Live db c) (rollupOf db c) where
  images := by
    have hset : {i | ∃ r, Live db c i r} = {i | i ∈ (liveRows db c).map Prod.fst} := by
      ext i
      simp only [Set.mem_ofPred_eq, List.mem_map, Prod.exists, exists_and_right, exists_eq_right,
        mem_liveRows]
    rw [rollupOf, countDistinct_eq_ncard, hset]
  rank := by
    have hset : {r | ∃ i, Live db c i r} = {r | r ∈ (liveRows db c).map Prod.snd} := by
      ext r
      simp only [Set.mem_ofPred_eq, List.mem_map, Prod.exists, exists_eq_right, mem_liveRows]
    rw [rollupOf, hset]
    exact isGreatest_maxOr 0 _

/-- The subquery sees a database through its live findings only. -/
theorem rollupOf_congr (h : ∀ i r, Live db c i r ↔ Live db' c i r) :
    rollupOf db c = rollupOf db' c :=
  ((isRollup_rollupOf db c).congr h).unique (isRollup_rollupOf db' c)

/-! ### Who is live -/

theorem Live.congr (hfinding : db.finding = db'.finding) (himage : db.image = db'.image) (r : ℕ) :
    Live db c i r ↔ Live db' c i r := by
  rw [Live, Live, hfinding]
  simp only [Db.IsCurrent, himage]

/-- In a well-formed database a live finding is a row with a key. -/
theorem WellFormed.live_iff (hdb : WellFormed db) {r : ℕ} :
    Live db c i r
      ↔ ∃ k f, rowAt db i (c, k) = some f ∧ db.IsCurrent i f ∧ f.severityRank = r := by
  constructor
  · rintro ⟨p, f, hf, hcur, hr⟩
    obtain ⟨k, -, hrow⟩ := hdb.exists_rowAt hf
    exact ⟨k, f, hrow, hcur, hr⟩
  · rintro ⟨k, f, hrow, hcur, hr⟩
    obtain ⟨p, -, hf⟩ := rowAt_eq_some.mp hrow
    exact ⟨p, f, hf, hcur, hr⟩

/-- A CVE is current in an image that has run `r` as its pointer iff a row of it carries `r`. -/
theorem isCurrent_iff (hi : db.image.get? i = some image) (f : Finding) :
    db.IsCurrent i f ↔ image.currentScanRunId = some f.lastSeenRunId := by
  rw [Db.IsCurrent, hi]
  simp

/-- The live findings of an image after its success are those of the report. -/
theorem live_recordSuccess_self (hdb : WellFormed db) (hi : db.image.get? i = some image)
    (report : AcceptedReport) {r : ℕ} :
    Live (recordSuccess db i image job report.report m) c i r
      ↔ ∃ g ∈ report.report.findings, g.cveId = c ∧ g.severity.rank = r := by
  have hafter : (recordSuccess db i image job report.report m).image.get? i
      = some (pointTo db.scanRun.next m image) := by
    rw [get?_image_recordSuccess hi, if_pos rfl]
  rw [(wellFormed_recordSuccess hdb hi report).live_iff]
  constructor
  · rintro ⟨k, f, hrow, hcur, hr⟩
    rw [isCurrent_iff hafter] at hcur
    rw [rowAt_recordSuccess hdb] at hrow
    cases hg : report.report.findKey? (c, k) with
    | some g =>
      obtain ⟨hmem, hkey⟩ := ParsedReport.of_findKey?_eq_some hg
      rw [hg] at hrow
      rw [← Option.some.inj hrow, severityRank_upsertFinding] at hr
      exact ⟨g, hmem, (Prod.mk.inj hkey).1, hr⟩
    | none =>
      -- a row the report does not name was last seen by an older run
      rw [hg] at hrow
      obtain ⟨p, -, hf⟩ := rowAt_eq_some.mp hrow
      exact absurd (Option.some.inj hcur).symm (hdb.lastSeen_lt hf).ne
  · rintro ⟨g, hmem, rfl, rfl⟩
    have hg : report.report.findKey? (g.cveId, g.packageKey) = some g :=
      AcceptedReport.findKey?_eq_some.mpr ⟨hmem, rfl⟩
    refine ⟨g.packageKey, _, by rw [rowAt_recordSuccess hdb, hg], ?_, ?_⟩
    · rw [isCurrent_iff hafter, lastSeenRunId_upsertFinding]
      rfl
    · rw [severityRank_upsertFinding]
      rfl

/-- The live findings of another image are those it had. -/
theorem live_recordSuccess_of_ne (hi : db.image.get? i = some image) (report : ParsedReport)
    (hj : j ≠ i) {r : ℕ} :
    Live (recordSuccess db i image job report m) c j r ↔ Live db c j r := by
  have hcur : ∀ f, (recordSuccess db i image job report m).IsCurrent j f ↔ db.IsCurrent j f := by
    intro f
    simp only [Db.IsCurrent, get?_image_recordSuccess hi, if_neg hj]
  simp only [Live, hcur]
  refine exists_congr fun p => exists_congr fun f => ?_
  rw [get?_finding_of_ne hj]

/-- A run that moves no pointer leaves every finding as live as it was. -/
theorem live_recordQuiet {f : Image → Image} (hf : Quiet f) (run : ScanRun) {r : ℕ} :
    Live (recordQuiet db i run f) c j r ↔ Live db c j r := by
  have hcur : ∀ g, (recordQuiet db i run f).IsCurrent j g ↔ db.IsCurrent j g := by
    intro g
    have hsame := currentScanRunId_recordQuiet hf db i run j
    cases hold : db.image.get? j with
    | none =>
      rw [hold] at hsame
      have hnew := Option.map_eq_none_iff.mp hsame
      simp [Db.IsCurrent, hold, hnew]
    | some image =>
      rw [hold] at hsame
      obtain ⟨new, hnew, heq⟩ := Option.map_eq_some_iff.mp hsame
      rw [isCurrent_iff hold, isCurrent_iff hnew, heq]
  simp only [Live, hcur]
  rfl

/-- The CVEs an image is loaded with are the ones live in it. -/
theorem mem_currentCveIds (hi : db.image.get? i = some image) :
    c ∈ currentCveIds db i image ↔ ∃ r, Live db c i r := by
  simp only [Live, isCurrent_iff hi]
  rw [currentCveIds]
  cases image.currentScanRunId with
  | none => simp
  | some runId =>
    simp only [List.mem_map, List.mem_filter, decide_eq_true_eq, Option.some.injEq]
    constructor
    · rintro ⟨⟨⟨i', c', p⟩, f⟩, ⟨he, rfl, hrun⟩, rfl⟩
      exact ⟨_, p, f, Dict.get?_eq_some_iff.mpr he, hrun.symm, rfl⟩
    · rintro ⟨r, p, f, hf, hrun, -⟩
      exact ⟨(⟨i, c, p⟩, f), ⟨Dict.get?_eq_some_iff.mp hf, rfl, hrun.symm⟩, rfl⟩

/-- A success changes who has a CVE only when it affects the CVE. -/
theorem live_recordSuccess_of_notMem (hdb : WellFormed db) (hi : db.image.get? i = some image)
    (report : AcceptedReport) (hc : c ∉ affectedCves db i image report.report) {r : ℕ} :
    Live (recordSuccess db i image job report.report m) c j r ↔ Live db c j r := by
  rw [affectedCves, List.mem_append, not_or] at hc
  by_cases hj : j = i
  · subst hj
    rw [live_recordSuccess_self hdb hi]
    refine iff_of_false ?_ fun hlive => hc.1 ((mem_currentCveIds hi).mpr ⟨r, hlive⟩)
    rintro ⟨g, hg, rfl, -⟩
    exact hc.2 (ParsedReport.mem_cveIds.mpr ⟨g, hg, rfl⟩)
  · exact live_recordSuccess_of_ne hi report.report hj

/-! ### Exactness -/

/-- Every row of `cve` stores the rollup of its live findings, and names its rank. -/
def RollupExact (db : Db) : Prop :=
  ∀ c cve, db.cve.get? c = some cve → IsRollup (Live db c) (storedRollup cve) ∧ NamesRank cve

/-- What a success recomputes is right: the subquery reads the tables the success leaves behind. -/
theorem isRollup_recordSuccess {report : ParsedReport} (hmem : c ∈ affectedCves db i image report)
    {cve : Cve} (hc : (recordSuccess db i image job report m).cve.get? c = some cve) :
    IsRollup (Live (recordSuccess db i image job report m) c) (storedRollup cve) := by
  rw [get?_cve_recordSuccess, if_pos hmem] at hc
  obtain ⟨old, -, rfl⟩ := Option.map_eq_some_iff.mp hc
  rw [storedRollup_applyRollup]
  exact (isRollup_rollupOf _ c).congr fun i r => Live.congr rfl rfl r

/-- **A success leaves every rollup right**, those it does not recompute included. -/
theorem rollupExact_recordSuccess (hdb : WellFormed db) (hexact : RollupExact db)
    (hi : db.image.get? i = some image) (report : AcceptedReport) :
    RollupExact (recordSuccess db i image job report.report m) := by
  intro c cve hc
  refine ⟨?_, namesRank_cve_recordSuccess hdb hc⟩
  by_cases hmem : c ∈ affectedCves db i image report.report
  · exact isRollup_recordSuccess hmem hc
  · have hreport : (cveRows report.report.findings).get? c = none := by
      rw [Dict.get?_eq_none_iff, mem_keys_cveRows]
      exact fun h => hmem (List.mem_append_right _ h)
    rw [get?_cve_recordSuccess, if_neg hmem, get?_cve_writeFindings, hreport] at hc
    exact (hexact c cve hc).1.congr fun j r =>
      (live_recordSuccess_of_notMem hdb hi report hmem).symm

theorem rollupExact_recordQuiet (hexact : RollupExact db) {f : Image → Image} (hf : Quiet f)
    (run : ScanRun) : RollupExact (recordQuiet db i run f) := by
  intro c cve hc
  obtain ⟨hrollup, hname⟩ := hexact c cve hc
  exact ⟨hrollup.congr fun j r => (live_recordQuiet hf run).symm, hname⟩

theorem rollupExact_commit (hdb : WellFormed db) (hexact : RollupExact db) (call : Call) :
    RollupExact (call.commit db) := by
  rcases Call.commit_cases db call with ⟨-, heq⟩ | ⟨i, image, job, report, m, -, hi, heq⟩ |
    ⟨image, run, f, -, -, hf, -, -, -, heq⟩
  · rw [heq]
    exact hexact
  · rw [heq]
    exact rollupExact_recordSuccess hdb hexact hi report
  · rw [heq]
    exact rollupExact_recordQuiet hexact hf run

/-- **Incremental maintenance equals recomputation**, over every serial history. -/
theorem rollupExact_runCalls (hdb : WellFormed db) (hexact : RollupExact db) (calls : List Call) :
    RollupExact (runCalls db calls) := by
  have hboth : WellFormed (runCalls db calls) ∧ RollupExact (runCalls db calls) :=
    runCalls_invariant (P := fun db => WellFormed db ∧ RollupExact db)
      (fun _ call h => ⟨wellFormed_commit h.1 call, rollupExact_commit h.1 h.2 call⟩)
      ⟨hdb, hexact⟩ calls
  exact hboth.2

theorem rollupExact_of_unscanned (hdb : db.Unscanned) : RollupExact db := by
  intro c cve hc
  rw [hdb.cve] at hc
  cases hc

end Persist

end ContainerScanner
