import ContainerScanner.Concurrency.Transactions

/-!
# What an open transaction has done

A transaction writes rows of its own image, run and report, and by each phase it has locked what
the phases before it lock. Both are facts about the transaction alone: no step of another, and
nothing that is committed meanwhile, changes them.

## Main definitions

* `Txn.Own` — what it has written is its own
* `Txn.Reached` — what it has locked by its phase

## Main results

* `Txn.Own.advance`, `Txn.Reached.advance` — every step keeps them
* `Txn.Own.recompute`, `Txn.Reached.recompute` — as does every row of the rollup
-/

namespace ContainerScanner

open Foundation Persist

namespace Concurrency

variable {db db' : Db} {x x' : Txn} {blocked : Row → Bool} {c : CveId}

/-- The findings and the pointer a transaction has written are its own, and it has written to no
CVE that it does not affect. -/
structure Txn.Own (x : Txn) : Prop where
  /-- Findings are of its image, its run and its report. -/
  finding : ∀ key f, x.finding.get? key = some f →
    key.imageId = x.imageId ∧ f.lastSeenRunId = x.runId ∧ key.cveId ∈ x.report.report.cveIds
  /-- The only image is its own, pointing at its run. -/
  image : ∀ j row, x.imageRow.get? j = some row →
    j = x.imageId ∧ row.currentScanRunId = some x.runId
  /-- It affects the CVEs it has written. -/
  cve : ∀ c ∈ x.cve.keys, c ∈ x.affected

/-- The rows are of the transaction's image, run and report. -/
def Txn.OwnRows (x : Txn) (rows : List (FindingKey × Finding)) : Prop :=
  ∀ e ∈ rows, e.1.imageId = x.imageId ∧ e.2.lastSeenRunId = x.runId ∧
    e.1.cveId ∈ x.report.report.cveIds

/-- It has locked the CVEs of its report. -/
def Txn.Upserted (x : Txn) : Prop := ∀ c ∈ x.report.report.cveIds, c ∈ x.cve.keys

/-- What holds of a transaction by the time it has come to its phase. -/
def Txn.Reached (x : Txn) : Prop :=
  match x.phase with
  | .opened => x.finding = Dict.empty ∧ x.imageRow = Dict.empty ∧ x.cve = Dict.empty
  | .inserting => (x.finding = Dict.empty ∧ x.imageRow = Dict.empty) ∧
      ∀ c ∈ x.report.report.cveIds, c ∈ x.affected
  | .packages _ => ∀ c ∈ x.report.report.cveIds, c ∈ x.affected
  | .cves rest => (∀ c ∈ x.report.report.cveIds, c ∈ x.affected) ∧ x.OwnRows x.rows ∧
      (∀ c ∈ x.report.report.cveIds, c ∈ x.cve.keys ∨ c ∈ rest.map Prod.fst) ∧
      ∀ c ∈ rest.map Prod.fst, c ∈ x.report.report.cveIds
  | .findings rest => x.Upserted ∧ x.OwnRows rest
  | .pointing => x.Upserted
  | .recomputing => x.Upserted ∧ x.holds (.image x.imageId)
  | .targets _ rest => x.Upserted ∧ x.holds (.image x.imageId) ∧ ∀ c ∈ rest, c ∈ x.affected

theorem Txn.own_start (imageId : ImageId) (image : Image) (job : Option JobId)
    (report : AcceptedReport) (m : RunMetadata) : (Txn.start imageId image job report m).Own where
  finding := fun key f hf => by cases hf
  image := fun j row hrow => by cases hrow
  cve := fun c hc => absurd hc List.not_mem_nil

theorem Txn.Own.advance (hx : x.Own) (hreached : x.Reached)
    (h : x.Advances blocked db db' x') : x'.Own := by
  cases h with
  | capture hphase =>
    rw [Txn.Reached, hphase] at hreached
    obtain ⟨-, -, hcve⟩ := hreached
    exact ⟨hx.finding, hx.image, by simp [hcve]⟩
  | insertRun hphase =>
    rw [Txn.Reached, hphase] at hreached
    obtain ⟨⟨hfinding, himage⟩, -⟩ := hreached
    exact ⟨by simp [hfinding], by simp [himage], hx.cve⟩
  | @upsertCve cveId values rest hphase _ =>
    rw [Txn.Reached, hphase] at hreached
    obtain ⟨haffected, -, -, hrest⟩ := hreached
    refine ⟨hx.finding, hx.image, fun c hc => ?_⟩
    rcases Dict.mem_keys_set.mp hc with rfl | hold
    · exact haffected _ (hrest _ List.mem_cons_self)
    · exact hx.cve c hold
  | @upsertFinding key finding rest hphase _ =>
    rw [Txn.Reached, hphase] at hreached
    obtain ⟨himage, hrun, hcve⟩ := hreached.2 _ List.mem_cons_self
    refine ⟨fun key' f hf => ?_, hx.image, hx.cve⟩
    rw [Dict.get?_set] at hf
    split at hf
    · next hkey =>
      subst hkey
      rw [← Option.some.inj hf, lastSeenRunId_upsertFinding]
      exact ⟨himage, hrun, hcve⟩
    · exact hx.finding key' f hf
  | point hphase _ hrow =>
    refine ⟨hx.finding, fun j row hj => ?_, hx.cve⟩
    rw [Dict.get?_set] at hj
    split at hj
    · next hji => exact ⟨hji, by rw [← Option.some.inj hj]; rfl⟩
    · exact hx.image j row hj
  | _ => exact ⟨hx.finding, hx.image, hx.cve⟩

theorem Txn.Reached.advance (hreached : x.Reached)
    (h : x.Advances blocked db db' x') : x'.Reached := by
  cases h with
  | capture hphase =>
    rw [Txn.Reached, hphase] at hreached
    obtain ⟨hfinding, himage, -⟩ := hreached
    exact ⟨⟨hfinding, himage⟩, fun c hc => List.mem_append_right _ hc⟩
  | insertRun hphase =>
    rw [Txn.Reached, hphase] at hreached
    exact hreached.2
  | knownPackage hphase _ =>
    rw [Txn.Reached, hphase] at hreached
    exact hreached
  | newPackage hphase _ _ =>
    rw [Txn.Reached, hphase] at hreached
    exact hreached
  | selectPackages hphase =>
    rw [Txn.Reached, hphase] at hreached
    refine ⟨hreached, ?_, fun c hc => Or.inr (mem_keys_cveRows.mpr hc),
      fun c hc => mem_keys_cveRows.mp hc⟩
    rintro ⟨key, f⟩ he
    obtain ⟨g, hg, hrow⟩ := List.mem_filterMap.mp he
    obtain ⟨p, -, heq⟩ := Option.map_eq_some_iff.mp hrow
    cases heq
    exact ⟨rfl, rfl, ParsedReport.mem_cveIds.mpr ⟨g, hg, rfl⟩⟩
  | @upsertCve cveId values rest hphase _ =>
    rw [Txn.Reached, hphase] at hreached
    obtain ⟨haffected, hrows, hreport, hrest⟩ := hreached
    refine ⟨haffected, hrows, fun c hc => ?_, fun c hc => hrest c (List.mem_cons_of_mem _ hc)⟩
    rw [Dict.mem_keys_set]
    rcases hreport c hc with hold | hmem
    · exact Or.inl (Or.inr hold)
    · rcases List.mem_cons.mp hmem with hhead | htail
      · exact Or.inl (Or.inl hhead)
      · exact Or.inr htail
  | cvesDone hphase =>
    rw [Txn.Reached, hphase] at hreached
    obtain ⟨-, hrows, hreport, -⟩ := hreached
    exact ⟨fun c hc => (hreport c hc).resolve_right List.not_mem_nil, hrows⟩
  | upsertFinding hphase _ =>
    rw [Txn.Reached, hphase] at hreached
    exact ⟨hreached.1, fun e he => hreached.2 e (List.mem_cons_of_mem _ he)⟩
  | findingsDone hphase =>
    rw [Txn.Reached, hphase] at hreached
    exact hreached.1
  | point hphase _ _ =>
    rw [Txn.Reached, hphase] at hreached
    exact ⟨hreached, Dict.mem_keys_set.mpr (Or.inl rfl)⟩
  | select hphase =>
    rw [Txn.Reached, hphase] at hreached
    refine ⟨hreached.1, hreached.2, fun c hc => ?_⟩
    exact List.mem_dedup.mp (List.mem_filter.mp hc).1

theorem Txn.Own.recompute (hx : x.Own) (hreached : x.Reached)
    (h : x.recompute blocked db c = some x') : x'.Own := by
  obtain ⟨sub, rest, row, hphase, hc, -, -, rfl⟩ := Txn.of_recompute h
  rw [Txn.Reached, hphase] at hreached
  obtain ⟨-, -, hrest⟩ := hreached
  refine ⟨hx.finding, hx.image, fun c' hc' => ?_⟩
  rcases Dict.mem_keys_set.mp hc' with rfl | hold
  · exact hrest _ hc
  · exact hx.cve c' hold

theorem Txn.Reached.recompute (hreached : x.Reached)
    (h : x.recompute blocked db c = some x') : x'.Reached := by
  obtain ⟨sub, rest, row, hphase, -, -, -, rfl⟩ := Txn.of_recompute h
  rw [Txn.Reached, hphase] at hreached
  obtain ⟨hupserted, hpointed, hrest⟩ := hreached
  exact ⟨fun c' hc' => Dict.mem_keys_set.mpr (Or.inr (hupserted c' hc')), hpointed,
    fun c' hc' => hrest c' (List.mem_of_mem_erase hc')⟩

end Concurrency

end ContainerScanner
