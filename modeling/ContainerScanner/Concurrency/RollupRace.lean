import ContainerScanner.Concurrency.Progress
import ContainerScanner.Domain.Seed

/-!
# The rollup under concurrency

A success computes the rollups of the CVEs it affects from the rows committed when its `UPDATE`
starts, and commits them later. The CVEs of its report it has locked since the upsert, so no other
success can change those rows in between. A CVE that vanished from its image is locked by nothing
until the `UPDATE` comes to it: another success that changes who has the CVE may commit after the
values were computed and before they are.

## Main definitions

* `Txn.Settled` — the values a rollup has computed are right, and so are the rows it leaves out
* `Careful` — a success commits only CVEs it captured, and under no rollup that read them

## Main results

* `Txn.Finished.exact` — a commit leaves every rollup right
* `Txn.Finished.settled_commit` — and every value that other transactions have computed
* `rollupExact_run` — the rollups are exact in every state of a careful run
-/

namespace ContainerScanner

open Foundation Persist

namespace Concurrency

variable {db db' : Db} {x x' y : Txn} {s s' : State} {t u : TxnId} {blocked : Row → Bool}
  {c : CveId} {i j : ImageId} {r : ℕ}

/-! ### What a transaction has written -/

/-- The sequence has handed out the transaction's run. -/
def Phase.numbered : Phase → Bool
  | .opened => false
  | .inserting => false
  | _ => true

/-- Its run is new. -/
def Txn.Fresh (db : Db) (x : Txn) : Prop :=
  x.phase.numbered = true → x.runId < db.scanRun.next ∧
    ∀ key f, db.finding.get? key = some f → f.lastSeenRunId ≠ x.runId

theorem Txn.get?_view_finding (db : Db) (x : Txn) (key : FindingKey) :
    (x.view db).finding.get? key = (x.finding.get? key).or (db.finding.get? key) :=
  Dict.get?_override _ _ _

theorem Txn.get?_view_cve (db : Db) (x : Txn) (c : CveId) :
    (x.view db).cve.get? c = (x.cve.get? c).or (db.cve.get? c) :=
  Dict.get?_override _ _ _

theorem Txn.get?_view_image (db : Db) (x : Txn) (i : ImageId) :
    (x.view db).image.get? i = (x.imageRow.get? i).or (db.image.get? i) :=
  Dict.get?_override _ _ _

/-- Who is live in an image is read from the rows of that image. -/
theorem live_congr (hfinding : ∀ p, db.finding.get? ⟨i, c, p⟩ = db'.finding.get? ⟨i, c, p⟩)
    (himage : db.image.get? i = db'.image.get? i) : Live db c i r ↔ Live db' c i r := by
  simp only [Live, Db.IsCurrent, hfinding, himage]

/-- A transaction sees the images of others as they are committed. -/
theorem Txn.Own.live_view_of_ne (hx : x.Own) (hi : i ≠ x.imageId) :
    Live (x.view db) c i r ↔ Live db c i r := by
  refine live_congr (fun p => ?_) ?_
  · have hnone : x.finding.get? ⟨i, c, p⟩ = none := by
      rw [Option.eq_none_iff_forall_ne_some]
      exact fun f hf => hi (hx.finding _ f hf).1
    rw [Txn.get?_view_finding, hnone, Option.none_or]
  · have hnone : x.imageRow.get? i = none := by
      rw [Option.eq_none_iff_forall_ne_some]
      exact fun row hrow => hi (hx.image i row hrow).1
    rw [Txn.get?_view_image, hnone, Option.none_or]

/-- Once it has moved the pointer, what it sees live in its own image is what it has written. -/
theorem Txn.Own.live_view_self (hx : x.Own) (hfresh : x.Fresh db)
    (hnumbered : x.phase.numbered = true)
    (hpointed : x.holds (.image x.imageId)) :
    Live (x.view db) c x.imageId r ↔
      ∃ p f, x.finding.get? ⟨x.imageId, c, p⟩ = some f ∧ f.severityRank = r := by
  obtain ⟨row, hrow⟩ := Dict.mem_keys_iff.mp hpointed
  have himage : (x.view db).image.get? x.imageId = some row := by
    rw [Txn.get?_view_image, hrow, Option.some_or]
  have hpointer : row.currentScanRunId = some x.runId := (hx.image _ row hrow).2
  rw [Live]
  refine exists_congr fun p => exists_congr fun f => ?_
  rw [isCurrent_iff himage, hpointer, Txn.get?_view_finding]
  cases hf : x.finding.get? ⟨x.imageId, c, p⟩ with
  | some g =>
    have hseen : g.lastSeenRunId = x.runId := (hx.finding _ g hf).2.1
    rw [Option.some_or, Option.some.injEq]
    refine and_congr_right fun hgf => ?_
    subst hgf
    simp [hseen]
  | none =>
    rw [Option.none_or]
    refine iff_of_false ?_ (fun h => Option.some_ne_none f h.1.symm)
    rintro ⟨hold, hcur, -⟩
    exact (hfresh hnumbered).2 _ f hold (Option.some.inj hcur).symm

/-! ### What a transaction has come to -/

/-- The values the rollup computed are still those of the findings the transaction sees, and a row
that is not to be visited has them: the committed one, where the transaction has not written it. -/
def Txn.Settled (db : Db) (x : Txn) (sub : CveId → Rollup) (rest : List CveId) : Prop :=
  ∀ c ∈ x.affected, sub c = rollupOf (x.view db) c ∧
    (c ∉ rest → match x.cve.get? c with
      | some cve => storedRollup cve = sub c
      | none => rollupOf db c = sub c)

/-- What holds of an open transaction. -/
structure Txn.Progress (db : Db) (x : Txn) : Prop where
  own : x.Own
  reached : x.Reached
  fresh : x.Fresh db
  /-- Names and ranks go together in the rows it has written. -/
  names : ∀ c cve, x.cve.get? c = some cve → NamesRank cve
  settled : ∀ sub rest, x.phase = .targets sub rest → x.Settled db sub rest

/-- An exact database, whose findings are of CVEs it knows and of runs the sequence has handed
out. -/
structure Sound (db : Db) : Prop where
  /-- The rollups are exact. -/
  exact : RollupExact db
  /-- `finding.cve_id` references `cve`. -/
  findingCve : ∀ key f, db.finding.get? key = some f → key.cveId ∈ db.cve.keys
  /-- A finding was last seen by a run that exists. -/
  lastSeen : ∀ key f, db.finding.get? key = some f → f.lastSeenRunId < db.scanRun.next

/-- The tables are the same, and no run number is handed out twice. -/
structure SameTables (db db' : Db) : Prop where
  finding : db'.finding = db.finding
  image : db'.image = db.image
  cve : db'.cve = db.cve
  next : db.scanRun.next ≤ db'.scanRun.next

theorem SameTables.refl (db : Db) : SameTables db db := ⟨rfl, rfl, rfl, le_rfl⟩

theorem Txn.Advances.sameTables (h : x.Advances blocked db db' x') : SameTables db db' := by
  cases h with
  | insertRun _ => exact ⟨rfl, rfl, rfl, Nat.le_succ _⟩
  | _ => exact ⟨rfl, rfl, rfl, le_rfl⟩

theorem Sound.sameTables (h : Sound db) (hsame : SameTables db db') : Sound db' where
  exact := by
    intro c cve hc
    rw [hsame.cve] at hc
    obtain ⟨hrollup, hname⟩ := h.exact c cve hc
    exact ⟨hrollup.congr fun i r => Live.congr hsame.finding.symm hsame.image.symm r, hname⟩
  findingCve := by
    rw [hsame.finding, hsame.cve]
    exact h.findingCve
  lastSeen := by
    rw [hsame.finding]
    exact fun key f hf => lt_of_lt_of_le (h.lastSeen key f hf) hsame.next

theorem Txn.Fresh.sameTables (h : x.Fresh db) (hsame : SameTables db db') : x.Fresh db' := by
  rw [Txn.Fresh, hsame.finding]
  exact fun hnumbered => ⟨lt_of_lt_of_le (h hnumbered).1 hsame.next, (h hnumbered).2⟩

theorem rollupOf_sameTables (hsame : SameTables db db') (c : CveId) :
    rollupOf db' c = rollupOf db c :=
  rollupOf_congr fun _ r => Live.congr hsame.finding hsame.image r

theorem SameTables.view (hsame : SameTables db db') (x : Txn) :
    SameTables (x.view db) (x.view db') where
  finding := by
    rw [Txn.view, hsame.finding]
    rfl
  image := by
    rw [Txn.view, hsame.image]
    rfl
  cve := by
    rw [Txn.view, hsame.cve]
    rfl
  next := hsame.next

theorem Txn.Settled.sameTables {sub : CveId → Rollup} {rest : List CveId}
    (h : x.Settled db sub rest) (hsame : SameTables db db') : x.Settled db' sub rest := by
  intro c hc
  rw [rollupOf_sameTables (hsame.view x), rollupOf_sameTables hsame]
  exact h c hc

theorem Txn.Progress.sameTables (h : x.Progress db) (hsame : SameTables db db') :
    x.Progress db' where
  own := h.own
  reached := h.reached
  fresh := h.fresh.sameTables hsame
  names := h.names
  settled := fun sub rest hphase => (h.settled sub rest hphase).sameTables hsame

/-! ### Steps of one transaction -/

theorem Txn.Progress.namesRank_view (hx : x.Progress db) (hdb : Sound db) {cve : Cve}
    (hc : (x.view db).cve.get? c = some cve) : NamesRank cve := by
  rw [Txn.get?_view_cve, Option.or_eq_some_iff] at hc
  rcases hc with hown | ⟨-, hold⟩
  · exact hx.names c cve hown
  · exact (hdb.exact c cve hold).2

theorem Txn.Fresh.advance (hfresh : x.Fresh db) (hdb : Sound db)
    (h : x.Advances blocked db db' x') : x'.Fresh db' := by
  cases h with
  | capture _ => exact fun hnumbered => by cases hnumbered
  | insertRun _ =>
    exact fun _ => ⟨Nat.lt_succ_self _, fun key f hf => (hdb.lastSeen key f hf).ne⟩
  | _ hphase => exact fun _ => hfresh (by rw [hphase]; rfl)

theorem Txn.Progress.names_advance (hx : x.Progress db) (hdb : Sound db)
    (h : x.Advances blocked db db' x') {cve : Cve} (hc : x'.cve.get? c = some cve) :
    NamesRank cve := by
  cases h with
  | upsertCve _ _ =>
    rw [Dict.get?_set] at hc
    split at hc
    · rw [← Option.some.inj hc]
      exact NamesRank.upsertCve fun row hrow => hx.namesRank_view hdb hrow
    · exact hx.names c cve hc
  | _ => exact hx.names c cve hc

/-- A CVE without a row in the transaction's hands is not live in its image. -/
theorem Txn.Own.not_live_view (hx : x.Own) (hfresh : x.Fresh db) (hupserted : x.Upserted)
    (hnumbered : x.phase.numbered = true) (hpointed : x.holds (.image x.imageId))
    (hc : x.cve.get? c = none) : ¬ Live (x.view db) c x.imageId r := by
  rw [hx.live_view_self hfresh hnumbered hpointed]
  rintro ⟨p, f, hf, -⟩
  exact Dict.get?_eq_none_iff.mp hc (hupserted c (hx.finding _ f hf).2.2)

/-- An exact row stores what the subquery computes. -/
theorem storedRollup_of_exact (hdb : RollupExact db) {cve : Cve} (hc : db.cve.get? c = some cve) :
    storedRollup cve = rollupOf db c :=
  (hdb c cve hc).1.unique (isRollup_rollupOf db c)

theorem Sound.not_live (hdb : Sound db) (hc : db.cve.get? c = none) : ¬ Live db c i r := by
  rintro ⟨p, f, hf, -⟩
  exact Dict.get?_eq_none_iff.mp hc (hdb.findingCve _ f hf)

theorem storedRollup_eq_of_not_rollupDiffers {sub : Rollup} {cve : Cve}
    (h : rollupDiffers sub cve = false) : storedRollup cve = sub := by
  have happly : applyRollup sub cve = cve := by
    rw [applyRollup, h]
    rfl
  rw [← storedRollup_applyRollup sub cve, happly]

/-- The rows the `UPDATE` leaves out have the values it computed. -/
theorem Txn.Own.settled_select (hx : x.Own) (hfresh : x.Fresh db) (hdb : Sound db)
    (hupserted : x.Upserted) (hnumbered : x.phase.numbered = true)
    (hpointed : x.holds (.image x.imageId)) :
    x.Settled db (rollupOf (x.view db)) (selectTargets (x.view db) x.affected) := by
  refine fun c hc => ⟨rfl, fun hnot => ?_⟩
  rw [selectTargets, List.mem_filter, and_iff_right (List.mem_dedup.mpr hc),
    Txn.get?_view_cve] at hnot
  cases hown : x.cve.get? c with
  | some cve =>
    rw [hown, Option.some_or] at hnot
    exact storedRollup_eq_of_not_rollupDiffers (Bool.eq_false_iff.mpr hnot)
  | none =>
    rw [hown, Option.none_or] at hnot
    cases hold : db.cve.get? c with
    | some cve =>
      rw [hold] at hnot
      show rollupOf db c = _
      rw [← storedRollup_of_exact hdb.exact hold]
      exact storedRollup_eq_of_not_rollupDiffers (Bool.eq_false_iff.mpr hnot)
    | none =>
      -- no row and so no findings, before the transaction or by it
      refine rollupOf_congr fun j r => ?_
      by_cases hj : j = x.imageId
      · subst hj
        exact iff_of_false (hdb.not_live hold)
          (hx.not_live_view hfresh hupserted hnumbered hpointed hown)
      · exact (hx.live_view_of_ne hj).symm

theorem Txn.Progress.advance (hx : x.Progress db) (hdb : Sound db)
    (h : x.Advances blocked db db' x') : x'.Progress db' where
  own := hx.own.advance hx.reached h
  reached := hx.reached.advance h
  fresh := hx.fresh.advance hdb h
  names := fun _ _ hc => hx.names_advance hdb h hc
  settled := by
    intro sub rest hphase
    cases h with
    | select hbefore =>
      cases hphase
      have hreached := hx.reached
      rw [Txn.Reached, hbefore] at hreached
      exact hx.own.settled_select hx.fresh hdb hreached.1 (by rw [hbefore]; rfl) hreached.2
    | _ => cases hphase

/-- Visiting a row writes the value computed for it. -/
theorem Txn.Settled.recompute {sub : CveId → Rollup} {rest : List CveId}
    (hsettled : x.Settled db sub rest) (row : Cve) :
    Txn.Settled db { x with
      cve := x.cve.set c (applyRollup (sub c) row), phase := .targets sub (rest.erase c) }
      sub (rest.erase c) := by
  intro c' hc'
  obtain ⟨hsub, hset⟩ := hsettled c' hc'
  refine ⟨hsub.trans (rollupOf_congr fun j r => Live.congr rfl rfl r), fun hnot => ?_⟩
  show match (x.cve.set c (applyRollup (sub c) row)).get? c' with
    | some cve => storedRollup cve = sub c'
    | none => rollupOf db c' = sub c'
  by_cases hcc : c' = c
  · subst hcc
    rw [Dict.get?_set_self]
    exact storedRollup_applyRollup _ _
  · rw [Dict.get?_set_of_ne _ hcc]
    exact hset fun hmem => hnot ((List.mem_erase_of_ne hcc).mpr hmem)

theorem Txn.Progress.recompute (hx : x.Progress db) (hdb : Sound db)
    (h : x.recompute blocked db c = some x') : x'.Progress db := by
  have hown := hx.own.recompute hx.reached h
  have hreached := hx.reached.recompute h
  obtain ⟨sub, rest, row, hphase, -, -, hrow, rfl⟩ := Txn.of_recompute h
  refine ⟨hown, hreached, fun _ => hx.fresh (by rw [hphase]; rfl), fun c' cve hc' => ?_, ?_⟩
  · rw [Dict.get?_set] at hc'
    split at hc'
    · rw [← Option.some.inj hc']
      exact (hx.namesRank_view hdb hrow).applyRollup
    · exact hx.names c' cve hc'
  · intro sub' rest' heq
    cases heq
    exact (hx.settled sub rest hphase).recompute row

/-! ### Commits -/

/-- The same findings of the CVE are current. -/
def SameLive (db db' : Db) (c : CveId) : Prop :=
  (∀ e ∈ liveRows db c, e ∈ liveRows db' c) ∧ ∀ e ∈ liveRows db' c, e ∈ liveRows db c

instance (db db' : Db) (c : CveId) : Decidable (SameLive db db' c) :=
  inferInstanceAs (Decidable (_ ∧ _))

theorem SameLive.iff (h : SameLive db db' c) : Live db c i r ↔ Live db' c i r := by
  rw [← mem_liveRows, ← mem_liveRows]
  exact ⟨h.1 (i, r), h.2 (i, r)⟩

/-- The rollup has computed its values. -/
def Phase.computed : Phase → Bool
  | .targets _ _ => true
  | _ => false

/-- The CVEs current in the transaction's image are among those it captured as affected. -/
def Captured (db : Db) (x : Txn) : Prop :=
  ∀ image ∈ db.image.get? x.imageId, ∀ c ∈ currentCveIds db x.imageId image, c ∈ x.affected

instance (db : Db) (x : Txn) : Decidable (Captured db x) :=
  inferInstanceAs (Decidable (∀ image ∈ _, _))

/-- No other transaction has computed a rollup from findings that the commit changes. -/
def Undisturbing (s : State) (t : TxnId) (x : Txn) : Prop :=
  ∀ e ∈ s.txns.entries, e.1 ≠ t → e.2.phase.computed = true →
    ∀ c ∈ e.2.affected, SameLive s.db (x.view s.db) c

instance (s : State) (t : TxnId) (x : Txn) : Decidable (Undisturbing s t x) :=
  inferInstanceAs (Decidable (∀ e ∈ _, _))

/-- When a success may commit. -/
def Careful (s : State) : Event → Prop
  | .commit t => ∀ x ∈ s.txns.get? t, Captured s.db x ∧ Undisturbing s t x
  | _ => True

instance (s : State) (e : Event) : Decidable (Careful s e) :=
  match e with
  | .commit t => inferInstanceAs (Decidable (∀ x ∈ s.txns.get? t, _))
  | .start .. => inferInstanceAs (Decidable True)
  | .next _ => inferInstanceAs (Decidable True)
  | .recompute _ _ => inferInstanceAs (Decidable True)
  | .abort _ => inferInstanceAs (Decidable True)

theorem Captured.mem_affected (h : Captured db x) (hlive : Live db c x.imageId r) :
    c ∈ x.affected := by
  obtain ⟨p, f, hf, ⟨image, himage, hcur⟩, hr⟩ := hlive
  exact h image himage c
    ((mem_currentCveIds himage).mpr ⟨r, p, f, hf, ⟨image, himage, hcur⟩, hr⟩)

/-- A finished transaction. -/
structure Txn.Finished (db : Db) (x : Txn) (sub : CveId → Rollup) : Prop where
  progress : x.Progress db
  phase : x.phase = .targets sub []

namespace Txn.Finished

variable {sub : CveId → Rollup}

theorem numbered (hx : x.Finished db sub) : x.phase.numbered = true := by
  rw [hx.phase]
  rfl

theorem upserted (hx : x.Finished db sub) : x.Upserted := by
  have hreached := hx.progress.reached
  rw [Txn.Reached, hx.phase] at hreached
  exact hreached.1

theorem pointed (hx : x.Finished db sub) : x.holds (.image x.imageId) := by
  have hreached := hx.progress.reached
  rw [Txn.Reached, hx.phase] at hreached
  exact hreached.2.1

/-- A CVE that is not affected is live where it was. -/
theorem live_of_notMem (hx : x.Finished db sub) (hcaptured : Captured db x)
    (hc : c ∉ x.affected) : Live (x.view db) c i r ↔ Live db c i r := by
  by_cases hi : i = x.imageId
  · subst hi
    have hnone : x.cve.get? c = none :=
      Dict.get?_eq_none_iff.mpr fun hmem => hc (hx.progress.own.cve c hmem)
    exact iff_of_false
      (hx.progress.own.not_live_view hx.progress.fresh hx.upserted hx.numbered hx.pointed hnone)
      fun hlive => hc (hcaptured.mem_affected hlive)
  · exact hx.progress.own.live_view_of_ne hi

/-- **A commit leaves every rollup right.** -/
theorem exact (hx : x.Finished db sub) (hdb : Sound db) (hcaptured : Captured db x) :
    RollupExact (x.commit db) := by
  intro c cve hc
  refine ⟨?_, hx.progress.namesRank_view hdb hc⟩
  have hsame : ∀ i r, Live (x.view db) c i r ↔ Live (x.commit db) c i r :=
    fun i r => Live.congr rfl rfl r
  refine IsRollup.congr ?_ hsame
  by_cases hmem : c ∈ x.affected
  · obtain ⟨hsub, hset⟩ := hx.progress.settled sub [] hx.phase c hmem
    have hstored : storedRollup cve = sub c := by
      have hset := hset List.not_mem_nil
      have hc : (x.view db).cve.get? c = some cve := hc
      rw [get?_view_cve] at hc
      cases hown : x.cve.get? c with
      | some own =>
        rw [hown, Option.some_or] at hc
        rw [hown] at hset
        rw [← Option.some.inj hc]
        exact hset
      | none =>
        rw [hown, Option.none_or] at hc
        rw [hown] at hset
        exact (storedRollup_of_exact hdb.exact hc).trans hset
    rw [hstored, hsub]
    exact isRollup_rollupOf _ c
  · have hnone : x.cve.get? c = none :=
      Dict.get?_eq_none_iff.mpr fun hkey => hmem (hx.progress.own.cve c hkey)
    have hold : (x.view db).cve.get? c = some cve := hc
    rw [get?_view_cve, hnone, Option.none_or] at hold
    exact (hdb.exact c cve hold).1.congr fun i r => (hx.live_of_notMem hcaptured hmem).symm

theorem sound (hx : x.Finished db sub) (hdb : Sound db) (hcaptured : Captured db x) :
    Sound (x.commit db) where
  exact := hx.exact hdb hcaptured
  findingCve := by
    intro key f hf
    have hf : (x.view db).finding.get? key = some f := hf
    rw [get?_view_finding, Option.or_eq_some_iff] at hf
    show key.cveId ∈ (x.view db).cve.keys
    rw [Dict.mem_keys_iff]
    rcases hf with hown | ⟨-, hold⟩
    · obtain ⟨cve, hcve⟩ :=
        Dict.mem_keys_iff.mp (hx.upserted _ (hx.progress.own.finding key f hown).2.2)
      exact ⟨cve, by rw [get?_view_cve, hcve, Option.some_or]⟩
    · obtain ⟨cve, hcve⟩ := Dict.mem_keys_iff.mp (hdb.findingCve key f hold)
      rw [get?_view_cve, hcve]
      cases x.cve.get? key.cveId with
      | some own => exact ⟨own, rfl⟩
      | none => exact ⟨cve, rfl⟩
  lastSeen := by
    intro key f hf
    have hf : (x.view db).finding.get? key = some f := hf
    refine lt_of_lt_of_le ?_ (Serial.next_le_put _ _ _)
    rw [get?_view_finding, Option.or_eq_some_iff] at hf
    rcases hf with hown | ⟨-, hold⟩
    · rw [(hx.progress.own.finding key f hown).2.1]
      exact (hx.progress.fresh hx.numbered).1
    · exact hdb.lastSeen key f hold

/-- The run of another open transaction is as new as it was. -/
theorem fresh_commit (hx : x.Finished db sub) (hy : y.Fresh db)
    (hrun : y.phase.numbered = true → x.runId ≠ y.runId) : y.Fresh (x.commit db) := by
  intro hnumbered
  refine ⟨lt_of_lt_of_le (hy hnumbered).1 (Serial.next_le_put _ _ _), fun key f hf => ?_⟩
  have hf : (x.view db).finding.get? key = some f := hf
  rw [get?_view_finding, Option.or_eq_some_iff] at hf
  rcases hf with hown | ⟨-, hold⟩
  · rw [(hx.progress.own.finding key f hown).2.1]
    exact hrun hnumbered
  · exact (hy hnumbered).2 key f hold

/-- What another transaction sees live, a commit that leaves the CVE alone does not change. -/
theorem live_view_commit (hx : x.Finished db sub) (hy : y.Own) (hne : x.imageId ≠ y.imageId)
    (hsame : SameLive db (x.view db) c) :
    Live (y.view (x.commit db)) c i r ↔ Live (y.view db) c i r := by
  by_cases hi : i = y.imageId
  · -- the rows of this image are those that were there, and the transaction's own
    subst hi
    refine live_congr (fun p => ?_) ?_
    · have hnone : x.finding.get? ⟨y.imageId, c, p⟩ = none := by
        rw [Option.eq_none_iff_forall_ne_some]
        exact fun f hf => hne (hx.progress.own.finding _ f hf).1.symm
      have hcommit : (x.commit db).finding.get? ⟨y.imageId, c, p⟩
          = db.finding.get? ⟨y.imageId, c, p⟩ := by
        rw [show (x.commit db).finding = (x.view db).finding from rfl, get?_view_finding, hnone,
          Option.none_or]
      rw [get?_view_finding, get?_view_finding, hcommit]
    · have hnone : x.imageRow.get? y.imageId = none := by
        rw [Option.eq_none_iff_forall_ne_some]
        exact fun row hrow => hne (hx.progress.own.image _ row hrow).1.symm
      have hcommit : (x.commit db).image.get? y.imageId = db.image.get? y.imageId := by
        rw [show (x.commit db).image = (x.view db).image from rfl, get?_view_image, hnone,
          Option.none_or]
      rw [get?_view_image, get?_view_image, hcommit]
  · rw [hy.live_view_of_ne hi, hy.live_view_of_ne hi, hsame.iff]
    exact Live.congr rfl rfl r

/-- **The values another transaction has computed stay right** when the commit changes none of the
findings they were computed from. -/
theorem settled_commit {sub' : CveId → Rollup} {rest : List CveId} (hx : x.Finished db sub)
    (hy : y.Own) (hne : x.imageId ≠ y.imageId)
    (hsame : ∀ c ∈ y.affected, SameLive db (x.view db) c) (hsettled : y.Settled db sub' rest) :
    y.Settled (x.commit db) sub' rest := by
  intro c hc
  obtain ⟨hsub, hset⟩ := hsettled c hc
  refine ⟨hsub.trans (rollupOf_congr fun j r => ?_), fun hnot => ?_⟩
  · exact (hx.live_view_commit hy hne (hsame c hc)).symm
  · have hset := hset hnot
    cases hown : y.cve.get? c with
    | some cve =>
      rw [hown] at hset
      exact hset
    | none =>
      rw [hown] at hset
      have hrollup : rollupOf (x.commit db) c = rollupOf db c := by
        refine rollupOf_congr fun j r => ?_
        rw [(hsame c hc).iff]
        exact Live.congr rfl rfl r
      exact hrollup.trans hset

end Txn.Finished

/-! ### Runs -/

/-- What holds between the transactions. -/
structure Invariant (s : State) : Prop where
  sound : Sound s.db
  progress : ∀ t x, s.txns.get? t = some x → x.Progress s.db
  exclusive : Locks.Exclusive s.holds
  /-- No run number is used twice. -/
  runs : ∀ t u x y, s.txns.get? t = some x → s.txns.get? u = some y → t ≠ u →
    x.phase.numbered = true → y.phase.numbered = true → x.runId ≠ y.runId

theorem invariant_start (hdb : Sound db) : Invariant (State.start db) where
  sound := hdb
  progress := fun t x hx => by cases hx
  exclusive := fun t u row ht => by
    obtain ⟨x, hx, -⟩ := ht
    cases hx
  runs := fun t u x y hx => by cases hx

/-- A step that changes one transaction, and nothing that is committed but a sequence. -/
theorem Invariant.set (hs : Invariant s) (hsame : SameTables s.db db) (hx : x.Progress db)
    (hrows : ∀ row, x.holds row → s.holds t row ∨ s.blocked t row = false)
    (hruns : ∀ u y, s.txns.get? u = some y → u ≠ t → x.phase.numbered = true →
      y.phase.numbered = true → x.runId ≠ y.runId) : Invariant ⟨db, s.txns.set t x⟩ where
  sound := hs.sound.sameTables hsame
  progress := by
    intro u y hy
    rw [Dict.get?_set] at hy
    split at hy
    · rw [← Option.some.inj hy]
      exact hx
    · exact (hs.progress u y hy).sameTables hsame
  exclusive := State.exclusive_set hs.exclusive hrows db
  runs := by
    intro u v y z hy hz hne
    rw [Dict.get?_set] at hy hz
    split at hy
    · next hu =>
      rw [if_neg (fun hv => hne (hu.trans hv.symm))] at hz
      rw [← Option.some.inj hy]
      exact fun hn hn' => hruns v z hz (fun hv => hne (hu.trans hv.symm)) hn hn'
    · split at hz
      · next hu _ =>
        rw [← Option.some.inj hz]
        exact fun hn hn' => (hruns u y hy hu hn' hn).symm
      · exact hs.runs u v y z hy hz hne

/-- A step draws the run number from the sequence, or keeps the one it has. -/
theorem Txn.Advances.runId (h : x.Advances blocked db db' x') (hn : x'.phase.numbered = true) :
    x'.runId = db.scanRun.next ∨ x.phase.numbered = true ∧ x'.runId = x.runId := by
  cases h with
  | capture _ => cases hn
  | insertRun _ => exact Or.inl rfl
  | _ hphase => exact Or.inr ⟨by rw [hphase]; rfl, rfl⟩

theorem invariant_next (hs : Invariant s) (hx : s.txns.get? t = some x)
    (h : x.Advances (s.blocked t) s.db db x') : Invariant ⟨db, s.txns.set t x'⟩ := by
  refine hs.set h.sameTables ((hs.progress t x hx).advance hs.sound h)
    (fun row hrow => (h.holds hrow).imp_left fun hold => ⟨x, hx, hold⟩) ?_
  intro u y hy hne hn hn'
  rcases h.runId hn with hnew | ⟨hold, heq⟩
  · rw [hnew]
    exact ((hs.progress u y hy).fresh hn').1.ne'
  · rw [heq]
    exact hs.runs t u x y hx hy hne.symm hold hn'

theorem invariant_recompute (hs : Invariant s) (hx : s.txns.get? t = some x)
    (h : x.recompute (s.blocked t) s.db c = some x') : Invariant ⟨s.db, s.txns.set t x'⟩ := by
  refine hs.set (SameTables.refl s.db) ((hs.progress t x hx).recompute hs.sound h)
    (fun row hrow => (Txn.holds_of_recompute h hrow).imp_left fun hold => ⟨x, hx, hold⟩) ?_
  intro u y hy hne hn hn'
  obtain ⟨sub, rest, row, hphase, -, -, -, rfl⟩ := Txn.of_recompute h
  exact hs.runs t u x y hx hy hne.symm (by rw [hphase]; rfl) hn'

theorem invariant_commit (hs : Invariant s) {sub : CveId → Rollup} (hx : s.txns.get? t = some x)
    (hphase : x.phase = .targets sub []) (hcaptured : Captured s.db x)
    (hundisturbing : Undisturbing s t x) : Invariant ⟨x.commit s.db, s.txns.erase t⟩ := by
  have hfinished : x.Finished s.db sub := ⟨hs.progress t x hx, hphase⟩
  have hother : ∀ u y, (s.txns.erase t).get? u = some y → u ≠ t ∧ s.txns.get? u = some y := by
    intro u y hy
    rw [Dict.get?_erase] at hy
    split at hy
    · cases hy
    · next hne => exact ⟨hne, hy⟩
  refine ⟨hfinished.sound hs.sound hcaptured, fun u y hy => ?_,
    State.exclusive_erase hs.exclusive _ t, fun u v y z hy hz => ?_⟩
  · obtain ⟨hne, hy⟩ := hother u y hy
    have hprogress := hs.progress u y hy
    refine ⟨hprogress.own, hprogress.reached, hfinished.fresh_commit hprogress.fresh
      (hs.runs t u x y hx hy hne.symm hfinished.numbered), hprogress.names, ?_⟩
    intro sub' rest hcomputed
    have hreached := hprogress.reached
    rw [Txn.Reached, hcomputed] at hreached
    -- each of the two holds the row of its image
    have himages : x.imageId ≠ y.imageId := by
      intro heq
      exact hne (hs.exclusive u t (.image y.imageId) ⟨y, hy, hreached.2.1⟩
        ⟨x, hx, heq ▸ hfinished.pointed⟩)
    exact hfinished.settled_commit hprogress.own himages
      (hundisturbing (u, y) (Dict.get?_eq_some_iff.mp hy) hne (by rw [hcomputed]; rfl))
      (hprogress.settled sub' rest hcomputed)
  · exact hs.runs u v y z (hother u y hy).2 (hother v z hz).2

theorem invariant_abort (hs : Invariant s) (t : TxnId) : Invariant ⟨s.db, s.txns.erase t⟩ := by
  have hother : ∀ u y, (s.txns.erase t).get? u = some y → s.txns.get? u = some y := by
    intro u y hy
    rw [Dict.get?_erase] at hy
    split at hy
    · cases hy
    · exact hy
  exact ⟨hs.sound, fun u y hy => hs.progress u y (hother u y hy),
    State.exclusive_erase hs.exclusive _ t,
    fun u v y z hy hz => hs.runs u v y z (hother u y hy) (hother v z hz)⟩

theorem invariant_step (hs : Invariant s) {e : Event} (hcareful : Careful s e)
    (h : step s e = some s') : Invariant s' := by
  cases e with
  | start t i image job report m =>
    obtain ⟨-, -, rfl⟩ := step_start h
    refine hs.set (SameTables.refl s.db) ?_
      (fun row hrow => absurd hrow (Txn.not_holds_start row)) (fun u y _ _ hn => by cases hn)
    refine ⟨Txn.own_start i image job report m, ⟨rfl, rfl, rfl⟩, fun hn => ?_, fun c cve hc => ?_,
      fun sub rest hphase => ?_⟩
    · cases hn
    · cases hc
    · cases hphase
  | next t =>
    obtain ⟨x, db', x', hx, hadv, rfl⟩ := step_next h
    exact invariant_next hs hx hadv
  | recompute t c =>
    obtain ⟨x, x', hx, hrec, rfl⟩ := step_recompute h
    exact invariant_recompute hs hx hrec
  | commit t =>
    obtain ⟨x, sub, hx, hphase, rfl⟩ := step_commit h
    obtain ⟨hcaptured, hundisturbing⟩ := hcareful x hx
    exact invariant_commit hs hx hphase hcaptured hundisturbing
  | abort t =>
    obtain ⟨x, -, rfl⟩ := step_abort h
    exact invariant_abort hs t

/-- Every serial history from an unscanned database ends in a sound one. -/
theorem sound_runCalls (hdb : db.Unscanned) (calls : List Call) : Sound (runCalls db calls) := by
  have hwf : WellFormed (runCalls db calls) :=
    wellFormed_runCalls (wellFormed_of_unscanned hdb) calls
  refine ⟨rollupExact_runCalls (wellFormed_of_unscanned hdb) (rollupExact_of_unscanned hdb) calls,
    fun key f hf => ?_, fun key f hf => hwf.lastSeen_lt hf⟩
  exact Dict.mem_keys_iff.mpr (hwf.findingCve key f hf)

/-- **The rollups are exact in every state of a careful run.** -/
theorem rollupExact_run (hdb : Sound db) (h : Reaches step Careful (State.start db) s) :
    RollupExact s.db :=
  (h.invariant (I := Invariant) (fun _ _ _ hs hcareful hstep => invariant_step hs hcareful hstep)
    (invariant_start hdb)).sound.exact

/-! ### Two images drop a CVE -/

def plainMetadata : RunMetadata := ⟨none, none, none, none, 0, second⟩

/-- One CVE in two images. -/
def sharedCve : Db :=
  runCalls (Db.seeded 0 briefImages)
    [.success 1 none (AcceptedReport.debian [("CVE-1", "openssl", "HIGH")]) plainMetadata,
      .success 2 none (AcceptedReport.debian [("CVE-1", "openssl", "HIGH")]) plainMetadata]

/-- A transaction begins on an image as it is committed. -/
def beginOn (db : Db) (t : TxnId) (i : ImageId) (report : AcceptedReport) : List Event :=
  (db.image.get? i).toList.map fun image => .start t i image none report plainMetadata

/-- Two transactions write a report without findings for these images, up to the rollup. -/
def droppedTwice : List Event :=
  beginOn sharedCve 1 1 (AcceptedReport.debian []) ++
    beginOn sharedCve 2 2 (AcceptedReport.debian []) ++
      List.replicate 6 (.next 1) ++ List.replicate 6 (.next 2)

theorem rollupExact_run_inTurn :
    ∃ s, execute (restrict step Careful) (State.start sharedCve) (droppedTwice ++ [.next 1,
        .recompute 1 "CVE-1", .commit 1, .next 2, .recompute 2 "CVE-1", .commit 2]) = some s ∧
      RollupExact s.db := by
  have hrun : (execute (restrict step Careful) (State.start sharedCve) (droppedTwice ++ [.next 1,
      .recompute 1 "CVE-1", .commit 1, .next 2, .recompute 2 "CVE-1", .commit 2])).isSome := by
    decide
  obtain ⟨s, hs⟩ := Option.isSome_iff_exists.mp hrun
  exact ⟨s, hs, rollupExact_run (sound_runCalls (unscanned_seeded 0 briefImages) _)
    (reaches_of_execute hs)⟩

/-- Each `UPDATE` computes its values while the other image still has the CVE, and the second finds
its value there already. -/
theorem not_rollupExact_run_together :
    ¬ ∀ (db : Db) (s : State), Sound db → Reaches step (fun _ _ => True) (State.start db) s →
      s.txns.entries = [] → RollupExact s.db := by
  intro hall
  have hrun : ((execute (restrict step fun _ _ => True) (State.start sharedCve) (droppedTwice ++
      [.next 1, .next 2, .recompute 1 "CVE-1", .commit 1, .recompute 2 "CVE-1", .commit 2])).bind
        fun s => (s.db.cve.get? "CVE-1").map fun cve =>
          (s.txns.entries.length, storedRollup cve, rollupOf s.db "CVE-1"))
      = some (0, ⟨3, 1⟩, ⟨0, 0⟩) := by decide
  obtain ⟨s, hs, hrun⟩ := Option.bind_eq_some_iff.mp hrun
  obtain ⟨cve, hcve, hrun⟩ := Option.map_eq_some_iff.mp hrun
  obtain ⟨hclosed, hrun⟩ := Prod.mk.inj hrun
  obtain ⟨hstored, hlive⟩ := Prod.mk.inj hrun
  have hexact := hall sharedCve s (sound_runCalls (unscanned_seeded 0 briefImages) _)
    (reaches_of_execute hs) (List.eq_nil_of_length_eq_zero hclosed)
  have hagree := storedRollup_of_exact hexact hcve
  rw [hstored, hlive] at hagree
  exact absurd hagree (by decide)

end Concurrency

end ContainerScanner
