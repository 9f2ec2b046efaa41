import ContainerScanner.Catalogue.System
import ContainerScanner.Lifecycle.Invariant

/-!
# Rollups of the whole system

A worker that reports before its lease is reaped holds its image as it is stored, so the CVEs it
captured before the pointer moves are all that lose a finding. In a fenced run every row of `cve`
therefore stores the rollup of its live findings, whatever else goes on.

## Main results

* `RollupExact.of_same` — rollups are a matter of findings and pointers
* `rollupExact_step`, `rollupExact_of_reaches`
-/

namespace ContainerScanner

open Foundation Persist

namespace Catalogue

open Lifecycle (State Event Report Kept Fenced)
open Workers (Held)

variable {db db' : Db} {log : Log} {settings : Settings} {s s' : State}

theorem isCurrent_iff_map {i : ImageId} {f : Finding} : db.IsCurrent i f ↔
    (db.image.get? i).map Image.currentScanRunId = some (some f.lastSeenRunId) := by
  rw [Option.map_eq_some_iff]
  rfl

theorem SameFindings.live (h : SameFindings db db') {c : CveId} {i : ImageId} {r : ℕ} :
    Live db' c i r ↔ Live db c i r := by
  simp only [Live, h.finding, isCurrent_iff_map, h.pointer]

/-- Rollups are a matter of findings and pointers. -/
theorem RollupExact.of_same (hexact : RollupExact db) (h : SameFindings db db')
    (hcve : db'.cve = db.cve) : RollupExact db' := by
  intro c cve hc
  rw [hcve] at hc
  obtain ⟨hrollup, hname⟩ := hexact c cve hc
  exact ⟨hrollup.congr fun i r => h.live.symm, hname⟩

/-- A worker's last transaction, on an object that is the row. -/
theorem rollupExact_commitReport (hdb : WellFormed db) (hexact : RollupExact db) {held : Held}
    {loaded : Option Image} {report : Report}
    (hfresh : ∀ image ∈ loaded, db.image.get? held.loaded.imageId = some image)
    (hcommit : Lifecycle.commitReport settings db held loaded report = some db') :
    RollupExact db' := by
  cases report with
  | success report m =>
    obtain ⟨image, hloaded, rfl⟩ := Option.map_eq_some_iff.mp hcommit
    rw [Lifecycle.recordSuccess_eq (hfresh image hloaded)]
    exact rollupExact_recordSuccess hdb hexact (hfresh image hloaded) report
  | skip m =>
    obtain ⟨image, hloaded, rfl⟩ := Option.map_eq_some_iff.mp hcommit
    rw [Lifecycle.recordSkip_eq (hfresh image hloaded)]
    exact rollupExact_recordQuiet hexact (quiet_skipImage m) _
  | fail error permanent refreshed now startedAt completedAt =>
    simp only [Lifecycle.commitReport] at hcommit
    split at hcommit
    · obtain rfl := Option.some.inj hcommit
      exact hexact
    · next image hobject =>
      obtain rfl := Option.some.inj hcommit
      exact rollupExact_recordQuiet hexact (quiet_flushImage (quiet_failImage _ _) image) _
  | defer delaySeconds reason refreshed now =>
    obtain rfl := Option.some.inj hcommit
    exact hexact

theorem rollupExact_recordReaped (hexact : RollupExact db) (clock : Tick.Clock)
    (reaped : List Queue.ReapedJob) : RollupExact (Tick.recordReaped clock db reaped) := by
  induction reaped generalizing db with
  | nil => exact hexact
  | cons entry reaped ih =>
    refine ih ?_
    rw [Tick.recordReapedJob]
    split
    · exact hexact
    · exact rollupExact_recordQuiet hexact (quiet_failImage _ _) _

theorem rollupExact_tick (hexact : RollupExact db) (settings : Settings) (clock : Tick.Clock)
    (at_ : Timestamp) (due : List ImageId) :
    RollupExact (Tick.enqueueDue clock (Tick.afterReap settings clock at_ db) due) := by
  have hjobs := RollupExact.of_same hexact (sameFindings_withJobs db
    (Queue.reapExpiredLeases db.scanJob settings.maxAttempts at_).1) rfl
  exact RollupExact.of_same (rollupExact_recordReaped hjobs clock _) (sameFindings_withJobs _ _) rfl

/-- **A fenced step leaves every rollup right.** -/
theorem rollupExact_step (hs : Kept s) (hdb : WellFormed s.db) (hexact : RollupExact s.db)
    {e : Timestamp × Event} (hf : Fenced s e) (h : Lifecycle.step settings s e = some s') :
    RollupExact s'.db := by
  have hdatabase : RollupExact s.database :=
    RollupExact.of_same hexact (sameFindings_withJobs s.db s.queue.jobs) rfl
  cases Lifecycle.step_cases hs.fencing hf h with
  | requestScan | claim | load | abandon => exact hexact
  | report hfenced hreports =>
    rw [hreports.state]
    have hwf : WellFormed s.database :=
      (sameFindings_withJobs s.db s.queue.jobs).wellFormed hdb hdb.namesRank
    refine rollupExact_commitReport hwf hdatabase (fun image himage => ?_) hreports.commits
    exact hs.objects _ _ image hreports.holds (hfenced _ hreports.holds) himage
  | tick hticks =>
    rw [hticks.state]
    exact rollupExact_tick hdatabase settings _ _ _
  | rollback working =>
    exact RollupExact.of_same hexact (sameFindings_restore s.db working) rfl

/-- In a fenced run every rollup is right in every state. -/
theorem rollupExact_of_reaches (hdb : db.Unscanned) {clock : Timestamp}
    (hrun : Reaches (Lifecycle.step settings) Fenced (State.start db clock) s) :
    RollupExact s.database := by
  have hall : Kept s ∧ (∃ log, Shown (Api.references db) s log) ∧ RollupExact s.db :=
    hrun.invariant
      (I := fun s => Kept s ∧ (∃ log, Shown (Api.references db) s log) ∧ RollupExact s.db)
      (fun s e s' hs hf h =>
        ⟨hs.1.step hf h, hs.2.1.elim fun log hshown => ⟨_, hshown.step h⟩,
          hs.2.1.elim fun log hshown =>
            rollupExact_step hs.1 hshown.represents.wellFormed hs.2.2 hf h⟩)
      ⟨Lifecycle.kept_start db clock, ⟨[], shown_start hdb clock⟩, rollupExact_of_unscanned hdb⟩
  exact RollupExact.of_same hall.2.2 (sameFindings_withJobs s.db s.queue.jobs) rfl

end Catalogue

end ContainerScanner
