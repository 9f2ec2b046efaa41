import ContainerScanner.Catalogue.Represents
import ContainerScanner.Foundation.Journal
import ContainerScanner.Lifecycle.Machine

/-!
# The system maintains the catalogue

Every run of the whole system — scheduling passes, API requests, workers that claim, load, report,
die, roll back, or report long after their lease was reaped — publishes scans, and in every state
the tables say what these scans say. No fence is needed for this: a late worker writes the pointer
it means to write, because the number of its run is new, and finding rows are written by key. What
does need the fence is the rollup, because a late worker recomputes it for the CVEs its stale object
points at.

Transactions are the steps of the machine; what goes wrong between two of them that overlap is
the subject of `Concurrency`.

## Main definitions

* `published` — the scans a step of the system commits
* `catalogue` — the scans a run of the system commits
* `Shown` — the invariant: tables represent the scans, and objects are not from the future

## Main results

* `represents_commitReport` — a worker's last transaction, on whatever object it holds
* `Shown.step` — every step keeps the invariant
* `shown_of_execute` — the tables represent the catalogue in every reachable state
-/

namespace ContainerScanner

open Foundation Persist

namespace Catalogue

open Lifecycle (State Event Report)
open Workers (WorkerId Held)

variable {db db' : Db} {log : Log} {i : ImageId} {settings : Settings}

/-! ### Stale objects -/

/-- A pointer that is not from the future is written over whatever the row has. -/
theorem flushImage_pointTo {loaded : Image} {r : RunId}
    (h : loaded.currentScanRunId ≠ some r) (m : RunMetadata) (row : Image) :
    (RunOnce.flushImage loaded (pointTo r m loaded) row).currentScanRunId = some r := by
  show Queue.flushColumn loaded.currentScanRunId (some r) row.currentScanRunId = some r
  rw [Queue.flushColumn, if_neg (Ne.symm h)]

/-- A flush of columns that a quiet change leaves alone leaves them alone. -/
theorem quiet_flushImage {f : Image → Image} (hf : Quiet f) (loaded : Image) :
    Quiet (RunOnce.flushImage loaded (f loaded)) where
  pointer := fun _ => if_pos (hf.pointer loaded)
  name := fun _ => if_pos (hf.name loaded)
  tag := fun _ => if_pos (hf.tag loaded)

/-- A change of an image that renames nothing. -/
theorem references_update {f : Image → Image} (hname : ∀ image, (f image).name = image.name)
    (htag : ∀ image, (f image).tag = image.tag) (himage : db'.image = db.image.update i f) :
    Api.references db' = Api.references db := by
  rw [Api.references, himage]
  refine Dict.map_update (fun image => ?_) db.image
  rw [hname, htag]

theorem references_recordQuiet {f : Image → Image} (hf : Quiet f) (db : Db) (i : ImageId)
    (run : ScanRun) : Api.references (recordQuiet db i run f) = Api.references db :=
  references_update hf.name hf.tag rfl

/-- Two quiet changes of the row beside the same run. -/
theorem sameFindings_recordQuiet {f g : Image → Image} (hf : Quiet f) (hg : Quiet g) (db : Db)
    (i : ImageId) (run : ScanRun) :
    SameFindings (recordQuiet db i run f) (recordQuiet db i run g) where
  finding := rfl
  scanRun := fun _ => rfl
  package := fun _ => rfl
  pointer := fun j =>
    (currentScanRunId_recordQuiet hg db i run j).trans
      (currentScanRunId_recordQuiet hf db i run j).symm
  references :=
    (references_recordQuiet hg db i run).trans (references_recordQuiet hf db i run).symm
  described := fun _ => rfl
  runs_le := le_rfl
  packages_le := le_rfl

/-- A success on a stale object says of findings what it says on the row. -/
theorem sameFindings_recordSuccess {loaded row : Image} (hrow : db.image.get? i = some row)
    (hold : loaded.currentScanRunId ≠ some db.scanRun.next) (job : JobId) (report : ParsedReport)
    (m : RunMetadata) : SameFindings (Persist.recordSuccess db i row (some job) report m)
      (Lifecycle.recordSuccess db i loaded job report m) where
  finding := rfl
  scanRun := fun _ => rfl
  package := fun _ => rfl
  pointer := by
    intro j
    have himage : (Lifecycle.recordSuccess db i loaded job report m).image =
        db.image.update i (RunOnce.flushImage loaded (pointTo db.scanRun.next m loaded)) := rfl
    rw [get?_image_recordSuccess hrow, himage, Dict.get?_update]
    by_cases hj : j = i
    · rw [if_pos hj, if_pos hj, hrow, Option.map_some, Option.map_some, Option.map_some,
        flushImage_pointTo hold]
      rfl
    · rw [if_neg hj, if_neg hj]
  references := by
    have hfresh : Api.references (Persist.recordSuccess db i row (some job) report m) =
        Api.references db :=
      references_update (f := pointTo db.scanRun.next m) (fun _ => rfl) (fun _ => rfl)
        image_recordSuccess
    rw [hfresh]
    exact references_update (fun _ => if_pos rfl) (fun _ => if_pos rfl) rfl
  described := by
    intro c
    rw [Lifecycle.recordSuccess, Persist.recordSuccess, described_recomputeCveRollup,
      described_recomputeCveRollup]
  runs_le := le_rfl
  packages_le := le_rfl

theorem namesRank_recomputeCveRollup (h : ∀ c cve, db.cve.get? c = some cve → NamesRank cve)
    (cs : List CveId) :
    ∀ c cve, (recomputeCveRollup db cs).cve.get? c = some cve → NamesRank cve := by
  intro c cve hc
  rw [get?_cve_recomputeCveRollup] at hc
  split at hc
  · obtain ⟨old, hold, rfl⟩ := Option.map_eq_some_iff.mp hc
    exact (h c old hold).applyRollup
  · exact h c cve hc

/-- A success on a stale object leaves names and ranks in agreement. -/
theorem namesRank_recordSuccess (h : ∀ c cve, db.cve.get? c = some cve → NamesRank cve)
    (loaded : Image) (job : JobId) (report : ParsedReport) (m : RunMetadata) :
    ∀ c cve, (Lifecycle.recordSuccess db i loaded job report m).cve.get? c = some cve →
      NamesRank cve := by
  refine namesRank_recomputeCveRollup (fun c cve hc => ?_) _
  have hwritten : (db.cve.upsertAll upsertCve (cveRows report.findings).entries).get? c =
      some cve := hc
  rw [get?_upsertRows upsertCve db report c] at hwritten
  split at hwritten
  · rw [← Option.some.inj hwritten]
    exact NamesRank.upsertCve fun old hold => h c old hold
  · exact h c cve hwritten

/-! ### Transactions -/

/-- What no transaction takes back: images stay registered under their references, and the numbers
of runs go up. -/
structure Grows (db db' : Db) : Prop where
  references : Api.references db' = Api.references db
  next : db.scanRun.next ≤ db'.scanRun.next

theorem Grows.refl (db : Db) : Grows db db := ⟨rfl, le_rfl⟩

theorem Grows.trans {db'' : Db} (h : Grows db db') (h' : Grows db' db'') : Grows db db'' :=
  ⟨h'.references.trans h.references, h.next.trans h'.next⟩

theorem Grows.image (h : Grows db db') (hi : (db.image.get? i).isSome) :
    (db'.image.get? i).isSome := by
  have hkeys : db'.image.keys = db.image.keys := by
    have hids := congrArg (List.map Prod.fst) h.references
    simpa [Api.references, Dict.keys, Function.comp_def] using hids
  rw [Option.isSome_iff_exists, ← Dict.mem_keys_iff] at hi ⊢
  rw [hkeys]
  exact hi

theorem SameFindings.grows (h : SameFindings db db') : Grows db db' := ⟨h.references, h.runs_le⟩

theorem grows_commit (db : Db) (call : Call) : Grows db (call.commit db) :=
  ⟨Api.references_commit db call, (next_commit db call).1⟩

theorem commit_skip {row : Image} (hi : db.image.get? i = some row) (job : Option JobId)
    (m : RunMetadata) : (Call.skip i job m).commit db =
      recordQuiet db i (newRun i job .skipped m none) (skipImage m) := by
  have hget : db.image.get? (Call.skip i job m).imageId = some row := hi
  rw [Call.commit, hget]
  rfl

theorem commit_failure {row : Image} (hi : db.image.get? i = some row) (job : Option JobId)
    (m : RunMetadata) (error : String) (exhausted : Bool) :
    (Call.failure i job m error exhausted).commit db =
      recordQuiet db i (newRun i job .failed m (some (PyStr.truncate 4000 error)))
        (failImage m exhausted) := by
  have hget : db.image.get? (Call.failure i job m error exhausted).imageId = some row := hi
  rw [Call.commit, hget]
  rfl

/-- A call that publishes nothing, with another quiet change of its image. -/
theorem represents_quiet (h : Represents db log) {call : Call} {run : ScanRun}
    {f g : Image → Image} (hpublished : publishedBy db call = [])
    (hcommit : call.commit db = recordQuiet db i run f) (hf : Quiet f) (hg : Quiet g) :
    Represents (recordQuiet db i run g) log ∧ Grows db (recordQuiet db i run g) := by
  have hcommitted := h.commit call
  have hgrows := grows_commit db call
  rw [hpublished, List.append_nil] at hcommitted
  rw [hcommit] at hcommitted hgrows
  have hsame := sameFindings_recordQuiet hf hg db i run
  exact ⟨hcommitted.of_same hsame h.wellFormed.namesRank, hgrows.trans hsame.grows⟩

/-- What a worker's report publishes. -/
def publishedReport (db : Db) (i : ImageId) : Report → Log
  | .success report metadata => [(db.scanRun.next, ⟨i, report, metadata⟩)]
  | _ => []

/-- **A worker's last transaction**, on whatever object it holds: the object need not be the row,
but it was a row once. -/
theorem represents_commitReport (h : Represents db log) {held : Held} {loaded : Option Image}
    {report : Report}
    (hrow : ∀ image ∈ loaded, (db.image.get? held.loaded.imageId).isSome)
    (hold : ∀ image ∈ loaded, ∀ r, image.currentScanRunId = some r → r < db.scanRun.next)
    (hcommit : Lifecycle.commitReport settings db held loaded report = some db') :
    Represents db' (log ++ publishedReport db held.loaded.imageId report) ∧ Grows db db' := by
  cases report with
  | success report m =>
    obtain ⟨image, hloaded, rfl⟩ := Option.map_eq_some_iff.mp hcommit
    obtain ⟨row, hi⟩ := Option.isSome_iff_exists.mp (hrow image hloaded)
    have hne : image.currentScanRunId ≠ some db.scanRun.next :=
      fun heq => lt_irrefl _ (hold image hloaded _ heq)
    have hcommitted := h.commit (.success held.loaded.imageId (some held.job) report m)
    have hgrows := grows_commit db (.success held.loaded.imageId (some held.job) report m)
    rw [Api.commit_success hi] at hcommitted hgrows
    rw [publishedBy, if_pos (by rw [hi]; rfl)] at hcommitted
    have hsame := sameFindings_recordSuccess hi hne held.job report.report m
    exact ⟨hcommitted.of_same hsame (namesRank_recordSuccess h.wellFormed.namesRank _ _ _ _),
      hgrows.trans hsame.grows⟩
  | skip m =>
    obtain ⟨image, hloaded, rfl⟩ := Option.map_eq_some_iff.mp hcommit
    obtain ⟨row, hi⟩ := Option.isSome_iff_exists.mp (hrow image hloaded)
    show Represents _ (log ++ []) ∧ _
    rw [List.append_nil]
    exact represents_quiet h rfl (commit_skip hi (some held.job) m) (quiet_skipImage m)
      (quiet_flushImage (quiet_skipImage m) image)
  | fail error permanent refreshed now startedAt completedAt =>
    show Represents _ (log ++ []) ∧ _
    rw [List.append_nil]
    simp only [Lifecycle.commitReport] at hcommit
    split at hcommit
    · obtain rfl := Option.some.inj hcommit
      exact ⟨h, Grows.refl db⟩
    · next image hobject =>
      obtain rfl := Option.some.inj hcommit
      have hsome : (db.image.get? held.loaded.imageId).isSome := by
        obtain hloaded | ⟨-, hloaded⟩ := Option.or_eq_some_iff.mp hobject
        · refine hrow image ?_
          cases refreshed with
          | true => cases hloaded
          | false => exact hloaded
        · rw [hloaded]
          rfl
      obtain ⟨row, hi⟩ := Option.isSome_iff_exists.mp hsome
      -- whether the job is exhausted makes no difference to the findings
      exact represents_quiet h rfl (commit_failure hi (some held.job) _ error true)
        (quiet_failImage _ _) (quiet_flushImage (quiet_failImage _ _) image)
  | defer delaySeconds reason refreshed now =>
    obtain rfl := Option.some.inj hcommit
    show Represents db (log ++ []) ∧ _
    rw [List.append_nil]
    exact ⟨h, Grows.refl db⟩

/-- The failures that a scheduling pass records publish nothing. -/
theorem represents_recordReaped (h : Represents db log) (clock : Tick.Clock)
    (reaped : List Queue.ReapedJob) : Represents (Tick.recordReaped clock db reaped) log ∧
      Grows db (Tick.recordReaped clock db reaped) := by
  induction reaped generalizing db with
  | nil => exact ⟨h, Grows.refl db⟩
  | cons entry reaped ih =>
    have hentry : Represents (Tick.recordReapedJob clock db entry) log ∧
        Grows db (Tick.recordReapedJob clock db entry) := by
      cases hi : db.image.get? entry.imageId with
      | none =>
        have hsame : Tick.recordReapedJob clock db entry = db := by
          rw [Tick.recordReapedJob, hi]
        rw [hsame]
        exact ⟨h, Grows.refl db⟩
      | some row =>
        have hquiet := quiet_failImage (Worker.failedMetadata (clock.recorded entry.jobId)
          (clock.recorded entry.jobId)) entry.exhausted
        rw [Tick.recordReapedJob_of_some hi]
        exact represents_quiet h rfl (commit_failure hi (some entry.jobId) _
          Queue.leaseExpiredError entry.exhausted) hquiet hquiet
    obtain ⟨hrest, hgrows⟩ := ih hentry.1
    exact ⟨hrest, hentry.2.trans hgrows⟩

/-- The queue says nothing about scans. -/
theorem sameFindings_withJobs (db : Db) (jobs : Queue.Jobs) :
    SameFindings db { db with scanJob := jobs } :=
  ⟨rfl, fun _ => rfl, fun _ => rfl, fun _ => rfl, rfl, fun _ => rfl, le_rfl, le_rfl⟩

theorem represents_tick (h : Represents db log) (settings : Settings) (clock : Tick.Clock)
    (at_ : Timestamp) (due : List ImageId) :
    Represents (Tick.enqueueDue clock (Tick.afterReap settings clock at_ db) due) log ∧
      Grows db (Tick.enqueueDue clock (Tick.afterReap settings clock at_ db) due) := by
  have hjobs := sameFindings_withJobs db
    (Queue.reapExpiredLeases db.scanJob settings.maxAttempts at_).1
  obtain ⟨hrecorded, hgrows⟩ := represents_recordReaped
    (h.of_same hjobs h.wellFormed.namesRank) clock
    (Queue.reapExpiredLeases db.scanJob settings.maxAttempts at_).2
  exact ⟨hrecorded.of_same (sameFindings_withJobs _ _) hrecorded.wellFormed.namesRank,
    hjobs.grows.trans (hgrows.trans (sameFindings_withJobs _ _).grows)⟩

theorem sameFindings_restore (db working : Db) : SameFindings db (RunOnce.restore db working) :=
  ⟨rfl, fun _ => rfl, fun _ => rfl, fun _ => rfl, rfl, fun _ => rfl,
    Serial.next_le_advance _ _, le_max_left _ _⟩

/-! ### Steps -/

/-- What a step of the system publishes: a report that is committed does. -/
def published (settings : Settings) (s : State) : Timestamp × Event → Log
  | (_, .report w report) =>
    match s.queue.held w with
    | none => []
    | some held =>
      if Queue.UniqueActive (Workers.reportJobs settings s.queue.jobs held report.outcome) then
        publishedReport s.db held.loaded.imageId report
      else []
  | _ => []

/-- The scans that a run of the system publishes. -/
def catalogue (settings : Settings) (s : State) (es : List (Timestamp × Event)) : List Scan :=
  (journal (Lifecycle.step settings) (published settings) s es).map Prod.snd

/-- **The invariant.** An object of a worker is of an image there is, and its pointer is not from
the future. -/
structure Shown (registered : List (ImageId × String × String)) (s : State) (log : Log) :
    Prop where
  represents : Represents s.db log
  references : Api.references s.db = registered
  row : ∀ w image, s.images w = some image →
    ∃ held, s.queue.held w = some held ∧ (s.db.image.get? held.loaded.imageId).isSome
  older : ∀ w image r, s.images w = some image → image.currentScanRunId = some r →
    r < s.db.scanRun.next

variable {s s' : State} {registered : List (ImageId × String × String)}

/-- A transaction of somebody: objects stay, or are dropped. -/
theorem Shown.of_grows {log' : Log} (h : Shown registered s log) (hdb : Represents s'.db log')
    (hgrows : Grows s.db s'.db)
    (hobjects : ∀ w image, s'.images w = some image →
      s.images w = some image ∧ s'.queue.held w = s.queue.held w) : Shown registered s' log' where
  represents := hdb
  references := hgrows.references.trans h.references
  row := by
    intro w image himage
    obtain ⟨hold, hheld⟩ := hobjects w image himage
    obtain ⟨held, hholds, hsome⟩ := h.row w image hold
    exact ⟨held, hheld.trans hholds, hgrows.image hsome⟩
  older := by
    intro w image r himage hr
    exact lt_of_lt_of_le (h.older w image r (hobjects w image himage).1 hr) hgrows.next

/-- A transaction that leaves everything but the queue alone. -/
theorem Shown.of_queue (h : Shown registered s log) {queue : Workers.State}
    {images : WorkerId → Option Image}
    (hobjects : ∀ w image, images w = some image →
      s.images w = some image ∧ queue.held w = s.queue.held w) :
    Shown registered (s.advance queue s.db images) log :=
  h.of_grows h.represents (Grows.refl s.db) hobjects

theorem Shown.database (h : Shown registered s log) : Represents s.database log :=
  h.represents.of_same (sameFindings_withJobs s.db s.queue.jobs) h.represents.wellFormed.namesRank

/-- Dropping the object of a worker whose job changes. -/
theorem of_update_none {images : WorkerId → Option Image} {held held' : WorkerId → Option Held}
    {w : WorkerId} {x : Option Held} (hheld : held' = Function.update held w x) :
    ∀ w' image, Function.update images w none w' = some image →
      images w' = some image ∧ held' w' = held w' := by
  intro w' image himage
  obtain ⟨hne, hold⟩ := update_none_eq_some.mp himage
  rw [hheld, Function.update_of_ne hne]
  exact ⟨hold, rfl⟩

theorem Shown.of_load (h : Shown registered s log) {w : WorkerId} {held : Held} {image : Image}
    (hheld : s.queue.held w = some held)
    (hrow : s.db.image.get? held.loaded.imageId = some image) :
    Shown registered { s with images := Function.update s.images w (some image) } log where
  represents := h.represents
  references := h.references
  row := by
    intro w' image' himage'
    obtain ⟨rfl, rfl⟩ | ⟨-, hold⟩ := update_some_eq_some.mp himage'
    · exact ⟨held, hheld, by rw [hrow]; rfl⟩
    · exact h.row w' image' hold
  older := by
    intro w' image' r himage' hr
    obtain ⟨-, rfl⟩ | ⟨-, hold⟩ := update_some_eq_some.mp himage'
    · exact h.represents.wellFormed.pointer_lt hrow hr
    · exact h.older w' image' r hold hr

/-- A worker's report, late or not. -/
theorem Shown.of_report (h : Shown registered s log) {w : WorkerId} {report : Report}
    {at_ : Timestamp}
    (hstep : Lifecycle.stepAt settings s at_ (.report w report) = some s') :
    Shown registered s' (log ++ published settings s (at_, .report w report)) := by
  obtain ⟨held, db, queue, hheld, hcommit, hqueue, rfl⟩ := Lifecycle.stepAt_report hstep
  obtain ⟨-, -, hidle, -⟩ := Workers.stepAt_report hqueue
  have hobjects : ∀ w' image, Function.update s.images w none w' = some image →
      s.images w' = some image ∧ queue.held w' = s.queue.held w' := of_update_none hidle
  rw [published, hheld]
  by_cases hu : Queue.UniqueActive
      (Workers.reportJobs settings s.queue.jobs held report.outcome)
  · have hcommitted : Represents db
        (log ++ publishedReport s.database held.loaded.imageId report) ∧
          Grows s.database db := by
      refine represents_commitReport h.database (fun image himage => ?_)
        (fun image himage r hr => ?_) hcommit
      · obtain ⟨held', hheld', hsome⟩ := h.row w image himage
        rw [← Option.some.inj (hheld'.symm.trans hheld)]
        exact hsome
      · exact h.older w image r himage hr
    rw [if_pos hu]
    simp only [if_pos hu]
    exact h.of_grows hcommitted.1 ((sameFindings_withJobs _ _).grows.trans hcommitted.2) hobjects
  · rw [if_neg hu]
    simp only [if_neg hu, List.append_nil]
    exact h.of_queue hobjects

/-- **Every step of the system keeps the invariant**, with the scans it publishes. -/
theorem Shown.step (h : Shown registered s log) {e : Timestamp × Event}
    (hstep : Lifecycle.step settings s e = some s') :
    Shown registered s' (log ++ published settings s e) := by
  obtain ⟨at_, event⟩ := e
  have hstep : Lifecycle.stepAt settings s at_ event = some s' := Lifecycle.stepAt_of_step hstep
  cases event with
  | requestScan i timeSensitive now =>
    obtain ⟨-, queue, hqueue, rfl⟩ := Lifecycle.stepAt_requestScan hstep
    obtain rfl := Option.some.inj hqueue
    show Shown registered _ (log ++ [])
    rw [List.append_nil]
    exact h.of_queue fun w image himage => ⟨himage, rfl⟩
  | claim w j locked now =>
    obtain ⟨queue, hqueue, rfl⟩ := Option.map_eq_some_iff.mp hstep
    obtain ⟨-, job, -, -, -, -, hheld, -⟩ := Workers.stepAt_claim hqueue
    show Shown registered _ (log ++ [])
    rw [List.append_nil]
    exact h.of_queue (of_update_none hheld)
  | load w =>
    obtain ⟨held, image, hheld, hrow, rfl⟩ := Lifecycle.stepAt_load hstep
    show Shown registered _ (log ++ [])
    rw [List.append_nil]
    exact h.of_load hheld hrow
  | report w report => exact h.of_report hstep
  | tick clock =>
    obtain ⟨due, hticks, -⟩ := Lifecycle.tick_cases hstep
    show Shown registered _ (log ++ [])
    rw [List.append_nil]
    have himages : s'.images = s.images := (congrArg State.images hticks.state).trans rfl
    obtain ⟨hrepresents, hgrows⟩ := represents_tick h.database settings clock at_ due
    rw [← hticks.db] at hrepresents hgrows
    refine h.of_grows hrepresents ((sameFindings_withJobs _ _).grows.trans hgrows)
      fun w image himage => ?_
    rw [himages] at himage
    rw [hticks.held]
    exact ⟨himage, rfl⟩
  | abandon w =>
    simp only [Lifecycle.stepAt] at hstep
    obtain ⟨queue, hqueue, rfl⟩ := Option.map_eq_some_iff.mp hstep
    obtain rfl := Option.some.inj hqueue
    show Shown registered _ (log ++ [])
    rw [List.append_nil]
    exact h.of_queue (of_update_none rfl)
  | rollback working =>
    obtain rfl := Option.some.inj hstep
    show Shown registered _ (log ++ [])
    rw [List.append_nil]
    have hsame := sameFindings_restore s.db working
    exact h.of_grows (h.represents.of_same hsame h.represents.wellFormed.namesRank) hsame.grows
      fun w image himage => ⟨himage, rfl⟩

theorem shown_start (hdb : db.Unscanned) (clock : Timestamp) :
    Shown (Api.references db) (State.start db clock) [] where
  represents := represents_of_unscanned hdb
  references := rfl
  row := fun _ _ himage => by cases himage
  older := fun _ _ _ himage => by cases himage

/-- In every reachable state the tables represent what the run published. -/
theorem shown_of_execute (hdb : db.Unscanned) {clock : Timestamp} {es : List (Timestamp × Event)}
    (h : execute (Lifecycle.step settings) (State.start db clock) es = some s) :
    Shown (Api.references db) s
      (journal (Lifecycle.step settings) (published settings) (State.start db clock) es) :=
  journal_rule (R := Shown (Api.references db)) (fun _ _ _ _ hs hstep => hs.step hstep)
    (shown_start hdb clock) h

end Catalogue

end ContainerScanner
