import ContainerScanner.Lifecycle.Invariant
import ContainerScanner.Scanner.Backpressure

/-!
# A worker alone

`run_once`, statement by statement, against what the machine takes for one: with nobody else at work
in the meantime, whatever its statements run into and whatever the registry and Trivy answer, it
leaves the tables as a run of the machine leaves them. What holds of the reachable states holds of
what a worker stores.

## Main results

* `execute_ok` — what `_execute` stores when it returns
* `claim_step`, `report_step` — the machine's steps for the first and the last transaction
* `runOnce_simulated` — the machine does what `run_once` does
-/

namespace ContainerScanner

open Foundation

namespace Lifecycle

open Queue (Jobs)
open RunOnce (Objects Raised Env Candidate)
open Workers (WorkerId Held)

variable {settings : Settings} {env : Env} {candidate : Candidate} {jobId : JobId}
  {db db' : Db} {job : ScanJob} {image : Image} {session session' : Session Db Objects Raised}

/-! ### What `_execute` stores -/

/-- The tables when a job is completed over `db`, where its row is `job`. -/
def completed (db : Db) (jobId : JobId) (job : ScanJob) : Db :=
  { db with scanJob := db.scanJob.update jobId (Queue.flush job (Queue.complete job)) }

theorem commitJob_ok {objects : Objects}
    (hs : At db db' objects session) (hjob : objects.job = job) (hloaded : objects.loadedJob = job)
    (h : (do statement (RunOnce.setJob Queue.complete); RunOnce.commitJob jobId :
      RunOnce.Program Unit) session = .ok () session') :
    session'.stored = completed db' jobId job := by
  obtain ⟨t, ht, h⟩ := hs.statement_bind h
  obtain ⟨u, hu, h⟩ := ht.statement_bind h
  rw [(hu.commit h).stored]
  simp only [RunOnce.flushJob, RunOnce.setJob, hjob, hloaded]
  rfl

theorem recordSkip_ok {i : ImageId} {metadata : Persist.RunMetadata}
    (hs : At db db ⟨job, job, some image⟩ session)
    (h : RunOnce.recordSkip jobId i metadata session = .ok () session') :
    At db (recordSkip db i image jobId metadata)
      ⟨job, job, some (Persist.skipImage metadata image)⟩ session' := by
  obtain ⟨t, ht, h⟩ := hs.statement_bind h
  exact (ht.statement h).2

theorem recordSuccess_ok {i : ImageId} {report : ParsedReport} {metadata : Persist.RunMetadata}
    (hs : At db db ⟨job, job, some image⟩ session)
    (h : RunOnce.recordSuccess jobId i image report metadata session = .ok () session') :
    At db (recordSuccess db i image jobId report metadata)
      ⟨job, job, some (Persist.pointTo db.scanRun.next metadata image)⟩ session' := by
  obtain ⟨_, hs, h⟩ := hs.statement_bind h
  obtain ⟨_, hs, h⟩ := hs.statement_bind h
  obtain ⟨_, hs, h⟩ := hs.statement_bind h
  obtain ⟨_, hs, h⟩ := hs.statement_bind h
  obtain ⟨_, hs, h⟩ := hs.statement_bind h
  obtain ⟨_, hs, h⟩ := hs.statement_bind h
  obtain ⟨_, hs, h⟩ := hs.statement_bind h
  obtain ⟨_, hs, h⟩ := hs.statement_bind h
  exact (hs.statement h).2

/-- What `_execute` stores when it returns: the image was skipped, or scanned. -/
theorem execute_ok (hs : At db db ⟨job, job, none⟩ session)
    (himage : db.image.get? job.imageId = some image)
    (h : RunOnce.execute env jobId session = .ok () session') :
    (∃ metadata, session'.stored =
        completed (recordSkip db job.imageId image jobId metadata) jobId job) ∨
      ∃ (report : AcceptedReport) (metadata : Persist.RunMetadata), session'.stored =
        completed (recordSuccess db job.imageId image jobId report.report metadata) jobId job := by
  have hget : RunOnce.getImage db ⟨job, job, none⟩ =
      (some (job.imageId, image), db, ⟨job, job, some image⟩) := by
    simp [RunOnce.getImage, himage]
  obtain ⟨_, hs, h⟩ := hs.statement_bind h
  rw [hget] at hs h
  obtain ⟨versions, -, h⟩ := of_consult_bind_eq_ok h
  obtain ⟨_, hs, h⟩ := hs.statement_bind h
  obtain ⟨_, hs, h⟩ := hs.commit_bind h
  obtain ⟨digest, -, h⟩ := of_consult_bind_eq_ok h
  dsimp only at h
  split at h
  · obtain ⟨_, _, hskip, h⟩ := of_bind_eq_ok h
    exact Or.inl ⟨_, commitJob_ok (recordSkip_ok hs hskip) rfl rfl h⟩
  · obtain ⟨raw, -, h⟩ := of_consult_bind_eq_ok h
    obtain ⟨report, hparse, h⟩ := of_consult_bind_eq_ok h
    obtain ⟨_, _, hsuccess, h⟩ := of_bind_eq_ok h
    have hparsed : parseReport env.loads raw = .ok report := by
      rw [Env.parseReport] at hparse
      cases hraw : parseReport env.loads raw with
      | ok parsed =>
        rw [hraw] at hparse
        cases hparse
        rfl
      | error e =>
        rw [hraw] at hparse
        cases hparse
    exact Or.inr ⟨⟨report, env.loads, raw, hparsed⟩, _,
      commitJob_ok (recordSuccess_ok hs hsuccess) rfl rfl h⟩

/-! ### The machine's steps -/

variable {s : State} {w : WorkerId} {held : Held} {at_ : Timestamp} {report : Report}

/-- The worker holds a job as it is stored, over these tables, and the reaper has not come by. -/
structure Holds (s : State) (w : WorkerId) (held : Held) (db : Db) : Prop where
  database : s.database = db
  holds : s.queue.held w = some held
  row : db.scanJob.get? held.job = some held.loaded
  running : held.loaded.status = .running
  live : held.claim ∉ s.queue.reaped

theorem Holds.rollback (h : Holds s w held db) (working : Db) :
    Holds (s.rollback working) w held (RunOnce.restore db working) where
  database := by
    rw [← h.database]
    rfl
  holds := h.holds
  row := h.row
  running := h.running
  live := h.live

/-- The first transaction. -/
theorem claim_step (hs : Kept s) (hidle : s.queue.held w = none)
    (hclock : s.queue.clock ≤ candidate.dbNow)
    (hclaim : RunOnce.Claims settings candidate s.database job db') :
    ∃ s₁, StepWhere (step settings) Fenced s s₁ ∧
      Holds s₁ w ⟨candidate.jobId, job, s.queue.nextClaim⟩ db' ∧ s₁.images w = none ∧
      s₁.queue.clock = candidate.dbNow := by
  obtain ⟨jobs, hjobs, rfl⟩ := id hclaim
  let event : Event := .claim w candidate.jobId candidate.locked candidate.now
  have hqueue : ∃ queue, Workers.stepAt settings s.queue candidate.dbNow
      (.claim w candidate.jobId candidate.locked candidate.now) = some queue ∧
      queue.jobs = jobs ∧
      queue.held = Function.update s.queue.held w
        (some ⟨candidate.jobId, job, s.queue.nextClaim⟩) ∧
      queue.reaped = s.queue.reaped ∧ queue.clock = candidate.dbNow := by
    simp only [Workers.stepAt, if_pos hidle]
    split
    · next hnone =>
      have hnone : Queue.claimJob s.database.scanJob candidate.locked candidate.dbNow candidate.now
        settings.leaseSeconds candidate.jobId = none := hnone
      rw [hjobs] at hnone
      cases hnone
    · next hsome =>
      obtain ⟨rfl, rfl⟩ := Prod.mk.inj (Option.some.inj (hsome.symm.trans hjobs))
      exact ⟨_, rfl, rfl, rfl, rfl, rfl⟩
  obtain ⟨queue, hqueue, hrows, hheld, hreaped, hclock'⟩ := hqueue
  refine ⟨s.advance queue s.db (Function.update s.images w none),
    ⟨(candidate.dbNow, event), (fun _ hnone => by cases hnone), ?_⟩, ⟨?_, ?_, hclaim.get?,
      hclaim.status, ?_⟩, Function.update_self _ _ _, hclock'⟩
  · rw [step, if_neg (not_lt.mpr hclock)]
    show (Workers.stepAt settings s.queue candidate.dbNow _).map _ = _
    rw [hqueue]
    rfl
  · show { s.db with scanJob := queue.jobs } = _
    rw [hrows]
    rfl
  · show queue.held w = _
    rw [hheld, Function.update_self]
  · intro hmem
    have hmem : s.queue.nextClaim ∈ queue.reaped := hmem
    rw [hreaped] at hmem
    exact Nat.lt_irrefl _ (hs.fencing.outcomes_lt _ (hs.fencing.reaped_subset hmem))

/-- The last transaction. -/
theorem report_step (h : Holds s w held db) (hclock : s.queue.clock ≤ at_)
    (hcommits : commitReport settings db held (s.images w) report = some db') :
    ∃ s₁, StepWhere (step settings) Fenced s s₁ ∧ s₁.database =
      { db' with scanJob := Workers.reportJobs settings db.scanJob held report.outcome } := by
  obtain rfl := h.database
  have hrow : s.queue.jobs.get? held.job = some held.loaded := h.row
  have hunique : Queue.UniqueActive
      (Workers.reportJobs settings s.queue.jobs held report.outcome) :=
    Workers.uniqueActive_reportJobs s.queue.uniqueActive hrow h.running _
  have hfenced : Fenced s (at_, .report w report) := by
    intro held' hheld'
    have hsame : held' = held := Option.some.inj (hheld'.symm.trans h.holds)
    rw [hsame]
    exact h.live
  have hqueue : ∃ queue, Workers.stepAt settings s.queue at_ (.report w report.outcome) =
      some queue ∧ queue.jobs = Workers.reportJobs settings s.queue.jobs held report.outcome := by
    simp only [Workers.stepAt, h.holds, dif_pos hunique]
    exact ⟨_, rfl, rfl⟩
  obtain ⟨queue, hqueue, hrows⟩ := hqueue
  refine ⟨s.advance queue db' (Function.update s.images w none),
    ⟨(at_, .report w report), hfenced, ?_⟩, ?_⟩
  · rw [step, if_neg (not_lt.mpr hclock)]
    simp only [stepAt, h.holds, hcommits, Option.bind_some, hqueue, Option.map_some,
      if_pos hunique]
  · show { db' with scanJob := queue.jobs } = _
    rw [hrows]
    rfl

/-- The row of a job is written from the object, as the worker holds it. -/
theorem reportJobs_of_not_refreshed {outcome : Workers.Outcome} (h : outcome.refreshed = false)
    (jobs : Jobs) (held : Held) : Workers.reportJobs settings jobs held outcome =
      jobs.update held.job
        (Queue.flush held.loaded (outcome.change settings held.loaded)) := by
  rw [Workers.reportJobs]
  simp only [h, Bool.false_eq_true, if_false]

/-- The worker loads its image, and completes its job. -/
theorem completed_reached (h : Holds s w held db) (hclock : s.queue.clock ≤ at_)
    (hidle : s.images w = none) (himage : db.image.get? held.loaded.imageId = some image)
    (hcomplete : report.outcome = .complete)
    (hcommits : commitReport settings db held (some image) report = some db')
    (hjobs : db'.scanJob = db.scanJob) :
    ∃ t, Reaches (step settings) Fenced s t ∧ t.database = completed db' held.job held.loaded := by
  let loaded : State := { s with images := Function.update s.images w (some image) }
  have hload : StepWhere (step settings) Fenced s loaded := by
    refine ⟨(at_, .load w), (fun _ hnone => by cases hnone), ?_⟩
    have hrow : s.db.image.get? held.loaded.imageId = some image := by
      rw [← h.database] at himage
      exact himage
    rw [step, if_neg (not_lt.mpr hclock)]
    simp only [stepAt, h.holds, hidle, hrow, Option.map_some]
    rfl
  have hholds : Holds loaded w held db := ⟨h.database, h.holds, h.row, h.running, h.live⟩
  have hobject : loaded.images w = some image := Function.update_self _ _ _
  rw [← hobject] at hcommits
  obtain ⟨t, hreport, hdb⟩ := report_step hholds hclock hcommits
  refine ⟨t, Relation.ReflTransGen.head hload (Relation.ReflTransGen.single hreport), ?_⟩
  rw [hdb, hcomplete, reportJobs_of_not_refreshed rfl, completed, hjobs]
  rfl

/-- A rollback, with nobody else at work. -/
theorem rollback_step (hclock : s.queue.clock ≤ at_) (working : Db) :
    StepWhere (step settings) Fenced s (s.rollback working) := by
  refine ⟨(at_, .rollback working), (fun _ hnone => by cases hnone), ?_⟩
  rw [step, if_neg (not_lt.mpr hclock)]
  rfl

/-- The worker reports after a rollback, without having loaded its image. -/
theorem reported_reached (h : Holds s w held db) (hclock : s.queue.clock ≤ at_)
    (hidle : s.images w = none) {working : Db} (hrefreshed : report.outcome.refreshed = false)
    (hcommits : commitReport settings (RunOnce.restore db working) held none report = some db') :
    ∃ t, Reaches (step settings) Fenced s t ∧ t.database =
      { db' with
        scanJob := (RunOnce.restore db working).scanJob.update held.job
          (Queue.flush held.loaded (report.outcome.change settings held.loaded)) } := by
  have hobject : (s.rollback working).images w = none := hidle
  rw [← hobject] at hcommits
  obtain ⟨t, hreport, hdb⟩ := report_step (h.rollback working) hclock hcommits
  refine ⟨t, Relation.ReflTransGen.head (rollback_step hclock working)
    (Relation.ReflTransGen.single hreport), ?_⟩
  rw [hdb, reportJobs_of_not_refreshed hrefreshed]

/-- A handler that raises has rolled back. -/
theorem raised_reached (h : Holds s w held db) (hclock : s.queue.clock ≤ at_) {working : Db}
    (hstored : session.stored = RunOnce.restore db working) :
    ∃ t, Reaches (step settings) Fenced s t ∧ t.database = session.stored :=
  ⟨s.rollback working, Relation.ReflTransGen.single (rollback_step hclock working),
    (h.rollback working).database.trans hstored.symm⟩

theorem deferForBackpressure_reached {error : Raised} {retryAfter : Option ℕ}
    (h : Holds s w held db) (hclock : s.queue.clock ≤ at_) (hidle : s.images w = none)
    (hundoable : Undoable (RunOnce.recovery held.job) db session) :
    ∃ t, Reaches (step settings) Fenced s t ∧ t.database =
      storedAfter ((do RunOnce.deferForBackpressure env held.job error retryAfter; return true :
        RunOnce.Program Bool) session) := by
  by_cases hdate : PyDatetime.Representable env.now (RunOnce.delayOf retryAfter)
  · obtain ⟨working, session', hok, hstored⟩ :=
      RunOnce.deferForBackpressure_eq error hundoable h.row hdate
    rw [bind_of_ok hok]
    let report : Report := .defer (RunOnce.delayOf retryAfter) error.describe false env.now
    have hcommits : commitReport settings (RunOnce.restore db working) held none report =
        some (RunOnce.restore db working) := rfl
    obtain ⟨t, hreaches, hdb⟩ := reported_reached h hclock hidle rfl hcommits
    exact ⟨t, hreaches, hdb.trans hstored.symm⟩
  · obtain ⟨working, e, session', herror, hstored⟩ :=
      RunOnce.deferForBackpressure_eq_error error hundoable h.row hdate
    rw [bind_of_error herror]
    exact raised_reached h hclock hstored

theorem recordFailure_reached {error : Raised} (h : Holds s w held db)
    (hclock : s.queue.clock ≤ at_) (hidle : s.images w = none)
    (himage : db.image.get? held.loaded.imageId = some image)
    (hundoable : Undoable (RunOnce.recovery held.job) db session) :
    ∃ t, Reaches (step settings) Fenced s t ∧ t.database =
      storedAfter ((do RunOnce.recordFailure env settings held.job error; return true :
        RunOnce.Program Bool) session) := by
  by_cases hdate : RunOnce.Schedulable env settings error held.loaded
  · obtain ⟨working, session', hok, hstored⟩ :=
      RunOnce.recordFailure_eq hundoable h.row himage hdate
    rw [bind_of_ok hok]
    let report : Report :=
      .fail error.describe error.permanent false env.now env.now env.now
    have hrow : (RunOnce.restore db working).image.get? held.loaded.imageId = some image := himage
    have hcommits : commitReport settings (RunOnce.restore db working) held none report =
        some (recordFailure (RunOnce.restore db working) held.loaded.imageId image held.job
          env.now env.now error.describe
          (decide ((report.outcome.change settings held.loaded).status = .failed))) := by
      simp only [commitReport, report, hrow]
      rfl
    obtain ⟨t, hreaches, hdb⟩ := reported_reached h hclock hidle rfl hcommits
    refine ⟨t, hreaches, hdb.trans ?_⟩
    show _ = session'.stored
    rw [hstored]
    rfl
  · obtain ⟨working, e, session', herror, hstored⟩ :=
      RunOnce.recordFailure_eq_error hundoable h.row himage hdate
    rw [bind_of_error herror]
    exact raised_reached h hclock hstored

/-- What `run_once` stores when its job is claimed. -/
theorem executed_reached (h : Holds s w held db) (hclock : s.queue.clock ≤ at_)
    (hidle : s.images w = none) (himage : db.image.get? held.loaded.imageId = some image)
    (faults : List (Option (Fault Db Objects Raised))) :
    ∃ t, Reaches (step settings) Fenced s t ∧ t.database =
      storedAfter ((do
          tryCatch (RunOnce.execute env held.job) (RunOnce.handle env settings held.job)
          return true : RunOnce.Program Bool)
        (RunOnce.idle db ⟨held.loaded, held.loaded, none⟩ faults)) := by
  have hat : At db db ⟨held.loaded, held.loaded, none⟩
      (RunOnce.idle db ⟨held.loaded, held.loaded, none⟩ faults) := ⟨rfl, rfl, rfl⟩
  cases hexecute : RunOnce.execute env held.job
      (RunOnce.idle db ⟨held.loaded, held.loaded, none⟩ faults) with
  | ok _ session =>
    rw [bind_of_ok (tryCatch_of_ok hexecute _)]
    show ∃ t, Reaches (step settings) Fenced s t ∧ t.database = session.stored
    obtain ⟨metadata, hstored⟩ | ⟨accepted, metadata, hstored⟩ := execute_ok hat himage hexecute
    · rw [hstored]
      have hcommits : commitReport settings db held (some image) (.skip metadata) =
          some (recordSkip db held.loaded.imageId image held.job metadata) := rfl
      exact completed_reached h hclock hidle himage rfl hcommits rfl
    · rw [hstored]
      have hcommits : commitReport settings db held (some image) (.success accepted metadata) =
          some (recordSuccess db held.loaded.imageId image held.job accepted.report metadata) :=
        rfl
      exact completed_reached h hclock hidle himage rfl hcommits rfl
  | error error session =>
    have hundoable : Undoable (RunOnce.recovery held.job) db session :=
      (RunOnce.ensures_execute env held.job db).of_error (RunOnce.clean_idle h.row) hexecute
    rw [tryCatch_bind_of_error hexecute, RunOnce.handle]
    cases error.throttled with
    | some retryAfter => exact deferForBackpressure_reached h hclock hidle hundoable
    | none => exact recordFailure_reached h hclock hidle himage hundoable

/-- **A worker alone.** Whatever `run_once` runs into, the tables it leaves are those of a state
that the machine reaches. -/
theorem runOnce_simulated (hs : Kept s) (hidle : s.queue.held w = none)
    (hclock : s.queue.clock ≤ candidate.dbNow) (env : Env) (objects : Objects)
    (faults : List (Option (Fault Db Objects Raised))) :
    ∃ t, Reaches (step settings) Fenced s t ∧ t.database =
      storedAfter (RunOnce.runOnce env settings candidate
        (RunOnce.idle s.database objects faults)) := by
  cases hclaim : Queue.claimJob s.database.scanJob candidate.locked candidate.dbNow candidate.now
      settings.leaseSeconds candidate.jobId with
  | none =>
    refine ⟨s, Reaches.refl s, ?_⟩
    rw [RunOnce.runOnce, perform_bind]
    simp only [RunOnce.idle, RunOnce.claim, hclaim]
    rfl
  | some claimed =>
    obtain ⟨jobs, job⟩ := claimed
    have hclaims : RunOnce.Claims settings candidate s.database job
        { s.database with scanJob := jobs } := ⟨jobs, hclaim, rfl⟩
    obtain ⟨s₁, hstep, hholds, hobject, hclock'⟩ := claim_step hs hidle hclock hclaims
    obtain ⟨row, hrow, -, -, -, rfl⟩ := Queue.claimJob_eq_some hclaim
    obtain ⟨image, himage⟩ := Dict.mem_keys_iff.mp (hs.placed _ _ hrow)
    obtain ⟨t, hreaches, hdb⟩ := executed_reached hholds hclock'.le hobject himage faults
    refine ⟨t, Relation.ReflTransGen.head hstep hreaches, ?_⟩
    rw [hdb, RunOnce.runOnce_claimed hclaims]

end Lifecycle

end ContainerScanner
