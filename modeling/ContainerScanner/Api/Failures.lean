import ContainerScanner.Api.Stats
import ContainerScanner.Foundation.Breakdown
import ContainerScanner.Foundation.Journal
import ContainerScanner.Foundation.Substring
import ContainerScanner.Lifecycle.Columns

/-!
# What attempts died of

The failure breakdown of `GET /api/stats`. `persist` writes the error of a failed run as the name of
an exception and its message, and the endpoint takes the name out again with `split_part`. What the
reaper writes has no separator in it and is a reason of its own.

Against it stands the journal of a run of the whole system: of every attempt that failed, the class
of the exception it ended in, and of every attempt that was reaped, that it was.

## Main definitions

* `reasonOf`, `failureReasons` — what the endpoint groups by
* `Incident`, `play` — the events of the system, failures with their exception
* `endings` — what a step writes in the journal
* `Accounts` — a breakdown of what attempts ended in

## Main results

* `reasonOf_describe` — the class of an exception is read back from the error of its run
* `failures_account` — in every run the breakdown is that of the journal
-/

namespace ContainerScanner

open Foundation

/-! ### Reasons -/

namespace RunOnce.Raised

/-- `type(error).__name__`. Of the registry's other exceptions only this is kept. -/
def className : Raised → String
  | registry (.registryError _) => "RegistryError"
  | registry (.imageNotFound _) => "ImageNotFound"
  | registry (.rateLimited _ _) => "RateLimited"
  | registry (.httpError _) => "HTTPError"
  | registry (.other error) => error
  | trivyError _ => "TrivyError"
  | trivyTimeout _ => "TrivyTimeout"
  | trivyRateLimited _ => "TrivyRateLimited"
  | report (.trivyReportError _) => "TrivyReportError"
  | report (.attributeError _) => "AttributeError"
  | other name _ => name

/-- A class name has no colon in it, and it is short enough to be stored with a separator. -/
def Named (error : Raised) : Prop :=
  ':' ∉ error.className.toList ∧ error.className.toList.length ≤ 3998

instance (error : Raised) : Decidable error.Named := inferInstanceAs (Decidable (_ ∧ _))

theorem toList_named {text : String} (name : String) (h : text.toList = name.toList ++ [':', ' '])
    (message : String) :
    (text ++ message).toList = name.toList ++ (':' :: ' ' :: message.toList) := by
  rw [String.toList_append, h, List.append_assoc]
  rfl

/-- The text of an exception, with or without its message. -/
theorem toList_describe (error : Raised) :
    error.describe.toList = error.className.toList ∨
      ∃ rest, error.describe.toList = error.className.toList ++ (':' :: ' ' :: rest) := by
  cases error with
  | registry error =>
    cases error with
    | other error => exact Or.inl rfl
    | registryError message => exact Or.inr ⟨_, toList_named "RegistryError" (by decide) message⟩
    | imageNotFound message => exact Or.inr ⟨_, toList_named "ImageNotFound" (by decide) message⟩
    | rateLimited message retryAfter =>
      exact Or.inr ⟨_, toList_named "RateLimited" (by decide) message⟩
    | httpError message => exact Or.inr ⟨_, toList_named "HTTPError" (by decide) message⟩
  | trivyError message => exact Or.inr ⟨_, toList_named "TrivyError" (by decide) message⟩
  | trivyTimeout message => exact Or.inr ⟨_, toList_named "TrivyTimeout" (by decide) message⟩
  | trivyRateLimited message =>
    exact Or.inr ⟨_, toList_named "TrivyRateLimited" (by decide) message⟩
  | report error =>
    cases error with
    | trivyReportError message =>
      exact Or.inr ⟨_, toList_named "TrivyReportError" (by decide) message⟩
    | attributeError message => exact Or.inr ⟨_, toList_named "AttributeError" (by decide) message⟩
  | other name message =>
    exact Or.inr ⟨_, toList_named name String.toList_append message⟩

end RunOnce.Raised

namespace Api

open Lifecycle Persist
open RunOnce (Raised)

/-- `split_part(error, ': ', 1)`. -/
def reasonOf (error : String) : String := String.ofList (splitPart [':', ' '] error.toList)

/-- **The class of an exception is read back** from what is stored of its text. -/
theorem reasonOf_describe {error : Raised} (h : error.Named) :
    reasonOf (PyStr.truncate 4000 error.describe) = error.className := by
  obtain ⟨hcolon, hlength⟩ := h
  rw [reasonOf, PyStr.toList_truncate]
  obtain hname | ⟨rest, hrest⟩ := error.toList_describe
  · rw [hname, List.take_of_length_le (by omega), splitPart_of_notMem hcolon,
      String.ofList_toList]
  · have hsplit : 4000 = error.className.toList.length + (4000 - error.className.toList.length) :=
      by omega
    have hroom : 4000 - error.className.toList.length =
        4000 - error.className.toList.length - 2 + 2 := by omega
    rw [hrest, hsplit, List.take_length_add_append, hroom, List.take_succ_cons, List.take_succ_cons]
    exact (congrArg String.ofList (splitPart_append hcolon [' '] _)).trans String.ofList_toList

/-- What the reaper writes is a reason of its own. -/
theorem reasonOf_leaseExpiredError :
    reasonOf (PyStr.truncate 4000 Queue.leaseExpiredError) = Queue.leaseExpiredError := by
  decide

/-! ### The breakdown -/

/-- `FAILURE_REASON_LIMIT`. -/
def failureReasonLimit : ℕ := 10

/-- The reasons of the failed runs since the cutoff, those with an error. -/
def failureReasons (db : Db) (cutoff : Timestamp) : List String :=
  db.scanRun.rows.values.filterMap fun run =>
    if run.status = .failed && run.completedAt.any (fun t => decide (cutoff ≤ t)) then
      run.error.map reasonOf
    else none

/-- The start of the window. -/
def windowStart (now : Timestamp) (windowHours : ℕ) : Timestamp :=
  now - windowHours * 3600 * second

/-- `recent_failures`: the largest groups. The source orders those of one size by reason; here they
stand in whatever order. -/
def RecentFailures (db : Db) (now : Timestamp) (windowHours : ℕ) (listed : List (String × ℕ)) :
    Prop :=
  Largest failureReasonLimit (failureReasons db (windowStart now windowHours)) listed

/-! ### The journal -/

/-- What an attempt ended in, and when. -/
structure Ending where
  reason : String
  completedAt : Timestamp
  deriving DecidableEq

/-- An event, or a failure with the exception that `_record_failure` is given. -/
inductive Incident where
  | failing (worker : Workers.WorkerId) (error : Raised) (refreshed : Bool)
    (now startedAt completedAt : Timestamp)
  | other (event : Event)

def Incident.event : Incident → Event
  | failing worker error refreshed now startedAt completedAt =>
    .report worker (.fail error.describe error.permanent refreshed now startedAt completedAt)
  | other event => event

/-- Every failure is one with an exception. -/
def Incident.Proper : Incident → Prop
  | failing _ error _ _ _ _ => error.Named
  | other (.report _ (.fail _ _ _ _ _ _)) => False
  | other _ => True

instance (incident : Incident) : Decidable incident.Proper :=
  match incident with
  | .failing _ error _ _ _ _ => inferInstanceAs (Decidable error.Named)
  | .other (.report _ (.fail _ _ _ _ _ _)) => isFalse id
  | .other (.report _ (.success _ _)) => isTrue trivial
  | .other (.report _ (.skip _)) => isTrue trivial
  | .other (.report _ (.defer _ _ _ _)) => isTrue trivial
  | .other (.requestScan _ _ _) => isTrue trivial
  | .other (.claim _ _ _ _) => isTrue trivial
  | .other (.load _) => isTrue trivial
  | .other (.tick _) => isTrue trivial
  | .other (.abandon _) => isTrue trivial
  | .other (.rollback _) => isTrue trivial

/-- A step of the system. -/
def play (settings : Settings) (s : State) (e : Timestamp × Incident) : Option State :=
  step settings s (e.1, e.2.event)

/-- Failures have exceptions, and no worker reports on a claim that the reaper has ended. -/
def Proper (s : State) (e : Timestamp × Incident) : Prop :=
  e.2.Proper ∧ Fenced s (e.1, e.2.event)

instance (s : State) (e : Timestamp × Incident) : Decidable (Proper s e) :=
  inferInstanceAs (Decidable (_ ∧ _))

/-- What a step writes in the journal: a failure its class, and a scheduling pass whom it reaps. -/
def endings (settings : Settings) (s : State) (e : Timestamp × Incident) : List Ending :=
  match e.2 with
  | .failing _ error _ _ _ completedAt => [⟨error.className, completedAt⟩]
  | .other (.tick clock) =>
    (Queue.reapExpiredLeases s.queue.jobs settings.maxAttempts e.1).2.map fun entry =>
      ⟨Queue.leaseExpiredError, clock.recorded entry.jobId⟩
  | .other _ => []

/-- What attempts ended in, in the window. -/
def endedSince (cutoff : Timestamp) (log : List Ending) : List String :=
  (log.filter fun ending => decide (cutoff ≤ ending.completedAt)).map Ending.reason

/-! ### The table and the journal -/

/-- What a failed run says. -/
def endingOf (run : ScanRun) : Option Ending :=
  run.error.bind fun error => run.completedAt.map fun completedAt => ⟨reasonOf error, completedAt⟩

/-- What the failed runs say, in the order they were put in. -/
def endingsIn (runs : Serial ScanRun) : List (Option Ending) :=
  (runs.rows.values.filter fun run => decide (run.status = .failed)).map endingOf

variable {settings : Settings} {s s' : State}

theorem endingsIn_insertAll (runs : Serial ScanRun) (added : List ScanRun) :
    endingsIn (runs.insertAll added) = endingsIn runs ++
      (added.filter fun run => decide (run.status = .failed)).map endingOf := by
  obtain ⟨l, hentries, hadded, -⟩ := Serial.entries_insertAll runs added
  rw [endingsIn, Dict.values, hentries, List.map_append, hadded, List.filter_append,
    List.map_append]
  rfl

theorem endingsIn_insert_of_ne {runs : Serial ScanRun} {run : ScanRun}
    (h : run.status ≠ .failed) : endingsIn (runs.insert run) = endingsIn runs := by
  have hone := endingsIn_insertAll runs [run]
  rw [List.filter_singleton, decide_eq_false h, cond_false, List.map_nil, List.append_nil] at hone
  exact hone

theorem endingOf_failedRun (i : ImageId) (j : JobId) {error : Raised} (herror : error.Named)
    (startedAt completedAt : Timestamp) :
    endingOf (failedRun i j startedAt completedAt error.describe) =
      some ⟨error.className, completedAt⟩ := by
  rw [← reasonOf_describe herror]
  rfl

theorem endingOf_reapedRun (clock : Tick.Clock) (entry : Queue.ReapedJob) :
    endingOf (Tick.reapedRun clock entry) =
      some ⟨Queue.leaseExpiredError, clock.recorded entry.jobId⟩ := by
  rw [← reasonOf_leaseExpiredError]
  rfl

/-- A failure is recorded with its error, whenever the image was loaded. -/
theorem scanRun_of_fail {db db' : Db} {held : Workers.Held} {loaded : Option Image} {error : String}
    {permanent refreshed : Bool} {now startedAt completedAt : Timestamp}
    (h : commitReport settings db held loaded
      (.fail error permanent refreshed now startedAt completedAt) = some db')
    (himage : held.loaded.imageId ∈ db.image.keys) :
    db'.scanRun = db.scanRun.insert
      (failedRun held.loaded.imageId held.job startedAt completedAt error) := by
  obtain ⟨row, hget⟩ := Dict.mem_keys_iff.mp himage
  simp only [commitReport] at h
  split at h
  · next hnone =>
    rw [Option.or_eq_none_iff, hget] at hnone
    cases hnone.2
  · next image hobject =>
    obtain rfl := Option.some.inj h
    rfl

/-- What a worker's other reports record has not failed. -/
theorem endingsIn_of_report {w : Workers.WorkerId} {report : Report} {held : Workers.Held} {db : Db}
    (hs : Kept s) (hreports : Reports settings s w report held db s')
    (hreport : report.status ≠ some .failed) :
    endingsIn s'.db.scanRun = endingsIn s.db.scanRun := by
  have hdb : s'.db = db := congrArg State.db hreports.state
  rw [hdb]
  obtain ⟨-, rfl⟩ | ⟨run, image, new, hrecords⟩ :=
    commitReport_cases hreports.commits hreports.loaded (hs.placed _ _ hreports.loaded)
  · rfl
  · rw [hrecords.scanRun]
    refine endingsIn_insert_of_ne fun hfailed => hreport ?_
    rw [hrecords.status, hfailed]

theorem endingsIn_of_failing {w : Workers.WorkerId} {error : Raised} {refreshed : Bool}
    {at_ now startedAt completedAt : Timestamp} (hs : Kept s) (herror : error.Named)
    (hf : Fenced s (at_, (Incident.failing w error refreshed now startedAt completedAt).event))
    (h : stepAt settings s at_
      (Incident.failing w error refreshed now startedAt completedAt).event = some s') :
    endingsIn s'.db.scanRun =
      endingsIn s.db.scanRun ++ [some ⟨error.className, completedAt⟩] := by
  obtain ⟨held, db, hreports⟩ := report_cases hs.fencing hf h
  have hdb : s'.db = db := congrArg State.db hreports.state
  have hruns := scanRun_of_fail hreports.commits (hs.placed _ _ hreports.loaded)
  rw [hdb, hruns, ← endingOf_failedRun held.loaded.imageId held.job herror startedAt completedAt]
  exact endingsIn_insertAll s.db.scanRun [_]

theorem endingsIn_of_ticks {at_ : Timestamp} {clock : Tick.Clock} {due : List ImageId} (hs : Kept s)
    (h : Ticks settings s at_ clock due s') :
    endingsIn s'.db.scanRun = endingsIn s.db.scanRun ++
      ((Queue.reapExpiredLeases s.queue.jobs settings.maxAttempts at_).2.map fun entry =>
        some ⟨Queue.leaseExpiredError, clock.recorded entry.jobId⟩) := by
  have hall : ∀ run ∈ (Queue.reapExpiredLeases s.queue.jobs settings.maxAttempts at_).2.map
      (Tick.reapedRun clock), decide (run.status = .failed) = true := by
    intro run hrun
    obtain ⟨entry, -, rfl⟩ := List.mem_map.mp hrun
    rfl
  rw [h.scanRun hs.placed, endingsIn_insertAll, List.filter_eq_self.mpr hall, List.map_map]
  refine congrArg _ (List.map_congr_left fun entry _ => ?_)
  exact endingOf_reapedRun clock entry

/-- **What a step puts into the table it writes in the journal.** -/
theorem endingsIn_play {e : Timestamp × Incident} {log : List Ending} (hs : Kept s)
    (hlog : endingsIn s.db.scanRun = log.map some) (hproper : Proper s e)
    (h : play settings s e = some s') :
    endingsIn s'.db.scanRun = (log ++ endings settings s e).map some := by
  obtain ⟨at_, incident⟩ := e
  obtain ⟨hincident, hf⟩ := hproper
  have h : stepAt settings s at_ incident.event = some s' := stepAt_of_step h
  rw [List.map_append, ← hlog]
  cases incident with
  | failing w error refreshed now startedAt completedAt =>
    exact endingsIn_of_failing hs hincident hf h
  | other event =>
    have hquiet : s'.db.scanRun = s.db.scanRun →
        endingsIn s'.db.scanRun = endingsIn s.db.scanRun ++ List.map some [] := fun hsame => by
      rw [hsame, List.map_nil, List.append_nil]
    cases event with
    | requestScan i timeSensitive now =>
      obtain ⟨-, queue, -, rfl⟩ := stepAt_requestScan h
      exact hquiet rfl
    | claim w j locked now =>
      obtain ⟨queue, -, rfl⟩ := Option.map_eq_some_iff.mp h
      exact hquiet rfl
    | load w =>
      obtain ⟨held, image, -, -, rfl⟩ := stepAt_load h
      exact hquiet rfl
    | report w report =>
      obtain ⟨held, db, hreports⟩ := report_cases hs.fencing hf h
      have hstatus : report.status ≠ some .failed := by
        cases report with
        | fail error permanent refreshed now startedAt completedAt => exact hincident.elim
        | success report metadata => exact fun hsame => by cases hsame
        | skip metadata => exact fun hsame => by cases hsame
        | defer delaySeconds reason refreshed now => exact fun hsame => by cases hsame
      show endingsIn s'.db.scanRun = endingsIn s.db.scanRun ++ List.map some []
      rw [endingsIn_of_report hs hreports hstatus, List.map_nil, List.append_nil]
    | tick clock =>
      obtain ⟨due, hticks, -⟩ := tick_cases h
      rw [endingsIn_of_ticks hs hticks, endings, List.map_map]
      rfl
    | abandon w =>
      simp only [Incident.event, stepAt] at h
      obtain ⟨queue, -, rfl⟩ := Option.map_eq_some_iff.mp h
      exact hquiet rfl
    | rollback working =>
      obtain rfl := Option.some.inj h
      show endingsIn s.db.scanRun = endingsIn s.db.scanRun ++ List.map some []
      rw [List.map_nil, List.append_nil]

/-- The table and the journal of a run. -/
theorem endingsIn_of_execute {db : Db} (hdb : Registered db) {clock : Timestamp}
    {es : List (Timestamp × Incident)}
    (h : execute (restrict (play settings) Proper) (State.start db clock) es = some s) :
    endingsIn s.db.scanRun =
      (journal (restrict (play settings) Proper) (endings settings) (State.start db clock)
        es).map some := by
  let R (s : State) (log : List Ending) : Prop :=
    Kept s ∧ endingsIn s.db.scanRun = log.map some
  have hstep : ∀ s e t log, R s log → restrict (play settings) Proper s e = some t →
      R t (log ++ endings settings s e) := by
    rintro s e t log ⟨hkept, hlog⟩ hplay
    obtain ⟨hproper, hplay⟩ := restrict_eq_some.mp hplay
    exact ⟨hkept.step hproper.2 hplay, endingsIn_play hkept hlog hproper hplay⟩
  have hstart : R (State.start db clock) [] := by
    refine ⟨kept_start db clock, ?_⟩
    have hrows : (State.start db clock).db.scanRun.rows.values = [] := by
      rw [List.eq_nil_iff_forall_not_mem]
      intro run hrun
      obtain ⟨r, hr⟩ := Dict.mem_values_iff.mp hrun
      exact absurd ((hdb.scanRun r).symm.trans hr) (Option.some_ne_none run).symm
    rw [endingsIn, hrows]
    rfl
  exact (journal_rule hstep hstart h).2

/-! ### Reading the table -/

/-- The reasons are those of the endings. -/
theorem failureReasons_eq (db : Db) (cutoff : Timestamp) :
    failureReasons db cutoff = (endingsIn db.scanRun).filterMap fun ending =>
      ending.bind fun e => if cutoff ≤ e.completedAt then some e.reason else none := by
  rw [failureReasons, endingsIn, List.filterMap_map, List.filterMap_filter]
  refine List.filterMap_congr fun run _ => ?_
  by_cases hfailed : run.status = .failed
  · rw [decide_eq_true hfailed, Bool.true_and, if_pos rfl, Function.comp_apply, endingOf]
    cases run.error <;> cases run.completedAt <;> simp
  · rw [decide_eq_false hfailed, Bool.false_and, if_neg Bool.false_ne_true,
      if_neg Bool.false_ne_true]

theorem endedSince_eq (cutoff : Timestamp) (log : List Ending) :
    endedSince cutoff log = log.filterMap fun e =>
      if cutoff ≤ e.completedAt then some e.reason else none := by
  induction log with
  | nil => rfl
  | cons e log ih =>
    rw [List.filterMap_cons, ← ih, endedSince, endedSince, List.filter_cons]
    by_cases hin : cutoff ≤ e.completedAt
    · rw [if_pos hin, decide_eq_true hin, if_pos rfl]
      rfl
    · rw [if_neg hin, decide_eq_false hin, if_neg Bool.false_ne_true]

section Journal

variable {db : Db} {log : List Ending} {cutoff : Timestamp}

theorem failureReasons_of_log (h : endingsIn db.scanRun = log.map some) :
    failureReasons db cutoff = endedSince cutoff log := by
  rw [failureReasons_eq, h, List.filterMap_map, endedSince_eq]
  rfl

/-- Every failed run says what it ended in, so the outcomes count what the reasons do. -/
theorem runCount_of_log (h : endingsIn db.scanRun = log.map some) :
    runCount db cutoff .failed = (endedSince cutoff log).length := by
  let late (ending : Option Ending) : Bool := ending.any fun e => decide (cutoff ≤ e.completedAt)
  have hsome : ∀ run ∈ db.scanRun.rows.values.filter (fun run => decide (run.status = .failed)),
      run.completedAt.any (fun t => decide (cutoff ≤ t)) = late (endingOf run) := by
    intro run hrun
    have hmem : endingOf run ∈ log.map some := h ▸ List.mem_map_of_mem hrun
    obtain ⟨e, -, he⟩ := List.mem_map.mp hmem
    obtain ⟨error, herror, he'⟩ := Option.bind_eq_some_iff.mp he.symm
    obtain ⟨completedAt, hcompleted, rfl⟩ := Option.map_eq_some_iff.mp he'
    rw [← he, hcompleted]
    rfl
  calc runCount db cutoff .failed
      = (db.scanRun.rows.values.filter fun run => decide (run.status = .failed)).countP
          fun run => run.completedAt.any fun t => decide (cutoff ≤ t) :=
        List.countP_filter.symm
    _ = (endingsIn db.scanRun).countP late := by
        rw [endingsIn, List.countP_map]
        exact List.countP_congr fun run hrun => by rw [hsome run hrun]; rfl
    _ = log.countP fun e => decide (cutoff ≤ e.completedAt) := by
        rw [h, List.countP_map]
        rfl
    _ = (endedSince cutoff log).length := by
        rw [endedSince, List.length_map, List.countP_eq_length_filter]

end Journal

/-! ### The account -/

/-- A breakdown of what attempts ended in, next to the number of those that failed. -/
structure Accounts (ended : List String) (listed : List (String × ℕ)) (failures : ℕ) : Prop where
  failures_eq : failures = ended.length
  /-- Every figure is a number of attempts. -/
  size : ∀ e ∈ listed, e.1 ∈ ended ∧ e.2 = ended.count e.1
  nodup : (listed.map Prod.fst).Nodup
  /-- What is left out is no more frequent than what is listed. -/
  rest : ∀ reason ∈ ended, reason ∉ listed.map Prod.fst →
    listed.length = failureReasonLimit ∧ ∀ e ∈ listed, ended.count reason ≤ e.2
  sum_le : (listed.map Prod.snd).sum ≤ failures
  /-- With few reasons nothing is left out. -/
  sum_eq : ended.dedup.length ≤ failureReasonLimit → (listed.map Prod.snd).sum = failures

theorem accounts_of_largest {ended : List String} {listed : List (String × ℕ)} {failures : ℕ}
    (h : Largest failureReasonLimit ended listed) (hfailures : failures = ended.length) :
    Accounts ended listed failures where
  failures_eq := hfailures
  size := fun _ he => h.size he
  nodup := h.nodup
  rest := fun _ hmem hout => h.le_of_notMem hmem hout
  sum_le := hfailures ▸ h.sum_le
  sum_eq := fun hfew => hfailures ▸ h.sum_eq hfew

/-- **The failure breakdown is an account of the run.** Whatever the system has done, each reason
that `/api/stats` lists is the class of the exceptions of as many attempts in the window as it says,
or what the reaper writes of as many; and with every other reason these are the runs it counts as
failed. -/
theorem failures_account {settings : Settings} {db : Db} (hdb : Registered db) {clock : Timestamp}
    {es : List (Timestamp × Incident)} {s : State}
    (h : execute (restrict (play settings) Proper) (State.start db clock) es = some s)
    (now : Timestamp) (windowHours : ℕ) {listed : List (String × ℕ)}
    (hlisted : RecentFailures s.database now windowHours listed) :
    Accounts
      (endedSince (windowStart now windowHours)
        (journal (restrict (play settings) Proper) (endings settings) (State.start db clock) es))
      listed (stats s.database now windowHours).runs.failed := by
  have hlog : endingsIn s.database.scanRun = _ := endingsIn_of_execute hdb h
  refine accounts_of_largest ?_ (runCount_of_log hlog)
  rw [← failureReasons_of_log hlog]
  exact hlisted

/-- One image, put in and claimed twice: its first scan times out, and its second worker dies. -/
def timedOutAndReaped : List (Timestamp × Incident) :=
  let clock (t : Timestamp) : Tick.Clock := ⟨fun _ => t, t, fun _ => t⟩
  [(0, .other (.tick (clock 0))), (0, .other (.claim 1 1 [] 0)), (0, .other (.load 1)),
    (Queue.seconds 9,
      .failing 1 (.trivyTimeout "trivy timed out: 9s") true (Queue.seconds 9) 0 (Queue.seconds 9)),
    (Queue.seconds 90, .other (.claim 2 1 [] (Queue.seconds 90))),
    (Queue.seconds 95, .other (.abandon 2)),
    (Queue.seconds 2000, .other (.tick (clock (Queue.seconds 2000))))]

theorem failures_account_timedOutAndReaped :
    ∃ s, execute (restrict (play {}) Proper) (State.start (Db.seeded 0 [("nginx", "1.19")]) 0)
        timedOutAndReaped = some s ∧
      RecentFailures s.database (Queue.seconds 3000) 24
        [("TrivyTimeout", 1), (Queue.leaseExpiredError, 1)] ∧
      Accounts
        (endedSince (windowStart (Queue.seconds 3000) 24)
          (journal (restrict (play {}) Proper) (endings {})
            (State.start (Db.seeded 0 [("nginx", "1.19")]) 0) timedOutAndReaped))
        [("TrivyTimeout", 1), (Queue.leaseExpiredError, 1)]
        (stats s.database (Queue.seconds 3000) 24).runs.failed := by
  have hrun : (execute (restrict (play {}) Proper)
      (State.start (Db.seeded 0 [("nginx", "1.19")]) 0) timedOutAndReaped).map
        (fun s => failureReasons s.database (windowStart (Queue.seconds 3000) 24)) =
      some ["TrivyTimeout", Queue.leaseExpiredError] := by decide +kernel
  obtain ⟨s, hs, hreasons⟩ := Option.map_eq_some_iff.mp hrun
  have hlisted : RecentFailures s.database (Queue.seconds 3000) 24
      [("TrivyTimeout", 1), (Queue.leaseExpiredError, 1)] := by
    rw [RecentFailures, hreasons]
    exact ⟨_, ⟨List.Perm.refl _, by decide⟩, by decide⟩
  exact ⟨s, hs, hlisted, failures_account (registered_seeded 0 _) hs _ _ hlisted⟩

end Api

end ContainerScanner
