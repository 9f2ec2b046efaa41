import ContainerScanner.Jobs.Workers
import ContainerScanner.Foundation.Journal
import ContainerScanner.Foundation.Locks
import ContainerScanner.Foundation.Paging
import Mathlib.Data.Prod.Lex

/-!
# Claims at once

`queue.claim` statement by statement, for any number of workers. The `SELECT` finds the jobs that
are due when it starts and sorts them; `FOR UPDATE SKIP LOCKED` then takes them one by one. A row
that somebody has locked is passed over. Of a row that is free the newest version is locked, if it
still meets the `WHERE`, and the `LIMIT` stops there. The lease is written by the flush, and nobody
else sees it before the commit.

Everybody else's transactions are those of `Workers`, one step each. They wait for the rows that a
claim has locked, so here they are not enabled until it ends. The row locks that a request in
flight holds are in `busy`.

## Main definitions

* `Phase`, `Txn` — a claim that has not committed
* `State`, `Event`, `step` — claims that select, visit, flush, commit and roll back
* `queueEvent` — what a step is to the queue

## Main results

* `Steps.of_step` — what a step can do, one case a kind
* `Orderly.step` — locked rows are pending, due, and locked once
-/

namespace ContainerScanner

open Foundation Queue Paging

namespace Claims

open Workers (WorkerId Held)

/-- Where a claim has come to. -/
inductive Phase where
  /-- The rows that were found and sorted, and not yet visited. -/
  | selecting (rest : List (JobId × ScanJob))
  /-- A row is locked: as the statement found it, and as it is. -/
  | locked (job : JobId) (found row : ScanJob)
  /-- The lease is written, by the worker's clock. -/
  | flushed (job : JobId) (found row : ScanJob) (now : Timestamp)
  deriving DecidableEq

/-- An open transaction of `queue.claim`. -/
structure Txn where
  statementTimestamp : Timestamp
  phase : Phase
  deriving DecidableEq

/-- The row it has locked: the job, as it was found, as it is. -/
def Txn.lock (x : Txn) : Option (JobId × ScanJob × ScanJob) :=
  match x.phase with
  | .selecting _ => none
  | .locked j found row => some (j, found, row)
  | .flushed j found row _ => some (j, found, row)

/-- Does it hold the row of the job? -/
def Txn.holds (x : Txn) (j : JobId) : Bool := x.lock.any fun e => decide (e.1 = j)

/-- `ORDER BY priority DESC, scheduled_for`. -/
def claimKey (e : JobId × ScanJob) : ℤᵒᵈ ×ₗ ℤ :=
  toLex (OrderDual.toDual e.2.priority, e.2.scheduledFor)

/-- The `WHERE` of the claim. -/
def dueJobs (jobs : Jobs) (statementTimestamp : Timestamp) : List (JobId × ScanJob) :=
  jobs.rows.entries.filter (claimable [] statementTimestamp)

/-- The next row: passed over, or locked. `blocked` says which rows others hold. -/
def Txn.visit (blocked : JobId → Bool) (jobs : Jobs) (x : Txn) : Option Txn :=
  match x.phase with
  | .selecting ((j, found) :: rest) =>
    if blocked j then some { x with phase := .selecting rest }
    else
      match jobs.get? j with
      | none => some { x with phase := .selecting rest }
      | some row =>
        -- a row that was changed since the statement started is checked again
        if claimable [] x.statementTimestamp (j, row) then
          some { x with phase := .locked j found row }
        else some { x with phase := .selecting rest }
  | _ => none

structure State where
  /-- What is committed. -/
  queue : Workers.State
  clock : Timestamp
  txns : Dict WorkerId Txn
  /-- The rows that requests in flight have locked. -/
  busy : List JobId

/-- No claim is open. -/
def State.start (queue : Workers.State) : State := ⟨queue, queue.clock, Dict.empty, []⟩

/-- Does somebody else hold the row? -/
def State.blocked (s : State) (w : WorkerId) (j : JobId) : Bool :=
  (s.txns.entries.any fun e => decide (e.1 ≠ w) && e.2.holds j) || decide (j ∈ s.busy)

inductive Event where
  | select (worker : WorkerId) (rows : List (JobId × ScanJob))
  | visit (worker : WorkerId)
  | flush (worker : WorkerId) (now : Timestamp)
  | commit (worker : WorkerId)
  /-- An error of the worker's own, or its death. -/
  | rollback (worker : WorkerId)
  /-- A request locks a row, and gives it back. -/
  | hold (job : JobId)
  | release (job : JobId)
  /-- Somebody else's transaction. -/
  | other (event : Workers.Event)

/-- The commit of a claim: the flush of the object, and the object. -/
def commitClaim (settings : Settings) (queue : Workers.State) (at_ : Timestamp) (w : WorkerId)
    (j : JobId) (row : ScanJob) (now : Timestamp) : Option Workers.State :=
  let object := takeLease now settings.leaseSeconds row
  let jobs := queue.jobs.update j (Queue.flush row object)
  if hu : UniqueActive jobs then
    some { queue with
      clock := at_
      jobs := jobs
      uniqueActive := hu
      held := Function.update queue.held w (some ⟨j, object, queue.nextClaim⟩)
      nextClaim := queue.nextClaim + 1
      runningUnder := Function.update queue.runningUnder j (some queue.nextClaim) }
  else none

/-- Claims are made by the steps of this machine. -/
def isClaim : Workers.Event → Bool
  | .claim _ _ _ _ => true
  | _ => false

/-- Nobody writes a row that a claim has locked. -/
def Untouched (txns : Dict WorkerId Txn) (jobs jobs' : Jobs) : Prop :=
  ∀ e ∈ txns.entries, ∀ l ∈ e.2.lock, jobs'.get? l.1 = jobs.get? l.1

instance (txns : Dict WorkerId Txn) (jobs jobs' : Jobs) : Decidable (Untouched txns jobs jobs') :=
  inferInstanceAs (Decidable (∀ e ∈ txns.entries, ∀ l ∈ e.2.lock, _))

instance (jobs : Jobs) (at_ : Timestamp) (rows : List (JobId × ScanJob)) :
    Decidable (Admissible claimKey (dueJobs jobs at_) rows) :=
  decidable_of_iff (rows.Perm (dueJobs jobs at_) ∧
      rows.Pairwise fun a b => claimKey a ≤ claimKey b)
    ⟨fun h => ⟨h.1, h.2⟩, fun h => ⟨h.perm, h.sorted⟩⟩

def stepAt (settings : Settings) (s : State) (at_ : Timestamp) : Event → Option State
  | .select w rows =>
    if s.queue.held w = none ∧ s.txns.get? w = none ∧
        Admissible claimKey (dueJobs s.queue.jobs at_) rows then
      some { s with clock := at_, txns := s.txns.set w ⟨at_, .selecting rows⟩ }
    else none
  | .visit w =>
    (s.txns.get? w).bind fun x => (x.visit (s.blocked w) s.queue.jobs).map fun x =>
      { s with clock := at_, txns := s.txns.set w x }
  | .flush w now =>
    (s.txns.get? w).bind fun x =>
      match x.phase with
      | .locked j found row =>
        some { s with
          clock := at_
          txns := s.txns.set w { x with phase := .flushed j found row now } }
      | _ => none
  | .commit w =>
    (s.txns.get? w).bind fun x =>
      match x.phase with
      -- nothing is due, and the worker sleeps
      | .selecting [] => some { s with clock := at_, txns := s.txns.erase w }
      | .flushed j _ row now =>
        (commitClaim settings s.queue at_ w j row now).map fun queue =>
          { s with queue := queue, clock := at_, txns := s.txns.erase w }
      | _ => none
  | .rollback w => some { s with clock := at_, txns := s.txns.erase w }
  | .hold j =>
    if s.txns.entries.any fun e => e.2.holds j then none
    else some { s with clock := at_, busy := j :: s.busy }
  | .release j => some { s with clock := at_, busy := s.busy.erase j }
  | .other event =>
    if isClaim event then none
    else
      (Workers.stepAt settings s.queue at_ event).bind fun queue =>
        if Untouched s.txns s.queue.jobs queue.jobs then
          some { s with queue := queue, clock := at_ }
        else none

/-- One event at a time of the database's clock, which never goes back. -/
def step (settings : Settings) (s : State) (e : Timestamp × Event) : Option State :=
  if e.1 < s.clock then none else stepAt settings s e.1 e.2

variable {settings : Settings} {s s' : State} {at_ : Timestamp} {w : WorkerId} {x x' : Txn}
  {j : JobId} {found row : ScanJob}

/-! ### What a step can do -/

/-- The steps, one case a kind. -/
inductive Steps (settings : Settings) (s : State) (at_ : Timestamp) : Event → State → Prop where
  | select {w : WorkerId} {rows : List (JobId × ScanJob)} (hidle : s.queue.held w = none)
      (hnone : s.txns.get? w = none)
      (hrows : Admissible claimKey (dueJobs s.queue.jobs at_) rows) :
      Steps settings s at_ (.select w rows)
        { s with clock := at_, txns := s.txns.set w ⟨at_, .selecting rows⟩ }
  | pass {w : WorkerId} {x : Txn} {j : JobId} {found : ScanJob} {rest : List (JobId × ScanJob)}
      (hx : s.txns.get? w = some x) (hphase : x.phase = .selecting ((j, found) :: rest))
      (hgone : s.blocked w j = true ∨ ∀ row, s.queue.jobs.get? j = some row →
        claimable [] x.statementTimestamp (j, row) = false) :
      Steps settings s at_ (.visit w)
        { s with clock := at_, txns := s.txns.set w { x with phase := .selecting rest } }
  | lock {w : WorkerId} {x : Txn} {j : JobId} {found row : ScanJob}
      {rest : List (JobId × ScanJob)} (hx : s.txns.get? w = some x)
      (hphase : x.phase = .selecting ((j, found) :: rest)) (hfree : s.blocked w j = false)
      (hrow : s.queue.jobs.get? j = some row)
      (hdue : claimable [] x.statementTimestamp (j, row) = true) :
      Steps settings s at_ (.visit w)
        { s with clock := at_, txns := s.txns.set w { x with phase := .locked j found row } }
  | flush {w : WorkerId} {x : Txn} {j : JobId} {found row : ScanJob} {now : Timestamp}
      (hx : s.txns.get? w = some x) (hphase : x.phase = .locked j found row) :
      Steps settings s at_ (.flush w now)
        { s with clock := at_, txns := s.txns.set w { x with phase := .flushed j found row now } }
  | empty {w : WorkerId} {x : Txn} (hx : s.txns.get? w = some x)
      (hphase : x.phase = .selecting []) :
      Steps settings s at_ (.commit w) { s with clock := at_, txns := s.txns.erase w }
  | commit {w : WorkerId} {x : Txn} {j : JobId} {found row : ScanJob} {now : Timestamp}
      {queue : Workers.State} (hx : s.txns.get? w = some x)
      (hphase : x.phase = .flushed j found row now)
      (hcommit : commitClaim settings s.queue at_ w j row now = some queue) :
      Steps settings s at_ (.commit w)
        { s with queue := queue, clock := at_, txns := s.txns.erase w }
  | rollback {w : WorkerId} :
      Steps settings s at_ (.rollback w) { s with clock := at_, txns := s.txns.erase w }
  | hold {j : JobId} (hfree : ∀ w x, s.txns.get? w = some x → x.holds j = false) :
      Steps settings s at_ (.hold j) { s with clock := at_, busy := j :: s.busy }
  | release {j : JobId} :
      Steps settings s at_ (.release j) { s with clock := at_, busy := s.busy.erase j }
  | other {event : Workers.Event} {queue : Workers.State} (hclaim : isClaim event = false)
      (hqueue : Workers.stepAt settings s.queue at_ event = some queue)
      (hkept : ∀ w x l, s.txns.get? w = some x → x.lock = some l →
        queue.jobs.get? l.1 = s.queue.jobs.get? l.1) :
      Steps settings s at_ (.other event) { s with queue := queue, clock := at_ }

theorem Steps.of_visit (hx : s.txns.get? w = some x)
    (h : x.visit (s.blocked w) s.queue.jobs = some x') :
    Steps settings s at_ (.visit w) { s with clock := at_, txns := s.txns.set w x' } := by
  rw [Txn.visit] at h
  split at h
  · next j found rest hphase =>
    split at h
    · next hblocked =>
      cases h
      exact .pass hx hphase (Or.inl hblocked)
    · next hfree =>
      split at h
      · next hnone =>
        cases h
        refine .pass hx hphase (Or.inr fun row hrow => ?_)
        rw [hnone] at hrow
        cases hrow
      · next row hrow =>
        split at h
        · next hdue =>
          cases h
          exact .lock hx hphase (Bool.eq_false_iff.mpr hfree) hrow hdue
        · next hdue =>
          cases h
          refine .pass hx hphase (Or.inr fun row' hrow' => ?_)
          rw [hrow] at hrow'
          rw [← Option.some.inj hrow']
          exact Bool.eq_false_iff.mpr hdue
  · cases h

/-- **What a step can do.** -/
theorem Steps.of_step {e : Timestamp × Event} (h : step settings s e = some s') :
    s.clock ≤ e.1 ∧ Steps settings s e.1 e.2 s' := by
  obtain ⟨at_, event⟩ := e
  rw [step] at h
  split at h
  · cases h
  · next hclock =>
    refine ⟨not_lt.mp hclock, ?_⟩
    cases event with
    | select w rows =>
      obtain ⟨⟨hidle, hnone, hrows⟩, heq⟩ := Option.ite_none_right_eq_some.mp h
      rw [← Option.some.inj heq]
      exact .select hidle hnone hrows
    | visit w =>
      obtain ⟨x, hx, h⟩ := Option.bind_eq_some_iff.mp h
      obtain ⟨x', hvisit, rfl⟩ := Option.map_eq_some_iff.mp h
      exact .of_visit hx hvisit
    | flush w now =>
      obtain ⟨x, hx, h⟩ := Option.bind_eq_some_iff.mp h
      split at h
      · next hphase =>
        cases h
        exact .flush hx hphase
      · cases h
    | commit w =>
      obtain ⟨x, hx, h⟩ := Option.bind_eq_some_iff.mp h
      split at h
      · next hphase =>
        cases h
        exact .empty hx hphase
      · next hphase =>
        obtain ⟨queue, hcommit, rfl⟩ := Option.map_eq_some_iff.mp h
        exact .commit hx hphase hcommit
      · cases h
    | rollback w =>
      cases h
      exact .rollback
    | hold j =>
      simp only [stepAt] at h
      split at h
      · cases h
      · next hfree =>
        cases h
        refine .hold fun w x hx => ?_
        rw [List.any_eq_true, not_exists] at hfree
        exact Bool.eq_false_iff.mpr fun hholds =>
          hfree (w, x) ⟨Dict.get?_eq_some_iff.mp hx, hholds⟩
    | release j =>
      cases h
      exact .release
    | other event =>
      simp only [stepAt] at h
      split at h
      · cases h
      · next hclaim =>
        obtain ⟨queue, hqueue, h⟩ := Option.bind_eq_some_iff.mp h
        obtain ⟨hkept, heq⟩ := Option.ite_none_right_eq_some.mp h
        rw [← Option.some.inj heq]
        exact .other (Bool.eq_false_iff.mpr hclaim) hqueue fun w x l hx hl =>
          hkept (w, x) (Dict.get?_eq_some_iff.mp hx) l hl

/-! ### Locks -/

/-- The worker's claim holds the row. -/
def State.holds (s : State) (w : WorkerId) (j : JobId) : Prop :=
  ∃ x, s.txns.get? w = some x ∧ x.holds j = true

theorem Txn.holds_iff : x.holds j = true ↔ ∃ found row, x.lock = some (j, found, row) := by
  simp only [Txn.holds, Option.any_eq_true, decide_eq_true_eq, Prod.exists]
  constructor
  · rintro ⟨_, found, row, hlock, rfl⟩
    exact ⟨found, row, hlock⟩
  · rintro ⟨found, row, hlock⟩
    exact ⟨j, found, row, hlock, rfl⟩

theorem blocked_eq_false : s.blocked w j = false ↔
    (∀ w', w' ≠ w → ¬ s.holds w' j) ∧ j ∉ s.busy := by
  simp only [State.blocked, Bool.or_eq_false_iff, List.any_eq_false, Bool.and_eq_true,
    decide_eq_true_eq, decide_eq_false_iff_not, Prod.forall, State.holds, not_exists, not_and]
  refine and_congr_left fun _ => ⟨fun h w' hne x hx => ?_, fun h w' x hx hne => ?_⟩
  · exact h w' x (Dict.get?_eq_some_iff.mp hx) hne
  · exact h w' hne x (Dict.get?_eq_some_iff.mpr hx)

/-- Locked rows are pending, due, and locked once; a worker that claims holds no job. -/
structure Orderly (s : State) : Prop where
  clock : s.queue.clock ≤ s.clock
  idle : ∀ w x, s.txns.get? w = some x → s.queue.held w = none
  started : ∀ w x, s.txns.get? w = some x → x.statementTimestamp ≤ s.clock
  locked : ∀ w x j found row, s.txns.get? w = some x → x.lock = some (j, found, row) →
    s.queue.jobs.get? j = some row ∧ claimable [] x.statementTimestamp (j, row) = true
  exclusive : Locks.Exclusive s.holds

theorem orderly_start (queue : Workers.State) : Orderly (State.start queue) where
  clock := le_rfl
  idle := fun _ _ hx => by cases hx
  started := fun _ _ hx => by cases hx
  locked := fun _ _ _ _ _ hx => by cases hx
  exclusive := fun _ _ _ hw => by
    obtain ⟨_, hx, -⟩ := hw
    cases hx

/-- A claim goes on, with its lock or with a free row. -/
theorem Orderly.set (hs : Orderly s) (hclock : s.clock ≤ at_) (hidle : s.queue.held w = none)
    (hstarted : x.statementTimestamp ≤ at_)
    (hlocked : ∀ j found row, x.lock = some (j, found, row) →
      s.queue.jobs.get? j = some row ∧ claimable [] x.statementTimestamp (j, row) = true)
    (hfree : ∀ j, x.holds j = true → s.holds w j ∨ ∀ w', w' ≠ w → ¬ s.holds w' j) :
    Orderly { s with clock := at_, txns := s.txns.set w x } where
  clock := hs.clock.trans hclock
  idle := by
    intro w' x' hx'
    obtain ⟨rfl, -⟩ | ⟨-, hx'⟩ := Dict.get?_set_eq_some.mp hx'
    · exact hidle
    · exact hs.idle w' x' hx'
  started := by
    intro w' x' hx'
    obtain ⟨-, rfl⟩ | ⟨-, hx'⟩ := Dict.get?_set_eq_some.mp hx'
    · exact hstarted
    · exact (hs.started w' x' hx').trans hclock
  locked := by
    intro w' x' j found row hx'
    obtain ⟨-, rfl⟩ | ⟨-, hx'⟩ := Dict.get?_set_eq_some.mp hx'
    · exact hlocked j found row
    · exact hs.locked w' x' j found row hx'
  exclusive := by
    refine hs.exclusive.grant (t := w) fun w' j hw' => ?_
    obtain ⟨x', hx', hholds⟩ := hw'
    obtain ⟨rfl, rfl⟩ | ⟨-, hx'⟩ := Dict.get?_set_eq_some.mp hx'
    · exact (hfree j hholds).imp_right fun h => ⟨rfl, h⟩
    · exact Or.inl ⟨x', hx', hholds⟩

/-- The queue changes where no open claim has a lock. -/
theorem Orderly.of_kept (hs : Orderly s) (hclock : s.clock ≤ at_) {queue : Workers.State}
    {txns : Dict WorkerId Txn} {busy : List JobId} (hqueue : queue.clock ≤ at_)
    (hsub : ∀ w x, txns.get? w = some x → s.txns.get? w = some x)
    (hheld : ∀ w x, txns.get? w = some x → s.queue.held w = none → queue.held w = none)
    (hkept : ∀ w x l, txns.get? w = some x → x.lock = some l →
      queue.jobs.get? l.1 = s.queue.jobs.get? l.1) :
    Orderly ⟨queue, at_, txns, busy⟩ where
  clock := hqueue
  idle := fun w x hx => hheld w x hx (hs.idle w x (hsub w x hx))
  started := fun w x hx => (hs.started w x (hsub w x hx)).trans hclock
  locked := by
    intro w x j found row hx hlock
    obtain ⟨hrow, hdue⟩ := hs.locked w x j found row (hsub w x hx) hlock
    exact ⟨(hkept w x _ hx hlock).trans hrow, hdue⟩
  exclusive := hs.exclusive.release fun w j hw => by
    obtain ⟨x, hx, hholds⟩ := hw
    exact ⟨x, hsub w x hx, hholds⟩

/-! ### The commit is a claim -/

/-- The other jobs. -/
def otherJobs (jobs : Jobs) (j : JobId) : List JobId :=
  jobs.rows.keys.filter fun k => decide (k ≠ j)

/-- What the commit of a transaction is to the queue. -/
def Txn.committed (jobs : Jobs) (at_ : Timestamp) (w : WorkerId) (x : Txn) :
    List (Timestamp × Workers.Event) :=
  match x.phase with
  | .flushed j _ _ now => [(at_, .claim w j (otherJobs jobs j) now)]
  | _ => []

/-- The events of the queue that a step stands for. -/
def queueEvent (s : State) : Timestamp × Event → List (Timestamp × Workers.Event)
  | (at_, .commit w) => (s.txns.get? w).elim [] (Txn.committed s.queue.jobs at_ w)
  | (at_, .other event) => [(at_, event)]
  | _ => []

/-- A pending job that is due is next when every other one is passed over. -/
theorem isNextJob_otherJobs {jobs : Jobs} (hrow : jobs.get? j = some row)
    (hdue : claimable [] at_ (j, row) = true) : isNextJob jobs (otherJobs jobs j) at_ j = true := by
  have hclaimable : ∀ e ∈ jobs.rows.entries,
      claimable (otherJobs jobs j) at_ e = true → e = (j, row) := by
    intro e he hclaimable
    have hsame : e.1 = j := by
      by_contra hne
      simp only [claimable, decide_eq_true_eq] at hclaimable
      exact hclaimable.2.2 (List.mem_filter.mpr ⟨List.mem_map_of_mem he, decide_eq_true hne⟩)
    have hget : jobs.get? e.1 = some e.2 := Dict.get?_eq_some_iff.mpr he
    rw [hsame, hrow] at hget
    exact Prod.ext hsame (Option.some.inj hget).symm
  rw [isNextJob, hrow]
  simp only [Bool.and_eq_true, List.all_eq_true, Bool.not_eq_true']
  refine ⟨?_, fun e he => Bool.eq_false_iff.mpr fun hbetter => ?_⟩
  · simp only [claimable, decide_eq_true_eq] at hdue ⊢
    exact ⟨hdue.1, hdue.2.1, fun hmem => of_decide_eq_true (List.mem_filter.mp hmem).2 rfl⟩
  · obtain ⟨hmay, hbefore⟩ := Bool.and_eq_true_iff.mp hbetter
    rw [hclaimable e he hmay] at hbefore
    simp [claimedBefore] at hbefore

theorem claimable_mono {e : JobId × ScanJob} {later : Timestamp} (hle : at_ ≤ later)
    (h : claimable [] at_ e = true) : claimable [] later e = true := by
  simp only [claimable, decide_eq_true_eq] at h ⊢
  exact ⟨h.1, h.2.1.trans hle, h.2.2⟩

/-- **A claim that commits is a claim**: at its commit, with the other jobs passed over. -/
theorem claim_of_commitClaim {queue queue' : Workers.State} {now : Timestamp}
    (hclock : queue.clock ≤ at_) (hidle : queue.held w = none) (hrow : queue.jobs.get? j = some row)
    (hdue : claimable [] at_ (j, row) = true)
    (h : commitClaim settings queue at_ w j row now = some queue') :
    Workers.step settings queue (at_, .claim w j (otherJobs queue.jobs j) now) = some queue' := by
  have hjobs : queue.jobs.update j (Queue.flush row (takeLease now settings.leaseSeconds row)) =
      queue.jobs.update j (takeLease now settings.leaseSeconds) := by
    refine Serial.update_congr fun row' hrow' => ?_
    rw [hrow] at hrow'
    rw [← Option.some.inj hrow', flush_self]
  have hclaimed : claimJob queue.jobs (otherJobs queue.jobs j) at_ now settings.leaseSeconds j =
      some (queue.jobs.update j (takeLease now settings.leaseSeconds),
        takeLease now settings.leaseSeconds row) := by
    rw [claimJob, if_pos (isNextJob_otherJobs hrow hdue), hrow, Option.map_some]
  simp only [commitClaim, hjobs] at h
  split at h
  · rw [Workers.step, if_neg (not_lt.mpr hclock)]
    simp only [Workers.stepAt, if_pos hidle]
    split
    · next hnone =>
      rw [hclaimed] at hnone
      cases hnone
    · next jobs object heq =>
      rw [hclaimed] at heq
      cases heq
      exact h
  · cases h

/-- What no claim does to the workers: whoever holds no job holds none afterwards. -/
theorem held_of_stepAt {queue queue' : Workers.State} {event : Workers.Event}
    (hclaim : isClaim event = false) (hidle : queue.held w = none)
    (h : Workers.stepAt settings queue at_ event = some queue') : queue'.held w = none := by
  cases event with
  | claim => cases hclaim
  | report w' outcome =>
    obtain ⟨held, -, hheld, -⟩ := Workers.stepAt_report h
    rw [hheld, Function.update_apply]
    split
    · rfl
    · exact hidle
  | abandon w' =>
    cases h
    show Function.update queue.held w' none w = none
    rw [Function.update_apply]
    split
    · rfl
    · exact hidle
  | enqueue | promote | requestScan | reap =>
    cases h
    exact hidle

/-! ### Every step -/

/-- **Every step keeps order**, and is to the queue what it stands for. -/
theorem Orderly.step (hs : Orderly s) {e : Timestamp × Event} (h : step settings s e = some s') :
    Orderly s' ∧ execute (Workers.step settings) s.queue (queueEvent s e) = some s'.queue := by
  obtain ⟨at_, event⟩ := e
  obtain ⟨hclock, hsteps⟩ := Steps.of_step h
  have hqueue : s.queue.clock ≤ at_ := hs.clock.trans hclock
  cases hsteps with
  | @select w rows hidle hnone hrows =>
    refine ⟨hs.set hclock hidle le_rfl (fun j found row hlock => ?_) fun j hholds => ?_, rfl⟩
    · cases hlock
    · cases hholds
  | @pass w x j found rest hx hphase hgone =>
    refine ⟨hs.set hclock (hs.idle w x hx) ((hs.started w x hx).trans hclock)
      (fun j found row hlock => ?_) fun j hholds => ?_, rfl⟩
    · cases hlock
    · cases hholds
  | @lock w x j found row rest hx hphase hfree hrow hdue =>
    refine ⟨hs.set hclock (hs.idle w x hx) ((hs.started w x hx).trans hclock)
      (fun j found row hlock => ?_) fun j hholds => ?_, rfl⟩
    · cases hlock
      exact ⟨hrow, hdue⟩
    · obtain ⟨found, row, hlock⟩ := Txn.holds_iff.mp hholds
      cases hlock
      exact Or.inr (blocked_eq_false.mp hfree).1
  | @flush w x j found row now hx hphase =>
    have hlock : x.lock = some (j, found, row) := by rw [Txn.lock, hphase]
    refine ⟨hs.set hclock (hs.idle w x hx) ((hs.started w x hx).trans hclock)
      (fun j found row hlock' => ?_) fun j hholds => ?_, rfl⟩
    · cases hlock'
      exact hs.locked w x _ _ _ hx hlock
    · obtain ⟨found, row, hlock'⟩ := Txn.holds_iff.mp hholds
      cases hlock'
      exact Or.inl ⟨x, hx, Txn.holds_iff.mpr ⟨_, _, hlock⟩⟩
  | @empty w x hx hphase =>
    refine ⟨hs.of_kept hclock hqueue (fun w' x' hx' => (Dict.get?_erase_eq_some.mp hx').2)
      (fun _ _ _ hidle => hidle) fun _ _ _ _ _ => rfl, ?_⟩
    rw [queueEvent, hx, Option.elim_some, Txn.committed, hphase]
    rfl
  | @commit w x j found row now queue hx hphase hcommit =>
    have hlock : x.lock = some (j, found, row) := by rw [Txn.lock, hphase]
    obtain ⟨hrow, hdue⟩ := hs.locked w x j found row hx hlock
    have hclaim := claim_of_commitClaim hqueue (hs.idle w x hx) hrow
      (claimable_mono ((hs.started w x hx).trans hclock) hdue) hcommit
    obtain ⟨-, job, -, -, -, hjobs, hheld, hclock', -⟩ :=
      Workers.stepAt_claim (Workers.stepAt_of_step hclaim)
    refine ⟨hs.of_kept hclock hclock'.le (fun w' x' hx' => (Dict.get?_erase_eq_some.mp hx').2)
      (fun w' x' hx' hidle => ?_) fun w' x' l hx' hl => ?_, ?_⟩
    · rw [hheld, Function.update_of_ne (Dict.get?_erase_eq_some.mp hx').1]
      exact hidle
    · -- another claim holds another row
      obtain ⟨hne, hx'⟩ := Dict.get?_erase_eq_some.mp hx'
      obtain ⟨k, found', row'⟩ := l
      have hother : k ≠ j := by
        rintro rfl
        exact hne (hs.exclusive w' w k ⟨x', hx', Txn.holds_iff.mpr ⟨_, _, hl⟩⟩
          ⟨x, hx, Txn.holds_iff.mpr ⟨_, _, hlock⟩⟩)
      rw [hjobs, Serial.get?_update_of_ne _ hother]
    · rw [queueEvent, hx, Option.elim_some, Txn.committed, hphase, execute_cons, hclaim]
      rfl
  | @rollback w =>
    exact ⟨hs.of_kept hclock hqueue (fun w' x' hx' => (Dict.get?_erase_eq_some.mp hx').2)
      (fun _ _ _ hidle => hidle) fun _ _ _ _ _ => rfl, rfl⟩
  | hold | release =>
    exact ⟨hs.of_kept hclock hqueue (fun _ _ hx => hx) (fun _ _ _ hidle => hidle)
      fun _ _ _ _ _ => rfl, rfl⟩
  | @other event queue hclaim hstep hkept =>
    refine ⟨hs.of_kept hclock (Workers.clock_of_stepAt hstep).le (fun _ _ hx => hx)
      (fun _ _ _ hidle => held_of_stepAt hclaim hidle hstep) hkept, ?_⟩
    show execute (Workers.step settings) s.queue [(at_, event)] = some queue
    rw [execute_cons, Workers.step, if_neg (not_lt.mpr hqueue), hstep]
    rfl

end Claims

end ContainerScanner
