import ContainerScanner.Foundation.Machine
import Mathlib.Data.List.Basic
import Mathlib.Logic.Function.Basic

/-!
# The scheduler lock

`main` of `app/scheduler/scheduler.py`, `try_scheduler_lock` of `app/jobs/queue.py` and the engine
of `app/db/session.py`. A replica has one session, which takes its connection from a pool and gives
it back when the transaction ends, so a replica has one connection at a time. The lock belongs to
the connection; that it is held is remembered in a local variable. The server may drop a
connection at any moment, and the pool replaces one it finds dead when it is next taken out.

## Main definitions

* `State`, `Event`, `step` — the replicas, the server, and what either does
* `Exclusive` — whoever ticks does so on the connection that holds the lock, and alone
* `Unbroken` — no connection is lost between the lock and the end of a tick that relies on it

## Main results

* `Believed.step` — what a step keeps
* `exclusive_run` — exactly which steps keep replicas apart
-/

namespace ContainerScanner

open Foundation

namespace Scheduler

abbrev ReplicaId : Type := ℕ

/-- The number of a connection; none is used twice. -/
abbrev ConnectionId : Type := ℕ

/-- Where a replica is in the loop of `main`. -/
inductive Phase where
  | stopped
  | awake
  | ticking
  | asleep
  deriving DecidableEq, Repr

structure Replica where
  phase : Phase
  /-- The local variable `holds_lock`. -/
  holdsLock : Bool
  /-- The connection of the session, or the idle one in the pool. -/
  connection : Option ConnectionId
  /-- The session has not given its connection back. -/
  inTransaction : Bool
  deriving DecidableEq, Repr

/-- No process. -/
def Replica.initial : Replica := ⟨.stopped, false, none, false⟩

structure State where
  replica : ReplicaId → Replica
  /-- The connections the server keeps open. -/
  connected : List ConnectionId
  /-- Who holds `SCHEDULER_LOCK_KEY`. -/
  holder : Option ConnectionId
  next : ConnectionId

def State.start : State := ⟨fun _ => .initial, [], none, 0⟩

inductive Event where
  /-- The process starts. -/
  | start (r : ReplicaId)
  /-- `holds_lock = queue.try_scheduler_lock(session)`. -/
  | tryLock (r : ReplicaId)
  /-- `tick(session, settings)` begins. -/
  | callTick (r : ReplicaId)
  /-- The `session.commit()` at its end. -/
  | finishTick (r : ReplicaId)
  /-- Anything raises: `session.rollback()`, and the variable is reset. -/
  | fail (r : ReplicaId)
  | wake (r : ReplicaId)
  /-- The process ends, with or without `release_scheduler_lock`. -/
  | exit (r : ReplicaId)
  /-- The server drops a connection. -/
  | drop (c : ConnectionId)
  deriving DecidableEq, Repr

variable {s s' : State} {r r' : ReplicaId} {c c' : ConnectionId} {e : Event}

def State.set (s : State) (r : ReplicaId) (replica : Replica) : State :=
  { s with replica := Function.update s.replica r replica }

/-- The server closes a connection, and its locks go with it. -/
def State.close (s : State) (c : ConnectionId) : State :=
  { s with
    connected := s.connected.filter fun c' => c' ≠ c
    holder := s.holder.filter fun c' => c' ≠ c }

/-- The connection for the next statement. One that is out already is used as it is; one from the
pool is pinged first. -/
def State.checkout (s : State) (r : ReplicaId) : State × ConnectionId :=
  match (s.replica r).connection with
  | some c =>
    if (s.replica r).inTransaction ∨ c ∈ s.connected then (s, c)
    else ({ s with connected := s.next :: s.connected, next := s.next + 1 }, s.next)
  | none => ({ s with connected := s.next :: s.connected, next := s.next + 1 }, s.next)

/-- `pg_try_advisory_lock` succeeds on a free lock, and again on one's own. -/
def State.grants (s : State) (c : ConnectionId) : Bool :=
  decide (s.holder = none ∨ s.holder = some c)

def step (s : State) : Event → Option State
  | .start r =>
    if (s.replica r).phase = .stopped then some (s.set r ⟨.awake, false, none, false⟩) else none
  | .tryLock r =>
    if (s.replica r).phase = .awake ∧ (s.replica r).holdsLock = false then
      let (t, c) := s.checkout r
      if c ∉ t.connected then some (t.set r ⟨.asleep, false, some c, false⟩)
      else if t.grants c then
        some ({ t with holder := some c }.set r ⟨.awake, true, some c, true⟩)
      else some (t.set r ⟨.asleep, false, some c, true⟩)
    else none
  | .callTick r =>
    if (s.replica r).phase = .awake ∧ (s.replica r).holdsLock = true then
      let (t, c) := s.checkout r
      some (t.set r ⟨.ticking, true, some c, true⟩)
    else none
  | .finishTick r =>
    if (s.replica r).phase = .ticking ∧ ∃ c ∈ s.connected, (s.replica r).connection = some c then
      some (s.set r { s.replica r with phase := .asleep, inTransaction := false })
    else none
  | .fail r =>
    if (s.replica r).phase = .awake ∨ (s.replica r).phase = .ticking then
      some (s.set r
        { s.replica r with phase := .asleep, holdsLock := false, inTransaction := false })
    else none
  | .wake r =>
    if (s.replica r).phase = .asleep then some (s.set r { s.replica r with phase := .awake })
    else none
  | .exit r =>
    if (s.replica r).phase = .stopped then none
    else
      match (s.replica r).connection with
      | none => some (s.set r .initial)
      | some c => some ((s.close c).set r .initial)
  | .drop c => if c ∈ s.connected then some (s.close c) else none

/-- Whoever ticks does so on the connection that holds the lock, and alone. -/
structure Exclusive (s : State) : Prop where
  holds : ∀ r, (s.replica r).phase = .ticking →
    ∃ c, (s.replica r).connection = some c ∧ s.holder = some c
  alone : ∀ r r', (s.replica r).phase = .ticking → (s.replica r').phase = .ticking → r = r'

/-- A tick does not begin on a connection dropped since the lock was taken, and is not under way
when its connection is dropped. -/
def Unbroken (s : State) : Event → Prop
  | .callTick r => ∀ c ∈ (s.replica r).connection, c ∈ s.connected
  | .drop c => ∀ r, (s.replica r).phase = .ticking → (s.replica r).connection ≠ some c
  | _ => True

/-! ### The invariant -/

/-- Connections belong to one replica each, and a replica that believes it holds the lock does, as
long as its connection lives. -/
structure Believed (s : State) : Prop where
  connected_lt : ∀ c ∈ s.connected, c < s.next
  connection_lt : ∀ r c, (s.replica r).connection = some c → c < s.next
  holder : ∀ c, s.holder = some c → c ∈ s.connected
  apart : ∀ r r' c, (s.replica r).connection = some c → (s.replica r').connection = some c → r = r'
  believes : ∀ r, (s.replica r).holdsLock = true → ∃ c, (s.replica r).connection = some c ∧
    (c ∈ s.connected → s.holder = some c)
  ticking : ∀ r, (s.replica r).phase = .ticking → (s.replica r).holdsLock = true ∧
    ∃ c, (s.replica r).connection = some c ∧ c ∈ s.connected

theorem believed_start : Believed State.start := by
  refine ⟨?_, ?_, ?_, ?_, ?_, ?_⟩ <;> simp [State.start, Replica.initial]

/-- Replicas that may rely on their connections are kept apart by the lock. -/
theorem Believed.exclusive (h : Believed s) : Exclusive s := by
  have hholds : ∀ r, (s.replica r).phase = .ticking →
      ∃ c, (s.replica r).connection = some c ∧ s.holder = some c := by
    intro r hr
    obtain ⟨hbelief, c, hc, hopen⟩ := h.ticking r hr
    obtain ⟨c', hc', hholder⟩ := h.believes r hbelief
    obtain rfl : c = c' := Option.some.inj (hc.symm.trans hc')
    exact ⟨c, hc, hholder hopen⟩
  refine ⟨hholds, fun r r' hr hr' => ?_⟩
  obtain ⟨c, hc, hholder⟩ := hholds r hr
  obtain ⟨c', hc', hholder'⟩ := hholds r' hr'
  obtain rfl : c = c' := Option.some.inj (hholder.symm.trans hholder')
  exact h.apart r r' c hc hc'

/-! ### Parts of a step -/

@[simp] theorem replica_set_self (s : State) (r : ReplicaId) (replica : Replica) :
    (s.set r replica).replica r = replica := Function.update_self ..

theorem replica_set_of_ne (s : State) (h : r' ≠ r) (replica : Replica) :
    (s.set r replica).replica r' = s.replica r' := Function.update_of_ne h ..

@[simp] theorem mem_connected_close : c' ∈ (s.close c).connected ↔ c' ∈ s.connected ∧ c' ≠ c := by
  simp [State.close]

theorem holder_close_eq_some : (s.close c).holder = some c' ↔ s.holder = some c' ∧ c' ≠ c := by
  simp [State.close, Option.filter_eq_some_iff]

/-- A replica may change as long as what it relies on is so. -/
theorem Believed.set (h : Believed s) {replica : Replica}
    (hown : ∀ c, replica.connection = some c →
      c < s.next ∧ ∀ r', r' ≠ r → (s.replica r').connection ≠ some c)
    (hbelieves : replica.holdsLock = true → ∃ c, replica.connection = some c ∧
      (c ∈ s.connected → s.holder = some c))
    (hticking : replica.phase = .ticking → replica.holdsLock = true ∧
      ∃ c, replica.connection = some c ∧ c ∈ s.connected) :
    Believed (s.set r replica) := by
  refine ⟨h.connected_lt, fun r' c hc => ?_, h.holder, fun r' r'' c hc hc' => ?_, fun r' hr' => ?_,
    fun r' hr' => ?_⟩
  · by_cases heq : r' = r
    · subst heq
      rw [replica_set_self] at hc
      exact (hown c hc).1
    · rw [replica_set_of_ne s heq] at hc
      exact h.connection_lt r' c hc
  · by_cases heq : r' = r <;> by_cases heq' : r'' = r
    · rw [heq, heq']
    · subst heq
      rw [replica_set_self] at hc
      rw [replica_set_of_ne s heq'] at hc'
      exact absurd hc' ((hown c hc).2 r'' heq')
    · subst heq'
      rw [replica_set_self] at hc'
      rw [replica_set_of_ne s heq] at hc
      exact absurd hc ((hown c hc').2 r' heq)
    · rw [replica_set_of_ne s heq] at hc
      rw [replica_set_of_ne s heq'] at hc'
      exact h.apart r' r'' c hc hc'
  · by_cases heq : r' = r
    · subst heq
      rw [replica_set_self] at hr' ⊢
      exact hbelieves hr'
    · rw [replica_set_of_ne s heq] at hr' ⊢
      exact h.believes r' hr'
  · by_cases heq : r' = r
    · subst heq
      rw [replica_set_self] at hr' ⊢
      exact hticking hr'
    · rw [replica_set_of_ne s heq] at hr' ⊢
      exact h.ticking r' hr'

/-- The connection a replica has is its own. -/
theorem Believed.own (h : Believed s) (hc : (s.replica r).connection = some c) :
    c < s.next ∧ ∀ r', r' ≠ r → (s.replica r').connection ≠ some c :=
  ⟨h.connection_lt r c hc, fun r' hne hc' => hne (h.apart r' r c hc' hc)⟩

/-- A connection that nobody ticks on may go. -/
theorem Believed.close (h : Believed s)
    (hidle : ∀ r, (s.replica r).phase = .ticking → (s.replica r).connection ≠ some c) :
    Believed (s.close c) := by
  refine ⟨fun c' hc' => h.connected_lt c' (mem_connected_close.mp hc').1, h.connection_lt,
    fun c' hc' => ?_, h.apart, fun r hr => ?_, fun r hr => ?_⟩
  · obtain ⟨hholder, hne⟩ := holder_close_eq_some.mp hc'
    exact mem_connected_close.mpr ⟨h.holder c' hholder, hne⟩
  · obtain ⟨c', hc', hholder⟩ := h.believes r hr
    refine ⟨c', hc', fun hopen => ?_⟩
    obtain ⟨hopen, hne⟩ := mem_connected_close.mp hopen
    exact holder_close_eq_some.mpr ⟨hholder hopen, hne⟩
  · obtain ⟨hbelief, c', hc', hopen⟩ := h.ticking r hr
    refine ⟨hbelief, c', hc', mem_connected_close.mpr ⟨hopen, ?_⟩⟩
    rintro rfl
    exact hidle r hr hc'

/-- A connection is the replica's own, or a new one. -/
theorem checkout_cases (s : State) (r : ReplicaId) :
    (∃ c, s.checkout r = (s, c) ∧ (s.replica r).connection = some c) ∨
    s.checkout r = ({ s with connected := s.next :: s.connected, next := s.next + 1 }, s.next) := by
  rw [State.checkout]
  split
  · next c hc =>
    split
    · exact Or.inl ⟨c, rfl, hc⟩
    · exact Or.inr rfl
  · exact Or.inr rfl

/-- Taking a connection out breaks no belief, and it is nobody else's. -/
theorem Believed.checkout (h : Believed s) (r : ReplicaId) :
    Believed (s.checkout r).1 ∧ (s.checkout r).2 < (s.checkout r).1.next ∧
      ∀ r', r' ≠ r → ((s.checkout r).1.replica r').connection ≠ some (s.checkout r).2 := by
  rcases checkout_cases s r with ⟨c, heq, hc⟩ | heq
  · rw [heq]
    exact ⟨h, h.own hc⟩
  · rw [heq]
    refine ⟨⟨?_, fun r c hc => Nat.lt_succ_of_lt (h.connection_lt r c hc),
      fun c hc => List.mem_cons_of_mem _ (h.holder c hc), h.apart, fun r hr => ?_, fun r hr => ?_⟩,
      Nat.lt_succ_self _, fun r' _ hc => Nat.lt_irrefl _ (h.connection_lt r' _ hc)⟩
    · intro c hc
      rcases List.mem_cons.mp hc with rfl | hc
      · exact Nat.lt_succ_self _
      · exact Nat.lt_succ_of_lt (h.connected_lt c hc)
    · obtain ⟨c, hc, hholder⟩ := h.believes r hr
      refine ⟨c, hc, fun hopen => hholder ?_⟩
      rcases List.mem_cons.mp hopen with rfl | hopen
      · exact absurd (h.connection_lt r _ hc) (Nat.lt_irrefl _)
      · exact hopen
    · obtain ⟨hbelief, c, hc, hopen⟩ := h.ticking r hr
      exact ⟨hbelief, c, hc, List.mem_cons_of_mem _ hopen⟩

/-- A lock is granted where no other replica can believe it holds it. -/
theorem Believed.grant (h : Believed s) (hopen : c ∈ s.connected) (hgrants : s.grants c = true)
    (hlt : c < s.next) (hother : ∀ r', r' ≠ r → (s.replica r').connection ≠ some c) :
    Believed ({ s with holder := some c }.set r ⟨.awake, true, some c, true⟩) := by
  have hnone : ∀ r', r' ≠ r → ∀ c', (s.replica r').connection = some c' →
      (c' ∈ s.connected → s.holder = some c') → c' ∉ s.connected := by
    intro r' hne c' hc' hholder hopen'
    rcases of_decide_eq_true hgrants with hfree | hmine
    · rw [hfree] at hholder
      exact absurd (hholder hopen') (by simp)
    · rw [hmine] at hholder
      exact hother r' hne (Option.some.inj (hholder hopen') ▸ hc')
  -- whoever else believes it holds the lock does so of a dead connection
  refine ⟨h.connected_lt, fun r' c' hc' => ?_, ?_, fun r' r'' c' hc' hc'' => ?_, fun r' hr' => ?_,
    fun r' hr' => ?_⟩
  · by_cases heq : r' = r
    · subst heq
      rw [replica_set_self] at hc'
      exact Option.some.inj hc' ▸ hlt
    · rw [replica_set_of_ne _ heq] at hc'
      exact h.connection_lt r' c' hc'
  · rintro c' ⟨⟩
    exact hopen
  · by_cases heq : r' = r <;> by_cases heq' : r'' = r
    · rw [heq, heq']
    · subst heq
      rw [replica_set_self] at hc'
      rw [replica_set_of_ne _ heq', ← hc'] at hc''
      exact absurd hc'' (hother r'' heq')
    · subst heq'
      rw [replica_set_self] at hc''
      rw [replica_set_of_ne _ heq, ← hc''] at hc'
      exact absurd hc' (hother r' heq)
    · rw [replica_set_of_ne _ heq] at hc'
      rw [replica_set_of_ne _ heq'] at hc''
      exact h.apart r' r'' c' hc' hc''
  · by_cases heq : r' = r
    · subst heq
      rw [replica_set_self]
      exact ⟨c, rfl, fun _ => rfl⟩
    · rw [replica_set_of_ne _ heq] at hr' ⊢
      obtain ⟨c', hc', hholder⟩ := h.believes r' hr'
      exact ⟨c', hc', fun hopen' => absurd hopen' (hnone r' heq c' hc' hholder)⟩
  · by_cases heq : r' = r
    · subst heq
      rw [replica_set_self] at hr'
      cases hr'
    · rw [replica_set_of_ne _ heq] at hr' ⊢
      exact h.ticking r' hr'

/-! ### The steps -/

theorem Believed.tryLock (h : Believed s) (hstep : step s (.tryLock r) = some s') :
    Believed s' := by
  obtain ⟨hbelieved, hlt, hother⟩ := h.checkout r
  simp only [step, Option.ite_none_right_eq_some] at hstep
  obtain ⟨-, hstep⟩ := hstep
  have hown : ∀ c, some (s.checkout r).2 = some c → c < (s.checkout r).1.next ∧
      ∀ r', r' ≠ r → ((s.checkout r).1.replica r').connection ≠ some c := by
    rintro c ⟨⟩
    exact ⟨hlt, hother⟩
  by_cases hopen : (s.checkout r).2 ∈ (s.checkout r).1.connected
  · rw [if_neg (not_not.mpr hopen)] at hstep
    by_cases hgrants : (s.checkout r).1.grants (s.checkout r).2 = true
    · rw [if_pos hgrants] at hstep
      rw [← Option.some.inj hstep]
      exact hbelieved.grant hopen hgrants hlt hother
    · rw [if_neg hgrants] at hstep
      rw [← Option.some.inj hstep]
      exact hbelieved.set hown nofun nofun
  · rw [if_pos hopen] at hstep
    rw [← Option.some.inj hstep]
    exact hbelieved.set hown nofun nofun

/-- A tick that begins on a living connection begins on the one that holds the lock. -/
theorem Believed.callTick (h : Believed s) (hlive : Unbroken s (.callTick r))
    (hstep : step s (.callTick r) = some s') : Believed s' := by
  simp only [step, Option.ite_none_right_eq_some] at hstep
  obtain ⟨⟨-, hbelief⟩, hstep⟩ := hstep
  obtain ⟨c, hc, hholder⟩ := h.believes r hbelief
  have hopen : c ∈ s.connected := hlive c hc
  have hcheckout : s.checkout r = (s, c) := by
    rw [State.checkout, hc]
    exact if_pos (Or.inr hopen)
  rw [hcheckout] at hstep
  rw [← Option.some.inj hstep]
  refine h.set (fun c' hc' => ?_) (fun _ => ⟨c, rfl, hholder⟩) fun _ => ⟨rfl, c, rfl, hopen⟩
  exact h.own (hc.trans hc')

/-- A replica that keeps its connection, and is not about to tick, breaks nothing. -/
theorem Believed.setPhase (h : Believed s) {phase : Phase} {holdsLock inTransaction : Bool}
    (hphase : phase ≠ .ticking) (hbelief : holdsLock = true → (s.replica r).holdsLock = true) :
    Believed (s.set r ⟨phase, holdsLock, (s.replica r).connection, inTransaction⟩) :=
  h.set (fun _ hc => h.own hc) (fun hheld => h.believes r (hbelief hheld))
    fun hticking => absurd hticking hphase

/-- What a step keeps. -/
theorem Believed.step (h : Believed s) (hunbroken : Unbroken s e) (hstep : step s e = some s') :
    Believed s' := by
  cases e with
  | start r =>
    simp only [Scheduler.step, Option.ite_none_right_eq_some, Option.some.injEq] at hstep
    rw [← hstep.2]
    exact h.set nofun nofun nofun
  | tryLock r => exact h.tryLock hstep
  | callTick r => exact h.callTick hunbroken hstep
  | finishTick r =>
    simp only [Scheduler.step, Option.ite_none_right_eq_some, Option.some.injEq] at hstep
    rw [← hstep.2]
    exact h.setPhase nofun id
  | fail r =>
    simp only [Scheduler.step, Option.ite_none_right_eq_some, Option.some.injEq] at hstep
    rw [← hstep.2]
    exact h.setPhase nofun nofun
  | wake r =>
    simp only [Scheduler.step, Option.ite_none_right_eq_some, Option.some.injEq] at hstep
    rw [← hstep.2]
    exact h.setPhase nofun id
  | exit r =>
    have hstopped : Believed (s.set r .initial) := h.set nofun nofun nofun
    simp only [Scheduler.step, Option.ite_none_left_eq_some] at hstep
    obtain ⟨-, hstep⟩ := hstep
    split at hstep
    · rw [← Option.some.inj hstep]
      exact hstopped
    · next c hc =>
      rw [← Option.some.inj hstep]
      have hidle : ∀ r', ((s.set r .initial).replica r').phase = .ticking →
          ((s.set r .initial).replica r').connection ≠ some c := by
        intro r' hticking hc'
        by_cases heq : r' = r
        · subst heq
          rw [replica_set_self] at hc'
          cases hc'
        · rw [replica_set_of_ne s heq] at hc'
          exact heq (h.apart r' r c hc' hc)
      exact hstopped.close hidle
  | drop c =>
    simp only [Scheduler.step, Option.ite_none_right_eq_some, Option.some.injEq] at hstep
    rw [← hstep.2]
    exact h.close hunbroken

/-- A step that breaks the lock off leaves a replica ticking without it. -/
theorem Believed.not_exclusive (h : Believed s) (hbroken : ¬ Unbroken s e)
    (hstep : Scheduler.step s e = some s') : ¬ Exclusive s' := by
  cases e with
  | start r => exact absurd trivial hbroken
  | tryLock r => exact absurd trivial hbroken
  | finishTick r => exact absurd trivial hbroken
  | fail r => exact absurd trivial hbroken
  | wake r => exact absurd trivial hbroken
  | exit r => exact absurd trivial hbroken
  | callTick r =>
    simp only [Unbroken, Option.mem_def, not_forall] at hbroken
    obtain ⟨c, hc, hclosed⟩ := hbroken
    simp only [Scheduler.step, Option.ite_none_right_eq_some] at hstep
    obtain ⟨-, hstep⟩ := hstep
    rw [← Option.some.inj hstep]
    intro hexclusive
    obtain ⟨c', hc', hholder⟩ := hexclusive.holds r (by rw [replica_set_self])
    rw [replica_set_self] at hc'
    obtain rfl : (s.checkout r).2 = c' := Option.some.inj hc'
    -- a dead connection holds no lock, and neither does a new one
    have hheld : s.holder = some (s.checkout r).2 := by
      rcases checkout_cases s r with ⟨c', heq, -⟩ | heq <;> rw [heq] at hholder ⊢ <;> exact hholder
    have hopen := h.holder _ hheld
    rcases checkout_cases s r with ⟨c', heq, hown⟩ | heq
    · rw [heq] at hopen
      obtain rfl : c' = c := Option.some.inj (hown.symm.trans hc)
      exact hclosed hopen
    · rw [heq] at hopen
      exact absurd (h.connected_lt _ hopen) (Nat.lt_irrefl _)
  | drop c =>
    simp only [Unbroken, not_forall, not_not] at hbroken
    obtain ⟨r, hticking, hc⟩ := hbroken
    simp only [Scheduler.step, Option.ite_none_right_eq_some, Option.some.injEq] at hstep
    rw [← hstep.2]
    intro hexclusive
    obtain ⟨c', hc', hholder⟩ := hexclusive.holds r hticking
    obtain rfl : c' = c := Option.some.inj (hc'.symm.trans hc)
    exact (holder_close_eq_some.mp hholder).2 rfl

/-! ### Runs -/

theorem believed_run (h : Reaches step Unbroken State.start s) : Believed s :=
  h.invariant (fun _ _ _ hs hunbroken hstep => hs.step hunbroken hstep) believed_start

/-- **Mutual exclusion.** While no connection is lost between the lock and the tick that relies on
it, whoever ticks holds the lock and ticks alone; and the first step that loses one ends that. -/
theorem exclusive_run (h : Reaches step Unbroken State.start s) :
    Exclusive s ∧ ∀ e s', step s e = some s' → (Exclusive s' ↔ Unbroken s e) := by
  have hbelieved := believed_run h
  refine ⟨hbelieved.exclusive, fun e s' hstep => ⟨fun hexclusive => ?_, fun hunbroken => ?_⟩⟩
  · by_contra hbroken
    exact hbelieved.not_exclusive hbroken hstep hexclusive
  · exact (hbelieved.step hunbroken hstep).exclusive

/-- A replica takes over from one whose process ended. -/
theorem exclusive_run_failover :
    ∃ s, (s.replica 2).phase = .ticking ∧ Exclusive s := by
  have hrun : Reaches step Unbroken State.start State.start := Reaches.refl _
  have h1 := hrun.tail (e := .start 1) trivial rfl
  have h2 := h1.tail (e := .tryLock 1) trivial rfl
  have h3 := h2.tail (e := .start 2) trivial rfl
  have h4 := h3.tail (e := .exit 1) trivial rfl
  have h5 := h4.tail (e := .tryLock 2) trivial rfl
  have h6 := h5.tail (e := .callTick 2) (by rintro c ⟨⟩; decide) rfl
  exact ⟨_, rfl, (exclusive_run h6).1⟩

/-- Two replicas. The connection of the first is dropped between two of its ticks. -/
def droppedAsleep : List Event :=
  [.start 1, .tryLock 1, .callTick 1, .finishTick 1, .drop 0, .start 2, .tryLock 2, .callTick 2,
    .wake 1, .callTick 1]

/-- The second takes the lock, and both tick. -/
theorem not_exclusive_droppedAsleep :
    ¬ ∀ s, Reaches step (fun _ _ => True) State.start s → Exclusive s := by
  intro h
  have hboth : ∃ s, execute (restrict step fun _ _ => True) State.start droppedAsleep = some s ∧
      (s.replica 1).phase = .ticking ∧ (s.replica 2).phase = .ticking := ⟨_, rfl, rfl, rfl⟩
  obtain ⟨s, hs, hfirst, hsecond⟩ := hboth
  exact absurd ((h s (reaches_of_execute hs)).alone 1 2 hfirst hsecond) (by decide)

end Scheduler

end ContainerScanner
