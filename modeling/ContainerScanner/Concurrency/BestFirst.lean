import ContainerScanner.Concurrency.Claims
import Mathlib.Data.Finset.Card

/-!
# What claims take

The order of the queue, when workers claim at once. A claim sorts the jobs as they are when it
starts and visits them later, when some have been locked, taken, promoted or put back, so there is
no moment at which the job it takes is the best one that is free. What it keeps to is said job by
job: none that stayed free the whole time is passed over.

## Main definitions

* `Free` — a job that a claim would take
* `NotPassed` — a claim that has not passed a job over
* `Taken` — a job that is locked or claimed

## Main results

* `disjoint_claims` — in every interleaving, claims are atomic and no two workers hold one job
* `free_not_passed_over` — a job that stays free is not passed over
* `concurrent_claims_take_best` — workers that claim at once take the best jobs, one each
-/

namespace ContainerScanner

open Foundation Queue Paging

namespace Claims

open Workers (WorkerId Held)

variable {settings : Settings} {s s' t t' : State} {at_ : Timestamp} {w : WorkerId} {x : Txn}
  {j b : JobId} {found row : ScanJob}

/-! ### One job a worker -/

/-- No worker reports on a claim that the reaper has ended. -/
def Fenced (s : State) (e : Timestamp × Event) : Prop :=
  ∀ q ∈ queueEvent s e, Workers.Fenced s.queue q

instance (s : State) (e : Timestamp × Event) : Decidable (Fenced s e) :=
  inferInstanceAs (Decidable (∀ q ∈ queueEvent s e, Workers.Fenced s.queue q))

/-- A scheduled job and a time-sensitive one. -/
def twoJobs : Jobs :=
  (Serial.empty.insert (newJob 1 priorityScheduled 0)).insert (newJob 2 priorityTimeSensitive 0)

theorem uniqueActive_twoJobs : UniqueActive twoJobs := by decide

/-- Two workers claim at once: the second finds the best job locked, and commits first. -/
def twoClaims : List (Timestamp × Event) :=
  let rows := [(2, newJob 2 priorityTimeSensitive 0), (1, newJob 1 priorityScheduled 0)]
  [(0, .select 1 rows), (0, .visit 1), (0, .select 2 rows), (0, .visit 2), (0, .visit 2),
    (0, .flush 2 0), (0, .commit 2), (0, .flush 1 0), (0, .commit 1)]

theorem claimedBefore_iff {e e' : JobId × ScanJob} :
    claimedBefore e.2 e'.2 = true ↔ claimKey e < claimKey e' := by
  rw [claimedBefore, decide_eq_true_eq, claimKey, claimKey, Prod.Lex.toLex_lt_toLex]
  simp only [OrderDual.toDual_lt_toDual, OrderDual.toDual_inj]

theorem claimedBefore_eq_false {e e' : JobId × ScanJob} :
    claimedBefore e.2 e'.2 = false ↔ claimKey e' ≤ claimKey e := by
  rw [Bool.eq_false_iff, ne_eq, claimedBefore_iff, not_lt]

/-- A job that a claim would take. -/
structure Free (s : State) (b : JobId) (row : ScanJob) : Prop where
  stored : s.queue.jobs.get? b = some row
  pending : row.status = .pending
  due : row.scheduledFor ≤ s.clock
  unlocked : ∀ w, ¬ s.holds w b
  idle : b ∉ s.busy

theorem free_iff : Free s b row ↔ s.queue.jobs.get? b = some row ∧ row.status = .pending ∧
    row.scheduledFor ≤ s.clock ∧ (s.txns.entries.all fun e => !e.2.holds b) = true ∧
      b ∉ s.busy := by
  have hunlocked : (s.txns.entries.all fun e => !e.2.holds b) = true ↔ ∀ w, ¬ s.holds w b := by
    simp only [List.all_eq_true, Bool.not_eq_true', Prod.forall, State.holds, not_exists, not_and,
      Bool.not_eq_true]
    exact forall₂_congr fun w x => by rw [Dict.get?_eq_some_iff]
  rw [hunlocked]
  constructor
  · intro h
    exact ⟨h.stored, h.pending, h.due, h.unlocked, h.idle⟩
  · rintro ⟨hstored, hpending, hdue, hunlocked, hidle⟩
    exact ⟨hstored, hpending, hdue, hunlocked, hidle⟩

instance (s : State) (b : JobId) (row : ScanJob) : Decidable (Free s b row) :=
  decidable_of_iff' _ free_iff

/-- The claim has not passed the job over: it has it still to visit, or has locked one that is not
after it. -/
def NotPassed (b : JobId) (row : ScanJob) (x : Txn) : Prop :=
  match x.phase with
  | .selecting rest =>
    row.scheduledFor ≤ x.statementTimestamp ∧ (b, row) ∈ rest ∧
      rest.Pairwise fun e e' => claimKey e ≤ claimKey e'
  | .locked _ found _ | .flushed _ found _ _ => claimedBefore row found = false

theorem NotPassed.ne_empty (h : NotPassed b row x) : x.phase ≠ .selecting [] := by
  intro hphase
  rw [NotPassed, hphase] at h
  cases h.2.1

theorem NotPassed.lock {row' : ScanJob} (h : NotPassed b row x)
    (hlock : x.lock = some (j, found, row')) : claimedBefore row found = false := by
  rw [Txn.lock] at hlock
  rw [NotPassed] at h
  split at hlock
  · cases hlock
  · next hphase =>
    cases hlock
    rwa [hphase] at h
  · next hphase =>
    cases hlock
    rwa [hphase] at h

/-- The first of the sorted rows is not after any of them. -/
theorem claimedBefore_head {rest : List (JobId × ScanJob)} (hb : (b, row) ∈ (j, found) :: rest)
    (hsorted : ((j, found) :: rest).Pairwise fun e e' => claimKey e ≤ claimKey e') :
    claimedBefore row found = false := by
  refine (@claimedBefore_eq_false (b, row) (j, found)).mpr ?_
  obtain hhead | hrest := List.mem_cons.mp hb
  · rw [hhead]
  · exact (List.pairwise_cons.mp hsorted).1 _ hrest

/-- **One step, while the job is free**: no claim passes it over. -/
theorem Free.notPassed_step (hfree : Free s b row) (hs : ∀ x, s.txns.get? w = some x →
      NotPassed b row x) {e : Timestamp × Event} (h : step settings s e = some s') (x : Txn)
    (hx : s'.txns.get? w = some x) : NotPassed b row x := by
  obtain ⟨at_, event⟩ := e
  obtain ⟨hclock, hsteps⟩ := Steps.of_step h
  have hunblocked : ∀ w, s.blocked w b = false := fun w =>
    blocked_eq_false.mpr ⟨fun w' _ => hfree.unlocked w', hfree.idle⟩
  cases hsteps with
  | @select w' rows hidle hnone hrows =>
    obtain ⟨-, rfl⟩ | ⟨-, hx⟩ := Dict.get?_set_eq_some.mp hx
    · have hdue : (b, row) ∈ dueJobs s.queue.jobs at_ := by
        refine List.mem_filter.mpr ⟨Dict.get?_eq_some_iff.mp hfree.stored, ?_⟩
        rw [claimable, decide_eq_true_eq]
        exact ⟨hfree.pending, hfree.due.trans hclock, List.not_mem_nil⟩
      exact ⟨hfree.due.trans hclock, hrows.perm.mem_iff.mpr hdue, hrows.sorted⟩
    · exact hs x hx
  | @pass w' x' j found rest hx' hphase hgone =>
    obtain ⟨rfl, rfl⟩ | ⟨-, hx⟩ := Dict.get?_set_eq_some.mp hx
    · have hold := hs x' hx'
      rw [NotPassed, hphase] at hold
      obtain ⟨hdue, hmem, hsorted⟩ := hold
      refine ⟨hdue, ?_, hsorted.of_cons⟩
      obtain hhead | hrest := List.mem_cons.mp hmem
      · -- the free job itself would have been locked
        obtain ⟨rfl, rfl⟩ := Prod.mk.inj hhead
        obtain hblocked | hgone := hgone
        · rw [hunblocked] at hblocked
          cases hblocked
        · have hgone := hgone row hfree.stored
          rw [claimable, decide_eq_false_iff_not] at hgone
          exact absurd ⟨hfree.pending, hdue, List.not_mem_nil⟩ hgone
      · exact hrest
    · exact hs x hx
  | @lock w' x' j found row' rest hx' hphase _ hrow hdue =>
    obtain ⟨rfl, rfl⟩ | ⟨-, hx⟩ := Dict.get?_set_eq_some.mp hx
    · have hold := hs x' hx'
      rw [NotPassed, hphase] at hold
      exact claimedBefore_head hold.2.1 hold.2.2
    · exact hs x hx
  | @flush w' x' j found row' now hx' hphase =>
    obtain ⟨rfl, rfl⟩ | ⟨-, hx⟩ := Dict.get?_set_eq_some.mp hx
    · have hold := hs x' hx'
      rw [NotPassed, hphase] at hold
      exact hold
    · exact hs x hx
  | empty | commit | rollback => exact hs x (Dict.get?_erase_eq_some.mp hx).2
  | hold | release | other => exact hs x hx

/-- **A job that stays free is not passed over.** From where a worker has no claim open, whatever
everybody does, as long as the job is due and nobody locks or changes it, the worker's claim does
not come back with nothing, and not with a job that the statement found after it. -/
theorem free_not_passed_over (hnone : s.txns.get? w = none)
    (hrun : Reaches (step settings) (fun s _ => Free s b row) s t) (hx : t.txns.get? w = some x) :
    x.phase ≠ .selecting [] ∧
      ∀ j found row', x.lock = some (j, found, row') → claimedBefore row found = false := by
  have hnot : ∀ x, t.txns.get? w = some x → NotPassed b row x := by
    refine hrun.invariant (I := fun s => ∀ x, s.txns.get? w = some x → NotPassed b row x)
      (fun s e s' hs hfree hstep => hfree.notPassed_step hs hstep) fun x hx => ?_
    rw [hnone] at hx
    cases hx
  exact ⟨(hnot x hx).ne_empty, fun j found row' hlock => (hnot x hx).lock hlock⟩

/-- The first worker locks the time-sensitive job, which was free until then. -/
theorem free_not_passed_over_twoJobs :
    ∃ t x, execute (restrict (step {}) fun s _ => Free s 2 (newJob 2 priorityTimeSensitive 0))
        (State.start (Workers.State.start twoJobs uniqueActive_twoJobs 0)) (twoClaims.take 2) =
          some t ∧
      t.txns.get? 1 = some x ∧ x.holds 2 = true ∧ x.phase ≠ .selecting [] := by
  have hrun : (execute
      (restrict (step {}) fun s _ => Free s 2 (newJob 2 priorityTimeSensitive 0))
      (State.start (Workers.State.start twoJobs uniqueActive_twoJobs 0)) (twoClaims.take 2)).map
        (fun t => (t.txns.get? 1).map fun x => x.holds 2) = some (some true) := by decide +kernel
  obtain ⟨t, ht, hx⟩ := Option.map_eq_some_iff.mp hrun
  obtain ⟨x, hx, hholds⟩ := Option.map_eq_some_iff.mp hx
  exact ⟨t, x, ht, hx, hholds, (free_not_passed_over rfl (reaches_of_execute ht) hx).1⟩

/-! ### Nothing but claims -/

/-- The worker that takes a step of its claim. -/
def claimer : Event → Option WorkerId
  | .select w _ | .visit w | .flush w _ | .commit w => some w
  | _ => none

/-- The workers claim, and nobody does anything else. -/
def OnlyClaims (workers : Finset WorkerId) (_ : State) (e : Timestamp × Event) : Prop :=
  ∃ w ∈ workers, claimer e.2 = some w

instance (workers : Finset WorkerId) (s : State) (e : Timestamp × Event) :
    Decidable (OnlyClaims workers s e) :=
  inferInstanceAs (Decidable (∃ w ∈ workers, claimer e.2 = some w))

/-- The rows the claim knows are those of the table. -/
def Txn.Knows (jobs : Jobs) (x : Txn) : Prop :=
  match x.phase with
  | .selecting rest => ∀ e ∈ rest, jobs.get? e.1 = some e.2
  | .locked j found _ | .flushed j found _ _ => jobs.get? j = some found

/-- The job was pending, and is locked or running. -/
def Taken (jobs : Jobs) (t : State) (j : JobId) : Prop :=
  (∃ row, jobs.get? j = some row ∧ row.status = .pending) ∧
    ((∃ w, t.holds w j) ∨ ∃ row, t.queue.jobs.get? j = some row ∧ row.status = .running)

/-- The worker has taken the job. -/
def Owns (t : State) (w : WorkerId) (j : JobId) : Prop :=
  t.holds w j ∨ ∃ held, t.queue.held w = some held ∧ held.job = j

/-- What claims leave of the queue they started on. -/
structure Closed (workers : Finset WorkerId) (queue : Workers.State) (t : State) : Prop where
  orderly : Orderly t
  busy : t.busy = []
  clock : queue.clock ≤ t.clock
  rows : ∀ j, t.queue.jobs.get? j = queue.jobs.get? j ∨
    ∃ row row', queue.jobs.get? j = some row ∧ row.status = .pending ∧
      t.queue.jobs.get? j = some row' ∧ row'.status = .running
  knows : ∀ w x, t.txns.get? w = some x → w ∈ workers ∧ x.Knows queue.jobs
  owner : ∀ j, Taken queue.jobs t j → ∃ w ∈ workers, Owns t w j

theorem not_taken_start (queue : Workers.State) (j : JobId) :
    ¬ Taken queue.jobs (State.start queue) j := by
  rintro ⟨⟨row, hrow, hpending⟩, ⟨w, x, hx, -⟩ | ⟨row', hrow', hrunning⟩⟩
  · cases hx
  · have hsame : row' = row := Option.some.inj (hrow'.symm.trans hrow)
    rw [hsame, hpending] at hrunning
    cases hrunning

theorem closed_start (workers : Finset WorkerId) (queue : Workers.State) :
    Closed workers queue (State.start queue) where
  orderly := orderly_start queue
  busy := rfl
  clock := le_rfl
  rows := fun _ => Or.inl rfl
  knows := fun _ _ hx => by cases hx
  owner := fun j htaken => absurd htaken (not_taken_start queue j)

/-- A job that is not taken is as it was, and free. -/
theorem Closed.free {workers : Finset WorkerId} {queue : Workers.State}
    (h : Closed workers queue t) (hrow : queue.jobs.get? b = some row)
    (hpending : row.status = .pending) (hdue : row.scheduledFor ≤ queue.clock)
    (hnot : ¬ Taken queue.jobs t b) : Free t b row where
  stored := by
    obtain hsame | ⟨_, row', -, -, hrow', hrunning⟩ := h.rows b
    · exact hsame.trans hrow
    · exact absurd ⟨⟨row, hrow, hpending⟩, Or.inr ⟨row', hrow', hrunning⟩⟩ hnot
  pending := hpending
  due := hdue.trans h.clock
  unlocked := fun w hholds => hnot ⟨⟨row, hrow, hpending⟩, Or.inl ⟨w, hholds⟩⟩
  idle := by
    rw [h.busy]
    exact List.not_mem_nil

/-- What a step of a claim does to locks and rows. -/
inductive Effect (settings : Settings) (t t' : State) : Prop where
  /-- Nothing. -/
  | none (hqueue : t'.queue = t.queue) (hholds : ∀ w j, t'.holds w j ↔ t.holds w j)
  /-- It locks a row. -/
  | locks (w : WorkerId) (j : JobId) (hqueue : t'.queue = t.queue)
      (hnone : ∀ k, ¬ t.holds w k) (hidle : t.queue.held w = none)
      (hrow : ∃ row, t.queue.jobs.get? j = some row ∧ row.status = .pending)
      (hholds : ∀ w' k, t'.holds w' k ↔ w' = w ∧ k = j ∨ t.holds w' k)
  /-- It commits the job it has locked. -/
  | commits (w : WorkerId) (j : JobId) (row : ScanJob) (now : Timestamp) (held : Held)
      (hlocked : t.holds w j) (hrow : t.queue.jobs.get? j = some row)
      (hpending : row.status = .pending)
      (hjobs : ∀ k, t'.queue.jobs.get? k =
        if k = j then some (takeLease now settings.leaseSeconds row) else t.queue.jobs.get? k)
      (hheld : t'.queue.held = Function.update t.queue.held w (some held))
      (hheldJob : held.job = j)
      (hholds : ∀ w' k, t'.holds w' k ↔ w' ≠ w ∧ t.holds w' k)

theorem holds_set {queue : Workers.State} {busy : List JobId} {w' : WorkerId} :
    (⟨queue, at_, t.txns.set w x, busy⟩ : State).holds w' j ↔
      w' = w ∧ x.holds j = true ∨ w' ≠ w ∧ t.holds w' j := by
  simp only [State.holds, Dict.get?_set_eq_some]
  constructor
  · rintro ⟨x', ⟨rfl, rfl⟩ | ⟨hne, hx'⟩, hholds⟩
    · exact Or.inl ⟨rfl, hholds⟩
    · exact Or.inr ⟨hne, x', hx', hholds⟩
  · rintro (⟨rfl, hholds⟩ | ⟨hne, x', hx', hholds⟩)
    · exact ⟨x, Or.inl ⟨rfl, rfl⟩, hholds⟩
    · exact ⟨x', Or.inr ⟨hne, hx'⟩, hholds⟩

theorem holds_erase {queue : Workers.State} {busy : List JobId} {w' : WorkerId} :
    (⟨queue, at_, t.txns.erase w, busy⟩ : State).holds w' j ↔ w' ≠ w ∧ t.holds w' j := by
  simp only [State.holds, Dict.get?_erase_eq_some]
  constructor
  · rintro ⟨x', ⟨hne, hx'⟩, hholds⟩
    exact ⟨hne, x', hx', hholds⟩
  · rintro ⟨hne, x', hx', hholds⟩
    exact ⟨x', ⟨hne, hx'⟩, hholds⟩

theorem holds_of_get? (hx : t.txns.get? w = some x) : t.holds w j ↔ x.holds j = true := by
  constructor
  · rintro ⟨x', hx', hholds⟩
    rwa [← Option.some.inj (hx'.symm.trans hx)]
  · exact fun hholds => ⟨x, hx, hholds⟩

/-- A claim that goes on with the locks it has changes no lock. -/
theorem holds_set_of_lock {x' : Txn} {queue : Workers.State} {busy : List JobId} {w' : WorkerId}
    (hx : t.txns.get? w = some x) (hlock : x'.lock = x.lock) :
    (⟨queue, at_, t.txns.set w x', busy⟩ : State).holds w' j ↔ t.holds w' j := by
  rw [holds_set]
  by_cases hw : w' = w
  · subst hw
    rw [holds_of_get? hx, Txn.holds, Txn.holds, hlock]
    simp
  · simp [hw]

theorem not_holds_of_lock (hx : t.txns.get? w = some x) (hlock : x.lock = none) :
    ¬ t.holds w j := by
  rw [holds_of_get? hx, Txn.holds, hlock]
  simp

theorem effect_of_step (ht : Orderly t) {workers : Finset WorkerId} {e : Timestamp × Event}
    (honly : OnlyClaims workers t e) (h : step settings t e = some t') : Effect settings t t' := by
  obtain ⟨at_, event⟩ := e
  obtain ⟨v, -, hv⟩ := honly
  obtain ⟨hclock, hsteps⟩ := Steps.of_step h
  cases hsteps with
  | @select w rows hidle hnone hrows =>
    refine .none rfl fun w' j => ?_
    rw [holds_set]
    by_cases hw : w' = w
    · subst hw
      simp [State.holds, hnone, Txn.holds, Txn.lock]
    · simp [hw]
  | @pass w x j found rest hx hphase hgone =>
    refine .none rfl fun w' j => holds_set_of_lock hx ?_
    rw [Txn.lock, Txn.lock, hphase]
  | @lock w x j found row rest hx hphase hfree hrow hdue =>
    have hlock : x.lock = none := by rw [Txn.lock, hphase]
    simp only [claimable, decide_eq_true_eq] at hdue
    refine .locks w j rfl (fun k => not_holds_of_lock hx hlock) (ht.idle w x hx)
      ⟨row, hrow, hdue.1⟩ fun w' k => ?_
    rw [holds_set]
    have hnew : ({ x with phase := .locked j found row } : Txn).holds k = true ↔ k = j := by
      simp [Txn.holds, Txn.lock, eq_comm]
    rw [hnew]
    by_cases hw : w' = w
    · subst hw
      simp [not_holds_of_lock hx hlock]
    · simp [hw]
  | @flush w x j found row now hx hphase =>
    refine .none rfl fun w' j => holds_set_of_lock hx ?_
    rw [Txn.lock, Txn.lock, hphase]
  | @empty w x hx hphase =>
    have hlock : x.lock = none := by rw [Txn.lock, hphase]
    refine .none rfl fun w' j => ?_
    rw [holds_erase]
    refine ⟨fun hholds => hholds.2, fun hholds => ⟨?_, hholds⟩⟩
    rintro rfl
    exact not_holds_of_lock hx hlock hholds
  | @commit w x j found row now queue hx hphase hcommit =>
    have hlock : x.lock = some (j, found, row) := by rw [Txn.lock, hphase]
    obtain ⟨hrow, hdue⟩ := ht.locked w x j found row hx hlock
    have hclaim := claim_of_commitClaim (ht.clock.trans hclock) (ht.idle w x hx) hrow
      (claimable_mono ((ht.started w x hx).trans hclock) hdue) hcommit
    obtain ⟨-, job, hjob, hpending, -, hjobs, hheld, -⟩ :=
      Workers.stepAt_claim (Workers.stepAt_of_step hclaim)
    refine .commits w j job now _ ⟨x, hx, Txn.holds_iff.mpr ⟨_, _, hlock⟩⟩ hjob hpending
      (fun k => ?_) hheld rfl fun w' k => holds_erase
    show queue.jobs.get? k = _
    rw [hjobs, Serial.get?_update, hjob, Option.map_some]
  | rollback | hold | release | other => cases hv

theorem clock_step {e : Timestamp × Event} (h : step settings t e = some t') :
    t.clock ≤ t'.clock := by
  obtain ⟨at_, event⟩ := e
  obtain ⟨hclock, hsteps⟩ := Steps.of_step h
  cases hsteps <;> exact hclock

section Closed

variable {workers : Finset WorkerId} {queue : Workers.State} {e : Timestamp × Event}

theorem holds_unique {k : JobId} (hj : t.holds w j) (hk : t.holds w k) : j = k := by
  obtain ⟨x, hx, hlock⟩ := hj
  rw [holds_of_get? hx] at hk
  obtain ⟨_, _, hj⟩ := Txn.holds_iff.mp hlock
  obtain ⟨_, _, hk⟩ := Txn.holds_iff.mp hk
  rw [hj] at hk
  exact (Prod.mk.inj (Option.some.inj hk)).1

/-- Whoever has taken a job keeps it. -/
theorem Effect.owns (heffect : Effect settings t t') (ht : Orderly t) (h : Owns t w j) :
    Owns t' w j := by
  cases heffect with
  | none hqueue hholds =>
    rw [Owns, hqueue, hholds]
    exact h
  | locks w' k hqueue _ _ _ hholds =>
    rw [Owns, hqueue, hholds]
    exact h.imp_left Or.inr
  | commits w' k row now held hlocked _ _ _ hheld hheldJob hholds =>
    rw [Owns, hholds, hheld]
    by_cases hw : w = w'
    · subst hw
      refine Or.inr ⟨held, Function.update_self _ _ _, ?_⟩
      obtain hlocked' | ⟨held', hheld', -⟩ := h
      · rw [hheldJob, holds_unique hlocked hlocked']
      · obtain ⟨x, hx, -⟩ := hlocked
        rw [ht.idle w x hx] at hheld'
        cases hheld'
    · rw [Function.update_of_ne hw]
      exact h.imp_left fun hlocked' => ⟨hw, hlocked'⟩

/-- What is taken stays taken. -/
theorem Effect.taken (heffect : Effect settings t t') {jobs : Jobs} (h : Taken jobs t j) :
    Taken jobs t' j := by
  refine ⟨h.1, ?_⟩
  cases heffect with
  | none hqueue hholds =>
    simp only [hqueue, hholds]
    exact h.2
  | locks w k hqueue _ _ _ hholds =>
    rw [hqueue]
    exact h.2.imp_left (Exists.imp fun w' hlocked => (hholds w' j).mpr (Or.inr hlocked))
  | commits w k row now held hlocked _ _ hjobs _ _ hholds =>
    by_cases hk : j = k
    · refine Or.inr ⟨_, (hjobs j).trans (if_pos hk), rfl⟩
    · rw [hjobs, if_neg hk]
      refine h.2.imp_left (Exists.imp fun w' hlocked' => (hholds w' j).mpr ⟨?_, hlocked'⟩)
      rintro rfl
      exact hk (holds_unique hlocked' hlocked)

/-- What is taken was taken, or has just been locked. -/
theorem Effect.of_taken (heffect : Effect settings t t') {jobs : Jobs} (h : Taken jobs t' j) :
    Taken jobs t j ∨ ∃ w, t'.holds w j := by
  obtain ⟨hpending, hlocked | ⟨row', hrow', hrunning⟩⟩ := h
  · exact Or.inr hlocked
  · left
    refine ⟨hpending, ?_⟩
    cases heffect with
    | none hqueue | locks _ _ hqueue =>
      rw [hqueue] at hrow'
      exact Or.inr ⟨row', hrow', hrunning⟩
    | commits w k row now held hlocked _ _ hjobs =>
      rw [hjobs] at hrow'
      split at hrow'
      · next hk =>
        subst hk
        exact Or.inl ⟨w, hlocked⟩
      · exact Or.inr ⟨row', hrow', hrunning⟩

/-- A pending job is as it was. -/
theorem Closed.of_pending (h : Closed workers queue t) (hrow : t.queue.jobs.get? j = some row)
    (hpending : row.status = .pending) : queue.jobs.get? j = some row := by
  obtain hsame | ⟨_, row', -, -, hrow', hrunning⟩ := h.rows j
  · exact hsame.symm.trans hrow
  · rw [Option.some.inj (hrow'.symm.trans hrow), hpending] at hrunning
    cases hrunning

theorem Closed.knows_step (h : Closed workers queue t) (honly : OnlyClaims workers t e)
    (hstep : Claims.step settings t e = some t') (hx : t'.txns.get? w = some x) :
    w ∈ workers ∧ x.Knows queue.jobs := by
  obtain ⟨at_, event⟩ := e
  obtain ⟨v, hmem, hv⟩ := honly
  obtain ⟨-, hsteps⟩ := Steps.of_step hstep
  cases hsteps with
  | @select w' rows _ _ hrows =>
    obtain ⟨rfl, rfl⟩ | ⟨-, hx⟩ := Dict.get?_set_eq_some.mp hx
    · refine ⟨Option.some.inj hv ▸ hmem, fun entry hentry => ?_⟩
      obtain ⟨hstored, hdue⟩ := List.mem_filter.mp (hrows.perm.subset hentry)
      simp only [claimable, decide_eq_true_eq] at hdue
      exact h.of_pending (Dict.get?_eq_some_iff.mpr hstored) hdue.1
    · exact h.knows w x hx
  | @pass w' x' j found rest hx' hphase =>
    obtain ⟨rfl, rfl⟩ | ⟨-, hx⟩ := Dict.get?_set_eq_some.mp hx
    · obtain ⟨hworker, hknows⟩ := h.knows w x' hx'
      rw [Txn.Knows, hphase] at hknows
      exact ⟨hworker, fun entry hentry => hknows entry (List.mem_cons_of_mem _ hentry)⟩
    · exact h.knows w x hx
  | @lock w' x' j found row rest hx' hphase =>
    obtain ⟨rfl, rfl⟩ | ⟨-, hx⟩ := Dict.get?_set_eq_some.mp hx
    · obtain ⟨hworker, hknows⟩ := h.knows w x' hx'
      rw [Txn.Knows, hphase] at hknows
      exact ⟨hworker, hknows _ List.mem_cons_self⟩
    · exact h.knows w x hx
  | @flush w' x' j found row now hx' hphase =>
    obtain ⟨rfl, rfl⟩ | ⟨-, hx⟩ := Dict.get?_set_eq_some.mp hx
    · obtain ⟨hworker, hknows⟩ := h.knows w x' hx'
      rw [Txn.Knows, hphase] at hknows
      exact ⟨hworker, hknows⟩
    · exact h.knows w x hx
  | empty | commit => exact h.knows w x (Dict.get?_erase_eq_some.mp hx).2
  | rollback | hold | release | other => cases hv

theorem busy_of_onlyClaims (honly : OnlyClaims workers t e)
    (hstep : Claims.step settings t e = some t') : t'.busy = t.busy := by
  obtain ⟨at_, event⟩ := e
  obtain ⟨v, -, hv⟩ := honly
  obtain ⟨-, hsteps⟩ := Steps.of_step hstep
  cases hsteps with
  | hold | release => cases hv
  | _ => rfl

/-- **One step of a claim**, when nobody does anything else. -/
theorem Closed.step (h : Closed workers queue t) (honly : OnlyClaims workers t e)
    (hstep : Claims.step settings t e = some t') : Closed workers queue t' where
  orderly := (h.orderly.step hstep).1
  busy := (busy_of_onlyClaims honly hstep).trans h.busy
  clock := h.clock.trans (clock_step hstep)
  rows := by
    intro j
    cases effect_of_step h.orderly honly hstep with
    | none hqueue | locks _ _ hqueue =>
      rw [hqueue]
      exact h.rows j
    | commits w k row now held _ hrow hpending hjobs =>
      rw [hjobs]
      split
      · next hk =>
        subst hk
        exact Or.inr ⟨row, _, h.of_pending hrow hpending, hpending, rfl, rfl⟩
      · exact h.rows j
  knows := fun w x hx => h.knows_step honly hstep hx
  owner := by
    intro j htaken
    have heffect := effect_of_step h.orderly honly hstep
    obtain htaken | ⟨w, x, hx, hlocked⟩ := heffect.of_taken htaken
    · obtain ⟨w, hw, howns⟩ := h.owner j htaken
      exact ⟨w, hw, heffect.owns h.orderly howns⟩
    · exact ⟨w, (h.knows_step honly hstep hx).1, Or.inl ⟨x, hx, hlocked⟩⟩

/-- A due job that is not taken was passed over by nobody. -/
def Best (queue : Workers.State) (t : State) : Prop :=
  ∀ b row, queue.jobs.get? b = some row → row.status = .pending →
    row.scheduledFor ≤ queue.clock → ¬ Taken queue.jobs t b →
      (∀ w x, t.txns.get? w = some x → NotPassed b row x) ∧
        ∀ j row', Taken queue.jobs t j → queue.jobs.get? j = some row' →
          claimedBefore row row' = false

theorem best_start (queue : Workers.State) : Best queue (State.start queue) := by
  intro b row _ _ _ _
  refine ⟨fun w x hx => ?_, fun j row' htaken => absurd htaken (not_taken_start queue j)⟩
  cases hx

theorem Closed.best_step (h : Closed workers queue t) (hbest : Best queue t)
    (honly : OnlyClaims workers t e) (hstep : Claims.step settings t e = some t') :
    Best queue t' := by
  intro b row hrow hpending hdue hnot
  have heffect := effect_of_step h.orderly honly hstep
  have hfree := h.free hrow hpending hdue fun htaken => hnot (heffect.taken htaken)
  obtain ⟨hpassed, hbetter⟩ :=
    hbest b row hrow hpending hdue fun htaken => hnot (heffect.taken htaken)
  have hpassed' : ∀ w x, t'.txns.get? w = some x → NotPassed b row x :=
    fun w => hfree.notPassed_step (hpassed w) hstep
  refine ⟨hpassed', fun j row' htaken hrow' => ?_⟩
  obtain htaken | ⟨w, x, hx, hlocked⟩ := heffect.of_taken htaken
  · exact hbetter j row' htaken hrow'
  · -- the job was locked as the table had it at the start
    obtain ⟨found, locked, hlock⟩ := Txn.holds_iff.mp hlocked
    have hknows := (h.knows_step honly hstep hx).2
    have hfound : queue.jobs.get? j = some found := by
      rw [Txn.lock] at hlock
      rw [Txn.Knows] at hknows
      split at hlock
      · cases hlock
      all_goals
        next hphase =>
          cases hlock
          rwa [hphase] at hknows
    rw [Option.some.inj (hrow'.symm.trans hfound)]
    exact (hpassed' w x hx).lock hlock

theorem best_of_reaches
    (hrun : Reaches (Claims.step settings) (OnlyClaims workers) (State.start queue) t) :
    Closed workers queue t ∧ Best queue t :=
  hrun.invariant (I := fun t => Closed workers queue t ∧ Best queue t)
    (fun _ _ _ hs honly hstep => ⟨hs.1.step honly hstep, hs.1.best_step hs.2 honly hstep⟩)
    ⟨closed_start workers queue, best_start queue⟩

/-- A worker owns one job. -/
theorem Owns.unique (ht : Orderly t) {k : JobId} (hj : Owns t w j) (hk : Owns t w k) : j = k := by
  have hidle : ∀ k, t.holds w k → t.queue.held w = none := by
    rintro k ⟨x, hx, -⟩
    exact ht.idle w x hx
  obtain hj | ⟨held, hheld, rfl⟩ := hj <;> obtain hk | ⟨held', hheld', rfl⟩ := hk
  · exact holds_unique hj hk
  · rw [hidle j hj] at hheld'
    cases hheld'
  · rw [hidle k hk] at hheld
    cases hheld
  · rw [Option.some.inj (hheld.symm.trans hheld')]

/-- When all that was due is taken and a worker has nothing, there were fewer jobs than workers. -/
theorem Closed.length_lt (h : Closed workers queue t) {due : List JobId} (hdue : due.Nodup)
    (htaken : ∀ b ∈ due, Taken queue.jobs t b) (hworker : w ∈ workers)
    (hnothing : ∀ b, ¬ Owns t w b) : due.length < workers.card := by
  choose! owner hmem howns using fun b hb => h.owner b (htaken b hb)
  have hcard : due.toFinset.card ≤ (workers.erase w).card := by
    refine Finset.card_le_card_of_injOn owner (fun b hb => ?_) fun b hb b' hb' heq => ?_
    · have hb := List.mem_toFinset.mp hb
      refine Finset.mem_erase.mpr ⟨?_, hmem b hb⟩
      rintro heq
      exact hnothing b (heq ▸ howns b hb)
    · have hb := howns b (List.mem_toFinset.mp hb)
      have hb' := howns b' (List.mem_toFinset.mp hb')
      rw [heq] at hb
      exact hb.unique h.orderly hb'
  rw [List.toFinset_card_of_nodup hdue] at hcard
  exact hcard.trans_lt (Finset.card_erase_lt_of_mem hworker)

/-- **Claims at once take the best.** When workers claim, in any interleaving, and nobody does
anything else, no due job that is left is better than one that was taken; a worker that finds
nothing leaves no due job; and with as many due jobs as workers none finds nothing. -/
theorem concurrent_claims_take_best
    (hrun : Reaches (Claims.step settings) (OnlyClaims workers) (State.start queue) t) :
    (∀ b row, queue.jobs.get? b = some row → row.status = .pending →
      row.scheduledFor ≤ queue.clock → ¬ Taken queue.jobs t b →
        (∀ w x, t.txns.get? w = some x → x.phase ≠ .selecting []) ∧
          ∀ j row', Taken queue.jobs t j → queue.jobs.get? j = some row' →
            claimedBefore row row' = false) ∧
    (workers.card ≤ (dueJobs queue.jobs queue.clock).length →
      ∀ w x, t.txns.get? w = some x → x.phase ≠ .selecting []) := by
  obtain ⟨hclosed, hbest⟩ := best_of_reaches hrun
  have hnonempty : ∀ b row, queue.jobs.get? b = some row → row.status = .pending →
      row.scheduledFor ≤ queue.clock → ¬ Taken queue.jobs t b →
        ∀ w x, t.txns.get? w = some x → x.phase ≠ .selecting [] :=
    fun b row hrow hpending hdue hnot w x hx =>
      ((hbest b row hrow hpending hdue hnot).1 w x hx).ne_empty
  refine ⟨fun b row hrow hpending hdue hnot => ⟨hnonempty b row hrow hpending hdue hnot,
    (hbest b row hrow hpending hdue hnot).2⟩, fun hmany w x hx hphase => ?_⟩
  have hlock : x.lock = none := by rw [Txn.lock, hphase]
  have htaken : ∀ b ∈ (dueJobs queue.jobs queue.clock).map Prod.fst, Taken queue.jobs t b := by
    intro b hb
    obtain ⟨e, he, rfl⟩ := List.mem_map.mp hb
    obtain ⟨hstored, hdue⟩ := List.mem_filter.mp he
    simp only [claimable, decide_eq_true_eq] at hdue
    by_contra hnot
    exact hnonempty e.1 e.2 (Dict.get?_eq_some_iff.mpr hstored) hdue.1 hdue.2.1 hnot w x hx hphase
  have hnodup : ((dueJobs queue.jobs queue.clock).map Prod.fst).Nodup :=
    queue.jobs.rows.nodup_keys.sublist (List.filter_sublist.map Prod.fst)
  refine absurd hmany (not_le.mpr ?_)
  rw [← List.length_map (f := Prod.fst)]
  refine hclosed.length_lt hnodup htaken (hclosed.knows w x hx).1 fun b howns => ?_
  obtain hholds | ⟨held, hheld, -⟩ := howns
  · exact not_holds_of_lock hx hlock hholds
  · rw [hclosed.orderly.idle w x hx] at hheld
    cases hheld

/-- After the first commit the second job is claimed and the best one is locked. -/
theorem concurrent_claims_take_best_twoClaims :
    ∃ t, execute (restrict (step {}) (OnlyClaims {1, 2}))
        (State.start (Workers.State.start twoJobs uniqueActive_twoJobs 0)) (twoClaims.take 7) =
          some t ∧
      ∀ w x, t.txns.get? w = some x → x.phase ≠ .selecting [] := by
  have hrun : (execute (restrict (step {}) (OnlyClaims {1, 2}))
      (State.start (Workers.State.start twoJobs uniqueActive_twoJobs 0))
        (twoClaims.take 7)).isSome := by decide +kernel
  obtain ⟨t, ht⟩ := Option.isSome_iff_exists.mp hrun
  exact ⟨t, ht, (concurrent_claims_take_best (reaches_of_execute ht)).2 (by decide)⟩

end Closed

end Claims

end ContainerScanner
