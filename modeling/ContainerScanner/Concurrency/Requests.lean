import ContainerScanner.Jobs.Workers

/-!
# A request in two statements

`request_scan` of `app/api/routes/images.py` tries to put a job in, and when it is refused and the
request is urgent, to pull the active job forward. Between the two statements the job may be
claimed, promoted by another request, or over; it may even be back. Whatever happens, the answer is
one that the endpoint could have given in one go at some moment of the request.

A statement is one step. What is not: when the endpoint finds nothing to pull forward it leaves
without a commit, and all that its first statement has changed is the sequence of the table.

## Main definitions

* `State`, `Event`, `step` — the queue with requests between their statements
* `Saturated` — a moment at which a request has nothing to do
* `Linearized` — an answer that the endpoint could have given in one go

## Main results

* `active_stepAt` — a job that waits is still active after any one step
* `requests_linearizable` — so is every answer of every run
-/

namespace ContainerScanner

open Foundation Queue

namespace Requests

/-! ### The machine -/

abbrev ClientId : Type := ℕ

/-- The priority that a request asks for. -/
def askedPriority (timeSensitive : Bool) : ℤ :=
  if timeSensitive then priorityTimeSensitive else priorityScheduled

/-- An urgent request whose insert was refused. -/
structure Open where
  imageId : ImageId
  /-- The table before the refused insert, and after it. -/
  refused : Jobs × Jobs
  /-- Every table there has been since the request began. -/
  moments : List Jobs

structure Answer where
  imageId : ImageId
  timeSensitive : Bool
  /-- The clock by which the answering statement was built. -/
  now : Timestamp
  response : ScanRequestAccepted
  refused : Option (Jobs × Jobs)
  moments : List Jobs
  /-- The table before the answering statement. -/
  before : Jobs
  after : Jobs

structure State where
  queue : Workers.State
  /-- The requests between their statements. -/
  waiting : ClientId → Option Open
  /-- Read by no step. -/
  answers : List Answer

def State.start (jobs : Jobs) (h : UniqueActive jobs) (clock : Timestamp) : State :=
  ⟨Workers.State.start jobs h clock, fun _ => none, []⟩

inductive Event where
  | other (event : Workers.Event)
  /-- The first statement of a request, for an image that exists. -/
  | insert (client : ClientId) (imageId : ImageId) (timeSensitive : Bool) (now : Timestamp)
  /-- The second one. -/
  | promote (client : ClientId) (now : Timestamp)
  /-- The client is gone, and its transaction is rolled back. -/
  | cancel (client : ClientId)

/-- What goes to the queue. -/
def queueEvent (s : State) : Event → Option Workers.Event
  | .other event => some event
  | .insert _ imageId timeSensitive now =>
    some (.enqueue imageId (askedPriority timeSensitive) now)
  | .promote client now => (s.waiting client).map fun o => .promote o.imageId now
  | .cancel _ => none

def Open.note (o : Open) (jobs : Jobs) : Open := { o with moments := jobs :: o.moments }

/-- The queue has moved, and every open request has seen it. -/
def State.moved (s : State) (queue : Workers.State) : State :=
  { s with queue := queue, waiting := fun c => (s.waiting c).map fun o => o.note queue.jobs }

/-- The request has its answer. -/
def State.answered (s : State) (client : ClientId) (a : Answer) : State :=
  { s with waiting := Function.update s.waiting client none, answers := a :: s.answers }

/-- The answer to an insert, unless an urgent one was refused. -/
def insertAnswer (timeSensitive : Bool) : Option JobId → ScanRequestAccepted
  | some jobId => ⟨"queued", some jobId, timeSensitive⟩
  | none => ⟨"already_queued", none, timeSensitive⟩

def promoteAnswer : Option JobId → ScanRequestAccepted
  | some jobId => ⟨"promoted", some jobId, true⟩
  | none => ⟨"already_queued", none, true⟩

/-- After the insert. -/
def inserted (s : State) (client : ClientId) (i : ImageId) (timeSensitive : Bool) (now : Timestamp)
    (queue : Workers.State) : State :=
  let enqueued := (enqueue s.queue.jobs i (askedPriority timeSensitive) now).2
  if enqueued = none ∧ timeSensitive = true then
    { s.moved queue with
      waiting := Function.update (s.moved queue).waiting client
        (some ⟨i, (s.queue.jobs, queue.jobs), [queue.jobs, s.queue.jobs]⟩) }
  else
    (s.moved queue).answered client
      { imageId := i
        timeSensitive := timeSensitive
        now := now
        response := insertAnswer timeSensitive enqueued
        refused := none
        moments := [s.queue.jobs]
        before := s.queue.jobs
        after := queue.jobs }

/-- After the promotion. -/
def promoted (s : State) (client : ClientId) (o : Open) (now : Timestamp) (queue : Workers.State) :
    State :=
  (s.moved queue).answered client
    { imageId := o.imageId
      timeSensitive := true
      now := now
      response := promoteAnswer (promote s.queue.jobs o.imageId now).2
      refused := some o.refused
      moments := o.moments
      before := s.queue.jobs
      after := queue.jobs }

def stepAt (settings : Settings) (s : State) (at_ : Timestamp) : Event → Option State
  | .other event => (Workers.stepAt settings s.queue at_ event).map s.moved
  | .insert client i timeSensitive now =>
    if s.waiting client = none then
      (Workers.stepAt settings s.queue at_ (.enqueue i (askedPriority timeSensitive) now)).map
        (inserted s client i timeSensitive now)
    else none
  | .promote client now =>
    (s.waiting client).bind fun o =>
      (Workers.stepAt settings s.queue at_ (.promote o.imageId now)).map
        (promoted s client o now)
  | .cancel client => some { s with waiting := Function.update s.waiting client none }

def step (settings : Settings) (s : State) (e : Timestamp × Event) : Option State :=
  if e.1 < s.queue.clock then none else stepAt settings s e.1 e.2

/-- No worker reports on a claim that the reaper has ended. -/
def Fenced (s : State) (e : Timestamp × Event) : Prop :=
  ∀ event ∈ queueEvent s e.2, Workers.Fenced s.queue (e.1, event)

instance (s : State) (e : Timestamp × Event) : Decidable (Fenced s e) :=
  inferInstanceAs (Decidable (∀ event ∈ queueEvent s e.2, _))

/-! ### What the endpoint does in one go -/

variable {settings : Settings} {s s' : State} {q q' : Workers.State} {at_ now : Timestamp}
  {jobs : Jobs} {i : ImageId} {j : JobId} {row : ScanJob} {timeSensitive : Bool} {client : ClientId}

/-- An active job, and none that could be pulled forward. -/
structure Saturated (i : ImageId) (jobs : Jobs) : Prop where
  active : hasActive jobs i = true
  none_promotable : ∀ e ∈ jobs.rows.entries, promotable i e.2 = false

theorem requestScan_of_free (h : hasActive jobs i = false) :
    requestScan jobs i timeSensitive now =
      (jobs.insert (newJob i (askedPriority timeSensitive) now),
        ⟨"queued", some jobs.next, timeSensitive⟩) := by
  rw [requestScan]
  simp only [enqueue, h, Bool.false_eq_true, if_false]
  rfl

theorem requestScan_of_promotable (h : hasActive jobs i = true)
    (hj : (promote jobs i now).2 = some j) :
    requestScan jobs i true now =
      ((promote jobs.allocate i now).1, ⟨"promoted", some j, true⟩) := by
  have hj' : promote jobs.allocate i now = ((promote jobs.allocate i now).1, some j) :=
    Prod.ext rfl hj
  rw [requestScan]
  simp only [enqueue, h, if_true]
  rw [hj']

/-- Nothing to do, and nothing done. -/
theorem requestScan_of_saturated (h : Saturated i jobs) :
    requestScan jobs i timeSensitive now =
      (jobs.allocate, ⟨"already_queued", none, timeSensitive⟩) := by
  have hnone : jobs.rows.entries.find? (fun e => promotable i e.2) = none := by
    rw [List.find?_eq_none]
    intro e he
    rw [h.none_promotable e he]
    exact Bool.false_ne_true
  have hpromote : promote jobs.allocate i now = ((promote jobs.allocate i now).1, none) :=
    Prod.ext rfl (congrArg (Option.map Prod.fst) hnone)
  rw [requestScan]
  simp only [enqueue, h.active, if_true]
  rw [hpromote]
  cases timeSensitive <;> rfl

theorem requestScan_of_routine (h : hasActive jobs i = true) :
    requestScan jobs i false now = (jobs.allocate, ⟨"already_queued", none, false⟩) := by
  rw [requestScan]
  simp only [enqueue, h, if_true, Bool.false_eq_true, if_false]

/-! ### A job that waits -/

theorem promotable_iff : promotable i row = true ↔
    row.imageId = i ∧ row.status = .pending ∧ row.priority < priorityTimeSensitive := by
  rw [promotable, decide_eq_true_eq]

/-- Where one active job of the image cannot be pulled forward, none can. -/
theorem saturated_of_active (hu : UniqueActive jobs) (hj : jobs.get? j = some row)
    (himage : row.imageId = i) (hactive : isActive row = true)
    (hnot : ¬ promotable i row = true) : Saturated i jobs := by
  refine ⟨hasActive_iff.mpr ⟨j, row, hj, himage, hactive⟩, fun e he => ?_⟩
  rw [Bool.eq_false_iff]
  intro hpromotable
  obtain ⟨himage', hpending, -⟩ := promotable_iff.mp hpromotable
  have he' : jobs.get? e.1 = some e.2 := Dict.get?_eq_some_iff.mpr he
  have hsame : e.1 = j := hu e.1 j e.2 row he' hj (isActive_of_pending hpending) hactive
    (himage'.trans himage.symm)
  rw [hsame, hj] at he'
  rw [← Option.some.inj he'] at hpromotable
  exact hnot hpromotable

/-- A job of the image that could be pulled forward. -/
def Waiting (i : ImageId) (jobs : Jobs) : Prop :=
  ∃ j row, jobs.get? j = some row ∧ promotable i row = true

/-- The row of a job that is still active, for the same image. -/
def StillActive (j : JobId) (i : ImageId) (jobs : Jobs) : Prop :=
  ∃ row, jobs.get? j = some row ∧ row.imageId = i ∧ isActive row = true

theorem stillActive_of_pending (hj : jobs.get? j = some row) (himage : row.imageId = i)
    (hpending : row.status = .pending) : StillActive j i jobs :=
  ⟨row, hj, himage, isActive_of_pending hpending⟩

theorem stillActive_promote (hj : jobs.get? j = some row) (himage : row.imageId = i)
    (hpending : row.status = .pending) (i' : ImageId) (now : Timestamp) :
    StillActive j i (promote jobs i' now).1 := by
  have hrow : (promote jobs i' now).1.get? j = some (promoteRow i' now row) := by
    show (jobs.mapRows (promoteRow i' now)).get? j = _
    rw [Serial.get?_mapRows, hj, Option.map_some]
  exact stillActive_of_pending hrow ((imageId_promoteRow i' now row).trans himage)
    ((status_promoteRow i' now row).trans hpending)

/-- **A job that waits is still active after any one step**: it may be claimed or promoted, and
nothing else happens to it while reports are fenced. -/
theorem active_stepAt {event : Workers.Event} (hq : Workers.Fencing q)
    (hf : Workers.Fenced q (at_, event)) (h : Workers.stepAt settings q at_ event = some q')
    (hj : q.jobs.get? j = some row) (himage : row.imageId = i) (hpending : row.status = .pending) :
    StillActive j i q'.jobs := by
  cases event with
  | enqueue i' priority scheduledFor =>
    cases h
    exact stillActive_of_pending (get?_enqueue hj i' priority scheduledFor) himage hpending
  | promote i' now =>
    cases h
    exact stillActive_promote hj himage hpending i' now
  | requestScan i' timeSensitive now =>
    cases h
    show StillActive j i (requestScan q.jobs i' timeSensitive now).1
    obtain heq | ⟨-, heq⟩ := requestScan_jobs q.jobs i' timeSensitive now
    · rw [heq]
      exact stillActive_of_pending (get?_enqueue hj i' _ now) himage hpending
    · rw [heq]
      exact stillActive_promote (get?_enqueue hj i' _ now) himage hpending i' now
  | claim w k locked now =>
    obtain ⟨-, job, -, -, -, hjobs, -⟩ := Workers.stepAt_claim h
    rw [hjobs]
    by_cases hk : j = k
    · have hclaimed : (q.jobs.update k (takeLease now settings.leaseSeconds)).get? j =
          some (takeLease now settings.leaseSeconds row) := by
        rw [← hk, Serial.get?_update_self, hj, Option.map_some]
      exact ⟨_, hclaimed, himage, isActive_of_running rfl⟩
    · exact stillActive_of_pending ((Serial.get?_update_of_ne _ hk _).trans hj) himage hpending
  | report w outcome =>
    obtain ⟨held, -, hloaded, hrunning, -, hget, -⟩ := hq.report hf h
    have hne : j ≠ held.job := by
      rintro rfl
      rw [hj] at hloaded
      rw [Option.some.inj hloaded, hrunning] at hpending
      cases hpending
    exact stillActive_of_pending ((hget j).trans ((if_neg hne).trans hj)) himage hpending
  | reap =>
    cases h
    have hkept : (q.jobs.mapRows (reapRow settings.maxAttempts at_)).get? j = some row := by
      rw [Serial.get?_mapRows, hj, Option.map_some, reapRow, if_neg]
      intro hreap
      rw [(reapable_iff.mp hreap).1] at hpending
      cases hpending
    exact stillActive_of_pending hkept himage hpending
  | abandon w =>
    cases h
    exact stillActive_of_pending hj himage hpending

/-- Where a job waited there is one that waits, or a request has nothing to do. -/
theorem waiting_stepAt {event : Workers.Event} (hq : Workers.Fencing q)
    (hf : Workers.Fenced q (at_, event)) (h : Workers.stepAt settings q at_ event = some q')
    (hwaiting : Waiting i q.jobs) : Saturated i q'.jobs ∨ Waiting i q'.jobs := by
  obtain ⟨j, row, hj, hpromotable⟩ := hwaiting
  obtain ⟨himage, hpending, -⟩ := promotable_iff.mp hpromotable
  obtain ⟨row', hj', himage', hactive⟩ := active_stepAt hq hf h hj himage hpending
  by_cases hstill : promotable i row' = true
  · exact Or.inr ⟨j, row', hj', hstill⟩
  · exact Or.inl (saturated_of_active q'.uniqueActive hj' himage' hactive hstill)

/-! ### Answers -/

/-- The answer is one that the endpoint could have given in one go. -/
structure Linearized (a : Answer) : Prop where
  /-- A statement before the answering one changed no row. -/
  refused : ∀ p ∈ a.refused, p.2.rows = p.1.rows
  /-- At some moment of the request the endpoint would have given the answer, and either it would
  have done then what the answering statement did, or neither of them anything. -/
  point : ∃ m ∈ a.moments, ∃ m',
    requestScan m a.imageId a.timeSensitive a.now = (m', a.response) ∧
      (m = a.before ∧ m'.rows = a.after.rows ∨ m'.rows = m.rows ∧ a.after.rows = a.before.rows)
  /-- A job that is named waits, for the image and with the priority that was asked for. -/
  named : ∀ j, a.response.jobId = some j → ∃ row, a.after.get? j = some row ∧
    row.imageId = a.imageId ∧ row.status = .pending ∧
      row.priority = askedPriority a.timeSensitive
  /-- When none is, one was active during the request, and an urgent request had nothing to
  pull forward. -/
  unnamed : a.response.jobId = none → ∃ m ∈ a.moments, hasActive m a.imageId = true ∧
    (a.timeSensitive = true → Saturated a.imageId m)

/-- A request between its statements. -/
structure Watched (jobs : Jobs) (o : Open) : Prop where
  refused : o.refused.2.rows = o.refused.1.rows
  current : jobs ∈ o.moments
  /-- There was nothing to pull forward at some moment, or there is something now. -/
  seen : (∃ m ∈ o.moments, Saturated o.imageId m) ∨ Waiting o.imageId jobs

structure Sound (s : State) : Prop where
  fencing : Workers.Fencing s.queue
  watched : ∀ client o, s.waiting client = some o → Watched s.queue.jobs o
  linearized : ∀ a ∈ s.answers, Linearized a

/-- An answer that the endpoint has given in one go. -/
theorem linearized_of_point {a : Answer} (hrefused : ∀ p ∈ a.refused, p.2.rows = p.1.rows)
    {m m' : Jobs} (hm : m ∈ a.moments)
    (hanswer : requestScan m a.imageId a.timeSensitive a.now = (m', a.response))
    (heffect : m = a.before ∧ m'.rows = a.after.rows ∨
      m'.rows = m.rows ∧ a.after.rows = a.before.rows)
    (hnamed : ∀ j, a.response.jobId = some j → ∃ row, a.after.get? j = some row ∧
      row.imageId = a.imageId ∧ row.status = .pending ∧
        row.priority = askedPriority a.timeSensitive)
    (hunnamed : a.response.jobId = none → hasActive m a.imageId = true ∧
      (a.timeSensitive = true → Saturated a.imageId m)) : Linearized a :=
  ⟨hrefused, ⟨m, hm, m', hanswer, heffect⟩, hnamed, fun hnone => ⟨m, hm, hunnamed hnone⟩⟩

/-- A request that is answered after its insert. -/
theorem linearized_inserted (a : Answer) (hrefused : a.refused = none)
    (hmoments : a.moments = [a.before])
    (hafter : a.after = (enqueue a.before a.imageId (askedPriority a.timeSensitive) a.now).1)
    (hresponse : a.response = insertAnswer a.timeSensitive
      (enqueue a.before a.imageId (askedPriority a.timeSensitive) a.now).2)
    (hroutine : hasActive a.before a.imageId = true → a.timeSensitive = false) :
    Linearized a := by
  have hbefore : a.before ∈ a.moments := by simp [hmoments]
  have hrefused' : ∀ p ∈ a.refused, p.2.rows = p.1.rows := by simp [hrefused]
  by_cases hactive : hasActive a.before a.imageId = true
  · have htime := hroutine hactive
    rw [enqueue, if_pos hactive] at hafter hresponse
    have hanswer : requestScan a.before a.imageId a.timeSensitive a.now =
        (a.before.allocate, a.response) := by
      rw [hresponse, htime]
      exact requestScan_of_routine hactive
    refine linearized_of_point hrefused' hbefore hanswer (Or.inl ⟨rfl, by rw [hafter]⟩) ?_
      fun _ => ⟨hactive, fun hurgent => by rw [htime] at hurgent; cases hurgent⟩
    intro j hj
    rw [hresponse] at hj
    cases hj
  · rw [enqueue, if_neg hactive] at hafter hresponse
    have hanswer : requestScan a.before a.imageId a.timeSensitive a.now =
        (a.after, a.response) := by
      rw [hafter, hresponse]
      exact requestScan_of_free (Bool.eq_false_iff.mpr hactive)
    refine linearized_of_point hrefused' hbefore hanswer (Or.inl ⟨rfl, rfl⟩) ?_ fun hnone => ?_
    · intro j hj
      rw [hresponse] at hj
      obtain rfl := Option.some.inj hj
      refine ⟨newJob a.imageId (askedPriority a.timeSensitive) a.now, ?_, rfl, rfl, rfl⟩
      rw [hafter]
      exact Serial.get?_insert_next _ _
    · rw [hresponse] at hnone
      cases hnone

/-- The row that a promotion returns. -/
theorem found_of_promote (hj : (promote jobs i now).2 = some j) :
    ∃ row, jobs.get? j = some row ∧ promotable i row = true := by
  obtain ⟨e, hfind, rfl⟩ := Option.map_eq_some_iff.mp hj
  have hpromotable := List.find?_some hfind
  exact ⟨e.2, Dict.get?_eq_some_iff.mpr (List.mem_of_find?_eq_some hfind), hpromotable⟩

theorem get?_promote (hj : (promote jobs i now).2 = some j) :
    ∃ row, (promote jobs i now).1.get? j = some row ∧ row.imageId = i ∧ row.status = .pending ∧
      row.priority = priorityTimeSensitive := by
  obtain ⟨row, hrow, hpromotable⟩ := found_of_promote hj
  obtain ⟨himage, hpending, -⟩ := promotable_iff.mp hpromotable
  refine ⟨promoteRow i now row, ?_, ?_⟩
  · show (jobs.mapRows (promoteRow i now)).get? j = _
    rw [Serial.get?_mapRows, hrow, Option.map_some]
  · rw [promoteRow, if_pos hpromotable]
    exact ⟨himage, hpending, rfl⟩

theorem hasActive_of_promote (hj : (promote jobs i now).2 = some j) : hasActive jobs i = true := by
  obtain ⟨row, hrow, hpromotable⟩ := found_of_promote hj
  obtain ⟨himage, hpending, -⟩ := promotable_iff.mp hpromotable
  exact hasActive_iff.mpr ⟨j, row, hrow, himage, isActive_of_pending hpending⟩

/-- A promotion that finds nothing does nothing. -/
theorem promote_of_none (hnone : (promote jobs i now).2 = none) :
    ¬ Waiting i jobs ∧ (promote jobs i now).1.rows = jobs.rows := by
  have hall : ∀ e ∈ jobs.rows.entries, ¬ promotable i e.2 = true :=
    List.find?_eq_none.mp (Option.map_eq_none_iff.mp hnone)
  refine ⟨fun ⟨j, row, hj, hpromotable⟩ =>
    hall (j, row) (Dict.get?_eq_some_iff.mp hj) hpromotable, Dict.ext_entries ?_⟩
  show jobs.rows.entries.map _ = jobs.rows.entries
  refine (List.map_congr_left fun e he => ?_).trans (List.map_id _)
  rw [promoteRow, if_neg (hall e he)]
  rfl

/-- A request that is answered after its promotion. -/
theorem linearized_promoted (a : Answer) {o : Open} (hwatched : Watched a.before o)
    (himage : a.imageId = o.imageId) (hurgent : a.timeSensitive = true)
    (hrefused : a.refused = some o.refused) (hmoments : a.moments = o.moments)
    (hafter : a.after = (promote a.before a.imageId a.now).1)
    (hresponse : a.response = promoteAnswer (promote a.before a.imageId a.now).2) :
    Linearized a := by
  have hrefused' : ∀ p ∈ a.refused, p.2.rows = p.1.rows := by
    rw [hrefused]
    rintro p ⟨⟩
    exact hwatched.refused
  cases hfound : (promote a.before a.imageId a.now).2 with
  | some j =>
    rw [hfound] at hresponse
    have hanswer : requestScan a.before a.imageId a.timeSensitive a.now =
        ((promote a.before.allocate a.imageId a.now).1, a.response) := by
      rw [hurgent, hresponse]
      exact requestScan_of_promotable (hasActive_of_promote hfound) hfound
    refine linearized_of_point hrefused' (hmoments ▸ hwatched.current) hanswer
      (Or.inl ⟨rfl, by rw [hafter]; rfl⟩) ?_ fun hnone => ?_
    · intro k hk
      rw [hresponse] at hk
      obtain rfl := Option.some.inj hk
      rw [hafter, hurgent]
      exact get?_promote hfound
    · rw [hresponse] at hnone
      cases hnone
  | none =>
    rw [hfound] at hresponse
    obtain ⟨hnot, hrows⟩ := promote_of_none hfound
    rw [himage] at hnot
    obtain ⟨m, hm, hsaturated⟩ := hwatched.seen.resolve_right hnot
    rw [← hmoments] at hm
    rw [← himage] at hsaturated
    have hanswer : requestScan m a.imageId a.timeSensitive a.now = (m.allocate, a.response) := by
      rw [hresponse, requestScan_of_saturated hsaturated, hurgent]
      rfl
    refine linearized_of_point hrefused' hm hanswer (Or.inr ⟨rfl, by rw [hafter, hrows]⟩) ?_
      fun _ => ⟨hsaturated.active, fun _ => hsaturated⟩
    intro k hk
    rw [hresponse] at hk
    cases hk

/-! ### Steps -/

/-- **A request that waits has seen what it needs**, whatever the queue does. -/
theorem Watched.note {o : Open} {event : Workers.Event} (ho : Watched q.jobs o)
    (hq : Workers.Fencing q) (hf : Workers.Fenced q (at_, event))
    (h : Workers.stepAt settings q at_ event = some q') : Watched q'.jobs (o.note q'.jobs) := by
  refine ⟨ho.refused, List.mem_cons_self, ?_⟩
  obtain ⟨m, hm, hsaturated⟩ | hwaiting := ho.seen
  · exact Or.inl ⟨m, List.mem_cons_of_mem _ hm, hsaturated⟩
  · obtain hsaturated | hwaiting := waiting_stepAt hq hf h hwaiting
    · exact Or.inl ⟨q'.jobs, List.mem_cons_self, hsaturated⟩
    · exact Or.inr hwaiting

/-- The queue moves. -/
theorem Sound.moved {event : Workers.Event} (hs : Sound s)
    (hf : Workers.Fenced s.queue (at_, event))
    (h : Workers.stepAt settings s.queue at_ event = some q') : Sound (s.moved q') where
  fencing := hs.fencing.stepAt hf h
  watched := by
    intro c o ho
    obtain ⟨o', ho', rfl⟩ := Option.map_eq_some_iff.mp ho
    exact (hs.watched c o' ho').note hs.fencing hf h
  linearized := hs.linearized

theorem Sound.answered {a : Answer} (hs : Sound s) (ha : Linearized a) :
    Sound (s.answered client a) where
  fencing := hs.fencing
  watched := fun c o ho => hs.watched c o (update_none_eq_some.mp ho).2
  linearized := by
    intro a' ha'
    obtain rfl | ha' := List.mem_cons.mp ha'
    · exact ha
    · exact hs.linearized a' ha'

/-- A request whose insert was refused. -/
theorem watched_of_refused (hu : UniqueActive jobs) {priority : ℤ}
    (hrefused : (enqueue jobs i priority now).2 = none) :
    Watched (enqueue jobs i priority now).1
      ⟨i, (jobs, (enqueue jobs i priority now).1), [(enqueue jobs i priority now).1, jobs]⟩ := by
  have hactive : hasActive jobs i = true := by
    by_contra hnot
    rw [enqueue, if_neg hnot] at hrefused
    cases hrefused
  have hjobs : (enqueue jobs i priority now).1 = jobs.allocate := by
    rw [enqueue, if_pos hactive]
  rw [hjobs]
  obtain ⟨j, row, hj, himage, hrow⟩ := hasActive_iff.mp hactive
  refine ⟨rfl, List.mem_cons_self, ?_⟩
  by_cases hpromotable : promotable i row = true
  · exact Or.inr ⟨j, row, hj, hpromotable⟩
  · exact Or.inl ⟨jobs, by simp, saturated_of_active hu hj himage hrow hpromotable⟩

theorem Sound.inserted (hs : Sound s)
    (h : Workers.stepAt settings s.queue at_ (.enqueue i (askedPriority timeSensitive) now) =
      some q') : Sound (inserted s client i timeSensitive now q') := by
  have hjobs : q'.jobs = (enqueue s.queue.jobs i (askedPriority timeSensitive) now).1 := by
    cases h
    rfl
  have hmoved : Sound (s.moved q') := hs.moved (fun _ hheld => by cases hheld) h
  rw [Requests.inserted]
  split
  · next hrefused =>
    refine ⟨hmoved.fencing, fun c o ho => ?_, hmoved.linearized⟩
    obtain ⟨-, rfl⟩ | ⟨-, ho⟩ := update_some_eq_some.mp ho
    · show Watched q'.jobs _
      rw [hjobs]
      exact watched_of_refused s.queue.uniqueActive hrefused.1
    · exact hmoved.watched c o ho
  · next hanswered =>
    refine hmoved.answered (linearized_inserted _ rfl rfl hjobs rfl fun hactive => ?_)
    rw [Bool.eq_false_iff]
    intro hurgent
    refine hanswered ⟨?_, hurgent⟩
    rw [enqueue, if_pos hactive]

theorem Sound.promoted {o : Open} (hs : Sound s) (ho : s.waiting client = some o)
    (h : Workers.stepAt settings s.queue at_ (.promote o.imageId now) = some q') :
    Sound (promoted s client o now q') := by
  have hjobs : q'.jobs = (promote s.queue.jobs o.imageId now).1 := by
    cases h
    rfl
  have hmoved : Sound (s.moved q') := hs.moved (fun _ hheld => by cases hheld) h
  exact hmoved.answered
    (linearized_promoted _ (hs.watched client o ho) rfl rfl rfl rfl hjobs rfl)

/-- **Every fenced step leaves it so.** -/
theorem Sound.step (hs : Sound s) {e : Timestamp × Event} (hf : Fenced s e)
    (h : step settings s e = some s') : Sound s' := by
  obtain ⟨at_, event⟩ := e
  rw [Requests.step, Option.ite_none_left_eq_some] at h
  obtain ⟨-, h⟩ := h
  cases event with
  | other event =>
    obtain ⟨q', hq', rfl⟩ := Option.map_eq_some_iff.mp h
    exact hs.moved (hf event rfl) hq'
  | insert client i timeSensitive now =>
    rw [stepAt, Option.ite_none_right_eq_some] at h
    obtain ⟨q', hq', rfl⟩ := Option.map_eq_some_iff.mp h.2
    exact hs.inserted hq'
  | promote client now =>
    obtain ⟨o, ho, h⟩ := Option.bind_eq_some_iff.mp h
    obtain ⟨q', hq', rfl⟩ := Option.map_eq_some_iff.mp h
    exact hs.promoted ho hq'
  | cancel client =>
    obtain rfl := Option.some.inj h
    exact ⟨hs.fencing, fun c o ho => hs.watched c o (update_none_eq_some.mp ho).2, hs.linearized⟩

/-- **Requests are linearizable.** Whatever workers, schedulers and other requests do between the
two statements of a request, its answer is one that the endpoint could have given in one go at some
moment of the request, with the same effect. -/
theorem requests_linearizable {settings : Settings} {jobs : Jobs} {hu : UniqueActive jobs}
    {clock : Timestamp} {s : State}
    (hrun : Reaches (step settings) Fenced (State.start jobs hu clock) s) :
    ∀ a ∈ s.answers, Linearized a := by
  have hstart : Sound (State.start jobs hu clock) :=
    ⟨Workers.fencing_start jobs hu clock, fun _ _ ho => (by cases ho), List.forall_mem_nil _⟩
  exact (hrun.invariant (fun _ _ _ hs hf h => hs.step hf h) hstart).linearized

/-- The job is claimed between the statements of one request, and put back between those of
another. -/
def claimedBetween : List (Timestamp × Event) :=
  [(0, .other (.enqueue 1 priorityScheduled 0)), (1, .insert 7 1 true 1),
    (2, .other (.claim 1 1 [] 2)), (3, .promote 7 3), (4, .insert 8 1 true 4),
    (5, .other (.report 1 (.defer 60 "RateLimited" false 5))), (6, .promote 8 6)]

theorem requests_linearizable_claimedBetween :
    ∃ s, execute (restrict (step {}) Fenced)
        (State.start Serial.empty uniqueActive_empty 0) claimedBetween = some s ∧
      s.answers.map Answer.response =
        [⟨"promoted", some 1, true⟩, ⟨"already_queued", none, true⟩] ∧
      ∀ a ∈ s.answers, Linearized a := by
  have hrun : (execute (restrict (step {}) Fenced)
      (State.start Serial.empty uniqueActive_empty 0) claimedBetween).map
        (fun s => s.answers.map Answer.response) =
      some [⟨"promoted", some 1, true⟩, ⟨"already_queued", none, true⟩] := by decide +kernel
  obtain ⟨s, hs, hanswers⟩ := Option.map_eq_some_iff.mp hrun
  exact ⟨s, hs, hanswers, requests_linearizable (reaches_of_execute hs)⟩

end Requests

end ContainerScanner
