import ContainerScanner.Foundation.Labels
import ContainerScanner.Obs.Emits
import ContainerScanner.Obs.Format
import ContainerScanner.Scanner.Atomicity
import ContainerScanner.Scanner.Correlation

/-!
# The log of a worker

`main` of `app/scanner/worker.py`: turn after turn of `run_once`, in one session, until a shutdown
is requested. Between two turns other processes do what they like. Every line of the process carries
the fields that are bound when it is logged, and a reader of the log picks the lines of one job by
its `job_id`.

The line of the signal handler is left out.

## Main definitions

* `Turn`, `Correlated.turn`, `Correlated.main`
* `Lives` — the steps of a process: its own lines, and blocks of jobs
* `Renders` — records of the lines that were logged

## Main results

* `lives_main` — blocks of jobs, each of a turn of its own, are all there is
* `log_tells_lives` — a job's lines are those that were logged while its block was open
-/

namespace ContainerScanner

open Foundation Obs

namespace RunOnce

/-- What a turn of the loop meets. -/
structure Turn where
  /-- What has happened since the last turn: other transactions, and what comes back to fail. -/
  meanwhile : Session Db Objects Raised → Session Db Objects Raised
  env : Env
  candidate : Candidate

namespace Correlated

/-- One turn of the loop. -/
def turn (settings : Settings) (t : Turn) : Program Bool := do
  plain (modify t.meanwhile)
  tryCatch (runOnce t.env settings t.candidate) fun _ => do
    log .error "worker loop error"
    plain (rollback (recovery t.candidate.jobId))
    return false

def loop (settings : Settings) : List Turn → Program Unit
  | [] => pure ()
  | t :: turns => do
    let _ ← turn settings t
    loop settings turns

/-- `main`, with the turns until the shutdown. -/
def main (settings : Settings) (probeVersions : Except Raised (String × String))
    (turns : List Turn) : Program Unit := do
  let _ ← plain (consult probeVersions)
  log .info "worker up"
  loop settings turns
  log .info "worker stopped"

end Correlated

/-! ### The life of a process -/

/-- `bound(job_id=…, attempt=…)`. -/
def jobFields (jobId : JobId) (attempt : ℕ) : Fields Json :=
  Dict.ofList [("job_id", .int jobId), ("attempt", .int attempt)]

/-- What says which scan a line belongs to. -/
def identity : List String := ["job_id", "attempt"]

/-- Lines, and fields that do not say which scan it is. -/
def InBlock : Step (Fields Json) Line → Prop
  | .passed _ => True
  | .added fields => ∀ key ∈ identity, fields.get? key = none
  | _ => False

/-- The steps of a process that has worked on these jobs, one after the other. -/
inductive Lives : List JobId → List (Step (Fields Json) Line) → Prop
  | nil : Lives [] []
  | passed {jobs : List JobId} {steps : List (Step (Fields Json) Line)} (line : Line)
    (h : Lives jobs steps) : Lives jobs (.passed line :: steps)
  | block {jobs : List JobId} {steps inner : List (Step (Fields Json) Line)} (jobId : JobId)
    (attempt : ℕ) (hinner : ∀ step ∈ inner, InBlock step) (h : Lives jobs steps) :
    Lives (jobId :: jobs) ((.entered (jobFields jobId attempt) :: inner ++ [.exited]) ++ steps)

variable {jobs jobs' : List JobId} {steps steps' : List (Step (Fields Json) Line)}

theorem Lives.append (h : Lives jobs steps) (h' : Lives jobs' steps') :
    Lives (jobs ++ jobs') (steps ++ steps') := by
  induction h with
  | nil => exact h'
  | passed line h ih => exact ih.passed line
  | block jobId attempt hinner h ih =>
    rw [List.append_assoc]
    exact ih.block jobId attempt hinner

theorem lives_passed (line : Line) : Lives [] [.passed line] := Lives.nil.passed line

/-- Some of these jobs were worked on. -/
def LivesAmong (candidates : List JobId) (steps : List (Step (Fields Json) Line)) : Prop :=
  ∃ jobs, Lives jobs steps ∧ jobs.Sublist candidates

theorem LivesAmong.append {candidates candidates' : List JobId} (h : LivesAmong candidates steps)
    (h' : LivesAmong candidates' steps') :
    LivesAmong (candidates ++ candidates') (steps ++ steps') := by
  obtain ⟨jobs, hlives, hsub⟩ := h
  obtain ⟨jobs', hlives', hsub'⟩ := h'
  exact ⟨jobs ++ jobs', hlives.append hlives', hsub.append hsub'⟩

theorem Lives.among (h : Lives [] steps) (candidates : List JobId) : LivesAmong candidates steps :=
  ⟨[], h, List.nil_sublist _⟩

/-! ### What the programs emit -/

section Programs

variable {env : Env} {settings : Settings} {candidate : Candidate} {jobId : JobId}

theorem inBlock_added {name : String} (hname : ∀ key ∈ identity, key ≠ name) (value : Json) :
    InBlock (.added (Dict.ofList [(name, value)])) := by
  intro key hkey
  have hnodup : ([(name, value)].map Prod.fst).Nodup := List.nodup_singleton name
  rw [Dict.get?_ofList hnodup, Dict.lookup_cons_eq_ite, if_neg (hname key hkey)]
  rfl

/-- Steps of a block. -/
def Inner (steps : List (Step (Fields Json) Line)) : Prop := ∀ step ∈ steps, InBlock step

/-- No step at all. -/
def Silent (steps : List (Step (Fields Json) Line)) : Prop := steps = []

theorem silent_nil : Silent [] := rfl

theorem silent_plain {α : Type} (x : RunOnce.Program α) :
    Emits Silent (plain x : Correlated.Program α) :=
  emits_plain silent_nil x

/-- After what is silent. -/
theorem emits_seq_silent {A : List (Step (Fields Json) Line) → Prop} (hnil : A []) {α β : Type}
    {x : Correlated.Program α} {f : α → Correlated.Program β} (h : Emits Silent x)
    (hf : ∀ a, Emits A (f a)) : Emits A (x >>= f) := by
  refine h.seq hf (fun steps hsteps => ?_) fun steps steps' hsteps hsteps' => ?_
  · rw [show steps = [] from hsteps]
    exact hnil
  · rw [show steps = [] from hsteps]
    exact hsteps'

theorem closed_inner : Closed Inner := closed_forall InBlock

theorem inner_single {step : Step (Fields Json) Line} (h : InBlock step) : Inner [step] :=
  List.forall_mem_singleton.mpr h

theorem inner_plain {α : Type} (x : RunOnce.Program α) :
    Emits Inner (plain x : Correlated.Program α) :=
  emits_plain closed_inner.nil x

theorem inner_log (level : Level) (message : String) :
    Emits Inner (log level message : Correlated.Program Unit) :=
  emits_log (inner_single trivial)

theorem emits_execute : Emits Inner (Correlated.execute env jobId) := by
  have hseq : ∀ {α β : Type} {x : Correlated.Program α} {f : α → Correlated.Program β},
      Emits Inner x → (∀ a, Emits Inner (f a)) → Emits Inner (x >>= f) := closed_inner.seq
  rw [Correlated.execute]
  refine hseq (inner_plain _) fun loaded => ?_
  cases loaded with
  | none => exact hseq (inner_plain _) fun _ => inner_plain _
  | some entry =>
    obtain ⟨imageId, image⟩ := entry
    refine hseq (emits_bind (inner_single (inBlock_added (by decide) _))) fun _ => ?_
    refine hseq (inner_plain _) fun versions => ?_
    refine hseq (inner_plain _) fun previous => ?_
    refine hseq (inner_plain _) fun _ => ?_
    refine hseq (inner_plain _) fun digest => ?_
    refine hseq (emits_bind (inner_single (inBlock_added (by decide) _))) fun _ => ?_
    split
    · refine hseq (inner_plain _) fun _ => hseq (inner_plain _) fun _ => ?_
      exact hseq (inner_plain _) fun _ => inner_log _ _
    · refine hseq (inner_plain _) fun raw => hseq (inner_plain _) fun report => ?_
      refine hseq (inner_plain _) fun _ => hseq (inner_plain _) fun _ => ?_
      exact hseq (inner_plain _) fun _ => inner_log _ _

theorem emits_handle (error : Raised) :
    Emits Inner (Correlated.handle env settings jobId error) := by
  have hfail : Emits Inner (Correlated.recordFailure env settings jobId error) :=
    closed_inner.seq (inner_plain _) fun _ => inner_log _ _
  rw [Correlated.handle]
  cases error.throttled with
  | some retryAfter => exact closed_inner.seq (inner_plain _) fun _ => inner_log _ _
  | none =>
    cases error.unexpected with
    | true => exact closed_inner.seq (inner_log _ _) fun _ => hfail
    | false => exact hfail

/-- A turn with a job emits one block of that job, and a turn without one nothing. -/
theorem emits_runOnce :
    Emits (LivesAmong [candidate.jobId]) (Correlated.runOnce env settings candidate) := by
  have hnil : LivesAmong [candidate.jobId] [] := Lives.nil.among _
  rw [Correlated.runOnce]
  refine emits_seq_silent hnil (silent_plain _) fun claimed => ?_
  refine emits_seq_silent hnil (silent_plain _) fun _ => ?_
  split
  · refine emits_seq_silent hnil (fun _ => ⟨[], (List.append_nil _).symm, rfl⟩) fun attempt => ?_
    have hinner : Emits Inner (tryCatch (Correlated.execute env candidate.jobId)
        (Correlated.handle env settings candidate.jobId)) :=
      closed_inner.tryCatch emits_execute emits_handle
    have hblock : ∀ steps, (∃ inner, Inner inner ∧
        steps = .entered (jobFields candidate.jobId attempt) :: inner ++ [.exited]) →
          LivesAmong [candidate.jobId] steps := by
      rintro _ ⟨inner, hsteps, rfl⟩
      have hlives := Lives.nil.block candidate.jobId attempt hsteps
      rw [List.append_nil] at hlives
      exact ⟨_, hlives, List.Sublist.refl _⟩
    refine (hinner.bound built_block.contained _).seq (B := Silent)
      (fun _ => emits_pure silent_nil claimed) hblock fun steps steps' hsteps hsteps' => ?_
    rw [show steps' = [] from hsteps', List.append_nil]
    exact hblock steps hsteps
  · exact emits_pure hnil claimed

/-- A handler that fails is reported once its block is closed. -/
theorem emits_turn (t : Turn) :
    Emits (LivesAmong [t.candidate.jobId]) (Correlated.turn settings t) := by
  refine emits_seq_silent (Lives.nil.among _) (silent_plain _) fun _ => ?_
  refine Emits.tryCatch (B := Lives []) emits_runOnce (fun _ => ?_) (fun _ h => h)
    fun steps steps' h h' => ?_
  · refine (emits_log (lives_passed _)).seq (B := Silent) (fun _ => ?_) (fun _ h => h)
      fun steps steps' h h' => ?_
    · exact emits_seq_silent silent_nil (silent_plain _) fun _ => emits_pure silent_nil false
    · rw [show steps' = [] from h', List.append_nil]
      exact h
  · obtain ⟨jobs, hlives, hsub⟩ := h
    refine ⟨jobs, ?_, hsub⟩
    have hboth := hlives.append h'
    rwa [List.append_nil] at hboth

theorem emits_loop (turns : List Turn) :
    Emits (LivesAmong (turns.map fun t => t.candidate.jobId)) (Correlated.loop settings turns) := by
  induction turns with
  | nil => exact emits_pure (Lives.nil.among _) ()
  | cons t turns ih =>
    refine (emits_turn t).seq (fun _ => ih) (fun steps h => ?_) fun _ _ h h' => h.append h'
    obtain ⟨jobs, hlives, hsub⟩ := h
    exact ⟨jobs, hlives, hsub.trans ((List.nil_sublist _).cons_cons _)⟩

/-- **What a process does**: it works on some of the jobs it was offered, in this order, each in a
block of its own. -/
theorem lives_main (settings : Settings) (probeVersions : Except Raised (String × String))
    (turns : List Turn) :
    Emits (LivesAmong (turns.map fun t => t.candidate.jobId))
      (Correlated.main settings probeVersions turns) := by
  have hnil : LivesAmong (turns.map fun t => t.candidate.jobId) [] := Lives.nil.among _
  have hlog : ∀ message, Emits (LivesAmong [])
      (log .info message : Correlated.Program Unit) := fun message =>
    emits_log ((lives_passed _).among [])
  have hmono : ∀ {candidates : List JobId} {steps : List (Step (Fields Json) Line)},
      LivesAmong [] steps → LivesAmong candidates steps := by
    rintro candidates steps ⟨jobs, hlives, hsub⟩
    exact ⟨jobs, hlives, hsub.trans (List.nil_sublist _)⟩
  refine emits_seq_silent hnil (silent_plain _) fun _ => ?_
  refine (hlog "worker up").seq (fun _ => ?_) (fun _ h => hmono h) fun _ _ h h' => h.append h'
  refine (emits_loop turns).seq (fun _ => hlog "worker stopped") (fun _ h => h) ?_
  intro steps steps' h h'
  have hboth := h.append h'
  rwa [List.append_nil] at hboth

end Programs

/-! ### The context of a process -/

section Built

variable {settings : Settings}

theorem built_turn (t : Turn) : Built (Correlated.turn settings t) := by
  refine (Built.plain _).seq fun _ => built_runOnce.tryCatch fun _ => ?_
  exact (Built.log _ _).seq fun _ => (Built.plain _).seq fun _ => Built.pure false

theorem built_loop (turns : List Turn) : Built (Correlated.loop settings turns) := by
  induction turns with
  | nil => exact Built.pure ()
  | cons t turns ih => exact (built_turn t).seq fun _ => ih

theorem built_main (probeVersions : Except Raised (String × String)) (turns : List Turn) :
    Built (Correlated.main settings probeVersions turns) :=
  (Built.plain _).seq fun _ => (Built.log _ _).seq fun _ => (built_loop turns).seq fun _ =>
    Built.log _ _

end Built

/-! ### Reading the log -/

/-- Is the field this number? -/
def fieldIs (key : String) (n : ℤ) (fields : Fields Json) : Bool :=
  match fields.get? key with
  | some (.int m) => m = n
  | _ => false

/-- Was the innermost block opened with it? -/
def openIs (key : String) (n : ℤ) (scopes : Scopes (Fields Json)) : Bool :=
  match scopes.blocks with
  | (fields :: _) :: _ => fieldIs key n fields
  | _ => false

/-- Is it in a line as it was written? -/
def valueIs (key : String) (n : ℤ) (fields : Fields JsonText.Value) : Bool :=
  match fields.get? key with
  | some (.int m) => m = n
  | _ => false

theorem fieldIs_iff {key : String} {n : ℤ} {fields : Fields Json} :
    fieldIs key n fields = true ↔ fields.get? key = some (.int n) := by
  unfold fieldIs
  split
  · rename_i m hm
    rw [hm, decide_eq_true_eq, Option.some.injEq, Json.int.injEq]
  · rename_i hne
    exact ⟨fun h => absurd h Bool.false_ne_true, fun h => absurd h (hne n)⟩

theorem valueIs_iff {key : String} {n : ℤ} {fields : Fields JsonText.Value} :
    valueIs key n fields = true ↔ fields.get? key = some (.int n) := by
  unfold valueIs
  split
  · rename_i m hm
    rw [hm, decide_eq_true_eq, Option.some.injEq, JsonText.Value.int.injEq]
  · rename_i hne
    exact ⟨fun h => absurd h Bool.false_ne_true, fun h => absurd h (hne n)⟩

/-- No block, or one, with nothing in it that says which scan it is but what it was opened with. -/
def Orderly (scopes : Scopes (Fields Json)) : Prop :=
  scopes = Scopes.start ∨ ∃ fields added, scopes = ⟨[], [fields :: added]⟩ ∧
    ∀ fields' ∈ added, ∀ key ∈ identity, fields'.get? key = none

theorem throughout_inner {inner : List (Step (Fields Json) Line)} (hinner : Inner inner)
    (fields : Fields Json) (added : List (Fields Json))
    (hadded : ∀ fields' ∈ added, ∀ key ∈ identity, fields'.get? key = none) :
    Throughout Orderly ⟨[], [fields :: added]⟩ inner ∧
      ∃ added', (⟨[], [fields :: added]⟩ : Scopes (Fields Json)).after inner =
        ⟨[], [fields :: added']⟩ := by
  induction inner generalizing added with
  | nil => exact ⟨trivial, added, rfl⟩
  | cons step inner ih =>
    obtain ⟨hstep, hrest⟩ := List.forall_mem_cons.mp hinner
    cases step with
    | passed line =>
      obtain ⟨hthrough, hafter⟩ := ih hrest _ hadded
      exact ⟨⟨Or.inr ⟨fields, added, rfl, hadded⟩, hthrough⟩, hafter⟩
    | added fields' =>
      have hadded' : ∀ f ∈ added ++ [fields'], ∀ key ∈ identity, f.get? key = none :=
        List.forall_mem_append.mpr ⟨hadded, List.forall_mem_singleton.mpr hstep⟩
      obtain ⟨hthrough, hafter⟩ := ih hrest _ hadded'
      exact ⟨⟨Or.inr ⟨fields, added ++ [fields'], rfl, hadded'⟩, hthrough⟩, hafter⟩
    | entered fields' => exact hstep.elim
    | exited => exact hstep.elim

/-- The blocks of a process are closed one after the other. -/
theorem Lives.throughout (h : Lives jobs steps) :
    Throughout Orderly Scopes.start steps ∧ Scopes.start.after steps = Scopes.start := by
  induction h with
  | nil => exact ⟨trivial, rfl⟩
  | passed line h ih => exact ⟨⟨Or.inl rfl, ih.1⟩, ih.2⟩
  | @block jobs steps inner jobId attempt hinner h ih =>
    have hopen : Scopes.start.next (.entered (jobFields jobId attempt) : Step (Fields Json) Line) =
        ⟨[], [[jobFields jobId attempt]]⟩ := rfl
    obtain ⟨hthrough, added', hafter⟩ := throughout_inner hinner (jobFields jobId attempt)
      [] fun _ hf => absurd hf List.not_mem_nil
    have hentered : Scopes.start.after (.entered (jobFields jobId attempt) :: inner) =
        ⟨[], [jobFields jobId attempt :: added']⟩ := hafter
    have hclosed : Scopes.start.after (.entered (jobFields jobId attempt) :: inner ++ [.exited]) =
        Scopes.start := by
      rw [Scopes.after_append, hentered]
      rfl
    refine ⟨Throughout.append (Throughout.append ⟨?_, hthrough⟩ ⟨Or.inl ?_, trivial⟩) ?_, ?_⟩
    · exact Or.inr ⟨_, [], hopen, fun _ hf => absurd hf List.not_mem_nil⟩
    · rw [hentered]
      rfl
    · rw [hclosed]
      exact ih.1
    · rw [Scopes.after_append, hclosed]
      exact ih.2

/-- Nothing bound later hides what a block was opened with. -/
theorem get?_foldl_override {added : List (Fields Json)} {key : String}
    (h : ∀ fields ∈ added, fields.get? key = none) (fields : Fields Json) :
    (added.foldl Dict.override fields).get? key = fields.get? key := by
  induction added generalizing fields with
  | nil => rfl
  | cons first added ih =>
    obtain ⟨hfirst, hrest⟩ := List.forall_mem_cons.mp h
    rw [List.foldl_cons, ih hrest, Dict.get?_override, hfirst, Option.none_or]

theorem fieldIs_of_orderly {scopes : Scopes (Fields Json)} (h : Orderly scopes) {key : String}
    (hkey : key ∈ identity) (n : ℤ) :
    openIs key n scopes = fieldIs key n (scopes.openFields.foldl Dict.override Dict.empty) := by
  obtain rfl | ⟨fields, added, rfl, hadded⟩ := h
  · rfl
  · have hfields : Scopes.openFields (⟨[], [fields :: added]⟩ : Scopes (Fields Json)) =
        fields :: added := by simp [Scopes.openFields, Scopes.inside]
    rw [hfields, List.foldl_cons, fieldIs, get?_foldl_override fun f hf => hadded f hf key hkey,
      Dict.get?_override, Dict.get?_empty, Option.or_none]
    rfl

/-- The record of a line. What a caller says besides does not say which scan it is. -/
structure Renders (line : Line × Fields Json) (record : Record Json) : Prop where
  message : record.message = line.1.message
  context : record.context = line.2
  extra : ∀ key ∈ identity, record.extra.get? key = none

section Reading

variable {encode : Json → JsonText.Value} {service : String} {record : Record Json}
  {line : Line × Fields Json}

/-- A line of the stream says which scan it belongs to as the context did. -/
theorem valueIs_payload (hencode : ∀ v n, encode v = .int n ↔ v = .int n)
    (h : Renders line record) {key : String} (hkey : key ∈ identity) (n : ℤ) :
    valueIs key n (payload encode service record) = fieldIs key n line.2 := by
  have hkeys : ∀ key ∈ identity, key ∉ ["ts", "level", "service", "logger", "msg", "error"] := by
    decide
  rw [Bool.eq_iff_iff, valueIs_iff, fieldIs_iff,
    get?_payload_of_context (hkeys key hkey) (h.extra key hkey), h.context, Option.map_eq_some_iff]
  constructor
  · rintro ⟨v, hv, hint⟩
    rw [hv, (hencode v n).mp hint]
  · intro hint
    exact ⟨_, hint, (hencode _ n).mpr rfl⟩

theorem filter_renders (hencode : ∀ v n, encode v = .int n ↔ v = .int n)
    {points : List (Line × Fields Json)} {records : List (Record Json)}
    (h : List.Forall₂ Renders points records) {key : String} (hkey : key ∈ identity) (n : ℤ) :
    (records.filter fun record => valueIs key n (payload encode service record)).map
        Record.message =
      (points.filter fun line => fieldIs key n line.2).map fun line => line.1.message := by
  induction h with
  | nil => rfl
  | cons hline h ih =>
    rw [List.filter_cons, List.filter_cons, valueIs_payload hencode hline hkey]
    split
    · rw [List.map_cons, List.map_cons, ih, hline.message]
    · exact ih

end Reading

/-- **The log tells the life of every job.** Of all the lines that a worker writes, those with a
`job_id` are the lines that were logged while the block of that job was open, in their order, and
those with an attempt the lines of that attempt. The blocks are those of jobs that the worker was
offered, one after the other, and each is of one turn. -/
theorem log_tells_lives {encode : Json → JsonText.Value}
    (hencode : ∀ v n, encode v = .int n ↔ v = .int n) (settings : Settings)
    (probeVersions : Except Raised (String × String)) (turns : List Turn)
    {s : Logging (Session Db Objects Raised) Json} (hcontext : s.current = Dict.empty)
    (htrace : s.trace = []) {records : List (Record Json)}
    (hrecords : List.Forall₂ Renders
      (passed (endState (Correlated.main settings probeVersions turns s)).trace) records) :
    (∀ key ∈ identity, ∀ n,
      (records.filter fun record => valueIs key n (payload encode "worker" record)).map
          Record.message =
        (told (openIs key n) Scopes.start
          ((endState (Correlated.main settings probeVersions turns s)).trace.map Point.step)).map
            Line.message) ∧
      LivesAmong (turns.map fun t => t.candidate.jobId)
        ((endState (Correlated.main settings probeVersions turns s)).trace.map Point.step) := by
  obtain ⟨points, added, hran⟩ := (built_main probeVersions turns).contained s
  obtain ⟨points', htrace', hlives⟩ := lives_main settings probeVersions turns s
  rw [htrace, List.nil_append] at htrace'
  have hpoints := hran.trace
  rw [htrace, List.nil_append] at hpoints
  rw [← htrace', hpoints] at hlives
  rw [hpoints] at hrecords ⊢
  refine ⟨fun key hkey n => ?_, hlives⟩
  obtain ⟨jobs, hjobs, -⟩ := hlives
  have hfollows : Follows Dict.override Dict.empty Scopes.start points :=
    hran.passage.follows Dict.empty Scopes.start hcontext
  rw [filter_renders hencode hrecords hkey, told_eq_passed hfollows
    (hjobs.throughout.1.mono fun scopes h => fieldIs_of_orderly h hkey n), List.map_map]
  rfl

/-- How what is bound here is written. -/
def encodeBound : Json → JsonText.Value
  | .int n => .int n
  | .str s => .str s
  | .bool b => .bool b
  | _ => .null

theorem encodeBound_eq_int (v : Json) (n : ℤ) : encodeBound v = .int n ↔ v = .int n := by
  cases v <;> simp [encodeBound]

/-- A record with nothing but its message and its context. -/
def bareRecord (line : Line × Fields Json) : Record Json where
  ts := "2026-07-01T00:00:00.000+00:00"
  levelname := "INFO"
  name := "worker"
  message := line.1.message
  context := line.2
  extra := Dict.empty
  error := none

theorem renders_bareRecord (line : Line × Fields Json) : Renders line (bareRecord line) :=
  ⟨rfl, rfl, fun _ _ => rfl⟩

/-- A connection is lost while the first job is scanned; then there is no other job. -/
def lostJob : List Turn :=
  [⟨id, scanning knownTags, firstJob⟩, ⟨id, scanning knownTags, firstJob⟩]

/-- A worker that has just started. -/
def started : Logging (Session Db Objects Raised) Json :=
  ⟨idle queued ⟨queuedJob, queuedJob, none⟩ lostConnection, ContextVar.unset, []⟩

def lostJobTrace (settings : Settings) : List (Point (Fields Json) Line (Fields Json)) :=
  (endState (Correlated.main settings (.ok ("0.69.3", "2026-07-01")) lostJob started)).trace

theorem log_tells_lives_lostJob :
    (passed (lostJobTrace {})).map (fun line => line.1.message) =
      ["worker up", "unexpected error", "job failed", "worker stopped"] ∧
    (((passed (lostJobTrace {})).map bareRecord).filter fun record =>
        valueIs "job_id" 1 (payload encodeBound "worker" record)).map Record.message =
      ["unexpected error", "job failed"] := by
  have hrecords : List.Forall₂ Renders (passed (lostJobTrace {}))
      ((passed (lostJobTrace {})).map bareRecord) :=
    List.forall₂_map_right_iff.mpr (List.forall₂_same.mpr fun line _ => renders_bareRecord line)
  obtain ⟨hlog, -⟩ := log_tells_lives encodeBound_eq_int {} (.ok ("0.69.3", "2026-07-01")) lostJob
    (s := started) rfl rfl hrecords
  refine ⟨by decide +kernel, ?_⟩
  rw [hlog "job_id" (by decide) 1]
  decide +kernel

end RunOnce

end ContainerScanner
