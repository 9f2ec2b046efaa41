import ContainerScanner.Obs.Logging
import ContainerScanner.Scanner.RunOnce

/-!
# The log of one job

`run_once` with its log: the block it works in, the fields it binds on the way, and its lines. What
a line says beside its message (`extra`) is left out, and so is the stack of an exception.

## Main definitions

* `Correlated.execute`, `Correlated.handle`, `Correlated.runOnce`

## Main results

* `shows_runOnce` — without the log it is `run_once`
* `built_runOnce` — its block, its `bind`s and its lines are all it does with the context
* `correlation_never_leaks` — a block leaves the context as it found it, what is open makes the
  context at every point, and `run_once` leaves it as it found it
-/

namespace ContainerScanner

open Foundation Obs

namespace RunOnce

/-- The texts are without the token they begin with. -/
instance : RaisesResetError Raised where
  ofResetError
    | .runtimeError => .other "RuntimeError" "has already been used once"
    | .valueError => .other "ValueError" "was created by a different ContextVar"

/-- Is it none of the exceptions that `run_once` names? -/
def Raised.unexpected : Raised → Bool
  | .registry (.httpError _) => true
  | .registry (.other _) => true
  | .registry _ => false
  | .trivyError _ => false
  | .trivyTimeout _ => false
  | .trivyRateLimited _ => false
  | .report (.trivyReportError _) => false
  | .report (.attributeError _) => true
  | .other _ _ => true

namespace Correlated

/-- A program on the worker's session that logs. -/
abbrev Program (α : Type) : Type := Logged (Session Db Objects Raised) Json Raised α

def execute (env : Env) (jobId : JobId) : Program Unit := do
  match ← plain (statement getImage) with
  | none =>
    plain (statement (setJob Queue.complete))
    plain (commitJob jobId)
  | some (imageId, image) =>
    Obs.bind (Dict.ofList [("image", .str (image.name ++ ":" ++ image.tag))])
    let (trivyVersion, dbVersion) ← plain (consult env.probeVersions)
    let probe : Worker.Probe := ⟨trivyVersion, dbVersion, env.flagsHash, env.startedAt⟩
    let previous ← plain (statement (select fun db => env.lastSuccessfulRun db imageId))
    plain commit
    let digest ← plain (consult (env.resolveDigest (Registry.parseReference image.name image.tag)))
    Obs.bind (Dict.ofList [("digest", .str digest)])
    if Worker.isUnchanged previous digest trivyVersion dbVersion env.flagsHash then
      plain (recordSkip jobId imageId (probe.metadata digest env.completedAt))
      plain (statement (setJob Queue.complete))
      plain (commitJob jobId)
      log .info "skipped: digest and vulnerability database unchanged"
    else
      let raw ← plain (consult (env.runScan (image.name ++ ":" ++ image.tag)))
      let report ← plain (consult (env.parseReport raw))
      plain (recordSuccess jobId imageId image report
        (probe.metadata (Worker.scannedDigest report digest) env.completedAt))
      plain (statement (setJob Queue.complete))
      plain (commitJob jobId)
      log .info "scan complete"

def deferForBackpressure (env : Env) (jobId : JobId) (error : Raised) (retryAfter : Option ℕ) :
    Program Unit := do
  plain (RunOnce.deferForBackpressure env jobId error retryAfter)
  log .info "deferred: registry throttled us"

def recordFailure (env : Env) (settings : Settings) (jobId : JobId) (error : Raised) :
    Program Unit := do
  plain (RunOnce.recordFailure env settings jobId error)
  log .warning "job failed"

def handle (env : Env) (settings : Settings) (jobId : JobId) (error : Raised) : Program Unit :=
  match error.throttled with
  | some retryAfter => deferForBackpressure env jobId error retryAfter
  | none => do
    if error.unexpected then
      -- `log.exception`
      log .error "unexpected error"
    recordFailure env settings jobId error

/-- `job.attempts`, of an object that no commit expires. -/
def attempts : Program ℕ := fun s => .ok s.state.objects.job.attempts s

def runOnce (env : Env) (settings : Settings) (candidate : Candidate) : Program Bool := do
  let claimed ← plain (perform (claim settings candidate))
  plain commitNow
  if claimed then
    let attempt ← attempts
    bound (Dict.ofList [("job_id", .int candidate.jobId), ("attempt", .int attempt)])
      (tryCatch (execute env candidate.jobId) (handle env settings candidate.jobId))
  return claimed

end Correlated

variable {env : Env} {settings : Settings} {candidate : Candidate} {jobId : JobId}

/-! ### What it does with the context -/

theorem built_attempts : Built Correlated.attempts := by
  have hplain : Correlated.attempts = plain fun s => .ok s.objects.job.attempts s := rfl
  rw [hplain]
  exact Built.plain _

theorem built_execute : Built (Correlated.execute env jobId) := by
  rw [Correlated.execute]
  refine (Built.plain _).seq fun loaded => ?_
  cases loaded with
  | none => exact (Built.plain _).seq fun _ => Built.plain _
  | some entry =>
    obtain ⟨imageId, image⟩ := entry
    refine (Built.bind _).seq fun _ => ?_
    refine (Built.plain _).seq fun versions => ?_
    refine (Built.plain _).seq fun previous => ?_
    refine (Built.plain _).seq fun _ => ?_
    refine (Built.plain _).seq fun digest => ?_
    refine (Built.bind _).seq fun _ => ?_
    split
    · refine (Built.plain _).seq fun _ => (Built.plain _).seq fun _ => ?_
      exact (Built.plain _).seq fun _ => Built.log _ _
    · refine (Built.plain _).seq fun raw => (Built.plain _).seq fun report => ?_
      refine (Built.plain _).seq fun _ => (Built.plain _).seq fun _ => ?_
      exact (Built.plain _).seq fun _ => Built.log _ _

theorem built_handle (error : Raised) : Built (Correlated.handle env settings jobId error) := by
  have hfail : Built (Correlated.recordFailure env settings jobId error) :=
    (Built.plain _).seq fun _ => Built.log _ _
  rw [Correlated.handle]
  cases error.throttled with
  | some retryAfter => exact (Built.plain _).seq fun _ => Built.log _ _
  | none =>
    cases error.unexpected with
    | true => exact (Built.log _ _).seq fun _ => hfail
    | false => exact hfail

/-- What runs in the block of a job. -/
theorem built_block : Built (tryCatch (Correlated.execute env jobId)
    (Correlated.handle env settings jobId)) :=
  built_execute.tryCatch built_handle

theorem built_runOnce : Built (Correlated.runOnce env settings candidate) := by
  rw [Correlated.runOnce]
  refine (Built.plain _).seq fun claimed => (Built.plain _).seq fun _ => ?_
  split
  · refine built_attempts.seq fun attempt => ?_
    exact (Built.bound _ built_block).seq fun _ => Built.pure claimed
  · exact Built.pure claimed

/-- Whichever branch it takes, and when it raises, `run_once` leaves the context as it found it. -/
theorem restores_runOnce : Restores (Correlated.runOnce env settings candidate) := by
  rw [Correlated.runOnce]
  refine (restores_plain _).seq fun claimed => (restores_plain _).seq fun _ => ?_
  split
  · refine Restores.seq (fun _ => rfl) fun attempt => ?_
    exact (built_block.restores_bound _).seq fun _ => restores_pure claimed
  · exact restores_pure claimed

/-! ### The same program -/

theorem shows_execute :
    Shows Logging.state (Correlated.execute env jobId) (execute env jobId) := by
  rw [Correlated.execute, execute]
  refine (shows_plain _).bind fun loaded => ?_
  cases loaded with
  | none => exact (shows_plain _).bind fun _ => shows_plain _
  | some entry =>
    obtain ⟨imageId, image⟩ := entry
    refine shows_bind_bind ((shows_plain _).bind fun versions => ?_)
    refine (shows_plain _).bind fun previous => (shows_plain _).bind fun _ => ?_
    refine (shows_plain _).bind fun digest => shows_bind_bind ?_
    split
    · refine (shows_plain _).bind fun _ => (shows_plain _).bind fun _ => ?_
      exact (shows_plain _).bind_last fun _ => shows_log _ _
    · refine (shows_plain _).bind fun raw => (shows_plain _).bind fun report => ?_
      refine (shows_plain _).bind fun _ => (shows_plain _).bind fun _ => ?_
      exact (shows_plain _).bind_last fun _ => shows_log _ _

theorem shows_handle (error : Raised) :
    Shows Logging.state (Correlated.handle env settings jobId error)
      (handle env settings jobId error) := by
  have hfail : Shows Logging.state (Correlated.recordFailure env settings jobId error)
      (recordFailure env settings jobId error) :=
    (shows_plain _).bind_last fun _ => shows_log _ _
  rw [Correlated.handle, handle]
  cases error.throttled with
  | some retryAfter => exact (shows_plain _).bind_last fun _ => shows_log _ _
  | none =>
    cases error.unexpected with
    | true => exact shows_log_bind hfail
    | false => exact hfail

/-- **Without the log it is `run_once`.** -/
theorem shows_runOnce :
    Shows Logging.state (Correlated.runOnce env settings candidate)
      (runOnce env settings candidate) := by
  rw [Correlated.runOnce, runOnce]
  refine (shows_plain _).bind fun claimed => (shows_plain _).bind fun _ => ?_
  split
  · refine Shows.bind_of_hidden (fun s => ⟨s.state.objects.job.attempts, s, rfl, rfl⟩)
      fun attempt => ?_
    refine Shows.bind ?_ fun _ => shows_pure claimed
    exact shows_bound built_block.contained (shows_execute.tryCatch shows_handle) _
  · exact shows_pure claimed

/-! ### Nothing leaks -/

/-- A block leaves the context as it found it, whether what runs in it returns or raises. At every
point the context is what the fields that are open make of the context at the start, in program
order. -/
theorem correlation_never_leaks {σ ν ε α : Type} [RaisesResetError ε] {x : Logged σ ν ε α}
    (hx : Built x) :
    (∀ fields, Restores (bound fields x)) ∧
    (∀ s, ∃ points, (endState (x s)).trace = s.trace ++ points ∧
      ∀ earlier point later, points = earlier ++ point :: later →
        point.context = (Scopes.start.afterPoints (earlier ++ [point])).openFields.foldl
          Dict.override s.current) ∧
    ∀ env settings candidate, Restores (Correlated.runOnce env settings candidate) :=
  ⟨hx.restores_bound, hx.context_eq, fun _ _ _ => restores_runOnce⟩

/-- A logger that nothing was bound in. -/
def quiet : Logging Unit ℕ := ⟨(), ContextVar.unset, []⟩

/-- A block in a block, left by an exception. -/
def retried : Logged Unit ℕ Raised Unit :=
  tryCatch
    (bound (Dict.ofList [("digest", 7)]) do
      Obs.bind (Dict.ofList [("layer", 3)])
      throw (.other "ValueError" "boom"))
    fun _ => log .warning "failed"

theorem correlation_never_leaks_retried :
    Restores (bound (Dict.ofList [("job_id", 41)]) retried) ∧
      (endState (bound (Dict.ofList [("job_id", 41)]) retried quiet)).trace.map
        (fun point => point.context.entries) =
        [[("job_id", 41)], [("job_id", 41), ("digest", 7)],
          [("job_id", 41), ("digest", 7), ("layer", 3)], [("job_id", 41)], [("job_id", 41)],
          []] := by
  have hblock : Built (bound (Dict.ofList [("digest", 7)]) do
      Obs.bind (Dict.ofList [("layer", 3)])
      throw (.other "ValueError" "boom") : Logged Unit ℕ Raised Unit) :=
    Built.bound _ ((Built.bind _).seq fun _ => Built.raise _)
  have hbuilt : Built retried := hblock.tryCatch fun _ => Built.log _ _
  exact ⟨(correlation_never_leaks hbuilt).1 _, by decide⟩

/-- A field that is bound outside every block, and then a block. -/
def boundOutside : Logged Unit ℕ Raised Unit := do
  Obs.bind (Dict.ofList [("replica", 2)])
  bound (Dict.ofList [("job_id", 41)]) (log .info "started")

/-- What is bound outside every block is in the context inside one. -/
theorem context_ne_of_bind_outside :
    Built boundOutside ∧ quiet.current = Dict.empty ∧ ∃ earlier point later,
      (endState (boundOutside quiet)).trace = earlier ++ point :: later ∧
      (Scopes.start.afterPoints (earlier ++ [point])).blocks ≠ [] ∧
      point.context ≠ (Scopes.start.afterPoints (earlier ++ [point])).inside.foldl Dict.override
        Dict.empty := by
  have hbuilt : Built boundOutside := (Built.bind _).seq fun _ => Built.bound _ (Built.log _ _)
  have hne : (Dict.empty.override (Dict.ofList [("replica", 2)])).override
      (Dict.ofList [("job_id", 41)]) ≠ Dict.empty.override (Dict.ofList [("job_id", 41)]) :=
    fun h => absurd (congrArg Dict.entries h) (by decide)
  exact ⟨hbuilt, rfl, [_, _], _, [_], rfl, List.cons_ne_nil _ _, hne⟩

end RunOnce

end ContainerScanner
