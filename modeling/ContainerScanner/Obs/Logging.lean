import ContainerScanner.Foundation.ContextVar
import ContainerScanner.Foundation.Dict
import ContainerScanner.Foundation.Erasure
import ContainerScanner.Foundation.Scopes
import ContainerScanner.Foundation.Session

/-!
# Correlation of log lines

`bound`, `bind` and `context` of `app/obs/logging.py`. The fields that every log line carries are in
a context variable: `bound` sets it for a block and resets it afterwards, `bind` sets it for the
rest of the block it is called in.

A program that logs has a state of its own, which none of this reads. What it does with the context
is kept beside it in `trace`, each step with the context right after it.

## Main definitions

* `Logging`, `Logged` — the state, and a program that logs
* `plain` — work that knows nothing of logging
* `bound`, `bind`, `context`, `log`
* `Built` — the programs made of these

## Main results

* `Built.contained` — every program leaves the blocks it was called in as they were
* `Built.context_eq` — the context at every point of a program
* `Built.restores_bound` — a block leaves the context as it found it
* `shows_bound` — a block does nothing else
-/

namespace ContainerScanner

open Foundation

/-- Keyword arguments, and the context they make. -/
abbrev Fields (ν : Type) : Type := Dict String ν

namespace Obs

inductive Level where
  | info
  | warning
  | error
  deriving DecidableEq

/-- What a caller logs. -/
structure Line where
  level : Level
  message : String
  deriving DecidableEq

/-- A state, with `_context` and with what was done with it. -/
structure Logging (σ ν : Type) where
  state : σ
  /-- `_context: ContextVar[dict[str, Any] | None]`. -/
  var : ContextVar (Option (Fields ν))
  /-- Every step so far, the oldest first. -/
  trace : List (Point (Fields ν) Line (Fields ν))

/-- The exceptions that `reset` may raise are among the program's. -/
class RaisesResetError (ε : Type) where
  ofResetError : ResetError → ε

/-- A program that logs. -/
abbrev Logged (σ ν ε α : Type) : Type := EStateM ε (Logging σ ν) α

variable {σ ν ε α β : Type}

/-- `_current()`, that is `_context.get() or {}`. -/
def Logging.current (s : Logging σ ν) : Fields ν := (s.var.get none).getD Dict.empty

/-- Work that knows nothing of logging. -/
def plain (x : EStateM ε σ α) : Logged σ ν ε α := fun s =>
  match x s.state with
  | .ok a t => .ok a { s with state := t }
  | .error e t => .error e { s with state := t }

/-- Keep a step in the trace. -/
def mark (step : Step (Fields ν) Line) : Logged σ ν ε Unit := fun s =>
  .ok () { s with trace := s.trace ++ [⟨step, s.current⟩] }

/-- `context()`. -/
def context : Logged σ ν ε (Fields ν) := fun s => .ok s.current s

/-- `_context.set`. -/
def setContext (fields : Fields ν) : Logged σ ν ε (Token (Option (Fields ν))) := fun s =>
  let r := s.var.set (some fields)
  .ok r.1 { s with var := r.2 }

/-- `_context.reset`. -/
def resetContext [RaisesResetError ε] (token : Token (Option (Fields ν))) : Logged σ ν ε Unit :=
  fun s =>
    match s.var.reset token with
    | .ok var => .ok () { s with var := var }
    | .error e => .error (RaisesResetError.ofResetError e) s

/-- `with bound(**fields)`. -/
def bound [RaisesResetError ε] (fields : Fields ν) (block : Logged σ ν ε α) : Logged σ ν ε α := do
  let token ← setContext ((← context).override fields)
  mark (.entered fields)
  try
    block
  finally
    resetContext token
    mark .exited

def bind (fields : Fields ν) : Logged σ ν ε Unit := do
  let _ ← setContext ((← context).override fields)
  mark (.added fields)

/-- A line, with `record.context = _current()`. -/
def log (level : Level) (message : String) : Logged σ ν ε Unit := mark (.passed ⟨level, message⟩)

/-- The programs made of blocks, `bind`s, log lines, exceptions and work that knows nothing of
logging. What comes next may depend on everything before it. -/
inductive Built [RaisesResetError ε] : {α : Type} → Logged σ ν ε α → Prop where
  | pure {α : Type} (a : α) : Built (Pure.pure a)
  | raise {α : Type} (e : ε) : Built (throw e : Logged σ ν ε α)
  | plain {α : Type} (x : EStateM ε σ α) : Built (plain x)
  | log (level : Level) (message : String) : Built (log level message)
  | context : Built context
  | bind (fields : Fields ν) : Built (bind fields)
  | bound {α : Type} (fields : Fields ν) {block : Logged σ ν ε α} (hblock : Built block) :
    Built (bound fields block)
  | seq {α β : Type} {x : Logged σ ν ε α} {f : α → Logged σ ν ε β} (hx : Built x)
    (hf : ∀ a, Built (f a)) : Built (x >>= f)
  | tryCatch {α : Type} {x : Logged σ ν ε α} {handle : ε → Logged σ ν ε α} (hx : Built x)
    (hhandle : ∀ e, Built (handle e)) : Built (tryCatch x handle)

/-! ### What a run does with the context -/

section Blocks

variable {s s' s'' t : Logging σ ν} {points points' : List (Point (Fields ν) Line (Fields ν))}
  {added added' : List (Fields ν)}

/-- Everything that was open before is as it was, but for what was added to the innermost block, and
the tokens from before are good. -/
structure Ran (s s' : Logging σ ν) (points : List (Point (Fields ν) Line (Fields ν)))
    (added : List (Fields ν)) : Prop where
  trace : s'.trace = s.trace ++ points
  passage : Passage Dict.override s.current points added s'.current
  keeps : s.var.Keeps s'.var

theorem ran_state (s : Logging σ ν) (t : σ) : Ran s { s with state := t } [] [] :=
  ⟨(List.append_nil _).symm, passage_nil _, s.var.keeps_refl⟩

theorem Ran.trans (h : Ran s s' points added) (h' : Ran s' s'' points' added') :
    Ran s s'' (points ++ points') (added ++ added') := by
  refine ⟨?_, h.passage.append h'.passage, h.keeps.trans h'.keeps⟩
  rw [h'.trace, h.trace, List.append_assoc]

/-- In a block with these fields. -/
def entered (fields : Fields ν) (s : Logging σ ν) : Logging σ ν where
  state := s.state
  var := (s.var.set (some (s.current.override fields))).2
  trace := s.trace ++ [⟨.entered fields, s.current.override fields⟩]

/-- Out of it, with the variable as it was reset. -/
def exited (var : ContextVar (Option (Fields ν))) (s : Logging σ ν) : Logging σ ν where
  state := s.state
  var := var
  trace := s.trace ++ [⟨.exited, (var.get none).getD Dict.empty⟩]

theorem resetContext_of_ok [RaisesResetError ε] {token : Token (Option (Fields ν))}
    {var : ContextVar (Option (Fields ν))} (h : s.var.reset token = .ok var) :
    (resetContext token : Logged σ ν ε Unit) s = .ok () { s with var := var } := by
  rw [resetContext, h]

/-- A block whose token is good ends as what runs in it does. -/
theorem bound_eq [RaisesResetError ε] {fields : Fields ν} {block : Logged σ ν ε α}
    {var : ContextVar (Option (Fields ν))}
    (hreset : (endState (block (entered fields s))).var.reset
      (s.var.set (some (s.current.override fields))).1 = .ok var) :
    bound fields block s = movedTo (exited var (endState (block (entered fields s))))
      (block (entered fields s)) := by
  have hlast : (do resetContext (s.var.set (some (s.current.override fields))).1; mark .exited :
      Logged σ ν ε Unit) (endState (block (entered fields s))) =
        .ok () (exited var (endState (block (entered fields s)))) :=
    bind_of_ok (resetContext_of_ok hreset)
  exact tryFinally_of_ok hlast

/-- What runs in a block leaves the token of the block good. -/
theorem Ran.exited {fields : Fields ν} (h : Ran (entered fields s) t points added) :
    ∃ var, t.var.reset (s.var.set (some (s.current.override fields))).1 = .ok var ∧
      Ran s (exited var t)
        (⟨.entered fields, s.current.override fields⟩ :: points ++ [⟨.exited, s.current⟩]) [] := by
  obtain ⟨var, hreset, hvalue, hkeeps⟩ := ContextVar.reset_of_keeps h.keeps
  have hcurrent : (Obs.exited var t).current = s.current := by
    show (var.value.getD none).getD Dict.empty = (s.var.value.getD none).getD Dict.empty
    rw [hvalue]
  refine ⟨var, hreset, ?_, ?_, hkeeps⟩
  · show t.trace ++ [⟨.exited, (Obs.exited var t).current⟩] = _
    rw [h.trace, hcurrent]
    simp [entered]
  · rw [hcurrent]
    exact h.passage.block

end Blocks

/-! ### Programs -/

/-- Returning or raising, the program has left what was open as it was, but for what it added. -/
def Contained (x : Logged σ ν ε α) : Prop :=
  ∀ s, ∃ points added, Ran s (endState (x s)) points added

theorem contained_pure (a : α) : Contained (Pure.pure a : Logged σ ν ε α) :=
  fun s => ⟨[], [], ran_state s s.state⟩

theorem contained_throw (e : ε) : Contained (throw e : Logged σ ν ε α) :=
  fun s => ⟨[], [], ran_state s s.state⟩

theorem contained_plain (x : EStateM ε σ α) : Contained (ν := ν) (plain x) := by
  intro s
  rw [plain]
  cases x s.state <;> exact ⟨[], [], ran_state s _⟩

theorem contained_context : Contained (context : Logged σ ν ε (Fields ν)) :=
  fun s => ⟨[], [], ran_state s s.state⟩

theorem contained_log (level : Level) (message : String) :
    Contained (log level message : Logged σ ν ε Unit) :=
  fun s => ⟨[⟨.passed ⟨level, message⟩, s.current⟩], [], rfl, passage_passed s.current _,
    s.var.keeps_refl⟩

/-- What `bind` sets is undone by the token of the block around it. -/
theorem contained_bind (fields : Fields ν) : Contained (bind fields : Logged σ ν ε Unit) :=
  fun s => ⟨[⟨.added fields, s.current.override fields⟩], [fields], rfl,
    passage_added s.current fields, s.var.keeps_set _⟩

section Rules

variable {x : Logged σ ν ε α}

theorem Contained.seq {f : α → Logged σ ν ε β} (h : Contained x) (hf : ∀ a, Contained (f a)) :
    Contained (x >>= f) := by
  intro s
  obtain ⟨points, added, hran⟩ := h s
  obtain ⟨a, hend⟩ | hend := endState_bind x f s
  · obtain ⟨points', added', hran'⟩ := hf a (endState (x s))
    rw [hend]
    exact ⟨_, _, hran.trans hran'⟩
  · rw [hend]
    exact ⟨points, added, hran⟩

theorem Contained.tryCatch {handle : ε → Logged σ ν ε α} (h : Contained x)
    (hhandle : ∀ e, Contained (handle e)) : Contained (MonadExcept.tryCatch x handle) := by
  intro s
  obtain ⟨points, added, hran⟩ := h s
  obtain ⟨e, hend⟩ | hend := endState_tryCatch x handle s
  · obtain ⟨points', added', hran'⟩ := hhandle e (endState (x s))
    rw [hend]
    exact ⟨_, _, hran.trans hran'⟩
  · rw [hend]
    exact ⟨points, added, hran⟩

variable [RaisesResetError ε]

/-- The end of a block, however what runs in it ends. -/
theorem Contained.endState_bound (h : Contained x) (fields : Fields ν) (s : Logging σ ν) :
    ∃ points var, bound fields x s = movedTo (exited var (endState (x (entered fields s))))
        (x (entered fields s)) ∧
      Ran s (endState (bound fields x s)) points [] := by
  obtain ⟨points, added, hran⟩ := h (entered fields s)
  obtain ⟨var, hreset, hran'⟩ := hran.exited
  have hbound : bound fields x s = movedTo (exited var (endState (x (entered fields s))))
      (x (entered fields s)) := bound_eq hreset
  have hend : endState (bound fields x s) = exited var (endState (x (entered fields s))) := by
    rw [hbound, endState_movedTo]
  exact ⟨_, var, hbound, hend ▸ hran'⟩

theorem Contained.bound (h : Contained x) (fields : Fields ν) : Contained (bound fields x) := by
  intro s
  obtain ⟨points, var, hbound, hran⟩ := h.endState_bound fields s
  exact ⟨points, [], hran⟩

/-- **Every program leaves the blocks it was called in as they were.** -/
theorem Built.contained (h : Built x) : Contained x := by
  induction h with
  | pure a => exact contained_pure a
  | raise e => exact contained_throw e
  | plain x => exact contained_plain x
  | log level message => exact contained_log level message
  | context => exact contained_context
  | bind fields => exact contained_bind fields
  | bound fields hblock ih => exact ih.bound fields
  | seq hx hf ihx ihf => exact ihx.seq ihf
  | tryCatch hx hhandle ihx ihhandle => exact ihx.tryCatch ihhandle

/-- **At every point** the context is what the fields that are open make of the first. -/
theorem Built.context_eq (h : Built x) (s : Logging σ ν) :
    ∃ points, (endState (x s)).trace = s.trace ++ points ∧
      ∀ earlier point later, points = earlier ++ point :: later →
        point.context = (Scopes.start.afterPoints (earlier ++ [point])).openFields.foldl
          Dict.override s.current := by
  obtain ⟨points, added, hran⟩ := h.contained s
  exact ⟨points, hran.trace, fun _ _ _ hpoints => hran.passage.context_eq hpoints⟩

end Rules

/-! ### Programs that leave the context alone -/

/-- Returning or raising, the program leaves the context as it found it. -/
def Restores (x : Logged σ ν ε α) : Prop := ∀ s, (endState (x s)).current = s.current

theorem restores_pure (a : α) : Restores (Pure.pure a : Logged σ ν ε α) := fun _ => rfl

theorem restores_plain (x : EStateM ε σ α) : Restores (ν := ν) (plain x) := by
  intro s
  rw [plain]
  cases x s.state <;> rfl

theorem Restores.seq {x : Logged σ ν ε α} {f : α → Logged σ ν ε β} (h : Restores x)
    (hf : ∀ a, Restores (f a)) : Restores (x >>= f) := by
  intro s
  obtain ⟨a, hend⟩ | hend := endState_bind x f s
  · rw [hend]
    exact (hf a _).trans (h s)
  · rw [hend]
    exact h s

/-- **A block leaves the context as it found it**, whatever is bound in it. -/
theorem Built.restores_bound [RaisesResetError ε] {x : Logged σ ν ε α} (h : Built x)
    (fields : Fields ν) : Restores (Obs.bound fields x) := by
  intro s
  obtain ⟨points, var, hbound, hran⟩ := h.contained.endState_bound fields s
  exact hran.passage.after_eq

/-! ### Without the logging -/

theorem shows_plain (x : EStateM ε σ α) :
    Shows (Logging.state (ν := ν)) (plain x) x := by
  intro s
  rw [plain]
  cases x s.state <;> rfl

theorem shows_log (level : Level) (message : String) :
    Shows (Logging.state (ν := ν)) (log level message : Logged σ ν ε Unit) (Pure.pure ()) :=
  fun _ => rfl

section Hidden

variable {x : Logged σ ν ε α} {y : EStateM ε σ α}

theorem shows_log_bind {level : Level} {message : String} {f : Unit → Logged σ ν ε α}
    (h : Shows Logging.state (f ()) y) : Shows Logging.state (log level message >>= f) y :=
  Shows.bind_of_hidden (fun _ => ⟨(), _, rfl, rfl⟩) fun _ => h

theorem shows_bind_bind {fields : Fields ν} {f : Unit → Logged σ ν ε α}
    (h : Shows Logging.state (f ()) y) : Shows Logging.state (bind fields >>= f) y :=
  Shows.bind_of_hidden (fun _ => ⟨(), _, rfl, rfl⟩) fun _ => h

/-- To the state a block is what runs in it. -/
theorem shows_bound [RaisesResetError ε] (hx : Contained x) (h : Shows Logging.state x y)
    (fields : Fields ν) : Shows Logging.state (bound fields x) y := by
  intro s
  obtain ⟨points, var, hbound, hran⟩ := hx.endState_bound fields s
  have hshows := h (entered fields s)
  rw [hbound]
  cases hres : x (entered fields s) <;> rw [hres] at hshows <;> exact hshows

end Hidden

end Obs

end ContainerScanner
