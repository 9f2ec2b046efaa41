import ContainerScanner.Obs.Logging

/-!
# The steps of a program that logs

What a program adds to its trace, whichever way it ends, told by a property of the steps. The rules
follow the ways programs are put together.

## Main definitions

* `Emits`

## Main results

* `Emits.seq`, `Emits.tryCatch`, `Emits.bound`
-/

namespace ContainerScanner

open Foundation

namespace Obs

variable {σ ν ε α β : Type} {A B C : List (Step (Fields ν) Line) → Prop}

/-- Returning or raising, the program has added such steps to its trace. -/
def Emits (A : List (Step (Fields ν) Line) → Prop) (x : Logged σ ν ε α) : Prop :=
  ∀ s, ∃ points, (endState (x s)).trace = s.trace ++ points ∧ A (points.map Point.step)

theorem emits_pure (h : A []) (a : α) : Emits A (pure a : Logged σ ν ε α) :=
  fun _ => ⟨[], (List.append_nil _).symm, h⟩

theorem emits_plain (h : A []) (x : EStateM ε σ α) : Emits A (plain x) := by
  intro s
  rw [plain]
  cases x s.state <;> exact ⟨[], (List.append_nil _).symm, h⟩

theorem emits_log {level : Level} {message : String} (h : A [.passed ⟨level, message⟩]) :
    Emits A (log level message : Logged σ ν ε Unit) :=
  fun s => ⟨[⟨.passed ⟨level, message⟩, s.current⟩], rfl, h⟩

theorem emits_bind {fields : Fields ν} (h : A [.added fields]) :
    Emits A (bind fields : Logged σ ν ε Unit) :=
  fun s => ⟨[⟨.added fields, s.current.override fields⟩], rfl, h⟩

/-- The second part runs unless the first raises. -/
theorem Emits.seq {x : Logged σ ν ε α} {f : α → Logged σ ν ε β} (h : Emits A x)
    (hf : ∀ a, Emits B (f a)) (hraised : ∀ steps, A steps → C steps)
    (happend : ∀ steps steps', A steps → B steps' → C (steps ++ steps')) : Emits C (x >>= f) := by
  intro s
  obtain ⟨points, htrace, hsteps⟩ := h s
  obtain ⟨a, hend⟩ | hend := endState_bind x f s
  · obtain ⟨points', htrace', hsteps'⟩ := hf a (endState (x s))
    rw [hend, htrace', htrace]
    refine ⟨points ++ points', List.append_assoc _ _ _, ?_⟩
    rw [List.map_append]
    exact happend _ _ hsteps hsteps'
  · rw [hend]
    exact ⟨points, htrace, hraised _ hsteps⟩

/-- The handler runs if the program raises. -/
theorem Emits.tryCatch {x : Logged σ ν ε α} {handle : ε → Logged σ ν ε α} (h : Emits A x)
    (hhandle : ∀ e, Emits B (handle e)) (hok : ∀ steps, A steps → C steps)
    (happend : ∀ steps steps', A steps → B steps' → C (steps ++ steps')) :
    Emits C (MonadExcept.tryCatch x handle) := by
  intro s
  obtain ⟨points, htrace, hsteps⟩ := h s
  obtain ⟨e, hend⟩ | hend := endState_tryCatch x handle s
  · obtain ⟨points', htrace', hsteps'⟩ := hhandle e (endState (x s))
    rw [hend, htrace', htrace]
    refine ⟨points ++ points', List.append_assoc _ _ _, ?_⟩
    rw [List.map_append]
    exact happend _ _ hsteps hsteps'
  · rw [hend]
    exact ⟨points, htrace, hok _ hsteps⟩

/-- A block around the steps. -/
theorem Emits.bound [RaisesResetError ε] {x : Logged σ ν ε α} (h : Emits A x) (hx : Contained x)
    (fields : Fields ν) :
    Emits (fun steps => ∃ inner, A inner ∧ steps = .entered fields :: inner ++ [.exited])
      (bound fields x) := by
  intro s
  obtain ⟨-, var, hbound, -⟩ := hx.endState_bound fields s
  obtain ⟨points, htrace, hsteps⟩ := h (entered fields s)
  rw [hbound, endState_movedTo]
  refine ⟨⟨.entered fields, s.current.override fields⟩ :: points ++
    [⟨.exited, (var.get none).getD Dict.empty⟩], ?_, points.map Point.step, hsteps, ?_⟩
  · show (endState (x (entered fields s))).trace ++ [⟨.exited, (var.get none).getD Dict.empty⟩] = _
    rw [htrace, List.append_assoc]
    exact List.append_assoc _ _ _
  · rw [List.map_append]
    rfl

/-! ### Steps of one kind -/

/-- Nothing is such a list, and so are two of them. -/
structure Closed (A : List (Step (Fields ν) Line) → Prop) : Prop where
  nil : A []
  append : ∀ steps steps', A steps → A steps' → A (steps ++ steps')

theorem closed_forall (P : Step (Fields ν) Line → Prop) :
    Closed fun steps => ∀ step ∈ steps, P step :=
  ⟨fun _ h => absurd h List.not_mem_nil, fun _ _ h h' => List.forall_mem_append.mpr ⟨h, h'⟩⟩

theorem Closed.seq (hA : Closed A) {x : Logged σ ν ε α} {f : α → Logged σ ν ε β} (h : Emits A x)
    (hf : ∀ a, Emits A (f a)) : Emits A (x >>= f) :=
  h.seq hf (fun _ h => h) hA.append

theorem Closed.tryCatch (hA : Closed A) {x : Logged σ ν ε α} {handle : ε → Logged σ ν ε α}
    (h : Emits A x) (hhandle : ∀ e, Emits A (handle e)) :
    Emits A (MonadExcept.tryCatch x handle) :=
  h.tryCatch hhandle (fun _ h => h) hA.append

end Obs

end ContainerScanner
