import Mathlib.Tactic.Common

/-!
# Programs on a larger state

A program on a state may be run on a larger one, with a clock or a log beside it. Of such a run only
what belongs to the smaller state is looked at: `Shows view x y` says that there `x` is `y`.

## Main definitions

* `endState` — where a program ends, returning or raising
* `viewed`, `Shows` — a program as seen from the smaller state

## Main results

* `endState_bind`, `endState_tryCatch` — where a sequence and a handled program end
* `Shows.bind`, `Shows.tryCatch` — each construct shows what its parts show
* `Shows.bind_of_hidden`, `Shows.bind_last` — a step that is not seen, first or last
-/

namespace Foundation

variable {σ τ ε α β : Type} {view : τ → σ}

/-- The state in which a program ends. -/
def endState : EStateM.Result ε σ α → σ
  | .ok _ s => s
  | .error _ s => s

/-- A sequence ends where its second part does, or where the first has raised. -/
theorem endState_bind (x : EStateM ε σ α) (f : α → EStateM ε σ β) (s : σ) :
    (∃ a, endState ((x >>= f) s) = endState (f a (endState (x s)))) ∨
      endState ((x >>= f) s) = endState (x s) := by
  show (∃ a, endState (EStateM.bind x f s) = _) ∨ endState (EStateM.bind x f s) = _
  rw [EStateM.bind]
  cases x s with
  | ok a s' => exact Or.inl ⟨a, rfl⟩
  | error e s' => exact Or.inr rfl

/-- A program with a handler ends where the handler does, or where it has returned. -/
theorem endState_tryCatch (x : EStateM ε σ α) (handle : ε → EStateM ε σ α) (s : σ) :
    (∃ e, endState (tryCatch x handle s) = endState (handle e (endState (x s)))) ∨
      endState (tryCatch x handle s) = endState (x s) := by
  show (∃ e, endState (EStateM.tryCatch x handle s) = _) ∨
    endState (EStateM.tryCatch x handle s) = _
  rw [EStateM.tryCatch]
  cases x s with
  | ok a s' => exact Or.inr rfl
  | error e s' => exact Or.inl ⟨e, rfl⟩

/-- The same end, in another state. -/
def movedTo (s : τ) : EStateM.Result ε σ α → EStateM.Result ε τ α
  | .ok a _ => .ok a s
  | .error e _ => .error e s

@[simp] theorem endState_movedTo (s : τ) (r : EStateM.Result ε σ α) :
    endState (movedTo s r) = s := by
  cases r <;> rfl

/-- A last step that returns leaves the end as it was. -/
theorem tryFinally_of_ok {s t : σ} {x : EStateM ε σ α} {last : EStateM ε σ β} {b : β}
    (h : last (endState (x s)) = .ok b t) : tryFinally x last s = movedTo t (x s) := by
  show EStateM.map Prod.fst (tryFinally' x fun _ => last) s = _
  simp only [EStateM.map, tryFinally']
  cases hx : x s with
  | ok a s' =>
    have hlast : last s' = .ok b t := by
      rw [← h, hx]
      rfl
    simp only [hlast, movedTo]
  | error e s' =>
    have hlast : last s' = .ok b t := by
      rw [← h, hx]
      rfl
    simp only [hlast, movedTo]

/-- A result on the larger state, as seen from the smaller. -/
def viewed (view : τ → σ) : EStateM.Result ε τ α → EStateM.Result ε σ α
  | .ok a t => .ok a (view t)
  | .error e t => .error e (view t)

/-- Seen from the smaller state, the one program is the other. -/
def Shows (view : τ → σ) (x : EStateM ε τ α) (y : EStateM ε σ α) : Prop :=
  ∀ t, viewed view (x t) = y (view t)

theorem shows_pure (a : α) : Shows view (pure a : EStateM ε τ α) (pure a) := fun _ => rfl

section Constructs

variable {x : EStateM ε τ α} {y : EStateM ε σ α}

theorem Shows.bind {f : α → EStateM ε τ β} {g : α → EStateM ε σ β} (h : Shows view x y)
    (hf : ∀ a, Shows view (f a) (g a)) : Shows view (x >>= f) (y >>= g) := by
  intro t
  show viewed view (EStateM.bind x f t) = EStateM.bind y g (view t)
  rw [EStateM.bind, EStateM.bind, ← h t]
  cases x t with
  | ok a t' => exact hf a t'
  | error e t' => rfl

theorem Shows.tryCatch {handle : ε → EStateM ε τ α} {handle' : ε → EStateM ε σ α}
    (h : Shows view x y) (hhandle : ∀ e, Shows view (handle e) (handle' e)) :
    Shows view (MonadExcept.tryCatch x handle) (MonadExcept.tryCatch y handle') := by
  intro t
  show viewed view (EStateM.tryCatch x handle t) = EStateM.tryCatch y handle' (view t)
  rw [EStateM.tryCatch, EStateM.tryCatch, ← h t]
  cases x t with
  | ok a t' => rfl
  | error e t' => exact hhandle e t'

/-- A last step that is not seen. -/
theorem Shows.bind_last {w : α → EStateM ε τ α} (h : Shows view x y)
    (hw : ∀ a, Shows view (w a) (pure a)) : Shows view (x >>= w) y := by
  have hy : y >>= pure = y := bind_pure y
  rw [← hy]
  exact h.bind hw

/-- A step that returns and does nothing to the smaller state is not seen there. -/
theorem Shows.bind_of_hidden {w : EStateM ε τ β} {f : β → EStateM ε τ α}
    (hw : ∀ t, ∃ b t', w t = .ok b t' ∧ view t' = view t) (hf : ∀ b, Shows view (f b) y) :
    Shows view (w >>= f) y := by
  intro t
  obtain ⟨b, t', hres, hview⟩ := hw t
  show viewed view (EStateM.bind w f t) = _
  rw [EStateM.bind, hres, ← hview]
  exact hf b t'

end Constructs

end Foundation
