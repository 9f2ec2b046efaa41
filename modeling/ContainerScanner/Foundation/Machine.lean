import Mathlib.Logic.Function.Basic
import Mathlib.Logic.Relation
import Mathlib.Tactic.Common

/-!
# Machines

A machine is a partial step function on states and events. Its runs may be restricted to steps that
meet a condition on the state before the step and the event, which is how an assumption about an
environment is stated: as a property of every step of the run, and of nothing else.

## Main definitions

* `execute` — the state after a list of events, when every step is enabled
* `Reaches` — reachability by steps that meet a condition
* `restrict` — the machine that refuses the other steps

## Main results

* `Reaches.invariant` — what the initial state has and every step keeps, every state has
* `execute_of_restrict` — the runs of a restricted machine are runs
* `reaches_of_execute` — an executed list of events is a run
* `update_none_eq_some`, `update_some_eq_some` — what the parties hold when one of them changes
-/

namespace Foundation

variable {σ ε : Type} {step : σ → ε → Option σ} {P Q : σ → ε → Prop} {s t u : σ}

/-- The state after a list of events. -/
def execute (step : σ → ε → Option σ) (s : σ) (es : List ε) : Option σ := es.foldlM step s

/-- One step that meets the condition. -/
def StepWhere (step : σ → ε → Option σ) (P : σ → ε → Prop) (s t : σ) : Prop :=
  ∃ e, P s e ∧ step s e = some t

/-- Reachability by steps that meet the condition. -/
def Reaches (step : σ → ε → Option σ) (P : σ → ε → Prop) : σ → σ → Prop :=
  Relation.ReflTransGen (StepWhere step P)

namespace Reaches

theorem refl (s : σ) : Reaches step P s s := Relation.ReflTransGen.refl

theorem tail (h : Reaches step P s t) {e : ε} (hP : P t e) (hstep : step t e = some u) :
    Reaches step P s u :=
  Relation.ReflTransGen.tail h ⟨e, hP, hstep⟩

theorem head {e : ε} (hP : P s e) (hstep : step s e = some t) (h : Reaches step P t u) :
    Reaches step P s u :=
  Relation.ReflTransGen.head ⟨e, hP, hstep⟩ h

theorem trans (h : Reaches step P s t) (h' : Reaches step P t u) : Reaches step P s u :=
  Relation.ReflTransGen.trans h h'

/-- **The invariant rule.** -/
theorem invariant {I : σ → Prop} (hstep : ∀ s e t, I s → P s e → step s e = some t → I t)
    (h : Reaches step P s t) (hs : I s) : I t := by
  induction h with
  | refl => exact hs
  | tail _ hlast ih =>
    obtain ⟨e, hP, he⟩ := hlast
    exact hstep _ e _ ih hP he

end Reaches

theorem execute_cons (step : σ → ε → Option σ) (s : σ) (e : ε) (es : List ε) :
    execute step s (e :: es) = (step s e).bind fun t => execute step t es := rfl

/-- The machine that takes the steps that meet the condition. -/
def restrict (step : σ → ε → Option σ) (P : σ → ε → Prop) [∀ s e, Decidable (P s e)] (s : σ)
    (e : ε) : Option σ :=
  if P s e then step s e else none

theorem restrict_eq_some [∀ s e, Decidable (P s e)] {e : ε} :
    restrict step P s e = some t ↔ P s e ∧ step s e = some t := by
  rw [restrict, Option.ite_none_right_eq_some]

/-- A run of the restricted machine is a run. -/
theorem execute_of_restrict {P : σ → ε → Prop} [∀ s e, Decidable (P s e)] {es : List ε}
    (h : execute (restrict step P) s es = some t) : execute step s es = some t := by
  induction es generalizing s with
  | nil => exact h
  | cons e es ih =>
    rw [execute_cons] at h ⊢
    obtain ⟨u, hu, hrest⟩ := Option.bind_eq_some_iff.mp h
    rw [(restrict_eq_some.mp hu).2]
    exact ih hrest

/-- An executed list of events is a run. -/
theorem reaches_of_execute [∀ s e, Decidable (P s e)] {es : List ε}
    (h : execute (restrict step P) s es = some t) : Reaches step P s t := by
  induction es generalizing s with
  | nil =>
    rw [Option.some.inj h]
    exact Reaches.refl t
  | cons e es ih =>
    rw [execute_cons] at h
    obtain ⟨u, hu, hrest⟩ := Option.bind_eq_some_iff.mp h
    obtain ⟨hP, he⟩ := restrict_eq_some.mp hu
    exact Reaches.head hP he (ih hrest)

/-! ### What the parties hold -/

section Holding

variable {α β : Type} [DecidableEq α] {held : α → Option β} {a a' : α} {b c : β}

/-- A party that holds nothing any more leaves the others as they were. -/
theorem update_none_eq_some :
    Function.update held a none a' = some b ↔ a' ≠ a ∧ held a' = some b := by
  rw [Function.update_apply]
  by_cases heq : a' = a <;> simp [heq]

theorem update_some_eq_some : Function.update held a (some c) a' = some b ↔
    a' = a ∧ b = c ∨ a' ≠ a ∧ held a' = some b := by
  rw [Function.update_apply]
  by_cases heq : a' = a <;> simp [heq, eq_comm]

end Holding

end Foundation
