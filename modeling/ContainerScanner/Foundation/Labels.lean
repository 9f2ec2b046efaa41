import ContainerScanner.Foundation.Scopes

/-!
# Labels in blocks

Two ways to choose among the labels that a program passes: by the blocks that are open when it
passes them, and by the context it then has. They choose the same labels wherever the context is
what the open fields make of the first, and the two tests agree on it.

## Main definitions

* `told` — the labels that are passed while the open blocks meet a test
* `passed` — the labels, each with the context it is passed with
* `Throughout` — what holds of the open blocks after every step

## Main results

* `told_eq_passed`
-/

namespace Foundation

variable {φ ℓ γ : Type}

/-- What a step passes. -/
def Step.label? : Step φ ℓ → Option ℓ
  | .passed label => some label
  | _ => none

/-- The labels that are passed while the open blocks meet a test. -/
def told (test : Scopes φ → Bool) : Scopes φ → List (Step φ ℓ) → List ℓ
  | _, [] => []
  | scopes, step :: steps =>
    (if test (scopes.next step) then step.label?.toList else []) ++
      told test (scopes.next step) steps

/-- The labels, each with the context it is passed with. -/
def passed (points : List (Point φ ℓ γ)) : List (ℓ × γ) :=
  points.filterMap fun point => point.step.label?.map fun label => (label, point.context)

/-- After every step. -/
def Throughout (I : Scopes φ → Prop) : Scopes φ → List (Step φ ℓ) → Prop
  | _, [] => True
  | scopes, step :: steps => I (scopes.next step) ∧ Throughout I (scopes.next step) steps

variable {I : Scopes φ → Prop} {scopes : Scopes φ}

theorem Throughout.append {steps steps' : List (Step φ ℓ)} (h : Throughout I scopes steps)
    (h' : Throughout I (scopes.after steps) steps') : Throughout I scopes (steps ++ steps') := by
  induction steps generalizing scopes with
  | nil => exact h'
  | cons step steps ih => exact ⟨h.1, ih h.2 h'⟩

theorem Throughout.mono {J : Scopes φ → Prop} {steps : List (Step φ ℓ)}
    (h : Throughout I scopes steps) (hle : ∀ scopes, I scopes → J scopes) :
    Throughout J scopes steps := by
  induction steps generalizing scopes with
  | nil => trivial
  | cons step steps ih => exact ⟨hle _ h.1, ih h.2⟩

/-- **What is told by the blocks is told by the contexts**, if the tests agree on what the open
fields make of the first context. -/
theorem told_eq_passed {merge : γ → φ → γ} {base : γ} {points : List (Point φ ℓ γ)}
    {test : Scopes φ → Bool} {test' : γ → Bool} (hfollows : Follows merge base scopes points)
    (h : Throughout (fun scopes => test scopes = test' (scopes.openFields.foldl merge base)) scopes
      (points.map Point.step)) :
    told test scopes (points.map Point.step) =
      ((passed points).filter fun label => test' label.2).map Prod.fst := by
  induction points generalizing scopes with
  | nil => rfl
  | cons point points ih =>
    obtain ⟨hcontext, hrest⟩ := hfollows
    rw [List.map_cons, told, ih hrest h.2, h.1, ← hcontext, passed, passed, List.filterMap_cons]
    cases point.step.label? with
    | none =>
      rw [Option.toList_none, ite_self]
      rfl
    | some label =>
      rw [Option.map_some, List.filter_cons]
      split <;> rfl

end Foundation
