import Mathlib.Tactic.Common

/-!
# Nested blocks

A program opens blocks inside one another, each with some fields, and adds more fields on the way:
to the block it is in, or outside every block. When a block is closed, its fields and all that was
added directly inside it are gone. What is open at a point is told from the steps so far alone.

A program that keeps a context is followed step by step: `Passage` says that it leaves every block
as it was opened, and that the context right after each step is what the fields still open make of
the first. Passages are put together as programs are.

## Main definitions

* `Step`, `Point` — a step, and a step with the context after it
* `Scopes`, `Scopes.openFields` — the blocks that are open, and their fields in program order
* `Follows` — the context at every point
* `Passage`

## Main results

* `Passage.append`, `Passage.block` — one passage after another, and a passage in a block of its own
* `Passage.context_eq` — the context at every point of a passage
-/

namespace Foundation

variable {φ ℓ γ : Type}

inductive Step (φ ℓ : Type) where
  | entered (fields : φ)
  | added (fields : φ)
  | exited
  | passed (label : ℓ)

/-- The fields of what is open, each list in the order in which they came. -/
structure Scopes (φ : Type) where
  /-- What was added outside every block. -/
  outside : List φ
  /-- The open blocks, the innermost first: the fields of a block, then what was added to it. -/
  blocks : List (List φ)

namespace Scopes

/-- No block is open. -/
def start : Scopes φ := ⟨[], []⟩

/-- Add to the innermost block. -/
def extend : Scopes φ → List φ → Scopes φ
  | ⟨outside, []⟩, fields => ⟨outside ++ fields, []⟩
  | ⟨outside, block :: blocks⟩, fields => ⟨outside, (block ++ fields) :: blocks⟩

def next (scopes : Scopes φ) : Step φ ℓ → Scopes φ
  | .entered fields => { scopes with blocks := [fields] :: scopes.blocks }
  | .added fields => scopes.extend [fields]
  | .exited => { scopes with blocks := scopes.blocks.tail }
  | .passed _ => scopes

def after (scopes : Scopes φ) (steps : List (Step φ ℓ)) : Scopes φ := steps.foldl next scopes

/-- What the open blocks hold, in program order. -/
def inside (scopes : Scopes φ) : List φ := scopes.blocks.reverse.flatten

/-- Everything that is open, in program order. -/
def openFields (scopes : Scopes φ) : List φ := scopes.outside ++ scopes.inside

variable (scopes : Scopes φ)

@[simp] theorem extend_nil : scopes.extend [] = scopes := by
  obtain ⟨outside, _ | ⟨block, blocks⟩⟩ := scopes <;> simp [extend]

theorem extend_append (fields fields' : List φ) :
    scopes.extend (fields ++ fields') = (scopes.extend fields).extend fields' := by
  obtain ⟨outside, _ | ⟨block, blocks⟩⟩ := scopes <;> simp [extend]

@[simp] theorem openFields_extend (fields : List φ) :
    (scopes.extend fields).openFields = scopes.openFields ++ fields := by
  obtain ⟨outside, _ | ⟨block, blocks⟩⟩ := scopes <;> simp [extend, openFields, inside]

@[simp] theorem openFields_next_entered (fields : φ) :
    (scopes.next (.entered fields : Step φ ℓ)).openFields = scopes.openFields ++ [fields] := by
  simp [next, openFields, inside]

theorem after_append (steps steps' : List (Step φ ℓ)) :
    scopes.after (steps ++ steps') = (scopes.after steps).after steps' :=
  List.foldl_append

end Scopes

/-- The steps leave what was open as it was, but for what they add to the innermost block. -/
def Balanced (steps : List (Step φ ℓ)) (added : List φ) : Prop :=
  ∀ scopes : Scopes φ, scopes.after steps = scopes.extend added

theorem balanced_nil : Balanced ([] : List (Step φ ℓ)) [] := fun scopes => scopes.extend_nil.symm

theorem Balanced.append {steps steps' : List (Step φ ℓ)} {added added' : List φ}
    (h : Balanced steps added) (h' : Balanced steps' added') :
    Balanced (steps ++ steps') (added ++ added') := by
  intro scopes
  rw [Scopes.after_append, h scopes, h' _, Scopes.extend_append]

/-- Whatever was added inside, closing the block takes it away. -/
theorem Balanced.block {steps : List (Step φ ℓ)} {added : List φ} (h : Balanced steps added)
    (fields : φ) : Balanced (.entered fields :: steps ++ [.exited]) [] := by
  intro scopes
  have hentered : scopes.after (.entered fields :: steps) =
      (scopes.next (.entered fields : Step φ ℓ)).extend added := h _
  rw [Scopes.after_append, hentered, Scopes.extend_nil]
  rfl

/-! ### The context at every point -/

/-- A step, and the context right after it. -/
structure Point (φ ℓ γ : Type) where
  step : Step φ ℓ
  context : γ

/-- The scopes after these points. -/
def Scopes.afterPoints (scopes : Scopes φ) (points : List (Point φ ℓ γ)) : Scopes φ :=
  scopes.after (points.map Point.step)

variable (merge : γ → φ → γ)

/-- At every point the context is what the open fields make of `base`. -/
def Follows (base : γ) : Scopes φ → List (Point φ ℓ γ) → Prop
  | _, [] => True
  | scopes, point :: points =>
    point.context = (scopes.next point.step).openFields.foldl merge base ∧
      Follows base (scopes.next point.step) points

variable {merge} {base : γ} {scopes : Scopes φ}

theorem Follows.append {points points' : List (Point φ ℓ γ)} (h : Follows merge base scopes points)
    (h' : Follows merge base (scopes.afterPoints points) points') :
    Follows merge base scopes (points ++ points') := by
  induction points generalizing scopes with
  | nil => exact h'
  | cons point points ih =>
    obtain ⟨hcontext, hrest⟩ := h
    exact ⟨hcontext, ih hrest h'⟩

theorem Follows.context_eq {earlier later : List (Point φ ℓ γ)} {point : Point φ ℓ γ}
    (h : Follows merge base scopes (earlier ++ point :: later)) :
    point.context = (scopes.afterPoints (earlier ++ [point])).openFields.foldl merge base := by
  induction earlier generalizing scopes with
  | nil => exact h.1
  | cons first earlier ih => exact ih h.2

/-! ### Passages -/

variable (merge) in
/-- From one context to another, with what is added on the way to the block that was open. -/
structure Passage (before : γ) (points : List (Point φ ℓ γ)) (added : List φ) (after : γ) :
    Prop where
  balanced : Balanced (points.map Point.step) added
  after_eq : after = added.foldl merge before
  follows : ∀ base scopes, before = scopes.openFields.foldl merge base →
    Follows merge base scopes points

variable {before middle after : γ} {points points' : List (Point φ ℓ γ)} {added added' : List φ}

variable (before) in
theorem passage_nil : Passage merge before ([] : List (Point φ ℓ γ)) [] before :=
  ⟨balanced_nil, rfl, fun _ _ _ => trivial⟩

variable (before) in
theorem passage_passed (label : ℓ) :
    Passage merge before [⟨.passed label, before⟩] ([] : List φ) before := by
  refine ⟨fun scopes => ?_, rfl, fun _ _ hbefore => ⟨hbefore, trivial⟩⟩
  rw [Scopes.extend_nil]
  rfl

variable (before) in
theorem passage_added (fields : φ) :
    Passage merge before ([⟨.added fields, merge before fields⟩] : List (Point φ ℓ γ)) [fields]
      (merge before fields) := by
  refine ⟨fun scopes => rfl, rfl, fun base scopes hbefore => ⟨?_, trivial⟩⟩
  show merge before fields = (scopes.extend [fields]).openFields.foldl merge base
  simp [hbefore]

/-- One passage after another. -/
theorem Passage.append (h : Passage merge before points added middle)
    (h' : Passage merge middle points' added' after) :
    Passage merge before (points ++ points') (added ++ added') after := by
  refine ⟨?_, ?_, fun base scopes hbefore => ?_⟩
  · rw [List.map_append]
    exact h.balanced.append h'.balanced
  · rw [List.foldl_append, ← h.after_eq]
    exact h'.after_eq
  · refine (h.follows base scopes hbefore).append ?_
    rw [Scopes.afterPoints, h.balanced scopes]
    refine h'.follows base _ ?_
    rw [Scopes.openFields_extend, List.foldl_append, ← hbefore]
    exact h.after_eq

/-- **A passage in a block of its own** is one that ends where it began. -/
theorem Passage.block {fields : φ} (h : Passage merge (merge before fields) points added after) :
    Passage merge before
      (⟨.entered fields, merge before fields⟩ :: points ++ [⟨.exited, before⟩]) [] before := by
  have hbalanced := h.balanced.block fields
  refine ⟨?_, rfl, fun base scopes hbefore => ?_⟩
  · rw [List.map_append]
    exact hbalanced
  have hentered : merge before fields =
      (scopes.next (.entered fields : Step φ ℓ)).openFields.foldl merge base := by
    rw [Scopes.openFields_next_entered, List.foldl_append, ← hbefore]
    rfl
  have hclosed : (scopes.afterPoints (⟨.entered fields, merge before fields⟩ :: points)).next
      (.exited : Step φ ℓ) = scopes := by
    have hexited := hbalanced scopes
    rw [Scopes.after_append, Scopes.extend_nil] at hexited
    exact hexited
  refine Follows.append ⟨hentered, h.follows base _ hentered⟩ ⟨?_, trivial⟩
  rw [hclosed]
  exact hbefore

theorem Passage.context_eq (h : Passage merge before points added after)
    {earlier later : List (Point φ ℓ γ)} {point : Point φ ℓ γ}
    (hpoints : points = earlier ++ point :: later) :
    point.context =
      (Scopes.start.afterPoints (earlier ++ [point])).openFields.foldl merge before := by
  have hfollows : Follows merge before Scopes.start points := h.follows before Scopes.start rfl
  rw [hpoints] at hfollows
  exact hfollows.context_eq

end Foundation
