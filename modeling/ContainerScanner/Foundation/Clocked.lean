import ContainerScanner.Foundation.Erasure
import Mathlib.Data.Int.Order.Basic

/-!
# Programs on a clock

A program on a state may be run beside a clock. Its own steps take no time, waiting takes as long as
it says, and what is committed is stamped with the time of the commit. Time is spent whether a
program returns or raises.

Without its clock the program is the one on the state alone (`Erases`); a budget bounds the clock
and every stamp (`Within`), and budgets add up along a program.

## Main definitions

* `Clocked`, `instantly`, `wait`, `stamping` — the state and what a program is made of
* `Erases` — the program without its clock
* `Within` — the budget of a program

## Main results

* `Erases.bind`, `Within.bind` and the like — what each construct needs
-/

namespace Foundation

variable {σ ε α β : Type}

/-- A state beside a clock, with the times of the commits, oldest first. -/
structure Clocked (σ : Type) where
  state : σ
  now : ℤ
  commits : List ℤ

/-- What takes no time. -/
def instantly (x : EStateM ε σ α) : EStateM ε (Clocked σ) α := fun c =>
  match x c.state with
  | .ok a s => .ok a { c with state := s }
  | .error e s => .error e { c with state := s }

def wait (n : ℕ) : EStateM ε (Clocked σ) Unit := fun c => .ok () { c with now := c.now + n }

/-- A step that ends in a commit. One that raises has committed nothing. -/
def stamping (x : EStateM ε σ α) : EStateM ε (Clocked σ) α := fun c =>
  match x c.state with
  | .ok a s => .ok a ⟨s, c.now, c.commits ++ [c.now]⟩
  | .error e s => .error e { c with state := s }

section Equations

variable {c : Clocked σ} {s : σ} {a : α}

theorem instantly_of_ok {x : EStateM ε σ α} (h : x c.state = .ok a s) :
    instantly x c = .ok a { c with state := s } := by
  rw [instantly, h]

theorem stamping_of_ok {x : EStateM ε σ α} (h : x c.state = .ok a s) :
    stamping x c = .ok a ⟨s, c.now, c.commits ++ [c.now]⟩ := by
  rw [stamping, h]

theorem wait_bind (n : ℕ) (f : Unit → EStateM ε (Clocked σ) β) :
    (wait n >>= f) c = f () { c with now := c.now + n } := rfl

end Equations

/-! ### Without the clock -/

def unclocked : EStateM.Result ε (Clocked σ) α → EStateM.Result ε σ α
  | .ok a c => .ok a c.state
  | .error e c => .error e c.state

/-- Without its clock the one program is the other. -/
def Erases (x : EStateM ε (Clocked σ) α) (y : EStateM ε σ α) : Prop :=
  ∀ c, unclocked (x c) = y c.state

theorem unclocked_eq_viewed (r : EStateM.Result ε (Clocked σ) α) :
    unclocked r = viewed Clocked.state r := by
  cases r <;> rfl

theorem erases_iff_shows {x : EStateM ε (Clocked σ) α} {y : EStateM ε σ α} :
    Erases x y ↔ Shows Clocked.state x y := by
  simp only [Erases, Shows, unclocked_eq_viewed]

theorem erases_pure (a : α) :
    Erases (pure a : EStateM ε (Clocked σ) α) (pure a) := fun _ => rfl

theorem erases_instantly (x : EStateM ε σ α) : Erases (instantly x) x := by
  intro c
  rw [instantly]
  cases x c.state <;> rfl

theorem erases_stamping (x : EStateM ε σ α) : Erases (stamping x) x := by
  intro c
  rw [stamping]
  cases x c.state <;> rfl

section Erasing

variable {x : EStateM ε (Clocked σ) α} {y : EStateM ε σ α}

theorem Erases.bind {f : α → EStateM ε (Clocked σ) β} {g : α → EStateM ε σ β} (h : Erases x y)
    (hf : ∀ a, Erases (f a) (g a)) : Erases (x >>= f) (y >>= g) :=
  erases_iff_shows.mpr ((erases_iff_shows.mp h).bind fun a => erases_iff_shows.mp (hf a))

/-- Waiting is nothing to a program without a clock. -/
theorem Erases.wait_bind {n : ℕ} {f : Unit → EStateM ε (Clocked σ) α} (h : Erases (f ()) y) :
    Erases (wait n >>= f) y := fun c => h { c with now := c.now + n }

theorem Erases.tryCatch {handle : ε → EStateM ε (Clocked σ) α} {handle' : ε → EStateM ε σ α}
    (h : Erases x y) (hhandle : ∀ e, Erases (handle e) (handle' e)) :
    Erases (MonadExcept.tryCatch x handle) (MonadExcept.tryCatch y handle') :=
  erases_iff_shows.mpr
    ((erases_iff_shows.mp h).tryCatch fun e => erases_iff_shows.mp (hhandle e))

end Erasing

/-! ### Budgets -/

/-- The clock ends, and every new stamp is, within `n` of the start. -/
structure Spends (n : ℕ) (c c' : Clocked σ) : Prop where
  now : c'.now ≤ c.now + n
  commits : ∀ t ∈ c'.commits, t ∈ c.commits ∨ t ≤ c.now + n

theorem Spends.trans {m n : ℕ} {c c' c'' : Clocked σ} (h : Spends m c c') (h' : Spends n c' c'') :
    Spends (m + n) c c'' := by
  obtain ⟨hnow, hcommits⟩ := h
  obtain ⟨hnow', hcommits'⟩ := h'
  refine ⟨by omega, fun t ht => ?_⟩
  obtain hearlier | hle := hcommits' t ht
  · obtain hold | hle := hcommits t hearlier
    · exact Or.inl hold
    · exact Or.inr (by omega)
  · exact Or.inr (by omega)

theorem Spends.mono {m n : ℕ} {c c' : Clocked σ} (h : Spends m c c') (hmn : m ≤ n) :
    Spends n c c' := by
  obtain ⟨hnow, hcommits⟩ := h
  refine ⟨by omega, fun t ht => ?_⟩
  obtain hold | hle := hcommits t ht
  · exact Or.inl hold
  · exact Or.inr (by omega)

theorem spends_state (n : ℕ) (c : Clocked σ) (s : σ) : Spends n c { c with state := s } := by
  refine ⟨?_, fun t ht => Or.inl ht⟩
  show c.now ≤ c.now + n
  omega

/-- However it ends, the program takes at most so long. -/
def Within (n : ℕ) (x : EStateM ε (Clocked σ) α) : Prop := ∀ c, Spends n c (endState (x c))

theorem within_pure (a : α) : Within 0 (pure a : EStateM ε (Clocked σ) α) :=
  fun c => spends_state 0 c c.state

theorem within_instantly (x : EStateM ε σ α) : Within 0 (instantly x) := by
  intro c
  rw [instantly]
  cases x c.state <;> exact spends_state 0 c _

theorem within_wait (n : ℕ) : Within n (wait n : EStateM ε (Clocked σ) Unit) :=
  fun _ => ⟨le_rfl, fun _ ht => Or.inl ht⟩

theorem within_stamping (x : EStateM ε σ α) : Within 0 (stamping x) := by
  intro c
  rw [stamping]
  cases x c.state with
  | ok a s =>
    refine ⟨?_, fun t ht => ?_⟩
    · show c.now ≤ c.now + _
      omega
    · obtain hold | hnew := List.mem_append.mp ht
      · exact Or.inl hold
      · rw [List.mem_singleton.mp hnew]
        exact Or.inr (by omega)
  | error e s => exact spends_state 0 c s

section Spending

variable {m n : ℕ} {x : EStateM ε (Clocked σ) α}

theorem Within.mono (h : Within m x) (hmn : m ≤ n) : Within n x := fun c => (h c).mono hmn

theorem Within.bind {f : α → EStateM ε (Clocked σ) β} (h : Within m x) (hf : ∀ a, Within n (f a)) :
    Within (m + n) (x >>= f) := by
  intro c
  obtain ⟨a, hend⟩ | hend := endState_bind x f c
  · rw [hend]
    exact (h c).trans (hf a _)
  · rw [hend]
    exact (h c).mono (by omega)

/-- What takes no time leaves the budget to the rest. -/
theorem Within.after {f : α → EStateM ε (Clocked σ) β} (h : Within 0 x)
    (hf : ∀ a, Within n (f a)) : Within n (x >>= f) :=
  (h.bind hf).mono (by omega)

theorem Within.tryCatch {handle : ε → EStateM ε (Clocked σ) α} (h : Within m x)
    (hhandle : ∀ e, Within n (handle e)) : Within (m + n) (MonadExcept.tryCatch x handle) := by
  intro c
  obtain ⟨e, hend⟩ | hend := endState_tryCatch x handle c
  · rw [hend]
    exact (h c).trans (hhandle e _)
  · rw [hend]
    exact (h c).mono (by omega)

end Spending

end Foundation
