import Mathlib.Data.Set.Subsingleton
import Mathlib.Tactic.Common

/-!
# Exclusive locks

Parties that hold rows and want rows. Nothing is said about how a lock is acquired: a protocol
shows that its steps grant free rows only (`Exclusive.grant`), and rules out that two parties wait
for each other by saying which rows they can meet on.

## Main definitions

* `Exclusive` — no two parties hold one row
* `Deadlocked` — two parties each wait for a row the other holds

## Main results

* `not_deadlocked_of_gate` — not if whoever gets in the other's way holds one common row
* `not_deadlocked_of_subsingleton` — not if there is only one row to meet on
-/

namespace Foundation

namespace Locks

variable {τ ρ : Type} {holds holds' wants : τ → ρ → Prop} {t u : τ}

/-- No two parties hold one row. -/
def Exclusive (holds : τ → ρ → Prop) : Prop :=
  ∀ t u r, holds t r → holds u r → t = u

/-- Each of two parties waits for a row that the other holds. -/
def Deadlocked (holds wants : τ → ρ → Prop) (t u : τ) : Prop :=
  t ≠ u ∧ (∃ r, wants t r ∧ holds u r) ∧ ∃ r, wants u r ∧ holds t r

/-- Rows that no other party holds may be granted. -/
theorem Exclusive.grant (h : Exclusive holds)
    (hgrant : ∀ v r, holds' v r → holds v r ∨ v = t ∧ ∀ w, w ≠ t → ¬ holds w r) :
    Exclusive holds' := by
  intro v w r hv hw
  by_contra hne
  obtain hv | ⟨rfl, hfree⟩ := hgrant v r hv <;> obtain hw | ⟨rfl, hfree'⟩ := hgrant w r hw
  · exact hne (h v w r hv hw)
  · exact hfree' v hne hv
  · exact hfree w (Ne.symm hne) hw
  · exact hne rfl

/-- Rows may be given back. -/
theorem Exclusive.release (h : Exclusive holds) (hsub : ∀ v r, holds' v r → holds v r) :
    Exclusive holds' :=
  fun v w r hv hw => h v w r (hsub v r hv) (hsub w r hw)

/-- **A gate**: whoever holds a row the other wants also holds the gate. -/
theorem not_deadlocked_of_gate (hex : Exclusive holds) (gate : ρ)
    (ht : ∀ r, holds t r → wants u r → holds t gate)
    (hu : ∀ r, holds u r → wants t r → holds u gate) : ¬ Deadlocked holds wants t u := by
  rintro ⟨hne, ⟨r, hwants, hholds⟩, r', hwants', hholds'⟩
  exact hne (hex t u gate (ht r' hholds' hwants') (hu r hholds hwants))

/-- **One row is not enough**: the two parties wait for different rows. -/
theorem not_deadlocked_of_subsingleton (hex : Exclusive holds) {S : Set ρ} (hS : S.Subsingleton)
    (ht : ∀ r, holds t r → wants u r → r ∈ S) (hu : ∀ r, holds u r → wants t r → r ∈ S) :
    ¬ Deadlocked holds wants t u := by
  rintro ⟨hne, ⟨r, hwants, hholds⟩, r', hwants', hholds'⟩
  have hsame : r = r' := hS (hu r hholds hwants) (ht r' hholds' hwants')
  rw [← hsame] at hholds'
  exact hne (hex t u r hholds' hholds)

end Locks

end Foundation
