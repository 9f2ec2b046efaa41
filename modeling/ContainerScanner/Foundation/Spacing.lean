import Mathlib.Algebra.BigOperators.Intervals
import Mathlib.Algebra.Order.BigOperators.Group.List
import Mathlib.Data.List.Chain

/-!
# Spacing

Items with a time each, where every item comes at least its own gap after the one before it. The
gaps add up: what is known about the `k`-th gap bounds how soon the `k`-th item can come.

## Main definitions

* `Spaced` — every item comes at least its gap after the one before

## Main results

* `Spaced.concat` — the next item comes late enough
* `Spaced.sum_le` — how soon the `k`-th item can come
-/

namespace Foundation

variable {α M : Type} [AddCommMonoid M] [PartialOrder M] {time gap : α → M} {l : List α} {a b : α}

/-- Every item comes at least its gap after the one before. -/
def Spaced (time gap : α → M) (l : List α) : Prop := l.IsChain fun a b => time a + gap b ≤ time b

theorem spaced_nil : Spaced time gap [] := List.isChain_nil

/-- The next item comes late enough. -/
theorem Spaced.concat (h : Spaced time gap l) (hb : ∀ a ∈ l.getLast?, time a + gap b ≤ time b) :
    Spaced time gap (l ++ [b]) := by
  refine List.IsChain.append h (List.isChain_singleton b) fun a ha b' hb' => ?_
  rw [List.head?_cons, Option.mem_some_iff] at hb'
  rw [← hb']
  exact hb a ha

/-- **The gaps add up.** -/
theorem Spaced.sum_le [IsOrderedAddMonoid M] (h : Spaced time gap l) {g : ℕ → M}
    (hg : ∀ k b, l[k + 1]? = some b → g k ≤ gap b) (ha : l.head? = some a) {k : ℕ}
    (hb : l[k]? = some b) : time a + ∑ m ∈ Finset.range k, g m ≤ time b := by
  induction k generalizing b with
  | zero =>
    rw [← List.head?_eq_getElem?, ha] at hb
    rw [Option.some.inj hb, Finset.sum_range_zero, add_zero]
  | succ k ih =>
    obtain ⟨hlt, rfl⟩ := List.getElem?_eq_some_iff.mp hb
    have hlt' : k < l.length := Nat.lt_of_succ_lt hlt
    have hstep : time l[k] + gap l[k + 1] ≤ time l[k + 1] := List.isChain_iff_getElem.mp h k hlt
    calc time a + ∑ m ∈ Finset.range (k + 1), g m
        = (time a + ∑ m ∈ Finset.range k, g m) + g k := by
          rw [Finset.sum_range_succ, add_assoc]
      _ ≤ time l[k] + gap l[k + 1] :=
          add_le_add (ih (List.getElem?_eq_getElem hlt')) (hg k _ hb)
      _ ≤ time l[k + 1] := hstep

end Foundation
