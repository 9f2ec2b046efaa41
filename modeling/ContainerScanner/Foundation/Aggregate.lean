import Mathlib.Data.Set.Card
import Mathlib.Order.Bounds.Basic
import Mathlib.Data.List.Dedup

/-!
# `MAX` and `COUNT(DISTINCT …)`

The two aggregates over a list of rows, and what they are of the *set* of rows: the greatest
element together with a default, and a cardinality. Both therefore depend on which rows there are
and not on how often or in which order they are listed.

## Main results

* `isGreatest_maxOr`, `countDistinct_eq_ncard` — the aggregates, specified on sets
* `countP_eq_ncard` — counting rows with distinct keys counts keys
* `sum_countP` — counting by group, and summing
-/

namespace Foundation

variable {α : Type}

/-- `COALESCE(MAX(x), b)` for values that are never below `b`. -/
def maxOr [LinearOrder α] (b : α) (l : List α) : α := l.foldr max b

/-- `COUNT(DISTINCT x)`. -/
def countDistinct [DecidableEq α] (l : List α) : ℕ := l.dedup.length

/-- The maximum is the greatest of the default and the values listed. -/
theorem isGreatest_maxOr [LinearOrder α] (b : α) (l : List α) :
    IsGreatest (insert b {x | x ∈ l}) (maxOr b l) := by
  induction l with
  | nil => exact ⟨Set.mem_insert _ _, by rintro x (rfl | hx); exacts [le_rfl, by simp at hx]⟩
  | cons a l ih =>
    have hcons : maxOr b (a :: l) = max a (maxOr b l) := rfl
    refine ⟨?_, ?_⟩
    · rw [hcons]
      rcases max_choice a (maxOr b l) with h | h <;> rw [h]
      · exact Or.inr List.mem_cons_self
      · rcases ih.1 with hb | hm
        · exact Or.inl hb
        · exact Or.inr (List.mem_cons_of_mem _ hm)
    · rintro x (rfl | hx)
      · exact (ih.2 (Or.inl rfl)).trans (le_max_right _ _)
      · rcases List.mem_cons.mp hx with rfl | hx
        · exact le_max_left _ _
        · exact (ih.2 (Or.inr hx)).trans (le_max_right _ _)

/-- The distinct count is the cardinality of the set of values listed. -/
theorem countDistinct_eq_ncard [DecidableEq α] (l : List α) :
    countDistinct l = {x | x ∈ l}.ncard := by
  have hset : {x | x ∈ l} = (l.toFinset : Set α) := by
    ext x
    simp
  rw [hset, Set.ncard_coe_finset, List.card_toFinset, countDistinct]

/-- Rows with distinct keys are counted by their keys. -/
theorem countP_eq_ncard {κ ν : Type} [DecidableEq κ] {l : List (κ × ν)}
    (hl : (l.map Prod.fst).Nodup) (p : κ × ν → Bool) :
    l.countP p = {k | ∃ v, (k, v) ∈ l ∧ p (k, v) = true}.ncard := by
  have hset : {k | ∃ v, (k, v) ∈ l ∧ p (k, v) = true}
      = (((l.filter p).map Prod.fst).toFinset : Set κ) := by
    ext k
    simp
  have hnodup : ((l.filter p).map Prod.fst).Nodup :=
    hl.sublist (List.filter_sublist.map Prod.fst)
  rw [hset, Set.ncard_coe_finset, List.toFinset_card_of_nodup hnodup, List.length_map,
    List.countP_eq_length_filter]

theorem sum_map_ite_eq_count {κ : Type} [DecidableEq κ] (k : κ) (ks : List κ) :
    (ks.map fun k' => if k = k' then 1 else 0).sum = ks.count k := by
  induction ks with
  | nil => rfl
  | cons k' ks ih =>
    rw [List.map_cons, List.sum_cons, ih, List.count_cons, Nat.add_comm]
    by_cases h : k = k'
    · simp [h]
    · simp [h, Ne.symm h]

/-- Counting group by group counts everything. -/
theorem sum_countP {κ : Type} [DecidableEq κ] {ks : List κ} (hks : ks.Nodup) (p : α → Bool)
    (g : α → κ) (l : List α) (h : ∀ a ∈ l, p a = true → g a ∈ ks) :
    (ks.map fun k => l.countP fun a => p a && decide (g a = k)).sum = l.countP p := by
  induction l with
  | nil => simp
  | cons a l ih =>
    have hone : (ks.map fun k => if (p a && decide (g a = k)) = true then 1 else 0).sum
        = if p a = true then 1 else 0 := by
      by_cases hpa : p a = true
      · have hcount : ks.count (g a) = 1 :=
          List.count_eq_one_of_mem hks (h a List.mem_cons_self hpa)
        simp [hpa, sum_map_ite_eq_count, hcount]
      · simp [hpa]
    simp only [List.countP_cons, List.sum_map_add]
    rw [ih fun b hb => h b (List.mem_cons_of_mem a hb), hone]

end Foundation
