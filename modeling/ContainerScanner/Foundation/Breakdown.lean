import ContainerScanner.Foundation.Paging
import Mathlib.Algebra.BigOperators.Group.List.Lemmas
import Mathlib.Algebra.Order.BigOperators.Group.List
import Mathlib.Algebra.Order.Ring.Nat

/-!
# Breakdowns

How rows divide into groups, and the largest of these: `SELECT g, count(*) … GROUP BY g ORDER BY
count(*) DESC LIMIT n`. Groups of one size may come in any order. A group is often named by the
part of a text before a separator.

## Main definitions

* `tally` — the groups, with their sizes
* `Largest` — a list that the query may return
* `splitPart` — the part of a text before the first separator

## Main results

* `Largest.size`, `Largest.le_of_notMem` — what is listed, and what is not
* `Largest.sum_le`, `Largest.sum_eq` — how much of everything is listed
* `splitPart_append` — a name without the separator's first character is read back
-/

namespace Foundation

section Tally

variable {κ : Type} [DecidableEq κ] {n : ℕ} {l : List κ} {listed : List (κ × ℕ)}

/-- `GROUP BY`, with `count(*)`. -/
def tally (l : List κ) : List (κ × ℕ) := l.dedup.map fun k => (k, l.count k)

/-- What the query may return: the first `n` groups in an order of falling size. -/
def Largest (n : ℕ) (l : List κ) (listed : List (κ × ℕ)) : Prop :=
  ∃ order, Paging.Admissible (fun e : κ × ℕ => OrderDual.toDual e.2) (tally l) order ∧
    listed = order.take n

theorem mem_tally {e : κ × ℕ} : e ∈ tally l ↔ e.1 ∈ l ∧ e.2 = l.count e.1 := by
  rw [tally, List.mem_map]
  constructor
  · rintro ⟨k, hk, rfl⟩
    exact ⟨List.mem_dedup.mp hk, rfl⟩
  · rintro ⟨hk, hsize⟩
    exact ⟨e.1, List.mem_dedup.mpr hk, Prod.ext rfl hsize.symm⟩

theorem map_fst_tally (l : List κ) : (tally l).map Prod.fst = l.dedup := by
  rw [tally, List.map_map]
  exact List.map_id _

/-- The sizes of the groups add up. -/
theorem sum_tally (l : List κ) : ((tally l).map Prod.snd).sum = l.length := by
  rw [tally, List.map_map]
  exact l.sum_map_count_dedup_eq_length

/-- **Every group that is listed is there, with its size.** -/
theorem Largest.size (h : Largest n l listed) {e : κ × ℕ} (he : e ∈ listed) :
    e.1 ∈ l ∧ e.2 = l.count e.1 := by
  obtain ⟨order, horder, rfl⟩ := h
  exact mem_tally.mp (horder.perm.subset (List.mem_of_mem_take he))

theorem Largest.nodup (h : Largest n l listed) : (listed.map Prod.fst).Nodup := by
  obtain ⟨order, horder, rfl⟩ := h
  have hnodup : (order.map Prod.fst).Nodup := by
    rw [(horder.perm.map Prod.fst).nodup_iff, map_fst_tally]
    exact l.nodup_dedup
  exact hnodup.sublist ((List.take_sublist _ _).map Prod.fst)

/-- **A group that is left out** is no larger than those that are listed, and these are as many as
may be. -/
theorem Largest.le_of_notMem (h : Largest n l listed) {k : κ} (hk : k ∈ l)
    (hout : k ∉ listed.map Prod.fst) :
    listed.length = n ∧ ∀ e ∈ listed, l.count k ≤ e.2 := by
  obtain ⟨order, horder, rfl⟩ := h
  have hmem : (k, l.count k) ∈ order := horder.perm.mem_iff.mpr (mem_tally.mpr ⟨hk, rfl⟩)
  have hrest : (k, l.count k) ∈ order.drop n := by
    rw [← List.take_append_drop n order, List.mem_append] at hmem
    exact hmem.resolve_left fun htake => hout (List.mem_map_of_mem htake)
  constructor
  · rw [List.length_take]
    have hpos := List.length_pos_of_mem hrest
    rw [List.length_drop] at hpos
    omega
  · intro e he
    have hsorted := horder.sorted
    rw [← List.take_append_drop n order, List.pairwise_append] at hsorted
    exact hsorted.2.2 e he _ hrest

/-- What is listed is no more than everything. -/
theorem Largest.sum_le (h : Largest n l listed) : (listed.map Prod.snd).sum ≤ l.length := by
  obtain ⟨order, horder, rfl⟩ := h
  rw [← sum_tally, ← (horder.perm.map Prod.snd).sum_eq]
  exact ((List.take_sublist n order).map Prod.snd).sum_le_sum fun _ _ => Nat.zero_le _

/-- When there are few groups, everything is listed. -/
theorem Largest.sum_eq (h : Largest n l listed) (hfew : l.dedup.length ≤ n) :
    (listed.map Prod.snd).sum = l.length := by
  obtain ⟨order, horder, rfl⟩ := h
  have hlength : order.length ≤ n := by
    rw [horder.length_eq, ← List.length_map (f := Prod.fst), map_fst_tally]
    exact hfew
  rw [List.take_of_length_le hlength, (horder.perm.map Prod.snd).sum_eq, sum_tally]

end Tally

/-! ### Naming a group -/

section SplitPart

variable {γ : Type} [DecidableEq γ] {sep name : List γ}

/-- `split_part(text, sep, 1)`: what stands before the first separator, or everything. -/
def splitPart (sep : List γ) : List γ → List γ
  | [] => []
  | c :: cs => if sep.isPrefixOf (c :: cs) then [] else c :: splitPart sep cs

/-- A text that the separator's first character is not in. -/
theorem splitPart_of_notMem {c : γ} (hname : c ∉ name) (sep : List γ) :
    splitPart (c :: sep) name = name := by
  induction name with
  | nil => rfl
  | cons d name ih =>
    rw [List.mem_cons, not_or] at hname
    have hprefix : (c :: sep).isPrefixOf (d :: name) = false := by
      rw [List.isPrefixOf, beq_false_of_ne hname.1, Bool.false_and]
    rw [splitPart, hprefix, if_neg Bool.false_ne_true, ih hname.2]

/-- **A name is read back**, whatever comes behind the separator. -/
theorem splitPart_append {c : γ} (hname : c ∉ name) (sep rest : List γ) :
    splitPart (c :: sep) (name ++ (c :: sep ++ rest)) = name := by
  induction name with
  | nil =>
    have hprefix : (c :: sep).isPrefixOf (c :: (sep ++ rest)) = true :=
      List.isPrefixOf_iff_prefix.mpr (List.prefix_append (c :: sep) rest)
    rw [List.nil_append, List.cons_append, splitPart, hprefix, if_pos rfl]
  | cons d name ih =>
    rw [List.mem_cons, not_or] at hname
    have hprefix : (c :: sep).isPrefixOf (d :: (name ++ (c :: sep ++ rest))) = false := by
      rw [List.isPrefixOf, beq_false_of_ne hname.1, Bool.false_and]
    rw [List.cons_append, splitPart, hprefix, if_neg Bool.false_ne_true, ih hname.2]

end SplitPart

end Foundation
