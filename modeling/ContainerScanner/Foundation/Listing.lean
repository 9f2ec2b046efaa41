import ContainerScanner.Foundation.Paging

/-!
# Listings

A listing is a list of rows in an order that a query may return, each replaced by what a partial
join makes of it. It is what was wanted, in the order asked for, as soon as the join tells the rows
apart, has the wanted results, and turns the order of the keys into an order of results.

## Main results

* `Admissible.perm_filterMap` — the listing holds what is wanted
* `Admissible.pairwise_filterMap` — and is in order
-/

namespace Foundation

namespace Paging

variable {α β κ : Type} [LinearOrder κ] {key : α → κ} {rows l : List α} {join : α → Option β}

/-- A join that tells rows apart has no result twice. -/
theorem nodup_filterMap_of_injOn (hrows : rows.Nodup)
    (hinj : ∀ a ∈ rows, ∀ a' ∈ rows, ∀ b, join a = some b → join a' = some b → a = a') :
    (rows.filterMap join).Nodup := by
  rw [List.nodup_iff_pairwise_ne, List.pairwise_filterMap]
  refine (List.nodup_iff_pairwise_ne.mp hrows).imp_of_mem fun ha ha' hne b hb b' hb' heq => ?_
  exact hne (hinj _ ha _ ha' b hb (heq ▸ hb'))

/-- **A listing holds what is wanted**, whatever order ties are returned in. -/
theorem Admissible.perm_filterMap {wanted : List β} (h : Admissible key rows l)
    (hrows : rows.Nodup) (hwanted : wanted.Nodup)
    (hinj : ∀ a ∈ rows, ∀ a' ∈ rows, ∀ b, join a = some b → join a' = some b → a = a')
    (hmem : ∀ b, (∃ a ∈ rows, join a = some b) ↔ b ∈ wanted) :
    (l.filterMap join).Perm wanted := by
  refine (h.perm.filterMap join).trans ?_
  refine (List.perm_ext_iff_of_nodup (nodup_filterMap_of_injOn hrows hinj) hwanted).mpr fun b => ?_
  rw [List.mem_filterMap, hmem]

/-- **A listing is in order.** -/
theorem Admissible.pairwise_filterMap {order : β → β → Prop} (h : Admissible key rows l)
    (horder : ∀ a ∈ rows, ∀ a' ∈ rows, key a ≤ key a' → ∀ b, join a = some b →
      ∀ b', join a' = some b' → order b b') :
    (l.filterMap join).Pairwise order := by
  rw [List.pairwise_filterMap]
  refine h.sorted.imp_of_mem fun ha ha' hle => ?_
  exact horder _ (h.perm.subset ha) _ (h.perm.subset ha') hle

end Paging

end Foundation
