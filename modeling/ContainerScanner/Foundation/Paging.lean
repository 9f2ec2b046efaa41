import Mathlib.Data.List.Sort
import Mathlib.Data.Set.Function
import Mathlib.Order.Lattice

/-!
# Paging through a sorted listing

A listing is fetched page by page, each page by a query of its own that sorts the rows by a key and
cuts out its share. Rows with equal keys may come in any order, and in another order for another
page. The pages partition the rows whatever is chosen if and only if no two rows with equal keys
stand on two sides of a page boundary.

## Main definitions

* `Admissible` — an order in which a query may return the rows
* `pages` — the pages one after the other, each cut from an order of its own
* `NoTieAcross` — no page boundary separates equal keys

## Main results

* `perm_pages_iff` — the pages partition the rows under every choice iff there is no tie across
* `noTieAcross_of_injOn` — there is none when the key tells rows apart
-/

namespace Foundation

namespace Paging

variable {α β κ : Type} [LinearOrder κ] {key : α → κ} {rows l l' : List α} {limit i n : ℕ}

/-- An order in which a query with this `ORDER BY` may return the rows. -/
structure Admissible (key : α → κ) (rows l : List α) : Prop where
  perm : l.Perm rows
  sorted : l.Pairwise fun a b => key a ≤ key b

/-- `LIMIT` and `OFFSET`. -/
def page (limit k : ℕ) (l : List α) : List α := (l.drop (k * limit)).take limit

/-- The first `n` pages, the `k`-th cut from `order k`. -/
def pages (limit n : ℕ) (order : ℕ → List α) : List α :=
  (List.range n).flatMap fun k => page limit k (order k)

/-- The keys in order. -/
def sortedKeys (key : α → κ) (rows : List α) : List κ := (rows.map key).insertionSort (· ≤ ·)

/-- No page ends between two rows with equal keys. -/
def NoTieAcross (key : α → κ) (rows : List α) (limit : ℕ) : Prop :=
  ∀ i < rows.length, 0 < i → limit ∣ i → (sortedKeys key rows)[i - 1]? ≠ (sortedKeys key rows)[i]?

instance (key : α → κ) (rows : List α) (limit : ℕ) : Decidable (NoTieAcross key rows limit) :=
  inferInstanceAs (Decidable (∀ i < rows.length, _))

/-! ### Admissible orders -/

theorem Admissible.length_eq (h : Admissible key rows l) : l.length = rows.length :=
  h.perm.length_eq

/-- Whatever the order of the rows, their keys come in one. -/
theorem Admissible.map_key (h : Admissible key rows l) : l.map key = sortedKeys key rows := by
  have hsorted : (l.map key).Pairwise (· ≤ ·) := List.pairwise_map.mpr h.sorted
  have hperm : (l.map key).Perm (sortedKeys key rows) :=
    (h.perm.map key).trans (List.perm_insertionSort _ _).symm
  exact hperm.eq_of_pairwise' hsorted (List.pairwise_insertionSort _ _)

theorem exists_admissible (key : α → κ) (rows : List α) : ∃ l, Admissible key rows l := by
  let r : α → α → Prop := fun a b => key a ≤ key b
  have htotal : Std.Total r := ⟨fun a b => le_total (key a) (key b)⟩
  have htrans : IsTrans α r := ⟨fun a b c hab hbc => le_trans hab hbc⟩
  exact ⟨rows.insertionSort r, List.perm_insertionSort r rows, List.pairwise_insertionSort r rows⟩

/-- Where the key grows, everything before is smaller than everything after. -/
theorem Admissible.take_eq_filter (h : Admissible key rows l) (hi : i < l.length) (hpos : 0 < i)
    (hne : key l[i - 1] ≠ key l[i]) :
    l.take i = l.filter fun a => decide (key a < key l[i]) := by
  have hle : ∀ (m n : ℕ) (hm : m < l.length) (hn : n < l.length), m ≤ n → key l[m] ≤ key l[n] := by
    intro m n hm hn hmn
    rcases hmn.lt_or_eq with hlt | rfl
    · exact List.pairwise_iff_getElem.mp h.sorted m n hm hn hlt
    · exact le_rfl
  have hgrows : key l[i - 1] < key l[i] := (hle (i - 1) i (by omega) hi (by omega)).lt_of_ne hne
  have hbefore : ∀ a ∈ l.take i, decide (key a < key l[i]) = true := by
    intro a ha
    obtain ⟨m, hm, rfl⟩ := List.mem_take_iff_getElem.mp ha
    exact decide_eq_true ((hle m (i - 1) (by omega) (by omega) (by omega)).trans_lt hgrows)
  have hafter : ∀ a ∈ l.drop i, ¬ decide (key a < key l[i]) = true := by
    intro a ha
    obtain ⟨m, hm, rfl⟩ := List.mem_drop_iff_getElem.mp ha
    simpa using hle i (i + m) hi (by omega) (by omega)
  calc l.take i = (l.take i).filter (fun a => decide (key a < key l[i])) :=
        (List.filter_eq_self.mpr hbefore).symm
    _ = (l.take i ++ l.drop i).filter (fun a => decide (key a < key l[i])) := by
        rw [List.filter_append, List.filter_eq_nil_iff.mpr hafter, List.append_nil]
    _ = l.filter (fun a => decide (key a < key l[i])) := by rw [List.take_append_drop]

/-- What stands before a boundary does not depend on the order, if the key grows there. -/
theorem NoTieAcross.perm_take (h : NoTieAcross key rows limit) (hl : Admissible key rows l)
    (hl' : Admissible key rows l') (hi : limit ∣ i) : (l.take i).Perm (l'.take i) := by
  have hlength := hl.length_eq
  have hlength' := hl'.length_eq
  rcases Nat.eq_zero_or_pos i with rfl | hpos
  · simp
  by_cases hlt : i < rows.length
  · have hgrows : ∀ {l} (hl : Admissible key rows l) (hi : i < l.length),
        key l[i - 1] ≠ key l[i] := by
      intro l hl hi' heq
      refine h i hlt hpos hi ?_
      rw [← hl.map_key, List.getElem?_map, List.getElem?_map, List.getElem?_eq_getElem (by omega),
        List.getElem?_eq_getElem hi', Option.map_some, Option.map_some, heq]
    have hkey : key l[i] = key l'[i] := by
      have hkeys := congrArg (fun keys => keys[i]?) (hl.map_key.trans hl'.map_key.symm)
      simpa [List.getElem?_eq_getElem, hlength, hlength', hlt] using hkeys
    rw [hl.take_eq_filter (by omega) hpos (hgrows hl (by omega)),
      hl'.take_eq_filter (by omega) hpos (hgrows hl' (by omega)), hkey]
    exact (hl.perm.trans hl'.perm.symm).filter _
  · rw [List.take_of_length_le (by omega), List.take_of_length_le (by omega)]
    exact hl.perm.trans hl'.perm.symm

/-! ### Pages of one order -/

theorem take_add_page (limit k : ℕ) (l : List α) :
    l.take (k * limit) ++ page limit k l = l.take ((k + 1) * limit) := by
  rw [page, Nat.succ_mul, List.take_add]

/-- Pages cut from one order make it up again. -/
theorem pages_const (limit n : ℕ) (l : List α) :
    pages limit n (fun _ => l) = l.take (n * limit) := by
  induction n with
  | zero => simp [pages]
  | succ n ih =>
    rw [pages, List.range_succ, List.flatMap_append, List.flatMap_singleton, ← take_add_page, ← ih]
    rfl

/-- The pages before the `m`-th from one order, the others from another. -/
theorem pages_ite (limit n m : ℕ) (l l' : List α) (hm : m ≤ n) (hl : l.length ≤ n * limit)
    (hl' : l'.length = l.length) :
    pages limit n (fun k => if k < m then l else l')
      = l.take (m * limit) ++ l'.drop (m * limit) := by
  have hpages : ∀ r, pages limit (m + r) (fun k => if k < m then l else l')
      = l.take (m * limit) ++ (l'.drop (m * limit)).take (r * limit) := by
    intro r
    induction r with
    | zero =>
      rw [← pages_const, Nat.add_zero, Nat.zero_mul, List.take_zero, List.append_nil, pages, pages]
      refine List.flatMap_congr fun k hk => ?_
      rw [if_pos (List.mem_range.mp hk)]
    | succ r ih =>
      have hlast : page limit (m + r) (if m + r < m then l else l')
          = ((l'.drop (m * limit)).drop (r * limit)).take limit := by
        rw [if_neg (by omega), page, List.drop_drop, Nat.add_mul]
      rw [← Nat.add_assoc, pages, List.range_succ, List.flatMap_append, List.flatMap_singleton,
        hlast, Nat.succ_mul r, List.take_add, ← List.append_assoc, ← ih]
      rfl
  obtain ⟨r, rfl⟩ := Nat.exists_eq_add_of_le hm
  have hrest : (l'.drop (m * limit)).length ≤ r * limit := by
    rw [List.length_drop, hl']
    rw [Nat.add_mul] at hl
    omega
  rw [hpages, List.take_of_length_le hrest]

/-! ### Partitions -/

/-- Without a tie across, the pages of changing orders are those of one order. -/
theorem NoTieAcross.perm_pages (h : NoTieAcross key rows limit) {order : ℕ → List α}
    (horder : ∀ k, Admissible key rows (order k)) (hl : Admissible key rows l) (n : ℕ) :
    (pages limit n order).Perm (l.take (n * limit)) := by
  induction n with
  | zero => simp [pages]
  | succ n ih =>
    have hpage : (page limit n (order n)).Perm (page limit n l) := by
      have hbefore := h.perm_take (horder n) hl (i := n * limit) ⟨n, Nat.mul_comm ..⟩
      have hupto := h.perm_take (horder n) hl (i := (n + 1) * limit) ⟨n + 1, Nat.mul_comm ..⟩
      rw [← take_add_page, ← take_add_page] at hupto
      exact (List.perm_append_left_iff _).mp ((hbefore.symm.append_right _).trans hupto)
    rw [pages, List.range_succ, List.flatMap_append, List.flatMap_singleton, ← take_add_page]
    exact ih.append hpage

/-- Two neighbours with equal keys may change places. -/
theorem Admissible.swap {a b : α} {s t : List α} (h : Admissible key rows (s ++ a :: b :: t))
    (hab : key a = key b) : Admissible key rows (s ++ b :: a :: t) := by
  refine ⟨((List.Perm.swap a b t).append_left s).trans h.perm, ?_⟩
  have hsorted := h.sorted
  simp only [List.pairwise_append, List.pairwise_cons, List.mem_cons, forall_eq_or_imp] at hsorted ⊢
  grind

/-- Where the two rows at a boundary change places between two queries, the first is seen twice. -/
theorem pages_swap {m : ℕ} {a b : α} {s t : List α} (hs : m * limit = s.length + 1) (hm : m ≤ n)
    (hlimit : (s ++ a :: b :: t).length ≤ n * limit) :
    pages limit n (fun k => if k < m then s ++ a :: b :: t else s ++ b :: a :: t)
      = s ++ a :: a :: t := by
  have hbefore : (s ++ a :: b :: t).take (m * limit) = s ++ [a] := by
    rw [hs, List.take_length_add_append]
    rfl
  have hafter : (s ++ b :: a :: t).drop (m * limit) = a :: t := by
    rw [hs, List.drop_length_add_append]
    rfl
  rw [pages_ite limit n m _ _ hm hlimit (by simp), hbefore, hafter, List.append_assoc,
    List.singleton_append]

/-- A tie across a boundary, and the rows on its two sides. -/
theorem exists_tie (hl : Admissible key rows l) (htie : ¬ NoTieAcross key rows limit) :
    ∃ m s a b t, l = s ++ a :: b :: t ∧ m * limit = s.length + 1 ∧ key a = key b := by
  have hlength := hl.length_eq
  simp only [NoTieAcross, not_forall, not_not] at htie
  obtain ⟨i, hi, hpos, ⟨m, rfl⟩, hkeys⟩ := htie
  obtain ⟨j, hj⟩ : ∃ j, limit * m = j + 1 := ⟨limit * m - 1, by omega⟩
  refine ⟨m, l.take j, l[j], l[j + 1], l.drop (j + 2), ?_, ?_, ?_⟩
  · rw [← List.drop_eq_getElem_cons, ← List.drop_eq_getElem_cons, List.take_append_drop]
  · rw [Nat.mul_comm, hj, List.length_take_of_le (by omega)]
  · rw [hj, Nat.add_sub_cancel, ← hl.map_key, List.getElem?_map, List.getElem?_map,
      List.getElem?_eq_getElem (by omega), List.getElem?_eq_getElem (by omega)] at hkeys
    simpa using hkeys

/-- A tie across a boundary lets a row appear twice. -/
theorem not_perm_pages {item : α → β} (hnodup : rows.Nodup)
    (hitem : Set.InjOn item {a | a ∈ rows}) (hlimit : rows.length ≤ n * limit)
    (htie : ¬ NoTieAcross key rows limit) :
    ∃ order, (∀ k, Admissible key rows (order k)) ∧
      ¬ ((pages limit n order).map item).Perm (rows.map item) := by
  obtain ⟨l, hl⟩ := exists_admissible key rows
  obtain ⟨m, s, a, b, t, rfl, hs, hab⟩ := exists_tie hl htie
  have hlength : (s ++ a :: b :: t).length ≤ n * limit := hl.length_eq.trans_le hlimit
  have hm : m ≤ n := by
    have hlt : m * limit < n * limit := by
      rw [hs]
      simp only [List.length_append, List.length_cons] at hlength
      omega
    exact (Nat.lt_of_mul_lt_mul_right hlt).le
  refine ⟨fun k => if k < m then s ++ a :: b :: t else s ++ b :: a :: t, fun k => ?_, ?_⟩
  · show Admissible key rows (if k < m then s ++ a :: b :: t else s ++ b :: a :: t)
    split
    · exact hl
    · exact hl.swap hab
  intro hperm
  rw [pages_swap hs hm hlength] at hperm
  have hsame := hperm.trans (hl.perm.symm.map item)
  simp only [List.map_append, List.map_cons, List.perm_append_left_iff, List.perm_cons] at hsame
  have hcount : [item a] = [item b] :=
    List.perm_singleton.mp ((List.perm_append_right_iff (t.map item)).mp hsame)
  have hmem : ∀ x ∈ s ++ a :: b :: t, x ∈ rows := fun x hx => hl.perm.subset hx
  have heq : a = b :=
    hitem (hmem a (by simp)) (hmem b (by simp)) (List.singleton_inj.mp hcount)
  have hdistinct := hl.perm.symm.nodup hnodup
  simp [heq, List.nodup_append] at hdistinct

/-- **The pages partition the rows** under every choice of orders iff no tie is across a boundary.
What is listed of a row tells it apart. -/
theorem perm_pages_iff {item : α → β} (hnodup : rows.Nodup)
    (hitem : Set.InjOn item {a | a ∈ rows}) (hlimit : rows.length ≤ n * limit) :
    (∀ order, (∀ k, Admissible key rows (order k)) →
      ((pages limit n order).map item).Perm (rows.map item)) ↔ NoTieAcross key rows limit := by
  constructor
  · intro h
    by_contra htie
    obtain ⟨order, horder, hnot⟩ := not_perm_pages hnodup hitem hlimit htie
    exact hnot (h order horder)
  · intro h order horder
    obtain ⟨l, hl⟩ := exists_admissible key rows
    have hpages := h.perm_pages horder hl n
    rw [List.take_of_length_le (by rw [hl.length_eq]; exact hlimit)] at hpages
    exact (hpages.trans hl.perm).map item

/-- A key that tells rows apart leaves no tie. -/
theorem noTieAcross_of_injOn (hnodup : rows.Nodup) (hkey : Set.InjOn key {a | a ∈ rows})
    (limit : ℕ) : NoTieAcross key rows limit := by
  have hkeys : (sortedKeys key rows).Nodup := by
    rw [sortedKeys, (List.perm_insertionSort _ _).nodup_iff]
    exact hnodup.map_on fun a ha b hb => hkey ha hb
  intro i hi hpos _ heq
  have hlength : (sortedKeys key rows).length = rows.length := by
    rw [sortedKeys, List.length_insertionSort, List.length_map]
  rw [List.getElem?_eq_getElem (by omega), List.getElem?_eq_getElem (by omega), Option.some.injEq,
    hkeys.getElem_inj_iff] at heq
  omega

end Paging

end Foundation
