import ContainerScanner.Foundation.Dict
import Mathlib.Data.List.Induction
import Mathlib.Order.Defs.LinearOrder

/-!
# Keeping the best of each key

A loop that files every item under its key in an insertion-ordered dictionary, and replaces what
it finds there only by an item that ranks higher. What is left for a key is the first of its items
to attain the key's maximum; which keys there are, and how high each one ranks, does not depend on
the order of the items.

## Main definitions

* `KeepBest.keep`, `KeepBest.keepAll` — one round, and the loop
* `KeepBest.IsFirstBest` — the first item of a key that no other outranks
* `KeepBest.seenAt` — where a key is first seen

## Main results

* `KeepBest.get?_keepAll` — what the loop leaves
* `KeepBest.IsFirstBest.eq`, `KeepBest.IsFirstBest.rank_eq_of_perm` — it is unique, and its rank
  survives a permutation
* `KeepBest.pairwise_values_keepAll` — the items left are in the order their keys were first seen
-/

namespace Foundation

namespace KeepBest

variable {α κ ρ : Type} [LinearOrder ρ]

/-- One round: an item replaces what its key holds when it ranks higher. -/
def keep [DecidableEq κ] (key : α → κ) (rank : α → ρ) (d : Dict κ α) (a : α) : Dict κ α :=
  match d.get? (key a) with
  | none => d.set (key a) a
  | some b => if rank b < rank a then d.set (key a) a else d

/-- The loop. -/
def keepAll [DecidableEq κ] (key : α → κ) (rank : α → ρ) (l : List α) : Dict κ α :=
  l.foldl (keep key rank) Dict.empty

/-- The item stands in the list behind lower ones of its key and before none that is higher. -/
def IsFirstBest (key : α → κ) (rank : α → ρ) (l : List α) (a : α) : Prop :=
  ∃ before after, l = before ++ a :: after ∧
    (∀ b ∈ before, key b = key a → rank b < rank a) ∧
    ∀ b ∈ after, key b = key a → rank b ≤ rank a

variable {key : α → κ} {rank : α → ρ} {l l' : List α} {a b : α} {k : κ}

/-! ### The first of the best -/

theorem IsFirstBest.mem (h : IsFirstBest key rank l a) : a ∈ l := by
  obtain ⟨before, after, rfl, -, -⟩ := h
  simp

/-- Nothing of its key outranks it. -/
theorem IsFirstBest.rank_le (h : IsFirstBest key rank l a) (hb : b ∈ l) (hkey : key b = key a) :
    rank b ≤ rank a := by
  obtain ⟨before, after, rfl, hbefore, hafter⟩ := h
  rcases List.mem_append.mp hb with hb | hb
  · exact (hbefore b hb hkey).le
  · rcases List.mem_cons.mp hb with rfl | hb
    · exact le_rfl
    · exact hafter b hb hkey

/-- Two of one key are one. -/
theorem IsFirstBest.eq (ha : IsFirstBest key rank l a) (hb : IsFirstBest key rank l b)
    (hkey : key a = key b) : a = b := by
  have hrank : rank a = rank b := le_antisymm (hb.rank_le ha.mem hkey) (ha.rank_le hb.mem hkey.symm)
  obtain ⟨before, after, hl, hbefore, -⟩ := ha
  obtain ⟨before', after', hl', hbefore', -⟩ := hb
  -- neither stands before the other
  have hnot : b ∉ before := fun hmem => (hbefore b hmem hkey.symm).ne hrank.symm
  have hnot' : a ∉ before' := fun hmem => (hbefore' a hmem hkey).ne hrank
  rw [hl] at hl'
  obtain ⟨rest, hsplit, hcons⟩ | ⟨rest, hsplit, hcons⟩ := List.append_eq_append_iff.mp hl'
  · cases rest with
    | nil => exact (List.cons.inj hcons).1
    | cons c rest =>
      rw [List.cons_append] at hcons
      rw [hsplit, ← (List.cons.inj hcons).1] at hnot'
      simp at hnot'
  · cases rest with
    | nil => exact (List.cons.inj hcons).1.symm
    | cons c rest =>
      rw [List.cons_append] at hcons
      rw [hsplit, ← (List.cons.inj hcons).1] at hnot
      simp at hnot

/-- Its rank survives a permutation. -/
theorem IsFirstBest.rank_eq_of_perm (ha : IsFirstBest key rank l a)
    (hb : IsFirstBest key rank l' b) (hperm : l.Perm l') (hkey : key a = key b) :
    rank a = rank b :=
  le_antisymm (hb.rank_le (hperm.mem_iff.mp ha.mem) hkey)
    (ha.rank_le (hperm.mem_iff.mpr hb.mem) hkey.symm)

/-! ### The loop -/

variable [DecidableEq κ]

theorem get?_keep (d : Dict κ α) :
    (keep key rank d a).get? k =
      if k = key a then
        match d.get? k with
        | none => some a
        | some b => if rank b < rank a then some a else some b
      else d.get? k := by
  rw [keep]
  by_cases hk : k = key a
  · subst hk
    rw [if_pos rfl]
    cases hget : d.get? (key a) with
    | none => exact Dict.get?_set_self d (key a) a
    | some b =>
      simp only
      split
      · exact Dict.get?_set_self d (key a) a
      · exact hget
  · rw [if_neg hk]
    split
    · exact Dict.get?_set_of_ne _ hk _
    · split
      · exact Dict.get?_set_of_ne _ hk _
      · rfl

theorem keepAll_concat (l : List α) (a : α) :
    keepAll key rank (l ++ [a]) = keep key rank (keepAll key rank l) a :=
  List.foldl_concat _ _ _ _

theorem mem_keys_keep {d : Dict κ α} :
    k ∈ (keep key rank d a).keys ↔ k = key a ∨ k ∈ d.keys := by
  rw [keep]
  split
  · exact Dict.mem_keys_set
  · next b hb =>
    split
    · exact Dict.mem_keys_set
    · have hmem : key a ∈ d.keys := Dict.mem_keys_of_get? hb
      rw [or_iff_right_of_imp]
      rintro rfl
      exact hmem

/-- Every key seen is held. -/
theorem mem_keys_keepAll : k ∈ (keepAll key rank l).keys ↔ k ∈ l.map key := by
  induction l using List.reverseRecOn with
  | nil => simp [keepAll]
  | append_singleton l a ih =>
    rw [keepAll_concat, mem_keys_keep, ih, List.map_append, List.mem_append, or_comm]
    simp

theorem isFirstBest_of_get? (h : (keepAll key rank l).get? k = some a) :
    key a = k ∧ IsFirstBest key rank l a := by
  induction l using List.reverseRecOn generalizing a with
  | nil => cases h
  | append_singleton l c ih =>
    -- an old holder stays the first of the best when the new item does not outrank it
    have hstays : ∀ b, (keepAll key rank l).get? k = some b → (key c = k → rank c ≤ rank b) →
        key b = k ∧ IsFirstBest key rank (l ++ [c]) b := by
      intro b hb hle
      obtain ⟨hkey, before, after, rfl, hbefore, hafter⟩ := ih hb
      refine ⟨hkey, before, after ++ [c], by simp, hbefore, ?_⟩
      intro d hd hdkey
      rcases List.mem_append.mp hd with hd | hd
      · exact hafter d hd hdkey
      · obtain rfl := List.mem_singleton.mp hd
        exact hle (hdkey.trans hkey)
    -- the new item is the first of the best when it outranks all of its key
    have hnew : (∀ b ∈ l, key b = key c → rank b < rank c) → IsFirstBest key rank (l ++ [c]) c :=
      fun hlt => ⟨l, [], rfl, hlt, by simp⟩
    rw [keepAll_concat, get?_keep] at h
    by_cases hk : k = key c
    · rw [if_pos hk] at h
      cases hold : (keepAll key rank l).get? k with
      | none =>
        rw [hold] at h
        obtain rfl := Option.some.inj h
        refine ⟨hk.symm, hnew fun b hb hkey => ?_⟩
        have hnotMem := Dict.get?_eq_none_iff.mp hold
        rw [mem_keys_keepAll] at hnotMem
        exact absurd (List.mem_map.mpr ⟨b, hb, hkey.trans hk.symm⟩) hnotMem
      | some b =>
        rw [hold] at h
        simp only at h
        obtain ⟨hkey, hbest⟩ := ih hold
        split at h
        · next hlt =>
          obtain rfl := Option.some.inj h
          refine ⟨hk.symm, hnew fun d hd hdkey => lt_of_le_of_lt ?_ hlt⟩
          exact hbest.rank_le hd ((hdkey.trans hk.symm).trans hkey.symm)
        · next hge =>
          obtain rfl := Option.some.inj h
          exact hstays b hold fun _ => not_lt.mp hge
    · rw [if_neg hk] at h
      exact hstays a h fun hkey => absurd hkey.symm hk

/-- **The loop leaves, for each key, the first of its best items.** -/
theorem get?_keepAll :
    (keepAll key rank l).get? k = some a ↔ key a = k ∧ IsFirstBest key rank l a := by
  constructor
  · exact isFirstBest_of_get?
  · rintro ⟨rfl, hbest⟩
    have hmem : key a ∈ (keepAll key rank l).keys :=
      mem_keys_keepAll.mpr (List.mem_map_of_mem hbest.mem)
    obtain ⟨b, hb⟩ := Dict.mem_keys_iff.mp hmem
    obtain ⟨hkey, hbest'⟩ := isFirstBest_of_get? hb
    rw [hb, hbest'.eq hbest hkey]

theorem mem_values_keepAll : a ∈ (keepAll key rank l).values ↔ IsFirstBest key rank l a := by
  rw [Dict.mem_values_iff]
  simp only [get?_keepAll]
  constructor
  · rintro ⟨k, -, hbest⟩
    exact hbest
  · intro hbest
    exact ⟨key a, rfl, hbest⟩

theorem map_key_values_keepAll (l : List α) :
    (keepAll key rank l).values.map key = (keepAll key rank l).keys := by
  rw [Dict.values, Dict.keys, List.map_map]
  refine List.map_congr_left fun e he => ?_
  exact (get?_keepAll.mp (Dict.get?_eq_some_iff.mpr he)).1

/-! ### The order of what is left -/

/-- Where a key is first seen, past the end for one that is not. -/
def seenAt (key : α → κ) (l : List α) (k : κ) : ℕ := (l.map key).idxOf k

theorem seenAt_concat_of_mem (hk : k ∈ l.map key) : seenAt key (l ++ [a]) k = seenAt key l k := by
  rw [seenAt, seenAt, List.map_append]
  exact List.idxOf_append_of_mem hk

theorem seenAt_lt_seenAt_concat (hk : k ∈ l.map key) (ha : key a ∉ l.map key) :
    seenAt key (l ++ [a]) k < seenAt key (l ++ [a]) (key a) := by
  have hlt := List.idxOf_lt_length_of_mem hk
  rw [seenAt_concat_of_mem hk, seenAt, seenAt, List.map_append, List.idxOf_append_of_notMem ha]
  omega

/-- Keys are held in the order in which they were first seen. -/
theorem pairwise_keys_keepAll (l : List α) :
    (keepAll key rank l).keys.Pairwise fun k k' => seenAt key l k < seenAt key l k' := by
  induction l using List.reverseRecOn with
  | nil => exact List.Pairwise.nil
  | append_singleton l a ih =>
    have hkept : (keepAll key rank l).keys.Pairwise fun k k' =>
        seenAt key (l ++ [a]) k < seenAt key (l ++ [a]) k' := by
      refine ih.imp_of_mem fun {k k'} hk hk' hlt => ?_
      rw [seenAt_concat_of_mem (mem_keys_keepAll.mp hk),
        seenAt_concat_of_mem (mem_keys_keepAll.mp hk')]
      exact hlt
    have hset : ((keepAll key rank l).set (key a) a).keys.Pairwise fun k k' =>
        seenAt key (l ++ [a]) k < seenAt key (l ++ [a]) k' := by
      rw [Dict.keys_set]
      split
      · exact hkept
      · next hnew =>
        refine List.pairwise_append.mpr ⟨hkept, List.pairwise_singleton _ _, ?_⟩
        intro k hk k' hk'
        obtain rfl := List.mem_singleton.mp hk'
        rw [mem_keys_keepAll] at hk hnew
        exact seenAt_lt_seenAt_concat hk hnew
    rw [keepAll_concat, keep]
    split
    · exact hset
    · split
      · exact hset
      · exact hkept

theorem pairwise_values_keepAll (l : List α) :
    (keepAll key rank l).values.Pairwise fun a b =>
      seenAt key l (key a) < seenAt key l (key b) := by
  have hkeys : (keepAll key rank l).keys.Pairwise fun k k' => seenAt key l k < seenAt key l k' :=
    pairwise_keys_keepAll l
  rw [← map_key_values_keepAll, List.pairwise_map] at hkeys
  exact hkeys

end KeepBest

/-- The first answer in a list ordered by a measure is the one of least measure. -/
theorem findSome?_eq_some_iff_of_pairwise {α β : Type} {μ : α → ℕ} {g : α → Option β} {l : List α}
    (hl : l.Pairwise fun a a' => μ a < μ a') {b : β} :
    l.findSome? g = some b ↔ ∃ a ∈ l, g a = some b ∧ ∀ a' ∈ l, μ a' < μ a → g a' = none := by
  rw [List.findSome?_eq_some_iff]
  constructor
  · rintro ⟨before, a, after, rfl, ha, hbefore⟩
    refine ⟨a, by simp, ha, fun a' ha' hlt => ?_⟩
    obtain ⟨-, hrest, -⟩ := List.pairwise_append.mp hl
    rcases List.mem_append.mp ha' with ha' | ha'
    · exact hbefore a' ha'
    · rcases List.mem_cons.mp ha' with rfl | ha'
      · exact absurd hlt (lt_irrefl _)
      · have hgt := List.rel_of_pairwise_cons hrest ha'
        omega
  · rintro ⟨a, ha, hga, hleast⟩
    obtain ⟨before, after, rfl⟩ := List.append_of_mem ha
    refine ⟨before, a, after, rfl, hga, fun a' ha' => ?_⟩
    obtain ⟨-, -, hlt⟩ := List.pairwise_append.mp hl
    exact hleast a' (List.mem_append_left _ ha') (hlt a' ha' a List.mem_cons_self)

end Foundation
