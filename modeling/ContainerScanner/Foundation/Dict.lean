import Mathlib.Data.List.Nodup
import Mathlib.Data.List.Lemmas
import Mathlib.Tactic.Common

/-!
# Insertion-ordered dictionaries

A finite map whose entries keep the order in which their keys were first set: what a Python
`dict` is, and what a table with a unique key is once `INSERT … ON CONFLICT DO UPDATE` has run on
it. Setting a key that is present replaces its value in place; setting a new key appends it.

`Mathlib`'s `AList` has the same lookup laws but moves a re-inserted key to the front. Here the
order is observable, so it cannot be used.

## Main definitions

* `Dict` — the entries, with the proof that no key occurs twice
* `Dict.set`, `Dict.override`, `Dict.upsertAll` — one write, the writes of another dictionary, and
  the rows of one multi-row upsert

## Main results

* `Dict.get?_set`, `Dict.get?_override`, `Dict.get?_upsertAll` — reading after each of them
* `Dict.filter_upsertAll` — which old entries a filter still selects after an upsert whose new
  rows it rejects
-/

namespace Foundation

/-- Entries in order of first insertion, with pairwise distinct keys. -/
structure Dict (κ ν : Type) where
  /-- The entries, oldest key first. -/
  entries : List (κ × ν)
  /-- No key occurs twice. -/
  nodup : (entries.map Prod.fst).Nodup

namespace Dict

variable {κ ν α : Type}

/-- The empty dictionary. -/
def empty : Dict κ ν := ⟨[], List.nodup_nil⟩

/-- The keys, oldest first. -/
def keys (d : Dict κ ν) : List κ := d.entries.map Prod.fst

/-- The values, in the order of their keys. -/
def values (d : Dict κ ν) : List ν := d.entries.map Prod.snd

@[simp] theorem keys_empty : (empty : Dict κ ν).keys = [] := rfl

@[simp] theorem entries_empty : (empty : Dict κ ν).entries = [] := rfl

theorem nodup_keys (d : Dict κ ν) : d.keys.Nodup := d.nodup

theorem ext_entries {d e : Dict κ ν} (h : d.entries = e.entries) : d = e := by
  cases d
  cases e
  simpa using h

/-- Change every value. -/
def mapValues (d : Dict κ ν) (f : ν → ν) : Dict κ ν where
  entries := d.entries.map fun e => (e.1, f e.2)
  nodup := by
    rw [List.map_map]
    exact d.nodup

@[simp] theorem keys_mapValues (d : Dict κ ν) (f : ν → ν) : (d.mapValues f).keys = d.keys := by
  simp [keys, mapValues, Function.comp_def]

variable [DecidableEq κ]

/-! ### Reading -/

/-- The value at a key. -/
def get? (d : Dict κ ν) (k : κ) : Option ν := d.entries.lookup k

@[simp] theorem get?_empty (k : κ) : (empty : Dict κ ν).get? k = none := rfl

theorem lookup_cons_eq_ite (k : κ) (e : κ × ν) (l : List (κ × ν)) :
    (e :: l).lookup k = if k = e.1 then some e.2 else l.lookup k := by
  obtain ⟨a, b⟩ := e
  by_cases h : k = a
  · simp [h]
  · have hbeq : (k == a) = false := beq_eq_false_iff_ne.mpr h
    simp [List.lookup_cons, h, hbeq]

theorem lookup_map_values (k : κ) (f : ν → ν) (l : List (κ × ν)) :
    (l.map fun e => (e.1, f e.2)).lookup k = (l.lookup k).map f := by
  induction l with
  | nil => rfl
  | cons e l ih =>
    rw [List.map_cons, lookup_cons_eq_ite, lookup_cons_eq_ite, ih]
    by_cases hk : k = e.1 <;> simp [hk]

theorem get?_mapValues (d : Dict κ ν) (f : ν → ν) (k : κ) :
    (d.mapValues f).get? k = (d.get? k).map f :=
  lookup_map_values k f d.entries

theorem lookup_eq_some_iff_mem {l : List (κ × ν)} (hl : (l.map Prod.fst).Nodup) {k : κ} {v : ν} :
    l.lookup k = some v ↔ (k, v) ∈ l := by
  induction l with
  | nil => simp
  | cons e l ih =>
    obtain ⟨a, b⟩ := e
    rw [List.map_cons, List.nodup_cons] at hl
    rw [lookup_cons_eq_ite]
    by_cases hk : k = a
    · subst hk
      have hnot : (k, v) ∉ l := fun hm => hl.1 (List.mem_map.mpr ⟨_, hm, rfl⟩)
      simp [hnot, eq_comm]
    · simp [hk, ih hl.2]

theorem get?_eq_some_iff {d : Dict κ ν} {k : κ} {v : ν} :
    d.get? k = some v ↔ (k, v) ∈ d.entries :=
  lookup_eq_some_iff_mem d.nodup

theorem get?_eq_none_iff {d : Dict κ ν} {k : κ} : d.get? k = none ↔ k ∉ d.keys := by
  rw [Option.eq_none_iff_forall_ne_some]
  simp only [ne_eq, get?_eq_some_iff, keys, List.mem_map, Prod.exists, exists_and_right,
    exists_eq_right, not_exists]

theorem mem_keys_iff {d : Dict κ ν} {k : κ} : k ∈ d.keys ↔ ∃ v, d.get? k = some v := by
  rw [← not_iff_not, ← get?_eq_none_iff, Option.eq_none_iff_forall_ne_some]
  simp

theorem mem_values_iff {d : Dict κ ν} {v : ν} : v ∈ d.values ↔ ∃ k, d.get? k = some v := by
  simp only [values, List.mem_map, Prod.exists, exists_eq_right, get?_eq_some_iff]

theorem mem_keys_of_get? {d : Dict κ ν} {k : κ} {v : ν} (h : d.get? k = some v) : k ∈ d.keys :=
  mem_keys_iff.mpr ⟨v, h⟩

/-- Among items of different keys one has the key of this one. -/
theorem filter_key_eq_singleton {α : Type} {f : α → κ} {l : List α} (hnodup : (l.map f).Nodup)
    {a : α} (ha : a ∈ l) : (l.filter fun b => decide (f b = f a)) = [a] := by
  induction l with
  | nil => cases ha
  | cons b l ih =>
    rw [List.map_cons, List.nodup_cons] at hnodup
    obtain rfl | ha := List.mem_cons.mp ha
    · have hrest : (l.filter fun b => decide (f b = f a)) = [] := by
        refine List.filter_eq_nil_iff.mpr fun c hc hsame => hnodup.1 ?_
        exact List.mem_map.mpr ⟨c, hc, of_decide_eq_true hsame⟩
      simp only [List.filter_cons, decide_true, if_true, hrest]
    · have hne : f b ≠ f a := fun heq => hnodup.1 (heq ▸ List.mem_map_of_mem ha)
      simp only [List.filter_cons, hne, decide_false, Bool.false_eq_true, if_false]
      exact ih hnodup.2 ha

/-- The entry of one key. -/
theorem filter_key (d : Dict κ ν) (k : κ) :
    (d.entries.filter fun e => decide (e.1 = k)) = (d.get? k).toList.map fun v => (k, v) := by
  cases hk : d.get? k with
  | none =>
    refine List.filter_eq_nil_iff.mpr fun e he hsame => ?_
    exact get?_eq_none_iff.mp hk (List.mem_map.mpr ⟨e, he, of_decide_eq_true hsame⟩)
  | some v => exact filter_key_eq_singleton d.nodup (get?_eq_some_iff.mp hk)

/-- A predicate that singles out one key counts one entry at most. -/
theorem countP_of_key (d : Dict κ ν) {p : κ × ν → Bool} {k : κ}
    (hp : ∀ e ∈ d.entries, p e → e.1 = k) :
    d.entries.countP p = if (d.get? k).any fun v => p (k, v) then 1 else 0 := by
  have hfilter : d.entries.filter p =
      (d.entries.filter fun e => decide (e.1 = k)).filter p := by
    rw [List.filter_filter]
    refine List.filter_congr fun e he => ?_
    cases hpe : p e with
    | false => rfl
    | true => simp [hp e he hpe]
  rw [List.countP_eq_length_filter, hfilter, filter_key]
  cases d.get? k with
  | none => rfl
  | some v => by_cases hpv : p (k, v) = true <;> simp [hpv]

/-- A dictionary is its keys, in order, with what they read. -/
theorem entries_eq_filterMap_keys (d : Dict κ ν) :
    d.entries = d.keys.filterMap fun k => (d.get? k).map fun v => (k, v) := by
  rw [keys, List.filterMap_map]
  conv_lhs => rw [← List.filterMap_some (l := d.entries)]
  refine List.filterMap_congr fun e he => ?_
  have hget : d.get? e.1 = some e.2 := get?_eq_some_iff.mpr he
  simp [hget]

theorem ext_keys_get? {d e : Dict κ ν} (hkeys : d.keys = e.keys)
    (hget : ∀ k, d.get? k = e.get? k) : d = e := by
  refine ext_entries ?_
  rw [d.entries_eq_filterMap_keys, e.entries_eq_filterMap_keys, hkeys]
  simp only [hget]

/-! ### Writing one key -/

/-- Replace the value of `k` where it stands, or append `k`. -/
def setEntries (k : κ) (v : ν) : List (κ × ν) → List (κ × ν)
  | [] => [(k, v)]
  | e :: l => if e.1 = k then (k, v) :: l else e :: setEntries k v l

theorem map_fst_setEntries (k : κ) (v : ν) (l : List (κ × ν)) :
    (setEntries k v l).map Prod.fst
      = if k ∈ l.map Prod.fst then l.map Prod.fst else l.map Prod.fst ++ [k] := by
  induction l with
  | nil => simp [setEntries]
  | cons e l ih =>
    by_cases he : e.1 = k
    · simp [setEntries, he]
    · simp only [setEntries, if_neg he, List.map_cons, ih, List.mem_cons, Ne.symm he, false_or]
      split <;> simp

theorem lookup_setEntries (k k' : κ) (v : ν) (l : List (κ × ν)) :
    (setEntries k v l).lookup k' = if k' = k then some v else l.lookup k' := by
  induction l with
  | nil => simp only [setEntries, lookup_cons_eq_ite, List.lookup_nil]
  | cons e l ih =>
    by_cases he : e.1 = k
    · subst he
      by_cases hk : k' = e.1 <;> simp [setEntries, lookup_cons_eq_ite, hk]
    · rw [setEntries, if_neg he, lookup_cons_eq_ite, ih, lookup_cons_eq_ite]
      by_cases hk : k' = e.1
      · subst hk
        simp [he]
      · simp [hk]

theorem setEntries_of_notMem {k : κ} {l : List (κ × ν)} (hk : k ∉ l.map Prod.fst) (v : ν) :
    setEntries k v l = l ++ [(k, v)] := by
  induction l with
  | nil => rfl
  | cons e l ih =>
    rw [List.map_cons, List.mem_cons, not_or] at hk
    rw [setEntries, if_neg (Ne.symm hk.1), ih hk.2]
    rfl

/-- Set `k` to `v`: in place when `k` is present, at the end otherwise. -/
def set (d : Dict κ ν) (k : κ) (v : ν) : Dict κ ν where
  entries := setEntries k v d.entries
  nodup := by
    rw [map_fst_setEntries]
    split
    · exact d.nodup
    · next hk => exact List.nodup_append_comm.mp (List.nodup_cons.mpr ⟨hk, d.nodup⟩)

theorem get?_set (d : Dict κ ν) (k k' : κ) (v : ν) :
    (d.set k v).get? k' = if k' = k then some v else d.get? k' :=
  lookup_setEntries k k' v d.entries

@[simp] theorem get?_set_self (d : Dict κ ν) (k : κ) (v : ν) : (d.set k v).get? k = some v := by
  simp [get?_set]

theorem get?_set_of_ne (d : Dict κ ν) {k k' : κ} (h : k' ≠ k) (v : ν) :
    (d.set k v).get? k' = d.get? k' := by
  simp [get?_set, h]

theorem mem_keys_set {d : Dict κ ν} {k k' : κ} {v : ν} :
    k' ∈ (d.set k v).keys ↔ k' = k ∨ k' ∈ d.keys := by
  simp only [mem_keys_iff, get?_set]
  by_cases h : k' = k <;> simp [h]

theorem keys_set (d : Dict κ ν) (k : κ) (v : ν) :
    (d.set k v).keys = if k ∈ d.keys then d.keys else d.keys ++ [k] :=
  map_fst_setEntries k v d.entries

/-- A filter that rejects the new entry keeps the old ones it selected, less the replaced key. -/
theorem filter_setEntries {p : κ × ν → Bool} {k : κ} {v : ν} (hp : p (k, v) = false)
    (l : List (κ × ν)) (hl : (l.map Prod.fst).Nodup) :
    (setEntries k v l).filter p = l.filter fun e => p e && decide (e.1 ≠ k) := by
  induction l with
  | nil => simp [setEntries, hp]
  | cons e l ih =>
    rw [List.map_cons, List.nodup_cons] at hl
    by_cases he : e.1 = k
    · have hrest : l.filter (fun e => p e && decide (e.1 ≠ k)) = l.filter p := by
        refine List.filter_congr fun x hx => ?_
        have hne : x.1 ≠ k := fun hxk =>
          hl.1 (he ▸ hxk ▸ List.mem_map_of_mem (f := Prod.fst) hx)
        simp [hne]
      rw [setEntries, if_pos he, List.filter_cons_of_neg (by simp [hp]),
        List.filter_cons_of_neg (by simp [he]), hrest]
    · rw [setEntries, if_neg he, List.filter_cons, List.filter_cons, ih hl.2]
      simp [he]

theorem filter_set {p : κ × ν → Bool} {k : κ} {v : ν} (hp : p (k, v) = false) (d : Dict κ ν) :
    (d.set k v).entries.filter p = d.entries.filter fun e => p e && decide (e.1 ≠ k) :=
  filter_setEntries hp d.entries d.nodup

/-- Remove `k`. -/
def erase (d : Dict κ ν) (k : κ) : Dict κ ν where
  entries := d.entries.filter fun e => decide (e.1 ≠ k)
  nodup := d.nodup.sublist (List.filter_sublist.map Prod.fst)

theorem get?_erase (d : Dict κ ν) (k k' : κ) :
    (d.erase k).get? k' = if k' = k then none else d.get? k' := by
  have hmem : ∀ v, (d.erase k).get? k' = some v ↔ k' ≠ k ∧ d.get? k' = some v := by
    intro v
    rw [get?_eq_some_iff, get?_eq_some_iff, erase, List.mem_filter, decide_eq_true_eq, and_comm]
  split
  · next h => exact Option.eq_none_iff_forall_ne_some.mpr fun v hv => ((hmem v).mp hv).1 h
  · next h =>
    refine Option.ext fun v => ?_
    rw [hmem, and_iff_right h]

theorem get?_set_eq_some {d : Dict κ ν} {k k' : κ} {v w : ν} :
    (d.set k v).get? k' = some w ↔ k' = k ∧ w = v ∨ k' ≠ k ∧ d.get? k' = some w := by
  rw [get?_set]
  by_cases h : k' = k <;> simp [h, eq_comm]

theorem get?_erase_eq_some {d : Dict κ ν} {k k' : κ} {w : ν} :
    (d.erase k).get? k' = some w ↔ k' ≠ k ∧ d.get? k' = some w := by
  rw [get?_erase]
  by_cases h : k' = k <;> simp [h]

/-- Change the value at `k` when there is one. -/
def update (d : Dict κ ν) (k : κ) (f : ν → ν) : Dict κ ν :=
  match d.get? k with
  | none => d
  | some v => d.set k (f v)

theorem get?_update (d : Dict κ ν) (k k' : κ) (f : ν → ν) :
    (d.update k f).get? k' = if k' = k then (d.get? k).map f else d.get? k' := by
  rw [update]
  cases hk : d.get? k with
  | none => by_cases h : k' = k <;> simp [h, hk]
  | some v => simp [get?_set]

@[simp] theorem keys_update (d : Dict κ ν) (k : κ) (f : ν → ν) : (d.update k f).keys = d.keys := by
  rw [update]
  cases hk : d.get? k with
  | none => rfl
  | some v =>
    have hmem : k ∈ d.entries.map Prod.fst := mem_keys_of_get? hk
    exact (map_fst_setEntries k (f v) d.entries).trans (if_pos hmem)

theorem map_setEntries {g : κ × ν → α} {k : κ} {v w : ν} (h : g (k, w) = g (k, v))
    {l : List (κ × ν)} (hl : l.lookup k = some v) : (setEntries k w l).map g = l.map g := by
  induction l with
  | nil => cases hl
  | cons e l ih =>
    rw [lookup_cons_eq_ite] at hl
    by_cases he : e.1 = k
    · rw [if_pos he.symm] at hl
      have hpair : e = (k, v) := Prod.ext he (Option.some.inj hl)
      rw [setEntries, if_pos he, List.map_cons, List.map_cons, h, hpair]
    · rw [if_neg (Ne.symm he)] at hl
      rw [setEntries, if_neg he, List.map_cons, List.map_cons, ih hl]

/-- Only what a change does to the value that is there counts. -/
theorem update_congr {d : Dict κ ν} {k : κ} {f g : ν → ν} (h : ∀ v, d.get? k = some v → f v = g v) :
    d.update k f = d.update k g := by
  refine ext_keys_get? ?_ fun k' => ?_
  · rw [keys_update, keys_update]
  · rw [get?_update, get?_update]
    cases hv : d.get? k with
    | none => rfl
    | some v => rw [Option.map_some, Option.map_some, h v hv]

/-- What an update does not change of a value, it does not change of the table. -/
theorem map_update {g : κ × ν → α} {k : κ} {f : ν → ν} (h : ∀ v, g (k, f v) = g (k, v))
    (d : Dict κ ν) : (d.update k f).entries.map g = d.entries.map g := by
  rw [update]
  cases hk : d.get? k with
  | none => rfl
  | some v => exact map_setEntries (h v) hk

/-! ### Writing many keys -/

/-- `dict(pairs)`: the pairs written one after the other. -/
def ofList (l : List (κ × ν)) : Dict κ ν := l.foldl (fun d e => d.set e.1 e.2) empty

/-- Updating the rows of a list of distinct keys, each by its own function. -/
theorem get?_foldl_update (f : κ → ν → ν) {ks : List κ} (hks : ks.Nodup) (d : Dict κ ν) (k : κ) :
    (ks.foldl (fun t c => t.update c (f c)) d).get? k
      = if k ∈ ks then (d.get? k).map (f k) else d.get? k := by
  induction ks generalizing d with
  | nil => simp
  | cons c ks ih =>
    rw [List.nodup_cons] at hks
    rw [List.foldl_cons, ih hks.2, get?_update]
    by_cases hk : k = c
    · subst hk
      simp [hks.1]
    · simp [hk]

theorem keys_foldl_update (f : κ → ν → ν) (ks : List κ) (d : Dict κ ν) :
    (ks.foldl (fun t c => t.update c (f c)) d).keys = d.keys := by
  induction ks generalizing d with
  | nil => rfl
  | cons c ks ih => rw [List.foldl_cons, ih, keys_update]

/-- Apply every write of `w` to `d`. -/
def override (d w : Dict κ ν) : Dict κ ν := w.entries.foldl (fun d e => d.set e.1 e.2) d

theorem get?_foldl_set (l : List (κ × ν)) (hl : (l.map Prod.fst).Nodup) (d : Dict κ ν) (k : κ) :
    (l.foldl (fun d e => d.set e.1 e.2) d).get? k = (l.lookup k).or (d.get? k) := by
  induction l generalizing d with
  | nil => rfl
  | cons e l ih =>
    rw [List.map_cons, List.nodup_cons] at hl
    rw [List.foldl_cons, ih hl.2, get?_set, lookup_cons_eq_ite]
    by_cases hk : k = e.1
    · have hnone : l.lookup k = none := by
        rw [Option.eq_none_iff_forall_ne_some]
        intro v hv
        exact hl.1 (hk ▸ List.mem_map.mpr ⟨_, (lookup_eq_some_iff_mem hl.2).mp hv, rfl⟩)
      simp [hk, hk ▸ hnone]
    · simp [hk]

/-- The keys a list of writes leaves behind depend on the keys written only. -/
theorem keys_foldl_set_congr {l l' : List (κ × ν)} (hl : l.map Prod.fst = l'.map Prod.fst)
    {d d' : Dict κ ν} (hd : d.keys = d'.keys) :
    (l.foldl (fun d e => d.set e.1 e.2) d).keys
      = (l'.foldl (fun d e => d.set e.1 e.2) d').keys := by
  induction l generalizing l' d d' with
  | nil =>
    rw [List.map_nil, eq_comm, List.map_eq_nil_iff] at hl
    rw [hl]
    exact hd
  | cons e l ih =>
    cases l' with
    | nil => cases hl
    | cons e' l' =>
      rw [List.map_cons, List.map_cons, List.cons.injEq] at hl
      refine ih hl.2 ?_
      rw [keys_set, keys_set, hd, hl.1]

theorem get?_ofList {l : List (κ × ν)} (hl : (l.map Prod.fst).Nodup) (k : κ) :
    (ofList l).get? k = l.lookup k := by
  rw [ofList, get?_foldl_set l hl, get?_empty, Option.or_none]

theorem foldl_set_of_notMem (l : List (κ × ν)) (d : Dict κ ν)
    (hl : (d.entries ++ l).map Prod.fst |>.Nodup) :
    (l.foldl (fun d e => d.set e.1 e.2) d).entries = d.entries ++ l := by
  induction l generalizing d with
  | nil => simp
  | cons e l ih =>
    have hnew : e.1 ∉ d.entries.map Prod.fst := by
      intro hmem
      rw [List.map_append, List.map_cons] at hl
      exact (List.nodup_append.mp hl).2.2 e.1 hmem e.1 List.mem_cons_self rfl
    have hset : (d.set e.1 e.2).entries = d.entries ++ [e] := setEntries_of_notMem hnew e.2
    rw [List.foldl_cons, ih (d.set e.1 e.2) (by rw [hset]; simpa using hl), hset,
      List.append_assoc]
    rfl

/-- Distinct keys are written in the order of the list. -/
theorem entries_ofList {l : List (κ × ν)} (hl : (l.map Prod.fst).Nodup) : (ofList l).entries = l :=
  foldl_set_of_notMem l empty hl

theorem keys_ofList_congr {l l' : List (κ × ν)} (hl : l.map Prod.fst = l'.map Prod.fst) :
    (ofList l).keys = (ofList l').keys :=
  keys_foldl_set_congr hl rfl

theorem get?_override (d w : Dict κ ν) (k : κ) :
    (d.override w).get? k = (w.get? k).or (d.get? k) :=
  get?_foldl_set w.entries w.nodup d k

@[simp] theorem override_empty (d : Dict κ ν) : d.override empty = d := rfl

/-- One multi-row upsert: each row is written from its values and the row it conflicts with. -/
def upsertAll (f : α → Option ν → ν) (rows : List (κ × α)) (d : Dict κ ν) : Dict κ ν :=
  rows.foldl (fun d r => d.set r.1 (f r.2 (d.get? r.1))) d

@[simp] theorem upsertAll_nil (f : α → Option ν → ν) (d : Dict κ ν) : d.upsertAll f [] = d := rfl

@[simp] theorem upsertAll_cons (f : α → Option ν → ν) (r : κ × α) (rows : List (κ × α))
    (d : Dict κ ν) :
    d.upsertAll f (r :: rows) = (d.set r.1 (f r.2 (d.get? r.1))).upsertAll f rows := rfl

theorem get?_upsertAll_of_notMem (f : α → Option ν → ν) {rows : List (κ × α)} {k : κ}
    (hk : k ∉ rows.map Prod.fst) (d : Dict κ ν) : (d.upsertAll f rows).get? k = d.get? k := by
  induction rows generalizing d with
  | nil => rfl
  | cons r rows ih =>
    rw [List.map_cons, List.mem_cons, not_or] at hk
    rw [upsertAll_cons, ih hk.2, get?_set_of_ne _ hk.1]

/-- With distinct keys each row meets the dictionary as it was before the statement. -/
theorem get?_upsertAll_of_mem (f : α → Option ν → ν) {rows : List (κ × α)}
    (hrows : (rows.map Prod.fst).Nodup) {k : κ} {a : α} (hka : (k, a) ∈ rows) (d : Dict κ ν) :
    (d.upsertAll f rows).get? k = some (f a (d.get? k)) := by
  induction rows generalizing d with
  | nil => simp at hka
  | cons r rows ih =>
    rw [List.map_cons, List.nodup_cons] at hrows
    rw [upsertAll_cons]
    rcases List.mem_cons.mp hka with rfl | hka
    · rw [get?_upsertAll_of_notMem f hrows.1, get?_set_self]
    · have hne : k ≠ r.1 := fun h =>
        hrows.1 (h ▸ List.mem_map_of_mem (f := Prod.fst) hka)
      rw [ih hrows.2 hka, get?_set_of_ne _ hne]

/-- **Reading after a multi-row upsert.** -/
theorem get?_upsertAll (f : α → Option ν → ν) {rows : List (κ × α)}
    (hrows : (rows.map Prod.fst).Nodup) (d : Dict κ ν) (k : κ) :
    (d.upsertAll f rows).get? k
      = match rows.lookup k with
        | some a => some (f a (d.get? k))
        | none => d.get? k := by
  cases hk : rows.lookup k with
  | some a => exact get?_upsertAll_of_mem f hrows ((lookup_eq_some_iff_mem hrows).mp hk) d
  | none =>
    refine get?_upsertAll_of_notMem f (fun hm => ?_) d
    obtain ⟨e, he, rfl⟩ := List.mem_map.mp hm
    rw [(lookup_eq_some_iff_mem hrows).mpr he] at hk
    exact Option.some_ne_none _ hk

theorem mem_keys_upsertAll {f : α → Option ν → ν} {rows : List (κ × α)} {d : Dict κ ν} {k : κ} :
    k ∈ (d.upsertAll f rows).keys ↔ k ∈ rows.map Prod.fst ∨ k ∈ d.keys := by
  induction rows generalizing d with
  | nil => simp
  | cons r rows ih =>
    rw [upsertAll_cons, ih, mem_keys_set, List.map_cons, List.mem_cons]
    tauto

/-- A filter that rejects everything the statement writes selects the old entries it selected
before, less the keys the statement rewrote. -/
theorem filter_upsertAll {f : α → Option ν → ν} {p : κ × ν → Bool} {rows : List (κ × α)}
    (hp : ∀ r ∈ rows, ∀ old, p (r.1, f r.2 old) = false) (d : Dict κ ν) :
    (d.upsertAll f rows).entries.filter p
      = d.entries.filter fun e => p e && decide (e.1 ∉ rows.map Prod.fst) := by
  induction rows generalizing d with
  | nil => simp
  | cons r rows ih =>
    rw [upsertAll_cons, ih fun r' hr' => hp r' (List.mem_cons_of_mem _ hr'),
      filter_set (by simp [hp r List.mem_cons_self])]
    refine List.filter_congr fun e _ => ?_
    simp only [List.map_cons, List.mem_cons, not_or, Bool.decide_and, ne_eq, Bool.and_assoc]
    rw [Bool.and_comm (decide (¬e.1 = r.1))]

end Dict

end Foundation
