import ContainerScanner.Foundation.Dict
import Mathlib.Tactic.Common

/-!
# Tables with a serial primary key

Rows numbered by a sequence. The sequence stands above every row it has numbered, and that is a
field of the structure: a table with a row it never handed a number to cannot be written down.

## Main definitions

* `Serial.insert` — take the next number and store a row under it
* `Serial.allocate`, `Serial.put` — the two halves apart, for a row whose number is drawn before
  the row becomes visible
* `Serial.advance` — numbers drawn for rows that were never stored
* `Serial.update`, `Serial.mapRows` — change one row, or every row, in place
* `Serial.All`, `Serial.Carries` — what holds of every row, and what every row becomes
* `Serial.added`, `Serial.count` — the rows an earlier table has not, and how many rows there are of
  a kind

## Main results

* `Serial.get?_insert`, `Serial.get?_put`, `Serial.get?_update`, `Serial.get?_mapRows`
* `Serial.lt_next` — every stored number is below the sequence
* `Serial.All.insert`, `Serial.All.mapRows`, `Serial.All.update`, `Serial.Carries.trans` and their
  siblings — one rule for each operation
* `Serial.added_insertAll`, `Serial.count_insertAll` — what was put in since, and how many rows have
  a property
-/

namespace Foundation

/-- Rows keyed by numbers below `next`. -/
structure Serial (ρ : Type) where
  /-- The rows, by number. -/
  rows : Dict ℕ ρ
  /-- The number the next row will get. -/
  next : ℕ
  /-- The sequence is ahead of every row. -/
  fresh : ∀ i ∈ rows.keys, i < next

namespace Serial

variable {ρ : Type}

/-- A table with no rows, whose sequence starts at one. -/
def empty : Serial ρ := ⟨Dict.empty, 1, by simp⟩

/-- The row with number `i`. -/
def get? (t : Serial ρ) (i : ℕ) : Option ρ := t.rows.get? i

@[simp] theorem get?_empty (i : ℕ) : (empty : Serial ρ).get? i = none := rfl

theorem lt_next {t : Serial ρ} {i : ℕ} {r : ρ} (h : t.get? i = some r) : i < t.next :=
  t.fresh i (Dict.mem_keys_of_get? h)

theorem get?_of_next_le {t : Serial ρ} {i : ℕ} (h : t.next ≤ i) : t.get? i = none := by
  rw [Option.eq_none_iff_forall_ne_some]
  intro r hr
  exact absurd (lt_next hr) (Nat.not_lt.mpr h)

@[simp] theorem get?_next (t : Serial ρ) : t.get? t.next = none := get?_of_next_le le_rfl

/-- Draw a number without storing a row under it. -/
def allocate (t : Serial ρ) : Serial ρ where
  rows := t.rows
  next := t.next + 1
  fresh := fun i hi => Nat.lt_succ_of_lt (t.fresh i hi)

@[simp] theorem get?_allocate (t : Serial ρ) (i : ℕ) : t.allocate.get? i = t.get? i := rfl

@[simp] theorem next_allocate (t : Serial ρ) : t.allocate.next = t.next + 1 := rfl

/-- Draw numbers up to `n` without storing a row under any. -/
def advance (t : Serial ρ) (n : ℕ) : Serial ρ where
  rows := t.rows
  next := max t.next n
  fresh := fun i hi => lt_of_lt_of_le (t.fresh i hi) (le_max_left _ _)

@[simp] theorem get?_advance (t : Serial ρ) (n i : ℕ) : (t.advance n).get? i = t.get? i := rfl

theorem next_le_advance (t : Serial ρ) (n : ℕ) : t.next ≤ (t.advance n).next := le_max_left _ _

@[simp] theorem advance_next (t : Serial ρ) : t.advance t.next = t := by
  simp [advance]

/-- Store a row under a given number, moving the sequence past it if need be. -/
def put (t : Serial ρ) (i : ℕ) (r : ρ) : Serial ρ where
  rows := t.rows.set i r
  next := max t.next (i + 1)
  fresh := by
    intro j hj
    rcases Dict.mem_keys_set.mp hj with rfl | hj
    · exact lt_of_lt_of_le (Nat.lt_succ_self j) (le_max_right _ _)
    · exact lt_of_lt_of_le (t.fresh j hj) (le_max_left _ _)

theorem get?_put (t : Serial ρ) (i j : ℕ) (r : ρ) :
    (t.put i r).get? j = if j = i then some r else t.get? j :=
  Dict.get?_set t.rows i j r

theorem next_le_put (t : Serial ρ) (i : ℕ) (r : ρ) : t.next ≤ (t.put i r).next := le_max_left _ _

/-- Store a row under the next number. -/
def insert (t : Serial ρ) (r : ρ) : Serial ρ := t.put t.next r

theorem get?_insert (t : Serial ρ) (j : ℕ) (r : ρ) :
    (t.insert r).get? j = if j = t.next then some r else t.get? j :=
  get?_put t t.next j r

@[simp] theorem get?_insert_next (t : Serial ρ) (r : ρ) : (t.insert r).get? t.next = some r := by
  simp [get?_insert]

theorem get?_insert_of_ne (t : Serial ρ) {j : ℕ} (h : j ≠ t.next) (r : ρ) :
    (t.insert r).get? j = t.get? j := by
  simp [get?_insert, h]

/-- A stored row is still there after an insertion: the new number was not in use. -/
theorem get?_insert_of_get? {t : Serial ρ} {j : ℕ} {s : ρ} (h : t.get? j = some s) (r : ρ) :
    (t.insert r).get? j = some s := by
  rw [get?_insert_of_ne _ (lt_next h).ne, h]

@[simp] theorem next_insert (t : Serial ρ) (r : ρ) : (t.insert r).next = t.next + 1 :=
  max_eq_right (Nat.le_succ _)

/-- Change the row numbered `i`, when there is one. -/
def update (t : Serial ρ) (i : ℕ) (f : ρ → ρ) : Serial ρ where
  rows := t.rows.update i f
  next := t.next
  fresh := by
    intro j hj
    rw [Dict.keys_update] at hj
    exact t.fresh j hj

theorem get?_update (t : Serial ρ) (i j : ℕ) (f : ρ → ρ) :
    (t.update i f).get? j = if j = i then (t.get? i).map f else t.get? j :=
  Dict.get?_update t.rows i j f

@[simp] theorem get?_update_self (t : Serial ρ) (i : ℕ) (f : ρ → ρ) :
    (t.update i f).get? i = (t.get? i).map f := by
  simp [get?_update]

theorem get?_update_of_ne (t : Serial ρ) {i j : ℕ} (h : j ≠ i) (f : ρ → ρ) :
    (t.update i f).get? j = t.get? j := by
  simp [get?_update, h]

@[simp] theorem next_update (t : Serial ρ) (i : ℕ) (f : ρ → ρ) :
    (t.update i f).next = t.next := rfl

theorem update_congr {t : Serial ρ} {i : ℕ} {f g : ρ → ρ} (h : ∀ r, t.get? i = some r → f r = g r) :
    t.update i f = t.update i g := by
  have hrows : t.rows.update i f = t.rows.update i g := Dict.update_congr h
  simp only [update, hrows]

/-- Change every row. -/
def mapRows (t : Serial ρ) (f : ρ → ρ) : Serial ρ where
  rows := t.rows.mapValues f
  next := t.next
  fresh := by
    intro j hj
    rw [Dict.keys_mapValues] at hj
    exact t.fresh j hj

theorem get?_mapRows (t : Serial ρ) (f : ρ → ρ) (i : ℕ) :
    (t.mapRows f).get? i = (t.get? i).map f :=
  Dict.get?_mapValues t.rows f i

@[simp] theorem next_mapRows (t : Serial ρ) (f : ρ → ρ) : (t.mapRows f).next = t.next := rfl

/-! ### What holds of every row -/

/-- Every row has the property, under its number. -/
def All (t : Serial ρ) (P : ℕ → ρ → Prop) : Prop := ∀ i r, t.get? i = some r → P i r

/-- No row goes, and each becomes one it is related to. -/
def Carries (R : ρ → ρ → Prop) (t t' : Serial ρ) : Prop :=
  ∀ i r, t.get? i = some r → ∃ r', t'.get? i = some r' ∧ R r r'

section All

variable {t t' : Serial ρ} {P : ℕ → ρ → Prop} {R : ρ → ρ → Prop} {f : ρ → ρ} {r : ρ} {i : ℕ}

/-- One row is replaced, or put in. -/
theorem All.of_get? (h : t.All P) (ht : ∀ j, t'.get? j = if j = i then some r else t.get? j)
    (hr : P i r) : t'.All P := by
  intro j s hs
  rw [ht] at hs
  split at hs
  · next heq =>
    rw [heq, ← Option.some.inj hs]
    exact hr
  · exact h j s hs

theorem All.insert (h : t.All P) (hr : P t.next r) : (t.insert r).All P :=
  h.of_get? (fun j => get?_insert t j r) hr

theorem All.mapRows (h : t.All P) (hf : ∀ i r, P i r → P i (f r)) : (t.mapRows f).All P := by
  intro i s hs
  rw [get?_mapRows] at hs
  obtain ⟨r, hr, rfl⟩ := Option.map_eq_some_iff.mp hs
  exact hf i r (h i r hr)

theorem All.update (h : t.All P) (hf : ∀ r, P i r → P i (f r)) : (t.update i f).All P := by
  intro j s hs
  rw [get?_update] at hs
  split at hs
  · next heq =>
    subst heq
    obtain ⟨r, hr, rfl⟩ := Option.map_eq_some_iff.mp hs
    exact hf r (h j r hr)
  · exact h j s hs

theorem Carries.refl (hR : ∀ r, R r r) (t : Serial ρ) : Carries R t t := fun _ r hr => ⟨r, hr, hR r⟩

theorem Carries.trans {t'' : Serial ρ} (h : Carries R t t') (hR : ∀ a b c, R a b → R b c → R a c)
    (h' : Carries R t' t'') : Carries R t t'' := by
  intro i r hr
  obtain ⟨r', hr', hrel⟩ := h i r hr
  obtain ⟨r'', hr'', hrel'⟩ := h' i r' hr'
  exact ⟨r'', hr'', hR r r' r'' hrel hrel'⟩

theorem carries_mapRows (t : Serial ρ) (hf : ∀ r, R r (f r)) : Carries R t (t.mapRows f) := by
  intro i r hr
  rw [get?_mapRows, hr]
  exact ⟨f r, rfl, hf r⟩

theorem carries_update (hR : ∀ r, R r r) (t : Serial ρ) (i : ℕ) (hf : ∀ r, R r (f r)) :
    Carries R t (t.update i f) := by
  intro j r hr
  rw [get?_update]
  split
  · next heq =>
    rw [← heq, hr]
    exact ⟨f r, rfl, hf r⟩
  · exact ⟨r, hr, hR r⟩

end All

/-! ### Rows put in and rows counted -/

theorem entries_insert (t : Serial ρ) (r : ρ) :
    (t.insert r).rows.entries = t.rows.entries ++ [(t.next, r)] :=
  Dict.setEntries_of_notMem (fun hmem => Nat.lt_irrefl _ (t.fresh t.next hmem)) r

/-- A row that is changed as soon as it is put in might have been put in changed. -/
theorem update_insert_next (t : Serial ρ) (r : ρ) (f : ρ → ρ) :
    (t.insert r).update t.next f = t.insert (f r) := by
  have hrows : (t.rows.set t.next r).update t.next f = t.rows.set t.next (f r) := by
    refine Dict.ext_keys_get? ?_ fun i => ?_
    · rw [Dict.keys_update, Dict.keys_set, Dict.keys_set]
    · rw [Dict.get?_update, Dict.get?_set, Dict.get?_set, Dict.get?_set]
      by_cases hi : i = t.next <;> simp [hi]
  simp only [insert, put, update, hrows]

/-- Put in every row of a list. -/
def insertAll (t : Serial ρ) (rs : List ρ) : Serial ρ := rs.foldl insert t

@[simp] theorem insertAll_nil (t : Serial ρ) : t.insertAll [] = t := rfl

@[simp] theorem insertAll_cons (t : Serial ρ) (r : ρ) (rs : List ρ) :
    t.insertAll (r :: rs) = (t.insert r).insertAll rs := rfl

theorem insertAll_concat (t : Serial ρ) (rs : List ρ) (r : ρ) :
    t.insertAll (rs ++ [r]) = (t.insertAll rs).insert r := by
  rw [insertAll, List.foldl_append]
  rfl

theorem of_get?_insertAll {t : Serial ρ} {rs : List ρ} {i : ℕ} {r : ρ}
    (h : (t.insertAll rs).get? i = some r) : t.get? i = some r ∨ r ∈ rs := by
  induction rs generalizing t with
  | nil => exact Or.inl h
  | cons r' rs ih =>
    obtain h | hmem := ih h
    · rw [get?_insert] at h
      split at h
      · rw [← Option.some.inj h]
        exact Or.inr List.mem_cons_self
      · exact Or.inl h
    · exact Or.inr (List.mem_cons_of_mem _ hmem)

/-- The rows that are not in an earlier table, in the order they were put in. -/
def added (t later : Serial ρ) : List ρ :=
  (later.rows.entries.filter fun e => (t.get? e.1).isNone).map Prod.snd

@[simp] theorem added_self (t : Serial ρ) : t.added t = [] := by
  have hnone : (t.rows.entries.filter fun e => (t.get? e.1).isNone) = [] := by
    rw [List.filter_eq_nil_iff]
    intro e he
    have hget : t.get? e.1 = some e.2 := Dict.get?_eq_some_iff.mpr he
    simp [hget]
  rw [added, hnone]
  rfl

/-- What is put in stands behind what was there. -/
theorem entries_insertAll (t : Serial ρ) (rs : List ρ) :
    ∃ l, (t.insertAll rs).rows.entries = t.rows.entries ++ l ∧ l.map Prod.snd = rs ∧
      ∀ e ∈ l, t.next ≤ e.1 := by
  induction rs generalizing t with
  | nil => exact ⟨[], (List.append_nil _).symm, rfl, by simp⟩
  | cons r rs ih =>
    obtain ⟨l, hentries, hrows, hnext⟩ := ih (t.insert r)
    refine ⟨(t.next, r) :: l, ?_, ?_, ?_⟩
    · rw [insertAll_cons, hentries, entries_insert, List.append_assoc]
      rfl
    · rw [List.map_cons, hrows]
    · intro e he
      obtain rfl | he := List.mem_cons.mp he
      · exact le_rfl
      · have hle := hnext e he
        rw [next_insert] at hle
        omega

theorem added_insertAll (t : Serial ρ) (rs : List ρ) : t.added (t.insertAll rs) = rs := by
  obtain ⟨l, hentries, hrows, hnext⟩ := entries_insertAll t rs
  have hold : (t.rows.entries.filter fun e => (t.get? e.1).isNone).map Prod.snd = [] := added_self t
  have hnew : (l.filter fun e => (t.get? e.1).isNone) = l := by
    rw [List.filter_eq_self]
    intro e he
    rw [get?_of_next_le (hnext e he)]
    rfl
  rw [added, hentries, List.filter_append, List.map_append, hold, hnew, hrows, List.nil_append]

theorem added_insert (t : Serial ρ) (r : ρ) : t.added (t.insert r) = [r] := added_insertAll t [r]

/-- How many rows have a property. -/
def count (t : Serial ρ) (p : ρ → Bool) : ℕ := t.rows.entries.countP fun e => p e.2

theorem count_insert (t : Serial ρ) (r : ρ) (p : ρ → Bool) :
    (t.insert r).count p = t.count p + if p r then 1 else 0 := by
  simp [count, entries_insert, List.countP_append]

theorem count_insertAll (t : Serial ρ) (rs : List ρ) (p : ρ → Bool) :
    (t.insertAll rs).count p = t.count p + rs.countP p := by
  induction rs generalizing t with
  | nil => rfl
  | cons r rs ih =>
    rw [insertAll_cons, ih, count_insert, List.countP_cons]
    omega

theorem count_eq_zero {t : Serial ρ} {p : ρ → Bool} (h : ∀ i r, t.get? i = some r → p r = false) :
    t.count p = 0 := by
  rw [count, List.countP_eq_zero]
  intro e he
  rw [h e.1 e.2 (Dict.get?_eq_some_iff.mpr he)]
  exact Bool.false_ne_true

end Serial

end Foundation
