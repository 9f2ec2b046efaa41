import ContainerScanner.Foundation.Dict
import Mathlib.Tactic.Common

/-!
# Surrogate ids

A table that gives each natural key a number drawn from a sequence. Inserting a key that is
present does nothing to the rows, though it still draws a number, as `INSERT … ON CONFLICT DO
NOTHING` does.

## Main definitions

* `Surrogate.intern`, `Surrogate.internAll` — insert or ignore, one key and a list of them
* `Surrogate.Faithful` — numbers are below the sequence and name one key each

## Main results

* `Surrogate.get?_internAll_of_get?` — an id, once given, never changes
* `Surrogate.exists_get?_internAll` — every inserted key has an id afterwards
* `Surrogate.Faithful.internAll` — interning keeps ids faithful
-/

namespace Foundation

/-- Natural keys with the numbers they were given, and the next number. -/
structure Surrogate (κ : Type) where
  /-- The numbers given so far. -/
  ids : Dict κ ℕ
  /-- The number the sequence hands out next. -/
  next : ℕ

namespace Surrogate

variable {κ : Type}

/-- No key has a number; the sequence starts at one. -/
def empty : Surrogate κ := ⟨Dict.empty, 1⟩

/-- Draw numbers up to `n` without giving any away. -/
def advance (t : Surrogate κ) (n : ℕ) : Surrogate κ := { t with next := max t.next n }

@[simp] theorem advance_next (t : Surrogate κ) : t.advance t.next = t := by
  simp [advance]

variable [DecidableEq κ]

/-- The number of a key. -/
def get? (t : Surrogate κ) (k : κ) : Option ℕ := t.ids.get? k

@[simp] theorem get?_empty (k : κ) : (empty : Surrogate κ).get? k = none := rfl

/-- Insert a key unless it is present. -/
def intern (t : Surrogate κ) (k : κ) : Surrogate κ :=
  match t.get? k with
  | some _ => { t with next := t.next + 1 }
  | none => { ids := t.ids.set k t.next, next := t.next + 1 }

/-- Insert every key of a list unless it is present. -/
def internAll (t : Surrogate κ) (ks : List κ) : Surrogate κ := ks.foldl intern t

@[simp] theorem internAll_nil (t : Surrogate κ) : t.internAll [] = t := rfl

@[simp] theorem internAll_cons (t : Surrogate κ) (k : κ) (ks : List κ) :
    t.internAll (k :: ks) = (t.intern k).internAll ks := rfl

theorem get?_intern (t : Surrogate κ) (k k' : κ) :
    (t.intern k).get? k' = if k' = k then some ((t.get? k).getD t.next) else t.get? k' := by
  rw [intern]
  cases hk : t.get? k with
  | some i =>
    by_cases h : k' = k
    · subst h
      rw [if_pos rfl]
      exact hk
    · rw [if_neg h]
      rfl
  | none => exact Dict.get?_set t.ids k k' t.next

theorem next_intern (t : Surrogate κ) (k : κ) : (t.intern k).next = t.next + 1 := by
  rw [intern]
  split <;> rfl

theorem get?_intern_of_get? {t : Surrogate κ} {k : κ} {i : ℕ} (h : t.get? k = some i) (k' : κ) :
    (t.intern k').get? k = some i := by
  rw [get?_intern]
  split
  · next hk => rw [← hk, h]; rfl
  · exact h

/-- An id, once given, never changes. -/
theorem get?_internAll_of_get? {t : Surrogate κ} {k : κ} {i : ℕ} (h : t.get? k = some i)
    (ks : List κ) : (t.internAll ks).get? k = some i := by
  induction ks generalizing t with
  | nil => exact h
  | cons k' ks ih => exact ih (get?_intern_of_get? h k')

/-- Every inserted key has an id afterwards. -/
theorem exists_get?_internAll (t : Surrogate κ) {ks : List κ} {k : κ} (hk : k ∈ ks) :
    ∃ i, (t.internAll ks).get? k = some i := by
  induction ks generalizing t with
  | nil => simp at hk
  | cons k' ks ih =>
    rcases List.mem_cons.mp hk with rfl | hk
    · exact ⟨_, get?_internAll_of_get? (by rw [get?_intern, if_pos rfl]) ks⟩
    · exact ih (t.intern k') hk

/-- Every number is below the sequence, and no two keys share one. -/
structure Faithful (t : Surrogate κ) : Prop where
  /-- The sequence is ahead of every number given. -/
  lt_next : ∀ k i, t.get? k = some i → i < t.next
  /-- A number names one key. -/
  injective : ∀ k k' i, t.get? k = some i → t.get? k' = some i → k = k'

/-- The key a number was given to. -/
def keyOf? (t : Surrogate κ) (i : ℕ) : Option κ :=
  (t.ids.entries.find? fun e => decide (e.2 = i)).map Prod.fst

/-- In a faithful table the two lookups are inverse to each other. -/
theorem Faithful.keyOf?_eq_some {t : Surrogate κ} (h : t.Faithful) {i : ℕ} {k : κ} :
    t.keyOf? i = some k ↔ t.get? k = some i := by
  constructor
  · intro hk
    obtain ⟨⟨k', j⟩, he, rfl⟩ := Option.map_eq_some_iff.mp hk
    have hj : j = i := by simpa using List.find?_some he
    exact hj ▸ Dict.get?_eq_some_iff.mpr (List.mem_of_find?_eq_some he)
  · intro hk
    have hmem : (k, i) ∈ t.ids.entries := Dict.get?_eq_some_iff.mp hk
    cases hfind : t.ids.entries.find? fun e => decide (e.2 = i) with
    | none =>
      have hnot := List.find?_eq_none.mp hfind (k, i) hmem
      simp at hnot
    | some e =>
      obtain ⟨k', j⟩ := e
      have hj : j = i := by simpa using List.find?_some hfind
      have hk' : t.get? k' = some i :=
        hj ▸ Dict.get?_eq_some_iff.mpr (List.mem_of_find?_eq_some hfind)
      rw [keyOf?, hfind, Option.map_some, h.injective k' k i hk' hk]

theorem faithful_empty : Faithful (empty : Surrogate κ) :=
  ⟨fun _ _ h => by simp at h, fun _ _ _ h => by simp at h⟩

theorem Faithful.intern {t : Surrogate κ} (h : t.Faithful) (k : κ) : (t.intern k).Faithful := by
  -- the number a key has afterwards is its old one, or the fresh `t.next` for `k` alone
  have cases_get? : ∀ k' i, (t.intern k).get? k' = some i →
      t.get? k' = some i ∨ (k' = k ∧ i = t.next) := by
    intro k' i hi
    rw [get?_intern] at hi
    split at hi
    · next hk =>
      cases hold : t.get? k with
      | some j => rw [hold] at hi; exact Or.inl (by rw [hk, hold]; exact hi)
      | none => rw [hold] at hi; exact Or.inr ⟨hk, (Option.some.inj hi).symm⟩
    · exact Or.inl hi
  refine ⟨fun k' i hi => ?_, fun k' k'' i hi hi' => ?_⟩
  · rw [next_intern]
    rcases cases_get? k' i hi with hold | ⟨-, rfl⟩
    · exact Nat.lt_succ_of_lt (h.lt_next k' i hold)
    · exact Nat.lt_succ_self _
  · rcases cases_get? k' i hi with hold | ⟨hk, hn⟩ <;>
      rcases cases_get? k'' i hi' with hold' | ⟨hk', hn'⟩
    · exact h.injective k' k'' i hold hold'
    · exact absurd (h.lt_next k' i hold) (by omega)
    · exact absurd (h.lt_next k'' i hold') (by omega)
    · rw [hk, hk']

theorem Faithful.internAll {t : Surrogate κ} (h : t.Faithful) (ks : List κ) :
    (t.internAll ks).Faithful := by
  induction ks generalizing t with
  | nil => exact h
  | cons k ks ih => exact ih (h.intern k)

end Surrogate

end Foundation
