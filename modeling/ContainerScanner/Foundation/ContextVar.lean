import Mathlib.Tactic.Common

/-!
# Context variables

Python's `contextvars`, within one context. `set` returns a token that holds the value from before,
and `reset` goes back to that value. A token is good for one `reset`, however many `set`s there were
since; what they have set is lost with it.

## Main definitions

* `ContextVar`, `Token` — a variable with the tokens it has given out, and a token
* `get`, `set`, `reset`
* `Keeps` — the tokens from before were left alone

## Main results

* `reset_of_keeps` — a `reset` goes back to where the `set` was, if whatever ran in between has left
  the tokens from before alone
-/

namespace Foundation

structure ContextVar (α : Type) where
  /-- Unset, the variable has no value. -/
  value : Option α
  /-- How many tokens were given out. -/
  issued : ℕ
  /-- The tokens that a `reset` has used. -/
  used : List ℕ
  used_lt : ∀ t ∈ used, t < issued

/-- What `set` returns. -/
structure Token (α : Type) where
  id : ℕ
  old : Option α

/-- What `reset` raises: a `RuntimeError` if the token was used, and a `ValueError` if it comes from
elsewhere. -/
inductive ResetError where
  | runtimeError
  | valueError

namespace ContextVar

variable {α : Type}

/-- The variable before anything was set. -/
def unset : ContextVar α := ⟨none, 0, [], fun _ h => absurd h List.not_mem_nil⟩

def get (v : ContextVar α) (default : α) : α := v.value.getD default

theorem lt_succ_of_used (v : ContextVar α) : ∀ t ∈ v.used, t < v.issued + 1 :=
  fun t ht => Nat.lt_succ_of_lt (v.used_lt t ht)

def set (v : ContextVar α) (a : α) : Token α × ContextVar α :=
  (⟨v.issued, v.value⟩,
    { value := some a, issued := v.issued + 1, used := v.used, used_lt := v.lt_succ_of_used })

theorem lt_of_mem_cons_used (v : ContextVar α) {id : ℕ} (hid : id < v.issued) :
    ∀ t ∈ id :: v.used, t < v.issued :=
  List.forall_mem_cons.mpr ⟨hid, v.used_lt⟩

def reset (v : ContextVar α) (token : Token α) : Except ResetError (ContextVar α) :=
  if hid : token.id < v.issued then
    if token.id ∈ v.used then .error .runtimeError
    else .ok
      { value := token.old
        issued := v.issued
        used := token.id :: v.used
        used_lt := v.lt_of_mem_cons_used hid }
  else .error .valueError

/-- Tokens were given out and used, but none of those from before. -/
structure Keeps (v v' : ContextVar α) : Prop where
  issued : v.issued ≤ v'.issued
  used : ∀ t < v.issued, t ∈ v'.used → t ∈ v.used

variable {v v' v'' : ContextVar α}

theorem keeps_refl (v : ContextVar α) : v.Keeps v := ⟨Nat.le_refl _, fun _ _ ht => ht⟩

theorem Keeps.trans (h : v.Keeps v') (h' : v'.Keeps v'') : v.Keeps v'' := by
  have hissued := h.issued
  have hissued' := h'.issued
  refine ⟨by omega, fun t ht hused => h.used t ht ?_⟩
  exact h'.used t (by omega) hused

theorem keeps_set (v : ContextVar α) (a : α) : v.Keeps (v.set a).2 :=
  ⟨Nat.le_succ _, fun _ _ ht => ht⟩

/-- **The token of a `set` stays good.** -/
theorem reset_of_keeps {a : α} (h : (v.set a).2.Keeps v') :
    ∃ v'', v'.reset (v.set a).1 = .ok v'' ∧ v''.value = v.value ∧ v.Keeps v'' := by
  have hissued : v.issued < v'.issued := h.issued
  have hfresh : v.issued ∉ v'.used := by
    intro hused
    have hold : v.issued ∈ v.used := h.used v.issued (Nat.lt_succ_self _) hused
    exact absurd (v.used_lt _ hold) (Nat.lt_irrefl _)
  refine ⟨_, (dif_pos hissued).trans (if_neg hfresh), rfl, Nat.le_of_lt hissued,
    fun t ht hused => ?_⟩
  obtain hnew | hused := List.mem_cons.mp hused
  · have hid : t = v.issued := hnew
    omega
  · exact h.used t (Nat.lt_succ_of_lt ht) hused

end ContextVar

end Foundation
