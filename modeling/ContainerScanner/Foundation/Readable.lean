import Mathlib.Data.List.Basic
import Mathlib.Logic.Function.Basic
import Mathlib.Tactic.Common

/-!
# Readable codes

A code writes values as texts. It is readable before a class of texts when whoever finds a word
followed by one of them can tell where the word ends and what it says. This is kept by sequences,
by brackets and by separated lists, so that a printer is shown to be injective piece by piece and
without a parser.

A code is readable at one value before it is at all of them, for the sake of codes that are defined
by recursion on what they write.

## Main definitions

* `ReadableAt`, `Readable` — a code whose words can be told apart and told from what follows
* `tailCode`, `bodyCode` — the words of a list, separated and closed

## Main results

* `Readable.injective` — words are different
* `readable_of_read` — a reader makes a code readable
* `readableAt_bodyCode` — lists
* `readable_flatMap` — words of letters that are codes themselves, up to a closing mark
-/

namespace Foundation

variable {α β γ : Type} {code : α → List γ} {Stop : List γ → Prop} {a : α}

/-- No other word, and no other end, reads like this one. -/
def ReadableAt (code : α → List γ) (Stop : List γ → Prop) (a : α) : Prop :=
  ∀ b r r', Stop r → Stop r' → code a ++ r = code b ++ r' → a = b ∧ r = r'

def Readable (code : α → List γ) (Stop : List γ → Prop) : Prop := ∀ a, ReadableAt code Stop a

/-- Different values have different words. -/
theorem Readable.injective (h : Readable code Stop) (hstop : Stop []) :
    Function.Injective code := by
  intro a b heq
  exact (h a b [] [] hstop hstop (congrArg (· ++ []) heq)).1

/-- What a reader reads back is readable. -/
theorem readable_of_read {read : List γ → Option (α × List γ)}
    (h : ∀ a r, Stop r → read (code a ++ r) = some (a, r)) : Readable code Stop := by
  intro a b r r' hr hr' heq
  have hread := h a r hr
  rw [heq, h b r' hr'] at hread
  obtain ⟨hb, hr⟩ := Prod.mk.inj (Option.some.inj hread)
  exact ⟨hb.symm, hr.symm⟩

/-! ### Lists -/

/-- Every word behind a separator, and the closing mark. -/
def tailCode (sep close : List γ) (code : α → List γ) : List α → List γ
  | [] => close
  | a :: as => sep ++ (code a ++ tailCode sep close code as)

/-- The words with separators between them, and the closing mark. -/
def bodyCode (sep close : List γ) (code : α → List γ) : List α → List γ
  | [] => close
  | a :: as => code a ++ tailCode sep close code as

section Lists

variable {sep close : List γ} {as : List α}

/-- Separators and the closing mark end a word, and are told apart. -/
structure Punctuation (sep close : List γ) (Stop : List γ → Prop) : Prop where
  stop_sep : ∀ r, Stop (sep ++ r)
  stop_close : ∀ r, Stop (close ++ r)
  ne : ∀ r r', sep ++ r ≠ close ++ r'

theorem Punctuation.stop_tailCode (h : Punctuation sep close Stop) (as : List α) (r : List γ) :
    Stop (tailCode sep close code as ++ r) := by
  cases as with
  | nil => exact h.stop_close r
  | cons a as =>
    rw [tailCode, List.append_assoc]
    exact h.stop_sep _

theorem readableAt_tailCode (hp : Punctuation sep close Stop)
    (h : ∀ a ∈ as, ReadableAt code Stop a) :
    ReadableAt (tailCode sep close code) (fun _ => True) as := by
  induction as with
  | nil =>
    rintro (_ | ⟨b, bs⟩) r r' - - heq
    · exact ⟨rfl, List.append_cancel_left heq⟩
    · rw [tailCode, tailCode, List.append_assoc] at heq
      exact absurd heq.symm (hp.ne _ _)
  | cons a as ih =>
    rintro (_ | ⟨b, bs⟩) r r' - - heq
    · rw [tailCode, tailCode, List.append_assoc] at heq
      exact absurd heq (hp.ne _ _)
    · simp only [tailCode, List.append_assoc, List.append_cancel_left_eq] at heq
      obtain ⟨rfl, hrest⟩ := h a List.mem_cons_self b _ _ (hp.stop_tailCode as r)
        (hp.stop_tailCode bs r') heq
      obtain ⟨rfl, rfl⟩ := ih (fun a ha => h a (List.mem_cons_of_mem _ ha)) bs r r' trivial trivial
        hrest
      exact ⟨rfl, rfl⟩

/-- **A list** of words none of which begins like the closing mark. -/
theorem readableAt_bodyCode (hp : Punctuation sep close Stop)
    (hopen : ∀ a r r', code a ++ r ≠ close ++ r') (h : ∀ a ∈ as, ReadableAt code Stop a) :
    ReadableAt (bodyCode sep close code) (fun _ => True) as := by
  cases as with
  | nil =>
    rintro (_ | ⟨b, bs⟩) r r' - - heq
    · exact ⟨rfl, List.append_cancel_left heq⟩
    · rw [bodyCode, bodyCode, List.append_assoc] at heq
      exact absurd heq.symm (hopen _ _ _)
  | cons a as =>
    rintro (_ | ⟨b, bs⟩) r r' - - heq
    · rw [bodyCode, bodyCode, List.append_assoc] at heq
      exact absurd heq (hopen _ _ _)
    · simp only [bodyCode, List.append_assoc] at heq
      obtain ⟨rfl, hrest⟩ := h a List.mem_cons_self b _ _ (hp.stop_tailCode as r)
        (hp.stop_tailCode bs r') heq
      obtain ⟨rfl, rfl⟩ := readableAt_tailCode hp (fun a ha => h a (List.mem_cons_of_mem _ ha)) bs r
        r' trivial trivial hrest
      exact ⟨rfl, rfl⟩

end Lists

/-! ### Words over letters -/

/-- Two texts that begin with letters up to a text that does not. -/
theorem span_unique {p : γ → Prop} {u u' r r' : List γ} (hu : ∀ c ∈ u, p c) (hu' : ∀ c ∈ u', p c)
    (hr : ∀ c ∈ r.head?, ¬ p c) (hr' : ∀ c ∈ r'.head?, ¬ p c) (heq : u ++ r = u' ++ r') :
    u = u' ∧ r = r' := by
  induction u generalizing u' with
  | nil =>
    cases u' with
    | nil => exact ⟨rfl, heq⟩
    | cons c u' =>
      rw [List.nil_append] at heq
      exact absurd (hu' c List.mem_cons_self) (hr c (by rw [heq]; rfl))
  | cons c u ih =>
    cases u' with
    | nil =>
      rw [List.nil_append] at heq
      exact absurd (hu c List.mem_cons_self) (hr' c (by rw [← heq]; rfl))
    | cons c' u' =>
      obtain ⟨rfl, hrest⟩ := List.cons.inj heq
      obtain ⟨rfl, rfl⟩ := ih (fun d hd => hu d (List.mem_cons_of_mem _ hd))
        (fun d hd => hu' d (List.mem_cons_of_mem _ hd)) hrest
      exact ⟨rfl, rfl⟩

/-- Texts whose letters are written by a code, up to a closing mark that no letter begins like. -/
theorem readable_flatMap {close : List γ} (h : Readable code fun _ => True)
    (hclose : ∀ a r r', code a ++ r ≠ close ++ r') :
    Readable (fun as : List α => as.flatMap code ++ close) fun _ => True := by
  intro as
  induction as with
  | nil =>
    rintro (_ | ⟨b, bs⟩) r r' - - heq
    · exact ⟨rfl, List.append_cancel_left heq⟩
    · simp only [List.flatMap_nil, List.nil_append, List.flatMap_cons, List.append_assoc] at heq
      exact absurd heq.symm (hclose _ _ _)
  | cons a as ih =>
    rintro (_ | ⟨b, bs⟩) r r' - - heq
    · simp only [List.flatMap_nil, List.nil_append, List.flatMap_cons, List.append_assoc] at heq
      exact absurd heq (hclose _ _ _)
    · simp only [List.flatMap_cons, List.append_assoc] at heq
      obtain ⟨rfl, hrest⟩ := h a b _ _ trivial trivial heq
      rw [← List.append_assoc, ← List.append_assoc] at hrest
      obtain ⟨rfl, rfl⟩ := ih bs r r' trivial trivial hrest
      exact ⟨rfl, rfl⟩

end Foundation
