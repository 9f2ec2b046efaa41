import ContainerScanner.Foundation.PyValue
import Mathlib.Data.List.Infix

/-!
# Searching in lowered text

`str.lower` and `part in text`. Lowering replaces each character by one or more, so a place in the
lowered text need not be a place in the text; what is searched for ends at one all the same when
its last character is not the first of a longer replacement.

## Main definitions

* `PyStr.lower`, `PyStr.isIn`
* `PyStr.EndsBy` — an occurrence that ends within the first so many characters

## Main results

* `infix_flatMap_take_iff` — what occurs in the lowered start of a text
-/

namespace Foundation

/-! ### Replacing character by character -/

section Replacement

variable {α β : Type} {f : α → List β} {l l' : List α} {m p : List β}

theorem infix_flatMap (h : l <:+: l') (f : α → List β) : l.flatMap f <:+: l'.flatMap f := by
  obtain ⟨before, after, rfl⟩ := h
  exact ⟨before.flatMap f, after.flatMap f, by simp⟩

/-- A prefix of the replacement ends with a character of the original, or inside one's
replacement. -/
theorem prefix_flatMap_cases (h : p <+: l.flatMap f) :
    (∃ k ≤ l.length, p = (l.take k).flatMap f) ∨
      ∃ k, ∃ a ∈ l, ∃ q, q ≠ [] ∧ q ≠ f a ∧ q <+: f a ∧ p = (l.take k).flatMap f ++ q := by
  induction l generalizing p with
  | nil => exact Or.inl ⟨0, le_rfl, List.prefix_nil.mp h⟩
  | cons a l ih =>
    rw [List.flatMap_cons] at h
    obtain ⟨rest, hrest⟩ := h
    obtain ⟨q, rfl, hq⟩ | ⟨q, hq, -⟩ := List.append_eq_append_iff.mp hrest.symm
    · -- the replacement of `a` is read whole
      obtain ⟨k, hk, hp⟩ | ⟨k, b, hb, q', hne, hproper, hstart, hp⟩ := ih ⟨rest, hq.symm⟩
      · refine Or.inl ⟨k + 1, Nat.succ_le_succ hk, ?_⟩
        rw [List.take_succ_cons, List.flatMap_cons, hp]
      · refine Or.inr ⟨k + 1, b, List.mem_cons_of_mem a hb, q', hne, hproper, hstart, ?_⟩
        rw [List.take_succ_cons, List.flatMap_cons, hp, List.append_assoc]
    · by_cases hempty : p = []
      · exact Or.inl ⟨0, Nat.zero_le _, by simpa using hempty⟩
      · by_cases hwhole : p = f a
        · exact Or.inl ⟨1, by simp, by simpa using hwhole⟩
        · exact Or.inr ⟨0, a, List.mem_cons_self, p, hempty, hwhole, ⟨q, hq.symm⟩, by simp⟩

/-- What occurs in the replacement of the first characters ends with one of them, unless it could
end inside a replacement. -/
theorem infix_flatMap_take_iff {n : ℕ}
    (hm : ∀ a ∈ l, ∀ q, q ≠ [] → q ≠ f a → q <+: f a → q.getLast? ≠ m.getLast?) (hne : m ≠ []) :
    m <:+: (l.take n).flatMap f ↔ ∃ k ≤ n, m <:+ (l.take k).flatMap f := by
  constructor
  · rintro ⟨before, after, h⟩
    have hstart : before ++ m <+: (l.take n).flatMap f := ⟨after, h⟩
    obtain ⟨k, hk, hp⟩ | ⟨k, a, ha, q, hq, hproper, hqstart, hp⟩ := prefix_flatMap_cases hstart
    · refine ⟨min k n, Nat.min_le_right k n, before, ?_⟩
      rw [hp, List.take_take]
    · have hlast : (before ++ m).getLast? = q.getLast? := by
        rw [hp, List.getLast?_append_of_ne_nil _ hq]
      rw [List.getLast?_append_of_ne_nil _ hne] at hlast
      exact absurd hlast.symm (hm a (List.mem_of_mem_take ha) q hq hproper hqstart)
  · rintro ⟨k, hk, hsuffix⟩
    have hstart : (l.take k).flatMap f <+: (l.take n).flatMap f := by
      rw [← Nat.min_eq_left hk, ← List.take_take]
      obtain ⟨rest, hrest⟩ := List.take_prefix k (l.take n)
      refine ⟨rest.flatMap f, ?_⟩
      rw [← List.flatMap_append, hrest]
    exact hsuffix.isInfix.trans hstart.isInfix

end Replacement

/-! ### Lowering -/

namespace PyStr

/-- `str.lower` of one character, as far as the result may hold an ASCII letter: besides the ASCII
letters these are the dotted capital I and the Kelvin sign. -/
def lowerChar (c : Char) : List Char :=
  if c.toNat = 0x130 then ['i', Char.ofNat 0x307]
  else if c.toNat = 0x212A then ['k'] else [c.toLower]

/-- `str.lower()`. -/
def lower (s : String) : String := String.ofList (s.toList.flatMap lowerChar)

/-- `part in s`. -/
def isIn (part s : String) : Bool := decide (part.toList <:+: s.toList)

/-- In the lowered text the part ends with one of the first `n` characters. -/
def EndsBy (n : ℕ) (part s : String) : Prop :=
  ∃ k ≤ n, part.toList <:+ (s.toList.take k).flatMap lowerChar

theorem toList_lower (s : String) : (lower s).toList = s.toList.flatMap lowerChar :=
  String.toList_ofList

theorem isIn_iff {part s : String} : isIn part s = true ↔ part.toList <:+: s.toList :=
  decide_eq_true_iff

/-- Only the dotted capital I becomes more than one character. -/
theorem getLast?_of_prefix_lowerChar {c : Char} {q : List Char} (hne : q ≠ [])
    (hproper : q ≠ lowerChar c) (hstart : q <+: lowerChar c) : q.getLast? = some 'i' := by
  have hsingle : ∀ d : Char, q <+: [d] → q = [d] := by
    intro d hd
    rcases List.prefix_cons_iff.mp hd with hq | ⟨t, rfl, ht⟩
    · exact absurd hq hne
    · rw [List.prefix_nil.mp ht]
  rw [lowerChar] at hproper hstart
  split at hstart
  · next hdotted =>
    rw [if_pos hdotted] at hproper
    rcases List.prefix_cons_iff.mp hstart with hq | ⟨t, rfl, ht⟩
    · exact absurd hq hne
    · rcases List.prefix_cons_iff.mp ht with rfl | ⟨u, rfl, hu⟩
      · rfl
      · rw [List.prefix_nil.mp hu] at hproper
        exact absurd rfl hproper
  · next hdotted =>
    rw [if_neg hdotted] at hproper
    split at hstart
    · next hkelvin =>
      rw [if_pos hkelvin] at hproper
      exact absurd (hsingle _ hstart) hproper
    · next hkelvin =>
      rw [if_neg hkelvin] at hproper
      exact absurd (hsingle _ hstart) hproper

/-- A part is found in the lowered start of a text when it ends there. -/
theorem isIn_lower_truncate {n : ℕ} {part s : String} (hne : part.toList ≠ [])
    (hlast : part.toList.getLast? ≠ some 'i') :
    isIn part (lower (truncate n s)) = true ↔ EndsBy n part s := by
  rw [isIn_iff, toList_lower, truncate, String.toList_ofList, EndsBy]
  refine infix_flatMap_take_iff (fun c _ q hq hproper hstart heq => ?_) hne
  rw [getLast?_of_prefix_lowerChar hq hproper hstart] at heq
  exact hlast heq.symm

/-- What is found in a piece of a text is found in the text. -/
theorem isIn_lower_of_infix {part s t : String} (h : s.toList <:+: t.toList)
    (hpart : isIn part (lower s) = true) : isIn part (lower t) = true := by
  rw [isIn_iff, toList_lower] at hpart ⊢
  exact hpart.trans (infix_flatMap h lowerChar)

theorem toList_truncate (n : ℕ) (s : String) : (truncate n s).toList = s.toList.take n :=
  String.toList_ofList

/-- Stripping leaves a piece of the text. -/
theorem toList_strip_infix (s : String) : (strip s).toList <:+: s.toList := by
  rw [strip, String.toList_ofList, stripChars]
  have hfront := List.dropWhile_suffix (l := s.toList) isSpace
  have hback := List.dropWhile_suffix (l := (s.toList.dropWhile isSpace).reverse) isSpace
  have hstart := List.reverse_prefix.mpr hback
  rw [List.reverse_reverse] at hstart
  exact hstart.isInfix.trans hfront.isInfix

end PyStr

end Foundation
