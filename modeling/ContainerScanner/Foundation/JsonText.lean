import ContainerScanner.Foundation.Readable
import Mathlib.Data.Int.Notation

/-!
# JSON texts

`json.dumps` of Python, with its defaults: `", "` between elements, `": "` between a key and its
value, and every character outside printable ASCII escaped. A character above `0xFFFF` is escaped
as a pair of surrogates.

A string is a `String`, which has no surrogates of its own. Two of those in a Python `str` would be
written like the one character they stand for.

## Main definitions

* `Value` — what can be written
* `escapeChar`, `quote`, `intText`
* `dumps`

## Main results

* `readable_escapeChar`, `readable_quote` — characters and strings
* `dumps_injective` — different values have different texts
* `isPrintable_dumps` — a text is one line of printable ASCII
-/

namespace Foundation

namespace JsonText

/-! ### Characters -/

/-- `' '` to `'~'`. -/
def isPrintable (c : Char) : Bool := 32 ≤ c.toNat && c.toNat ≤ 126

/-- What is written behind a backslash, other than code units. -/
def shortEscapes : List (Char × Char) :=
  [('"', '"'), ('\\', '\\'), ('\n', 'n'), ('\r', 'r'), ('\t', 't'), (Char.ofNat 8, 'b'),
    (Char.ofNat 12, 'f')]

def hexDigit (d : ℕ) : Char := Char.ofNat (if d < 10 then 48 + d else 87 + d)

/-- A code unit: a backslash, `u`, and four digits. -/
def codeUnit (n : ℕ) : List Char :=
  ['\\', 'u', hexDigit (n / 4096 % 16), hexDigit (n / 256 % 16), hexDigit (n / 16 % 16),
    hexDigit (n % 16)]

def escapeChar (c : Char) : List Char :=
  match shortEscapes.find? fun e => e.1 = c with
  | some e => ['\\', e.2]
  | none =>
    if isPrintable c then [c]
    else if c.toNat < 0x10000 then codeUnit c.toNat
    else codeUnit (0xD800 + (c.toNat - 0x10000) / 0x400) ++
      codeUnit (0xDC00 + (c.toNat - 0x10000) % 0x400)

/-! ### Reading one back -/

def hexValue (c : Char) : ℕ := if c.toNat < 58 then c.toNat - 48 else c.toNat - 87

/-- Four digits. -/
def readDigits : List Char → Option (ℕ × List Char)
  | a :: b :: c :: d :: r =>
    some (hexValue a * 4096 + hexValue b * 256 + hexValue c * 16 + hexValue d, r)
  | _ => none

def isHighSurrogate (n : ℕ) : Bool := 0xD800 ≤ n && n < 0xDC00

def joinSurrogates (n m : ℕ) : ℕ := 0x10000 + (n - 0xD800) * 0x400 + (m - 0xDC00)

/-- After a backslash and `u`. -/
def readUnits (r : List Char) : Option (Char × List Char) :=
  (readDigits r).bind fun unit =>
    if isHighSurrogate unit.1 then
      (readDigits (unit.2.drop 2)).map fun low =>
        (Char.ofNat (joinSurrogates unit.1 low.1), low.2)
    else some (Char.ofNat unit.1, unit.2)

/-- After a backslash. -/
def readEscape : List Char → Option (Char × List Char)
  | [] => none
  | c :: r =>
    if c = 'u' then readUnits r
    else (shortEscapes.find? fun e => e.2 = c).map fun e => (e.1, r)

def readChar : List Char → Option (Char × List Char)
  | [] => none
  | c :: r => if c = '\\' then readEscape r else some (c, r)

theorem hexValue_hexDigit : ∀ d < 16, hexValue (hexDigit d) = d := by decide

theorem isPrintable_hexDigit : ∀ d < 16, isPrintable (hexDigit d) = true := by decide

theorem readDigits_codeUnit {n : ℕ} (hn : n < 0x10000) (r : List Char) :
    readDigits ((codeUnit n).drop 2 ++ r) = some (n, r) := by
  have hdigit : ∀ k, hexValue (hexDigit (n / k % 16)) = n / k % 16 := fun k =>
    hexValue_hexDigit _ (Nat.mod_lt _ (by decide))
  have hlast : hexValue (hexDigit (n % 16)) = n % 16 :=
    hexValue_hexDigit _ (Nat.mod_lt _ (by decide))
  show some (hexValue (hexDigit (n / 4096 % 16)) * 4096 + hexValue (hexDigit (n / 256 % 16)) * 256 +
    hexValue (hexDigit (n / 16 % 16)) * 16 + hexValue (hexDigit (n % 16)), r) = _
  rw [hdigit, hdigit, hdigit, hlast]
  have hvalue : n / 4096 % 16 * 4096 + n / 256 % 16 * 256 + n / 16 % 16 * 16 + n % 16 = n := by
    omega
  rw [hvalue]

/-- No character is a surrogate. -/
theorem not_surrogate (c : Char) : ¬ (0xD800 ≤ c.toNat ∧ c.toNat < 0xE000) := by
  have hvalid : c.toNat < 0xD800 ∨ 0xDFFF < c.toNat ∧ c.toNat < 0x110000 := c.valid
  omega

theorem readUnits_codeUnit {c : Char} (hc : c.toNat < 0x10000) (r : List Char) :
    readUnits ((codeUnit c.toNat).drop 2 ++ r) = some (c, r) := by
  have hsurrogate : isHighSurrogate c.toNat = false := by
    have hnot := not_surrogate c
    simp only [isHighSurrogate, Bool.and_eq_false_iff, decide_eq_false_iff_not]
    omega
  rw [readUnits, readDigits_codeUnit hc, Option.bind_some, hsurrogate, if_neg Bool.false_ne_true,
    Char.ofNat_toNat]

/-- The two surrogates of a character say which one it is. -/
theorem readUnits_surrogates {c : Char} (hc : ¬ c.toNat < 0x10000) (r : List Char) :
    readUnits ((codeUnit (0xD800 + (c.toNat - 0x10000) / 0x400)).drop 2 ++
      (codeUnit (0xDC00 + (c.toNat - 0x10000) % 0x400) ++ r)) = some (c, r) := by
  have hlt : c.toNat < 0x110000 := by
    have hvalid : c.toNat < 0xD800 ∨ 0xDFFF < c.toNat ∧ c.toNat < 0x110000 := c.valid
    omega
  generalize hhigh : 0xD800 + (c.toNat - 0x10000) / 0x400 = high
  generalize hlow : 0xDC00 + (c.toNat - 0x10000) % 0x400 = low
  have hsurrogate : isHighSurrogate high = true := by
    simp only [isHighSurrogate, Bool.and_eq_true, decide_eq_true_eq]
    omega
  have hvalue : joinSurrogates high low = c.toNat := by
    unfold joinSurrogates
    omega
  have hdrop : (codeUnit low ++ r).drop 2 = (codeUnit low).drop 2 ++ r := rfl
  rw [readUnits, readDigits_codeUnit (by omega), Option.bind_some, hsurrogate, if_pos rfl, hdrop,
    readDigits_codeUnit (by omega), Option.map_some, hvalue, Char.ofNat_toNat]

theorem readEscape_of_mem : ∀ e ∈ shortEscapes,
    e.2 ≠ 'u' ∧ (shortEscapes.find? fun e' => e'.2 = e.2) = some e := by decide

theorem find?_backslash : shortEscapes.find? (fun e => e.1 = '\\') ≠ none := by decide

/-- **What is written for a character is read back as that character.** -/
theorem readChar_escapeChar (c : Char) (r : List Char) :
    readChar (escapeChar c ++ r) = some (c, r) := by
  rw [escapeChar]
  cases hfind : shortEscapes.find? fun e => e.1 = c with
  | some e =>
    obtain ⟨hu, hback⟩ := readEscape_of_mem e (List.mem_of_find?_eq_some hfind)
    have he : e.1 = c := by simpa using List.find?_some hfind
    show readEscape (e.2 :: r) = _
    rw [readEscape, if_neg hu, hback, ← he]
    rfl
  | none =>
    have hbackslash : c ≠ '\\' := by
      rintro rfl
      exact absurd hfind find?_backslash
    show readChar ((if isPrintable c then [c] else _) ++ r) = _
    split
    · show (if c = '\\' then readEscape r else some (c, r)) = _
      rw [if_neg hbackslash]
    · split
      · rename_i hlt
        exact readUnits_codeUnit hlt r
      · rename_i hge
        rw [List.append_assoc]
        exact readUnits_surrogates hge r

theorem readable_escapeChar : Readable escapeChar fun _ => True :=
  readable_of_read fun c r _ => readChar_escapeChar c r

theorem isPrintable_of_all {cs : List Char} (h : cs.all isPrintable = true) :
    ∀ c ∈ cs, isPrintable c = true :=
  List.all_eq_true.mp h

theorem isPrintable_codeUnit (n : ℕ) : ∀ c ∈ codeUnit n, isPrintable c = true := by
  have hdigit : ∀ k, isPrintable (hexDigit (k % 16)) = true := fun k =>
    isPrintable_hexDigit _ (Nat.mod_lt _ (by decide))
  have hstart : isPrintable '\\' = true ∧ isPrintable 'u' = true := by decide
  simp only [codeUnit, List.forall_mem_cons, hdigit, hstart, List.not_mem_nil, false_implies,
    implies_true, and_self]

theorem isPrintable_shortEscapes : ∀ e ∈ shortEscapes, isPrintable e.2 = true := by decide

theorem isPrintable_escapeChar (c : Char) : ∀ d ∈ escapeChar c, isPrintable d = true := by
  rw [escapeChar]
  cases hfind : shortEscapes.find? fun e => e.1 = c with
  | some e =>
    have he := isPrintable_shortEscapes e (List.mem_of_find?_eq_some hfind)
    exact List.forall_mem_cons.mpr ⟨by decide, List.forall_mem_cons.mpr ⟨he, by simp⟩⟩
  | none =>
    show ∀ d ∈ if isPrintable c then [c] else _, _
    split
    · rename_i hc
      simpa using hc
    · split
      · exact isPrintable_codeUnit _
      · exact List.forall_mem_append.mpr ⟨isPrintable_codeUnit _, isPrintable_codeUnit _⟩

/-! ### Strings -/

/-- What a string is written as behind its opening quote. -/
def stringBody (cs : List Char) : List Char := cs.flatMap escapeChar ++ ['"']

def quote (s : String) : List Char := '"' :: stringBody s.toList

theorem escapeChar_ne_quote (c : Char) (r r' : List Char) : escapeChar c ++ r ≠ ['"'] ++ r' := by
  intro heq
  have hread := readChar_escapeChar c r
  rw [heq] at hread
  obtain ⟨rfl, -⟩ := Prod.mk.inj (Option.some.inj hread)
  exact absurd (List.cons.inj heq).1 (by decide)

theorem readable_stringBody : Readable stringBody fun _ => True :=
  readable_flatMap readable_escapeChar escapeChar_ne_quote

theorem readable_quote : Readable quote fun _ => True := by
  intro s s' r r' hr hr' heq
  obtain ⟨hchars, hrest⟩ := readable_stringBody s.toList s'.toList r r' hr hr'
    (List.cons.inj heq).2
  exact ⟨String.toList_inj.mp hchars, hrest⟩

theorem isPrintable_quote (s : String) : ∀ c ∈ quote s, isPrintable c = true := by
  refine List.forall_mem_cons.mpr ⟨by decide, List.forall_mem_append.mpr ⟨fun d hd => ?_,
    isPrintable_of_all (by decide)⟩⟩
  obtain ⟨c, -, hd⟩ := List.mem_flatMap.mp hd
  exact isPrintable_escapeChar c d hd

/-! ### Numbers -/

/-- The characters of `int.__repr__` and `float.__repr__`, with `NaN` and `Infinity`. -/
def isNumberChar (c : Char) : Bool := c.isDigit || "+-.eNaInfity".toList.contains c

def intText (n : ℤ) : List Char :=
  if n < 0 then '-' :: Nat.toDigits 10 n.natAbs else Nat.toDigits 10 n.natAbs

/-- A text of `float.__repr__`: a point, an exponent or a name tells it from an `int`. -/
structure FloatText where
  text : List Char
  chars : ∀ c ∈ text, isNumberChar c = true
  first : ∀ c ∈ text.head?, c.isDigit || ['-', 'N', 'I'].contains c
  mark : ∃ c ∈ text, ¬ (c.isDigit || c = '-')

/-- What may stand behind a value. -/
def Ends (r : List Char) : Prop := ∀ c ∈ r.head?, ¬ isNumberChar c = true

theorem toDigits_injective : Function.Injective (Nat.toDigits 10) :=
  Function.LeftInverse.injective fun _ => Nat.ofDigitChars_ten_toDigits

theorem isDigit_toDigits (n : ℕ) : ∀ c ∈ Nat.toDigits 10 n, c.isDigit = true :=
  fun _ hc => Nat.isDigit_of_mem_toDigits (by decide) (by decide) hc

theorem minus_notMem_toDigits (n : ℕ) : '-' ∉ Nat.toDigits 10 n :=
  fun h => absurd (isDigit_toDigits n _ h) (by decide)

theorem intText_injective : Function.Injective intText := by
  intro n m heq
  have hne : ∀ k l : ℕ, '-' :: Nat.toDigits 10 k ≠ Nat.toDigits 10 l := fun k l h =>
    minus_notMem_toDigits l (h ▸ List.mem_cons_self)
  simp only [intText] at heq
  split at heq <;> split at heq
  · have habs := toDigits_injective (List.cons.inj heq).2
    omega
  · exact absurd heq (hne _ _)
  · exact absurd heq.symm (hne _ _)
  · have habs := toDigits_injective heq
    omega

theorem intText_chars (n : ℤ) : ∀ c ∈ intText n, (c.isDigit || c = '-') = true := by
  have hdigits : ∀ c ∈ Nat.toDigits 10 n.natAbs, (c.isDigit || c = '-') = true := fun c hc => by
    rw [isDigit_toDigits _ c hc, Bool.true_or]
  rw [intText]
  split
  · exact List.forall_mem_cons.mpr ⟨by decide, hdigits⟩
  · exact hdigits

theorem isNumberChar_of_int {c : Char} (h : (c.isDigit || c = '-') = true) :
    isNumberChar c = true := by
  obtain hdigit | hminus := Bool.or_eq_true_iff.mp h
  · rw [isNumberChar, hdigit, Bool.true_or]
  · rw [of_decide_eq_true hminus]
    decide

theorem isNumberChar_intText (n : ℤ) : ∀ c ∈ intText n, isNumberChar c = true :=
  fun c hc => isNumberChar_of_int (intText_chars n c hc)

/-- Two numbers that are written before the end of a value. -/
theorem number_unique {t t' r r' : List Char} (ht : ∀ c ∈ t, isNumberChar c = true)
    (ht' : ∀ c ∈ t', isNumberChar c = true) (hr : Ends r) (hr' : Ends r')
    (heq : t ++ r = t' ++ r') : t = t' ∧ r = r' :=
  span_unique ht ht' hr hr' heq

theorem FloatText.ne_intText (x : FloatText) (n : ℤ) : x.text ≠ intText n := by
  intro heq
  obtain ⟨c, hc, hmark⟩ := x.mark
  exact hmark (intText_chars n c (heq ▸ hc))

theorem FloatText.ext {x y : FloatText} (h : x.text = y.text) : x = y := by
  cases x
  cases y
  simp_all

theorem isPrintable_of_number {c : Char} (h : isNumberChar c = true) : isPrintable c = true := by
  obtain hdigit | hletter := Bool.or_eq_true_iff.mp h
  · obtain ⟨hlow, hhigh⟩ := Char.isDigit_iff_toNat.mp hdigit
    have hbounds : 48 ≤ c.toNat ∧ c.toNat ≤ 57 := ⟨hlow, hhigh⟩
    simp only [isPrintable, Bool.and_eq_true, decide_eq_true_eq]
    omega
  · exact isPrintable_of_all (by decide) c (List.contains_iff_mem.mp hletter)

/-! ### Values -/

/-- What can be written. An object is the list of its members; a `str` has no surrogates. -/
inductive Value where
  | null
  | bool (b : Bool)
  | int (n : ℤ)
  | float (x : FloatText)
  | str (s : String)
  | list (items : List Value)
  | dict (members : List (String × Value))

mutual

/-- `json.dumps(value)`. -/
def dumps : Value → List Char
  | .null => "null".toList
  | .bool b => if b then "true".toList else "false".toList
  | .int n => intText n
  | .float x => x.text
  | .str s => quote s
  | .list items => '[' :: dumpsItems items
  | .dict members => '\x7b' :: dumpsMembers members

def dumpsItems : List Value → List Char
  | [] => [']']
  | v :: vs => dumps v ++ dumpsRest vs

def dumpsRest : List Value → List Char
  | [] => [']']
  | v :: vs => [',', ' '] ++ (dumps v ++ dumpsRest vs)

def dumpsMember : String × Value → List Char
  | (key, v) => quote key ++ ([':', ' '] ++ dumps v)

def dumpsMembers : List (String × Value) → List Char
  | [] => ['\x7d']
  | m :: ms => dumpsMember m ++ dumpsMembersRest ms

def dumpsMembersRest : List (String × Value) → List Char
  | [] => ['\x7d']
  | m :: ms => [',', ' '] ++ (dumpsMember m ++ dumpsMembersRest ms)

end

/-- Induction, with what is known of every element of a list or an object. -/
theorem Value.induct {P : Value → Prop} (null : P .null) (bool : ∀ b, P (.bool b))
    (int : ∀ n, P (.int n)) (float : ∀ x, P (.float x)) (str : ∀ s, P (.str s))
    (list : ∀ items, (∀ v ∈ items, P v) → P (.list items))
    (dict : ∀ members, (∀ m ∈ members, P m.2) → P (.dict members)) (v : Value) : P v :=
  @Value.rec P (fun items => ∀ v ∈ items, P v) (fun members => ∀ m ∈ members, P m.2)
    (fun m => P m.2) null bool int float str list dict (fun _ h => absurd h List.not_mem_nil)
    (fun _ _ hhead htail => List.forall_mem_cons.mpr ⟨hhead, htail⟩)
    (fun _ h => absurd h List.not_mem_nil)
    (fun _ _ hhead htail => List.forall_mem_cons.mpr ⟨hhead, htail⟩) (fun _ _ h => h) v

theorem dumpsRest_eq (vs : List Value) : dumpsRest vs = tailCode [',', ' '] [']'] dumps vs := by
  induction vs with
  | nil => rfl
  | cons v vs ih => rw [dumpsRest, tailCode, ih]

theorem dumpsItems_eq (vs : List Value) : dumpsItems vs = bodyCode [',', ' '] [']'] dumps vs := by
  cases vs with
  | nil => rfl
  | cons v vs => rw [dumpsItems, bodyCode, dumpsRest_eq]

theorem dumpsMembersRest_eq (ms : List (String × Value)) :
    dumpsMembersRest ms = tailCode [',', ' '] ['\x7d'] dumpsMember ms := by
  induction ms with
  | nil => rfl
  | cons m ms ih => rw [dumpsMembersRest, tailCode, ih]

theorem dumpsMembers_eq (ms : List (String × Value)) :
    dumpsMembers ms = bodyCode [',', ' '] ['\x7d'] dumpsMember ms := by
  cases ms with
  | nil => rfl
  | cons m ms => rw [dumpsMembers, bodyCode, dumpsMembersRest_eq]

/-! ### What a text begins with -/

inductive Kind where
  | null
  | bool
  | number
  | str
  | list
  | dict
  deriving DecidableEq

def Value.kind : Value → Kind
  | .null => .null
  | .bool _ => .bool
  | .int _ => .number
  | .float _ => .number
  | .str _ => .str
  | .list _ => .list
  | .dict _ => .dict

/-- The kind of a value, from the first character of its text. -/
def kindOf (c : Char) : Option Kind :=
  if c = 'n' then some .null
  else if c = 't' || c = 'f' then some .bool
  else if c = '"' then some .str
  else if c = '[' then some .list
  else if c = '\x7b' then some .dict
  else if isNumberChar c then some .number
  else none

theorem kindOf_of_digit {c : Char} (h : (c.isDigit || ['-', 'N', 'I'].contains c) = true) :
    kindOf c = some .number := by
  obtain hdigit | hletter := Bool.or_eq_true_iff.mp h
  · have hne : ∀ d : Char, d.isDigit = false → c ≠ d := by
      rintro d hd rfl
      rw [hd] at hdigit
      exact Bool.false_ne_true hdigit
    have hnumber : isNumberChar c = true := isNumberChar_of_int (by rw [hdigit, Bool.true_or])
    have hbool : (decide (c = 't') || decide (c = 'f')) = false := by
      rw [decide_eq_false (hne 't' (by decide)), decide_eq_false (hne 'f' (by decide))]
      rfl
    rw [kindOf, if_neg (hne _ (by decide)), hbool, if_neg Bool.false_ne_true,
      if_neg (hne _ (by decide)), if_neg (hne _ (by decide)), if_neg (hne _ (by decide)),
      if_pos hnumber]
  · simp only [List.contains_iff_mem, List.mem_cons, List.not_mem_nil, or_false] at hletter
    obtain rfl | rfl | rfl := hletter <;> decide

theorem kindOf_digits (n : ℕ) : ∃ c cs, Nat.toDigits 10 n = c :: cs ∧ kindOf c = some .number := by
  obtain ⟨c, cs, hcs⟩ := List.exists_cons_of_ne_nil (Nat.toDigits_ne_nil (n := n) (b := 10))
  have hdigit : c.isDigit = true := isDigit_toDigits n c (hcs ▸ List.mem_cons_self)
  exact ⟨c, cs, hcs, kindOf_of_digit (by rw [hdigit, Bool.true_or])⟩

theorem FloatText.head (x : FloatText) : ∃ c cs, x.text = c :: cs ∧ kindOf c = some .number := by
  cases htext : x.text with
  | nil =>
    obtain ⟨c, hc, -⟩ := x.mark
    rw [htext] at hc
    exact absurd hc List.not_mem_nil
  | cons c cs => exact ⟨c, cs, rfl, kindOf_of_digit (x.first c (by rw [htext]; rfl))⟩

theorem kindOf_marks : kindOf '-' = some .number ∧ kindOf '"' = some .str ∧
    kindOf '[' = some .list ∧ kindOf '\x7b' = some .dict := by decide

theorem head_dumps (v : Value) : ∃ c cs, dumps v = c :: cs ∧ kindOf c = some v.kind := by
  cases v with
  | null => exact ⟨_, _, rfl, by decide⟩
  | bool b => cases b <;> exact ⟨_, _, rfl, by decide⟩
  | int n =>
    rw [dumps, intText]
    split
    · exact ⟨_, _, rfl, kindOf_marks.1⟩
    · exact kindOf_digits n.natAbs
  | float x => exact x.head
  | str s => exact ⟨_, _, rfl, kindOf_marks.2.1⟩
  | list items => exact ⟨_, _, rfl, kindOf_marks.2.2.1⟩
  | dict members => exact ⟨_, _, rfl, kindOf_marks.2.2.2⟩

/-- Texts that go on differently are of one kind. -/
theorem kind_eq {v w : Value} {r r' : List Char} (heq : dumps v ++ r = dumps w ++ r') :
    v.kind = w.kind := by
  obtain ⟨c, cs, hv, hkind⟩ := head_dumps v
  obtain ⟨d, ds, hw, hkind'⟩ := head_dumps w
  rw [hv, hw] at heq
  obtain ⟨rfl, -⟩ := List.cons.inj heq
  exact Option.some.inj (hkind.symm.trans hkind')

theorem dumps_ne {v : Value} {c : Char} (hc : kindOf c = none) (r r' : List Char) :
    dumps v ++ r ≠ [c] ++ r' := by
  obtain ⟨d, ds, hv, hkind⟩ := head_dumps v
  rw [hv]
  intro heq
  obtain ⟨rfl, -⟩ := List.cons.inj heq
  exact absurd (hc.symm.trans hkind) (Option.some_ne_none _).symm

/-! ### Texts are told apart -/

theorem readable_bool {b : Bool} : ReadableAt dumps Ends (.bool b) := by
  intro w r r' _ _ heq
  cases w with
  | bool b' =>
    cases b <;> cases b'
    · exact ⟨rfl, List.append_cancel_left heq⟩
    · exact absurd (List.cons.inj heq).1 (by decide)
    · exact absurd (List.cons.inj heq).1 (by decide)
    · exact ⟨rfl, List.append_cancel_left heq⟩
  | _ => exact absurd (kind_eq heq) (by simp [Value.kind])

theorem readable_int (n : ℤ) : ReadableAt dumps Ends (.int n) := by
  intro w r r' hr hr' heq
  cases w with
  | int m =>
    obtain ⟨htext, hrest⟩ := number_unique (isNumberChar_intText n) (isNumberChar_intText m) hr hr'
      heq
    rw [intText_injective htext]
    exact ⟨rfl, hrest⟩
  | float x =>
    obtain ⟨htext, -⟩ := number_unique (isNumberChar_intText n) x.chars hr hr' heq
    exact absurd htext.symm (x.ne_intText n)
  | _ => exact absurd (kind_eq heq) (by simp [Value.kind])

theorem readable_float (x : FloatText) : ReadableAt dumps Ends (.float x) := by
  intro w r r' hr hr' heq
  cases w with
  | int m =>
    obtain ⟨htext, -⟩ := number_unique x.chars (isNumberChar_intText m) hr hr' heq
    exact absurd htext (x.ne_intText m)
  | float y =>
    obtain ⟨htext, hrest⟩ := number_unique x.chars y.chars hr hr' heq
    rw [FloatText.ext htext]
    exact ⟨rfl, hrest⟩
  | _ => exact absurd (kind_eq heq) (by simp [Value.kind])

theorem readable_str (s : String) : ReadableAt dumps Ends (.str s) := by
  intro w r r' _ _ heq
  cases w with
  | str t =>
    obtain ⟨rfl, hrest⟩ := readable_quote s t r r' trivial trivial heq
    exact ⟨rfl, hrest⟩
  | _ => exact absurd (kind_eq heq) (by simp [Value.kind])

/-- A comma and a closing bracket end a value. -/
theorem punctuation {c : Char} (hne : c ≠ ',') (hc : isNumberChar c = false) :
    Punctuation [',', ' '] [c] Ends := by
  refine ⟨fun r d hd => ?_, fun r d hd => ?_, fun r r' heq => ?_⟩
  · obtain rfl : ',' = d := Option.some.inj hd
    decide
  · obtain rfl : c = d := Option.some.inj hd
    rw [hc]
    decide
  · exact hne (List.cons.inj heq).1.symm

theorem readable_list {items : List Value} (h : ∀ v ∈ items, ReadableAt dumps Ends v) :
    ReadableAt dumps Ends (.list items) := by
  intro w r r' _ _ heq
  cases w with
  | list items' =>
    have hbody := (List.cons.inj heq).2
    rw [dumpsItems_eq, dumpsItems_eq] at hbody
    obtain ⟨rfl, hrest⟩ := readableAt_bodyCode (punctuation (by decide) (by decide))
      (fun v => dumps_ne (by decide)) h items' r r' trivial trivial hbody
    exact ⟨rfl, hrest⟩
  | _ => exact absurd (kind_eq heq) (by simp [Value.kind])

theorem readable_member {key : String} {v : Value} (h : ReadableAt dumps Ends v) :
    ReadableAt dumpsMember Ends (key, v) := by
  intro m r r' hr hr' heq
  obtain ⟨key', v'⟩ := m
  simp only [dumpsMember, List.append_assoc] at heq
  obtain ⟨rfl, hvalue⟩ := readable_quote key key' _ _ trivial trivial heq
  obtain ⟨rfl, hrest⟩ := h v' r r' hr hr' (List.append_cancel_left hvalue)
  exact ⟨rfl, hrest⟩

/-- A member begins with a quote. -/
theorem member_ne : ∀ (m : String × Value) (r r' : List Char),
    dumpsMember m ++ r ≠ ['\x7d'] ++ r' := by
  rintro ⟨key, v⟩ r r' heq
  have hne : '"' ≠ '\x7d' := by decide
  exact hne (List.cons.inj heq).1

theorem readable_dict {members : List (String × Value)}
    (h : ∀ m ∈ members, ReadableAt dumps Ends m.2) : ReadableAt dumps Ends (.dict members) := by
  intro w r r' _ _ heq
  cases w with
  | dict members' =>
    have hbody := (List.cons.inj heq).2
    rw [dumpsMembers_eq, dumpsMembers_eq] at hbody
    obtain ⟨rfl, hrest⟩ := readableAt_bodyCode (punctuation (by decide) (by decide)) member_ne
      (fun m hm => readable_member (h m hm)) members' r r' trivial trivial hbody
    exact ⟨rfl, hrest⟩
  | _ => exact absurd (kind_eq heq) (by simp [Value.kind])

theorem readable_null : ReadableAt dumps Ends .null := by
  intro w r r' _ _ heq
  cases w with
  | null => exact ⟨rfl, List.append_cancel_left heq⟩
  | _ => exact absurd (kind_eq heq) (by simp [Value.kind])

/-- **A text is told apart from every other, and from what follows.** -/
theorem readable_dumps : Readable dumps Ends := by
  intro v
  induction v using Value.induct with
  | null => exact readable_null
  | bool b => exact readable_bool
  | int n => exact readable_int n
  | float x => exact readable_float x
  | str s => exact readable_str s
  | list items h => exact readable_list h
  | dict members h => exact readable_dict h

/-- **Different values have different texts.** -/
theorem dumps_injective : Function.Injective dumps :=
  readable_dumps.injective fun _ hc => absurd hc (by simp)

/-! ### A text is one line -/

theorem isPrintable_append {cs ds : List Char} (hcs : ∀ c ∈ cs, isPrintable c = true)
    (hds : ∀ c ∈ ds, isPrintable c = true) : ∀ c ∈ cs ++ ds, isPrintable c = true :=
  List.forall_mem_append.mpr ⟨hcs, hds⟩

theorem isPrintable_separator : ∀ c ∈ [',', ' '], isPrintable c = true :=
  isPrintable_of_all (by decide)

theorem isPrintable_colon : ∀ c ∈ [':', ' '], isPrintable c = true :=
  isPrintable_of_all (by decide)

theorem isPrintable_items {vs : List Value} (h : ∀ v ∈ vs, ∀ c ∈ dumps v, isPrintable c = true) :
    (∀ c ∈ dumpsItems vs, isPrintable c = true) ∧ ∀ c ∈ dumpsRest vs, isPrintable c = true := by
  induction vs with
  | nil => exact ⟨isPrintable_of_all (by decide), isPrintable_of_all (by decide)⟩
  | cons v vs ih =>
    obtain ⟨hhead, htail⟩ := List.forall_mem_cons.mp h
    have hrest := isPrintable_append hhead (ih htail).2
    exact ⟨hrest, isPrintable_append isPrintable_separator hrest⟩

theorem isPrintable_members {ms : List (String × Value)}
    (h : ∀ m ∈ ms, ∀ c ∈ dumps m.2, isPrintable c = true) :
    (∀ c ∈ dumpsMembers ms, isPrintable c = true) ∧
      ∀ c ∈ dumpsMembersRest ms, isPrintable c = true := by
  induction ms with
  | nil => exact ⟨isPrintable_of_all (by decide), isPrintable_of_all (by decide)⟩
  | cons m ms ih =>
    obtain ⟨hhead, htail⟩ := List.forall_mem_cons.mp h
    obtain ⟨key, v⟩ := m
    have hmember : ∀ c ∈ dumpsMember (key, v), isPrintable c = true :=
      isPrintable_append (isPrintable_quote key) (isPrintable_append isPrintable_colon hhead)
    have hrest := isPrintable_append hmember (ih htail).2
    exact ⟨hrest, isPrintable_append isPrintable_separator hrest⟩

/-- **Whatever a value holds, its text is printable ASCII.** -/
theorem isPrintable_dumps (v : Value) : ∀ c ∈ dumps v, isPrintable c = true := by
  induction v using Value.induct with
  | null => exact isPrintable_of_all (by decide)
  | bool b => cases b <;> exact isPrintable_of_all (by decide)
  | int n => exact fun c hc => isPrintable_of_number (isNumberChar_intText n c hc)
  | float x => exact fun c hc => isPrintable_of_number (x.chars c hc)
  | str s => exact isPrintable_quote s
  | list items h => exact List.forall_mem_cons.mpr ⟨by decide, (isPrintable_items h).1⟩
  | dict members h => exact List.forall_mem_cons.mpr ⟨by decide, (isPrintable_members h).1⟩

end JsonText

end Foundation
