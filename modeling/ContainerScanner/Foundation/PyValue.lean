import Mathlib.Algebra.GroupWithZero.Nat
import Mathlib.Data.Int.Notation
import Mathlib.Data.List.Basic
import Mathlib.Tactic.Common

/-!
# Python values

The few facts about Python's `str`, `datetime` and decoded JSON that a program reading an untyped
document depends on: `strip`, `upper`, `replace`, slices, `int`, truthiness, attribute errors, and
`datetime.fromisoformat` as CPython 3.11 reads it, which is more than it documents.

## Main definitions

* `PyStr.strip`, `PyStr.upper`, `PyStr.replaceChar`, `PyStr.afterFirst`, `PyStr.truncate`,
  `PyStr.int?`
* `Json`, with `Json.truthy`, `Json.get` and `Json.typeName`
* `IsoDatetime`, `IsoDatetime.parse` — `fromisoformat`
-/

namespace Foundation

/-! ### Strings -/

namespace PyStr

/-- `str.isspace` of one character. -/
def isSpace (c : Char) : Bool :=
  let n := c.toNat
  (0x09 ≤ n && n ≤ 0x0D) || (0x1C ≤ n && n ≤ 0x20) || n == 0x85 || n == 0xA0 || n == 0x1680
    || (0x2000 ≤ n && n ≤ 0x200A) || n == 0x2028 || n == 0x2029 || n == 0x202F || n == 0x205F
    || n == 0x3000

/-- Drop the blanks at both ends. -/
def stripChars (cs : List Char) : List Char :=
  ((cs.dropWhile isSpace).reverse.dropWhile isSpace).reverse

/-- `str.strip()`. -/
def strip (s : String) : String := String.ofList (stripChars s.toList)

theorem stripChars_eq_self {cs : List Char} (h : ∀ c ∈ cs, isSpace c = false) :
    stripChars cs = cs := by
  have hdrop : ∀ l : List Char, (∀ c ∈ l, isSpace c = false) → l.dropWhile isSpace = l := by
    intro l hl
    cases l with
    | nil => rfl
    | cons c l => exact List.dropWhile_cons_of_neg (by simp [hl c List.mem_cons_self])
  rw [stripChars, hdrop cs h, hdrop cs.reverse fun c hc => h c (List.mem_reverse.mp hc),
    List.reverse_reverse]

theorem strip_eq_self {s : String} (h : ∀ c ∈ s.toList, isSpace c = false) : strip s = s := by
  rw [strip, stripChars_eq_self h, String.ofList_toList]

theorem isSpace_of_isDigit {c : Char} (h : c.isDigit = true) : isSpace c = false := by
  have hbounds : 48 ≤ c.toNat ∧ c.toNat ≤ 57 := by
    rw [Char.isDigit, Bool.and_eq_true, decide_eq_true_eq, decide_eq_true_eq] at h
    exact ⟨UInt32.le_iff_toNat_le.mp h.1, UInt32.le_iff_toNat_le.mp h.2⟩
  rw [Bool.eq_false_iff]
  intro hspace
  simp only [isSpace, Bool.or_eq_true, Bool.and_eq_true, decide_eq_true_eq, beq_iff_eq] at hspace
  omega

/-- `str.upper` of one character, as far as the result may be an ASCII letter: besides the ASCII
letters these are the dotless i and the long s. -/
def upperChar (c : Char) : Char :=
  if c.toNat = 0x131 then 'I' else if c.toNat = 0x17F then 'S' else c.toUpper

/-- `str.upper()`. -/
def upper (s : String) : String := String.ofList (s.toList.map upperChar)

/-- `str.replace(c, text)` for a single character `c`. -/
def replaceChar (s : String) (c : Char) (text : List Char) : List Char :=
  s.toList.flatMap fun d => if d = c then text else [d]

/-- `s.split(c, 1)[1]` for a string that contains `c`. -/
def afterFirst (s : String) (c : Char) : String :=
  String.ofList ((s.toList.dropWhile fun d => d ≠ c).drop 1)

/-- `s[:n]`. -/
def truncate (n : ℕ) (s : String) : String := String.ofList (s.toList.take n)

/-- The zeros of the decimal digits of Unicode 14; each is followed by the other nine. -/
def zeroDigits : List ℕ :=
  [0x30, 0x660, 0x6F0, 0x7C0, 0x966, 0x9E6, 0xA66, 0xAE6, 0xB66, 0xBE6, 0xC66, 0xCE6, 0xD66,
    0xDE6, 0xE50, 0xED0, 0xF20, 0x1040, 0x1090, 0x17E0, 0x1810, 0x1946, 0x19D0, 0x1A80, 0x1A90,
    0x1B50, 0x1BB0, 0x1C40, 0x1C50, 0xA620, 0xA8D0, 0xA900, 0xA9D0, 0xA9F0, 0xAA50, 0xABF0,
    0xFF10, 0x104A0, 0x10D30, 0x11066, 0x110F0, 0x11136, 0x111D0, 0x112F0, 0x11450, 0x114D0,
    0x11650, 0x116C0, 0x11730, 0x118E0, 0x11950, 0x11C50, 0x11D50, 0x11DA0, 0x16A60, 0x16AC0,
    0x16B50, 0x1D7CE, 0x1D7D8, 0x1D7E2, 0x1D7EC, 0x1D7F6, 0x1E140, 0x1E2F0, 0x1E950, 0x1FBF0]

def digitValue (c : Char) : Option ℕ :=
  (zeroDigits.find? fun z => z ≤ c.toNat && c.toNat < z + 10).map fun z => c.toNat - z

/-- Digits, with single underscores between them. -/
def digitValues : List Char → Option (List ℕ)
  | [] => none
  | [c] => (digitValue c).map fun d => [d]
  | c :: '_' :: cs => do return (← digitValue c) :: (← digitValues cs)
  | c :: cs => do return (← digitValue c) :: (← digitValues cs)

/-- `int` of the digits, up to `sys.int_max_str_digits` of them. -/
def natOfDigits (cs : List Char) : Option ℕ :=
  (digitValues cs).bind fun ds =>
    if ds.length ≤ 4300 then some (ds.foldl (fun n d => 10 * n + d) 0) else none

/-- `int(s)`, `none` standing for the `ValueError`. -/
def int? (s : String) : Option ℤ :=
  match stripChars s.toList with
  | '+' :: cs => (natOfDigits cs).map fun n => (n : ℤ)
  | '-' :: cs => (natOfDigits cs).map fun n => -(n : ℤ)
  | cs => (natOfDigits cs).map fun n => (n : ℤ)

example : int? " 1_000 " = some 1000 ∧ int? "-7" = some (-7) ∧ int? "1_" = none := by decide

end PyStr

/-! ### Decoded JSON -/

/-- What `json.loads` returns. An object is the list of its members; a program can ask a float
only whether it is zero. -/
inductive Json where
  | null
  | bool (b : Bool)
  | int (n : ℤ)
  | float (isZero : Bool)
  | str (s : String)
  | list (items : List Json)
  | dict (members : List (String × Json))

namespace Json

/-- `bool(value)`. -/
def truthy : Json → Bool
  | null => false
  | bool b => b
  | int n => n ≠ 0
  | float isZero => !isZero
  | str s => s ≠ ""
  | list items => !items.isEmpty
  | dict members => !members.isEmpty

/-- `type(value).__name__`. -/
def typeName : Json → String
  | null => "NoneType"
  | bool _ => "bool"
  | int _ => "int"
  | float _ => "float"
  | str _ => "str"
  | list _ => "list"
  | dict _ => "dict"

/-- `members.get(key)`, with `None` for an absent key. -/
def get (members : List (String × Json)) (key : String) : Json :=
  (members.lookup key).getD null

/-- `value or default`. -/
def orElse (value default : Json) : Json := if value.truthy then value else default

end Json

/-! ### `datetime.fromisoformat` -/

/-- A parsed date and time: the proleptic Gregorian ordinal of the day (0001-01-01 is day 1), the
microseconds into the day, and the UTC offset in microseconds when the text carries one. -/
structure IsoDatetime where
  ordinal : ℤ
  micros : ℤ
  offset : Option ℤ
  deriving DecidableEq, Repr

namespace IsoDatetime

/-- What ends a text. -/
def nul : Char := '\x00'

/-- Exactly `n` ASCII digits. -/
def digits : ℕ → ℕ → List Char → Option (ℕ × List Char)
  | 0, acc, cs => some (acc, cs)
  | n + 1, acc, c :: cs =>
    if '0' ≤ c ∧ c ≤ '9' then digits n (acc * 10 + (c.toNat - 48)) cs else none
  | _ + 1, _, [] => none

def isLeap (y : ℕ) : Bool := y % 4 == 0 && (y % 100 != 0 || y % 400 == 0)

def daysInMonth (y m : ℕ) : ℕ :=
  if m = 2 then (if isLeap y then 29 else 28) else if m = 4 ∨ m = 6 ∨ m = 9 ∨ m = 11 then 30 else 31

/-- Days before the first of January. -/
def daysBeforeYear (y : ℕ) : ℕ := (y - 1) * 365 + (y - 1) / 4 - (y - 1) / 100 + (y - 1) / 400

def daysBeforeMonth (y m : ℕ) : ℕ :=
  ((List.range (m - 1)).map fun i => daysInMonth y (i + 1)).sum

/-- The ordinal of a calendar date, when there is such a date. -/
def ofCalendar (y m d : ℕ) : Option ℤ :=
  if 1 ≤ y ∧ 1 ≤ m ∧ m ≤ 12 ∧ 1 ≤ d ∧ d ≤ daysInMonth y m then
    some (daysBeforeYear y + daysBeforeMonth y m + d : ℕ)
  else none

/-- The ordinal of the Monday of ISO week 1. -/
def week1Monday (y : ℕ) : ℤ :=
  let first : ℤ := daysBeforeYear y + 1
  let weekday := (first + 6) % 7
  if weekday > 3 then first - weekday + 7 else first - weekday

/-- The ordinal of an ISO week date, when there is such a date. -/
def ofIsoWeek (y w d : ℕ) : Option ℤ :=
  let first := (daysBeforeYear y + 1) % 7
  let weeks := if first = 4 ∨ (first = 3 ∧ isLeap y) then 53 else 52
  let ordinal := week1Monday y + (w - 1) * 7 + (d - 1)
  if 1 ≤ y ∧ 1 ≤ w ∧ w ≤ weeks ∧ 1 ≤ d ∧ d ≤ 7 ∧ 1 ≤ ordinal ∧ ordinal ≤ daysBeforeYear 10000 then
    some ordinal
  else none

/-- `YYYY-MM-DD`, `YYYYMMDD`, `YYYY-Www[-D]` or `YYYYWww[D]`. -/
def date (cs : List Char) : Option ℤ := do
  let (y, cs) ← digits 4 0 cs
  let dash := cs.head? == some '-'
  match if dash then cs.drop 1 else cs with
  | 'W' :: cs => do
    let (w, cs) ← digits 2 0 cs
    match cs, dash with
    | [], _ => ofIsoWeek y w 1
    | '-' :: cs, true | cs, false => do
      let (d, cs) ← digits 1 0 cs
      if cs.isEmpty then ofIsoWeek y w d else none
    | _, true => none
  | cs => do
    let (m, cs) ← digits 2 0 cs
    match cs, dash with
    | '-' :: cs, true | cs, false => do
      let (d, cs) ← digits 2 0 cs
      if cs.isEmpty then ofCalendar y m d else none
    | _, true => none

/-- A fraction of a second in microseconds, and whether anything is left; digits past the sixth are
dropped. -/
def fraction (cs : List Char) : Option (ℕ × Bool) := do
  let (f, rest) ← digits (min cs.length 6) 0 cs
  let rest := rest.dropWhile fun c => '0' ≤ c ∧ c ≤ '9'
  return (f * 10 ^ (6 - min cs.length 6), rest.headD nul != nul)

/-- Where a field of the time leads, the text after its two digits being `cs`: an end, a fraction or
the next field. The first separator decides whether the text uses colons. -/
inductive Next where
  | done (left : Bool)
  | fraction (cs : List Char)
  | field (cs : List Char)

def next (colon : Bool) : List Char → Option Next
  | [] => some (.done false)
  | [c] => some (.done (c != nul))
  | c :: cs =>
    if colon ∧ c = ':' then some (.field cs)
    else if c = '.' ∨ c = ',' then some (.fraction cs)
    else if colon then none
    else some (.field (c :: cs))

/-- `HH[:MM[:SS[.f]]]` or `HH[MM[SS[.f]]]`: hours, minutes, seconds and microseconds, and whether
anything is left. The fraction may follow any field, and the seconds without a point. -/
def clock (cs : List Char) : Option ((ℕ × ℕ × ℕ × ℕ) × Bool) := do
  let (h, cs) ← digits 2 0 cs
  let colon := cs.head? == some ':'
  match ← next colon cs with
  | .done left => return ((h, 0, 0, 0), left)
  | .fraction cs =>
    let (us, left) ← fraction cs
    return ((h, 0, 0, us), left)
  | .field cs =>
    let (m, cs) ← digits 2 0 cs
    match ← next colon cs with
    | .done left => return ((h, m, 0, 0), left)
    | .fraction cs =>
      let (us, left) ← fraction cs
      return ((h, m, 0, us), left)
    | .field cs =>
      let (s, cs) ← digits 2 0 cs
      match ← next colon cs with
      | .done left => return ((h, m, s, 0), left)
      | .fraction cs | .field cs =>
        let (us, left) ← fraction cs
        return ((h, m, s, us), left)

def clockMicros : ℕ × ℕ × ℕ × ℕ → ℤ
  | (h, m, s, us) => ((h * 3600 + m * 60 + s) * 1000000 + us : ℕ)

/-- A time of day with an optional offset, `Z` or `±HH[:MM[:SS[.f]]]` under 24 hours. What is left
before an offset is passed over, and so are the microseconds of an offset of no seconds. -/
def time (cs : List Char) : Option (ℤ × Option ℤ) := do
  let isZone := fun c => c == '+' || c == '-' || c == 'Z'
  let ((h, m, s, us), left) ← clock (cs.takeWhile fun c => !isZone c)
  if 23 < h ∨ 59 < m ∨ 59 < s then none
  let t := clockMicros (h, m, s, us)
  match cs.dropWhile fun c => !isZone c with
  | [] => if left then none else return (t, none)
  | 'Z' :: rest => if rest.headD nul = nul then return (t, some 0) else none
  | sign :: zone => do
    let ((h, m, s, us), left) ← clock zone
    let offset := if h = 0 ∧ m = 0 ∧ s = 0 then 0 else clockMicros (h, m, s, us)
    if left ∨ 86400000000 ≤ offset then none
    return (t, some (if sign = '-' then -offset else offset))

/-- Where the date ends: the separator may be any character, so it is found by position. -/
def separatorAt (cs : List Char) : ℕ :=
  let digitAt := fun i => (cs[i]?).any fun c => decide ('0' ≤ c ∧ c ≤ '9')
  if cs.length = 7 then 7
  else if cs[4]? = some '-' then
    if cs[5]? = some 'W' then
      if cs[8]? = some '-' then (if digitAt 10 then 8 else 10) else 8
    else 10
  else if cs[4]? = some 'W' then
    let run := ((cs.drop 7).takeWhile fun c => decide ('0' ≤ c ∧ c ≤ '9')).length + 7
    if run < 9 then run else if run % 2 = 0 then 7 else 8
  else 8

/-- The text as it is read: the bytes of its UTF-8. Outside ASCII only their number counts. -/
def bytes (cs : List Char) : List Char := cs.flatMap fun c => List.replicate c.utf8Size c

/-- `datetime.fromisoformat`, `none` standing for the `ValueError`. -/
def parse (text : List Char) : Option IsoDatetime :=
  let cs := bytes text
  if cs.length < 7 then none
  else do
    let ordinal ← date (cs.take (separatorAt cs))
    match cs.drop (separatorAt cs) with
    | [] => return ⟨ordinal, 0, none⟩
    | separator :: rest => do
      let (micros, offset) ← time (rest.drop (separator.utf8Size - 1))
      return ⟨ordinal, micros, offset⟩

/-- The year is 1: only day 1 up to day 365 belong to it. -/
def inYearOne (t : IsoDatetime) : Bool := t.ordinal ≤ 365

/-- The instant, in microseconds since the Unix epoch, reading a text without offset as UTC. -/
def toInstant (t : IsoDatetime) : ℤ :=
  (t.ordinal - 719163) * 86400000000 + t.micros - t.offset.getD 0

example : (parse "2024-02-29T12:30:00.5+02:00".toList).map toInstant = some 1709202600500000 := by
  decide

example : parse "2023-02-29".toList = none := by decide

end IsoDatetime

end Foundation
