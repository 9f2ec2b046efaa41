import Mathlib.Data.Fintype.Basic
import Mathlib.Data.Finset.Insert

/-!
# Severity vocabulary

`app/domain/severity.py`. The five levels, their names and their ranks, and the `CASE` expression
with which the rollup turns a rank back into a name.

## Main results

* `Severity.rank_injective`, `Severity.ofRank_rank` — a rank determines its level
* `Severity.ofValue?_value` — a name determines its level
-/

namespace ContainerScanner

/-- How serious a finding is. -/
inductive Severity where
  | unknown
  | low
  | medium
  | high
  | critical
  deriving DecidableEq, Repr

namespace Severity

instance : Fintype Severity where
  elems := {unknown, low, medium, high, critical}
  complete := by intro s; cases s <;> decide

/-- The name stored in the database and shown by the API. -/
def value : Severity → String
  | unknown => "UNKNOWN"
  | low => "LOW"
  | medium => "MEDIUM"
  | high => "HIGH"
  | critical => "CRITICAL"

/-- `Severity(value)`: the level with this name, `none` standing for the `ValueError`. -/
def ofValue? (value : String) : Option Severity :=
  if value = "UNKNOWN" then some unknown
  else if value = "LOW" then some low
  else if value = "MEDIUM" then some medium
  else if value = "HIGH" then some high
  else if value = "CRITICAL" then some critical
  else none

/-- `SEVERITY_RANK`: higher wins. -/
def rank : Severity → ℕ
  | unknown => 0
  | low => 1
  | medium => 2
  | high => 3
  | critical => 4

/-- `CASE rank WHEN 0 THEN 'UNKNOWN' … ELSE 'UNKNOWN' END`, the `_RANK_CASE` of the rollup. -/
def ofRank : ℕ → Severity
  | 0 => unknown
  | 1 => low
  | 2 => medium
  | 3 => high
  | 4 => critical
  | _ => unknown

/-- The levels the `?severity=` filter accepts. -/
def filterable : List Severity := [critical, high, medium, low]

@[simp] theorem ofRank_rank (s : Severity) : ofRank s.rank = s := by cases s <;> rfl

@[simp] theorem ofValue?_value (s : Severity) : ofValue? s.value = some s := by
  cases s <;> decide

theorem rank_injective : Function.Injective rank := Function.LeftInverse.injective ofRank_rank

end Severity

end ContainerScanner
