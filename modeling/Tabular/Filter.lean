import Tabular.Query.Basic
import Tabular.Query.Failure
import Tabular.Row
/-!
# Filtering

`=` and `!=` compare text as it stands. The orderings compare as numbers when both sides are
finite numerals, and otherwise as text by code point. A number cell compares as a number with any
finite numeral. A null cell satisfies `!=` only.
-/

namespace Tabular

/-! ## Comparisons -/

inductive Comparison
  | equal
  | notEqual
  | greater
  | less
  | atLeast
  | atMost
deriving DecidableEq

namespace Comparison

def token : Comparison → String
  | .equal => "="
  | .notEqual => "!="
  | .greater => ">"
  | .less => "<"
  | .atLeast => ">="
  | .atMost => "<="

def ofToken? (token : String) : Option Comparison :=
  [Comparison.equal, .notEqual, .greater, .less, .atLeast, .atMost].find? (·.token == token)

/-- Whether the comparison holds of two values in the given order. -/
def holds : Comparison → Ordering → Bool
  | .equal, o => o == .eq
  | .notEqual, o => o != .eq
  | .greater, o => o == .gt
  | .less, o => o == .lt
  | .atLeast, o => o != .lt
  | .atMost, o => o != .gt

end Comparison

namespace Cell

/-- The finite numeral that `content` is. -/
def finiteNumeral? (content : String) : Option Binary64 :=
  (numeral? content).filter Binary64.isFinite

/-- The order of two texts: of the numbers, negative zero below zero, if both are finite numerals;
else by code point. -/
def compareText (a b : String) : Ordering :=
  match finiteNumeral? a, finiteNumeral? b with
  | some x, some y => x.compareSigned y
  | _, _ => compare a b

/-- Whether the cell stands in the comparison to the literal. -/
def satisfies (cell : Cell) (comparison : Comparison) (literal : String) : Bool :=
  match cell with
  | .null => comparison = .notEqual
  | .text content =>
    match comparison with
    | .equal => content == literal
    | .notEqual => content != literal
    | _ => comparison.holds (compareText content literal)
  | .number value =>
    match finiteNumeral? literal with
    | none => comparison.holds (compare cell.display literal)
    | some bound =>
      match value.compare? bound with
      | some order => comparison.holds order
      | none => comparison = .notEqual

end Cell

/-! ## Conditions -/

namespace Condition

def comparison (condition : Condition) : Except QueryError Comparison :=
  match Comparison.ofToken? condition.operator with
  | some comparison => .ok comparison
  | none => .error (.unsupportedOperator condition.operator)

/-- Whether the row meets the condition. -/
def evaluate (condition : Condition) (row : Row) : Except QueryError Bool := do
  let comparison ← condition.comparison
  return (row.cell condition.field).satisfies comparison condition.literal

end Condition

/-- Whether the row meets all conditions. The first one it does not meet ends the evaluation. -/
def Row.meets (row : Row) : List Condition → Except QueryError Bool
  | [] => .ok true
  | condition :: conditions => do
    if ← condition.evaluate row then row.meets conditions else return false

/-- The rows that meet all conditions. Every operator is checked before any row is looked at. -/
def Table.filterBy (rows : Table) (conditions : List Condition) : Except QueryError Table := do
  let comparisons ← conditions.mapM Condition.comparison
  let checks := conditions.zip comparisons
  return rows.filter fun row =>
    checks.all fun (condition, comparison) =>
      (row.cell condition.field).satisfies comparison condition.literal

end Tabular
