import Tabular.Aggregate
import Tabular.Row
/-!
# Summaries

Aggregates over a whole table, as one row.
-/

namespace Tabular.Table

/-- The cell under `name` in the first row. -/
def firstCell (rows : Table) (name : String) : Cell :=
  match rows with
  | [] => .null
  | row :: _ => row.cell name

/-- Combines numbers from the left, starting with the first; null if there are none. -/
def reduce (combine : Binary64 → Binary64 → Binary64) : List Binary64 → Cell
  | [] => .null
  | x :: xs => .number (xs.foldl combine x)

def total (numbers : List Binary64) : Binary64 := numbers.foldl .add (.zero false)

/-- The value of an aggregate over all rows. Cells that hold no number count as `nan`. -/
def aggregate (rows : Table) (aggregate : Aggregate) : Cell :=
  let numbers := rows.map fun row => (row.cell aggregate.argument.text).toNumber
  match aggregate.function with
  | .count => .number (.ofNat rows.length)
  | .sum => .number (total numbers)
  | .avg => .number ((total numbers).div (.ofNat rows.length))
  | .min => reduce .min numbers
  | .max => reduce .max numbers

/-- An output expression over all rows: an aggregate, or the column of the first row. -/
def summaryCell (rows : Table) (expr : String) : Cell :=
  match Aggregate.read? expr with
  | some a => aggregate rows a
  | none => firstCell rows expr

def summarize (rows : Table) (exprs : List String) : Row :=
  Row.ofList (exprs.map fun expr => (expr, summaryCell rows expr))

end Tabular.Table
