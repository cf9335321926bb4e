import Tabular.Summary
/-!
# Grouping

Rows with one group key become one row: the grouping columns first, then the output expressions
that are not among them. Groups come in the order of their first rows. The table is read once: each
row is taken into the state of its group.

A row that already holds a number under the name of an aggregate is the result of an earlier
grouping. That number is taken as a partial result in place of the aggregate's argument, so
grouping a grouped table again changes nothing.
-/

namespace Tabular

/-- Stands between the fragments of a group key. Cells that hold it can give two groups one key. -/
def Row.keySeparator : String := "-"

def Row.groupKey (row : Row) (names : List String) : String :=
  Row.keySeparator.intercalate (names.map fun name => (row.cell name).keyFragment)

namespace Grouping

/-! ## Output columns -/

/-- An output expression with the aggregate it stands for; a plain column has none. -/
structure Output where
  name : String
  aggregate : Option Aggregate

namespace Output

/-- AVG has no partial results and counts as a plain column. -/
def ofExpr (expr : String) : Output :=
  ⟨expr, (Aggregate.read? expr).filter (·.function ≠ .avg)⟩

/-- A number that the row holds under the output's name. -/
def partial? (output : Output) (row : Row) : Option Binary64 :=
  (row.get? output.name).bind Cell.number?

def isCount (output : Output) : Bool :=
  match output.aggregate with
  | some a => a.function = .count
  | none => false

/-- What a row contributes to an aggregate. -/
def part (output : Output) (argument : Aggregate.Argument) (row : Row) : Binary64 :=
  (output.partial? row).getD (row.cell argument.text).toNumber

/-- How the numbers of a group are combined, and which they are. Counts are kept for the group as a
whole. -/
def combined? (output : Output) : Option ((Binary64 → Binary64 → Binary64) × Aggregate.Argument) :=
  output.aggregate.bind fun a =>
    match a.function with
    | .sum => some (.add, a.argument)
    | .min => some (.min, a.argument)
    | .max => some (.max, a.argument)
    | .count | .avg => none

/-- The value of an output after one more row. The first number of a group starts the value. -/
def next (output : Output) (row : Row) (value : Option Binary64) : Option Binary64 :=
  match output.combined? with
  | none => value
  | some (combine, argument) =>
    let part := output.part argument row
    some (value.elim part (combine · part))

end Output

/-- How many rows a row stands for: the first partial count it holds, or one. -/
def weight (outputs : List Output) (row : Row) : Binary64 :=
  let counts := outputs.filter Output.isCount
  (counts.findSome? (·.partial? row)).getD (.ofNat 1)

/-! ## Groups -/

/-- What is kept of a group while the table is read: its first row, how many rows it stands for,
and the value of each output so far. -/
structure Group where
  first : Row
  count : Binary64
  values : List (Option Binary64)

namespace Group

def start (outputs : List Output) (first : Row) : Group :=
  ⟨first, .zero false, outputs.map fun _ => none⟩

def observe (outputs : List Output) (group : Group) (row : Row) : Group :=
  { group with
    count := group.count.add (weight outputs row)
    values := List.zipWith (·.next row ·) outputs group.values }

/-- The cell of an output whose value is `value`. -/
def cell (group : Group) (output : Output) (value : Option Binary64) : Cell :=
  match output.aggregate with
  | none => group.first.cell output.name
  | some a => if a.function = .count then .number group.count else value.elim .null .number

/-- Adds a column if the row has none of that name. -/
def addMissing (row : Row) (name : String) (cell : Cell) : Row :=
  if row.contains name then row else row.insert name cell

/-- The row of a group. -/
def row (names : List String) (outputs : List Output) (group : Group) : Row :=
  let columns := Row.ofList (names.map fun name => (name, group.first.cell name))
  (outputs.zip group.values).foldl
    (fun row (output, value) => addMissing row output.name (group.cell output value)) columns

end Group

/-- The groups after one more row, which has the key `key`. A new group comes last. -/
def take (outputs : List Output) (key : String) (row : Row) :
    List (String × Group) → List (String × Group)
  | [] => [(key, (Group.start outputs row).observe outputs row)]
  | (other, group) :: rest =>
    if other = key then (other, group.observe outputs row) :: rest
    else (other, group) :: take outputs key row rest

/-- The groups of a table, each under its key. -/
def pass (key : Row → String) (outputs : List Output) (rows : Table) : List (String × Group) :=
  rows.foldl (fun groups row => take outputs (key row) row groups) []

end Grouping

/-- Groups the rows by the columns `names` and evaluates the output expressions in each group. -/
def Table.groupBy (rows : Table) (names exprs : List String) : Table :=
  let outputs := exprs.map Grouping.Output.ofExpr
  (Grouping.pass (·.groupKey names) outputs rows).map fun (_, group) => group.row names outputs

end Tabular
