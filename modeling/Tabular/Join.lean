import Tabular.Query.Basic
import Tabular.Row
/-!
# Joins

Every left row is compared with every right row. The left row is always probed at the column of
the left operand and the right row at that of the right operand, whatever tables the operands
name. A missing column, a null cell and an operand without a point all give an absent key, and an
absent key matches another absent key.
-/

namespace Tabular

namespace Join

/-- The key of a row: the cell it is probed for, unless that is null. -/
def key? (row : Row) (column : Option String) : Option Cell :=
  (column.bind row.get?).filter (!·.isNull)

def sameKey : Option Cell → Option Cell → Bool
  | none, none => true
  | some a, some b => a.same b
  | _, _ => false

def isMatch (condition : JoinCondition) (left right : Row) : Bool :=
  sameKey (key? left condition.leftColumn?) (key? right condition.rightColumn?)

/-- The cell of an output name: a name `table.column` is read from the left row if it names the
left table, else from the right row. It is null in a row that is missing, and so is a name without
a point. -/
def sourceCell (leftTable : String) (left right : Option Row) (field : String) : Cell :=
  match splitQualified? field with
  | none => .null
  | some (table, column) =>
    match if table = leftTable then left else right with
    | some row => row.cell column
    | none => .null

/-- The output row of a pair, of which one side may be missing. -/
def merge (fields : List String) (leftTable : String) (pair : Option Row × Option Row) : Row :=
  Row.ofList (fields.map fun field => (field, sourceCell leftTable pair.1 pair.2 field))

/-! ## Pairs -/

/-- The pairs of a row with its partners, or with none if it has no partner. -/
def orAlone {α : Type} (partners : List Row) (pair : Option Row → α) : List α :=
  if partners.isEmpty then [pair none] else partners.map fun row => pair (some row)

/-- The pairs of a join, in the order of the rows that drive it: the right rows for a right join,
the left rows otherwise. -/
def pairs (kind : JoinKind) (condition : JoinCondition) (left right : Table) :
    List (Option Row × Option Row) :=
  match kind with
  | .inner => left.flatMap fun l =>
      (right.filter (isMatch condition l)).map fun r => (some l, some r)
  | .left => left.flatMap fun l => orAlone (right.filter (isMatch condition l)) (some l, ·)
  | .right => right.flatMap fun r => orAlone (left.filter (isMatch condition · r)) (·, some r)

end Join

/-- Joins two tables; the rows hold `fields` in order. `leftTable` is the name of the left one. -/
def Table.join (kind : JoinKind) (left right : Table) (condition : JoinCondition)
    (fields : List String) (leftTable : String) : Table :=
  (Join.pairs kind condition left right).map (Join.merge fields leftTable)

end Tabular
