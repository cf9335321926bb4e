import Tabular.Query.SelectList
import Tabular.Query.Source
import Tabular.Query.Where
/-!
# Reading a query

`SELECT fields FROM source [WHERE conditions] [GROUP BY names] [;]`, with keywords in any case.
The clauses are found by their first keyword after FROM, GROUP BY first; the parts are then read
in the order fields, grouping, conditions, source, and the first one that fails gives the error.
-/

namespace Tabular.Query

/-- What follows FROM and the blanks on both sides of it. If nothing but blanks follows, the last
of several blanks stands for the source. -/
def afterFrom? (cs : List Char) : Option (List Char) := do
  let cs ← Text.afterBlanks? cs
  let cs ← Text.afterKeyword? ['f', 'r', 'o', 'm'] cs
  let body ← Text.afterBlanks? cs
  if body.isEmpty then if 2 ≤ cs.length then some (cs.drop (cs.length - 1)) else none
  else some body

/-- Cuts at the first FROM that has at least one character before the blanks in front of it. -/
def cutAtFrom? : List Char → Option (List Char × List Char)
  | [] => none
  | c :: cs => (Text.cutAt? afterFrom? cs).map fun (before, after) => (c :: before, after)

/-- Without the blanks at the end and one semicolon before them. A semicolon that is all there is
stays. -/
def dropTerminator (body : List Char) : List Char :=
  let body := Text.trimRight body
  if body.getLast? = some ';' then
    let rest := Text.trimRight body.dropLast
    if rest.isEmpty then [';'] else rest
  else body

/-- The suffixes of `cs` that drop at least one of its leading blanks, the shortest first. -/
def afterSomeBlanks : List Char → List (List Char)
  | [] => []
  | c :: cs => if Text.isBlank c then afterSomeBlanks cs ++ [cs] else []

/-- The select list and what follows FROM. The list starts after all the blanks that follow
SELECT, or, where no FROM is found then, after fewer of them. -/
def splitSelect? (cs : List Char) : Option (List Char × List Char) := do
  let cs ← Text.afterKeyword? ['s', 'e', 'l', 'e', 'c', 't'] (Text.trimLeft cs)
  let (fields, body) ← (afterSomeBlanks cs).findSome? cutAtFrom?
  return (fields, Text.trim (dropTerminator body))

/-- A text cut where `keywords` open a clause: what stands before it, and the clause if there is
one. -/
def splitClause (keywords : List (List Char)) (cs : List Char) : List Char × Option (List Char) :=
  match Text.cutAt? (Text.afterClause? keywords) cs with
  | some (before, clause) => (before, some clause)
  | none => (cs, none)

def groupByKeywords : List (List Char) := [['g', 'r', 'o', 'u', 'p'], ['b', 'y']]

def whereKeywords : List (List Char) := [['w', 'h', 'e', 'r', 'e']]

/-- Reads a clause that may be missing. -/
def readClause {α : Type} (read : List Char → Except ParseError α) :
    Option (List Char) → Except ParseError (Option α)
  | none => .ok none
  | some clause => (read clause).map some

/-- Reads a query text. -/
def read (text : String) : Except ParseError Query := do
  let cs := text.toList
  if (Text.trim cs).isEmpty then throw .empty
  let some (list, body) := splitSelect? cs | throw .notSelect
  let fields ← readFields list
  let (body, grouping) := splitClause groupByKeywords body
  let groupBy ← readClause readGroupBy grouping
  let (source, filter) := splitClause whereKeywords body
  let conditions ← readClause readWhere filter
  let (table, join) ← readSource (Text.trim source)
  let query := { select table fields with conditions := conditions.getD [], join }
  return match groupBy with
    | some names => query.withGroupBy names
    | none => query

end Tabular.Query
