import Tabular.Text.Blank
/-!
# Aggregate expressions

An output expression is an aggregate `FUNC(argument)` or else the name of a column.
-/

namespace Tabular

namespace Aggregate

inductive Function
  | sum
  | min
  | max
  | count
  | avg
deriving DecidableEq

def Function.name : Function → String
  | .sum => "SUM"
  | .min => "MIN"
  | .max => "MAX"
  | .count => "COUNT"
  | .avg => "AVG"

/-- The function of a name in any case. -/
def Function.ofName? (name : List Char) : Option Function :=
  let upper := name.map Char.toUpper
  [Function.sum, .min, .max, .count, .avg].find? fun f => f.name.toList == upper

inductive Argument
  | all
  | column (name : String)
deriving DecidableEq

/-- The name of the column that is read; for `*` that name is `*`. -/
def Argument.text : Argument → String
  | .all => "*"
  | .column name => name

/-- A non-empty run of ASCII letters, digits and underscores. -/
def isIdentifier (cs : List Char) : Bool :=
  !cs.isEmpty && cs.all fun c => c.isAlphanum || c == '_'

/-- An identifier, or two with a point between them. -/
def isColumnName (cs : List Char) : Bool :=
  match cs.dropWhile (· ≠ '.') with
  | [] => isIdentifier cs
  | _ :: column => isIdentifier (cs.takeWhile (· ≠ '.')) && isIdentifier column

def Argument.read? (cs : List Char) : Option Argument :=
  if cs = ['*'] then some .all
  else if isColumnName cs then some (.column (String.ofList cs))
  else none

end Aggregate

structure Aggregate where
  function : Aggregate.Function
  argument : Aggregate.Argument
deriving DecidableEq

namespace Aggregate

/-- What stands between an opening parenthesis and a closing one that ends the text. -/
def insideParentheses? : List Char → Option (List Char)
  | '(' :: cs => if cs.getLast? = some ')' then some cs.dropLast else none
  | _ => none

/-- Reads `FUNC(argument)`, with blanks allowed around the function and around the argument. -/
def read? (expr : String) : Option Aggregate := do
  let cs := Text.trim expr.toList
  let inside ← insideParentheses? (cs.dropWhile (· ≠ '('))
  let function ← Function.ofName? (Text.trimRight (cs.takeWhile (· ≠ '(')))
  let argument ← Argument.read? (Text.trim inside)
  return ⟨function, argument⟩

end Aggregate

end Tabular
