import Tabular.Query.Error
import Tabular.Text.Blank
/-!
# Lists of names

The select list is cut at the commas outside parentheses, a grouping list at every comma. No entry
may be blank.
-/

namespace Tabular.Query

/-- The pieces between the commas at depth zero. A closing parenthesis without an opening one
leaves the depth at zero. `piece` is what was read of the current piece, last character first. -/
def piecesFrom (depth : Nat) (piece : List Char) : List Char → List (List Char)
  | [] => [piece.reverse]
  | c :: cs =>
    if c = '(' then piecesFrom (depth + 1) (c :: piece) cs
    else if c = ')' then piecesFrom (depth - 1) (c :: piece) cs
    else if c = ',' ∧ depth = 0 then piece.reverse :: piecesFrom 0 [] cs
    else piecesFrom depth (c :: piece) cs

/-- The entries between the commas outside parentheses, without the blanks around them. -/
def splitTopLevel (list : List Char) : List (List Char) := (piecesFrom 0 [] list).map Text.trim

/-- The entries, if none is empty; `error` names the list otherwise. -/
def checkEntries (error : String → ParseError) (list : List Char) (entries : List (List Char)) :
    Except ParseError (List String) :=
  if entries.any List.isEmpty then .error (error (String.ofList (Text.trim list)))
  else .ok (entries.map String.ofList)

def readFields (list : List Char) : Except ParseError (List String) :=
  checkEntries .emptyField list (splitTopLevel list)

def readGroupBy (list : List Char) : Except ParseError (List String) :=
  checkEntries .emptyGroupField list ((list.splitOn ',').map Text.trim)

end Tabular.Query
