import Tabular.Query.Basic
import Tabular.Query.Error
import Tabular.Text.Keyword
import Tabular.Text.Word
/-!
# The source of a query text

What stands between FROM and the next clause: a table, or two tables with a join.
-/

namespace Tabular.Query

def isOperandChar (c : Char) : Bool := Text.isWord c || c == '.'

/-- Two operands of word characters and points, with an equals sign between them. -/
def joinCondition? (cs : List Char) : Option JoinCondition :=
  let left := cs.takeWhile isOperandChar
  match Text.trimLeft (cs.drop left.length) with
  | '=' :: cs =>
    let right := Text.trimLeft cs
    if left.isEmpty || right.isEmpty || !right.all isOperandChar then none
    else some ⟨String.ofList left, String.ofList right⟩
  | _ => none

/-- The five parts of `table KIND JOIN table ON condition` that vary. -/
structure JoinText where
  table : List Char
  kind : List Char
  joined : List Char
  condition : List Char

/-- Finds the parts of a join. -/
def joinText? (cs : List Char) : Option JoinText := do
  let (table, cs) ← Text.firstWord? cs
  let (kind, cs) ← Text.firstWord? cs
  let (join, cs) ← Text.firstWord? cs
  let (joined, cs) ← Text.firstWord? cs
  let (on, condition) ← Text.firstWord? cs
  if kind.all Text.isWord && Text.sameLetters join ['j', 'o', 'i', 'n'] &&
      Text.sameLetters on ['o', 'n'] && !condition.isEmpty then
    some { table, kind, joined, condition }
  else none

/-- The base table and the join, if the source has the word JOIN. -/
def readSource (source : List Char) : Except ParseError (String × Option JoinClause) :=
  let words := Text.words source
  if source.isEmpty then .error .missingTable
  else if words.any (Text.sameLetters · ['j', 'o', 'i', 'n']) then
    match joinText? source with
    | none => .error (.malformedJoin (String.ofList source))
    | some parts =>
      match JoinKind.ofKeyword? (String.ofList parts.kind) with
      | none => .error (.unknownJoin (String.ofList parts.kind))
      | some kind =>
        let text := Text.trim parts.condition
        match joinCondition? text with
        | none => .error (.malformedJoinCondition (String.ofList text))
        | some condition =>
          .ok (String.ofList parts.table, some ⟨kind, String.ofList parts.joined, condition⟩)
  else if words.length = 1 then .ok (String.ofList source, none)
  else .error (.textAfterTable (String.ofList source))

end Tabular.Query
