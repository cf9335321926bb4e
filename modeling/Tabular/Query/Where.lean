import Tabular.Query.Basic
import Tabular.Query.Error
import Tabular.Text.Keyword
/-!
# Conditions of a query text

The text after WHERE is cut at the words AND that stand outside quotes. A quoted run belongs to
one word whatever it holds, so a keyword inside quotes is part of a value.
-/

namespace Tabular.Query

/-! ## Words and blanks -/

def isQuote (c : Char) : Bool := c == '\'' || c == '"'

/-- A blank outside quotes, or a maximal run of anything else. -/
inductive Run
  | blank (c : Char)
  | word (cs : List Char)
deriving DecidableEq

def Run.text : Run → List Char
  | .blank c => [c]
  | .word cs => cs

def Run.isWord (keyword : List Char) : Run → Bool
  | .blank _ => false
  | .word cs => Text.sameLetters cs keyword

/-- Puts the word read so far, last character first, in front of the runs that follow. -/
def closeWord (word : List Char) (runs : List Run) : List Run :=
  if word.isEmpty then runs else .word word.reverse :: runs

/-- The runs of a text, and whether a quote is still open at its end. `quote` is the open quote
and `word` the word read so far, last character first. -/
def runsFrom (quote : Option Char) (word : List Char) : List Char → List Run × Bool
  | [] => (closeWord word [], quote.isSome)
  | c :: cs =>
    match quote with
    | some q => runsFrom (if c = q then none else some q) (c :: word) cs
    | none =>
      if isQuote c then runsFrom (some c) (c :: word) cs
      else if Text.isBlank c then
        let (runs, isOpen) := runsFrom none [] cs
        (closeWord word (.blank c :: runs), isOpen)
      else runsFrom none (c :: word) cs

/-- The texts between the words AND. `part` is what was read of the current part, last run
first. -/
def partsFrom (part : List Run) : List Run → List (List Char)
  | [] => [part.reverse.flatMap Run.text]
  | run :: runs =>
    if run.isWord ['a', 'n', 'd'] then part.reverse.flatMap Run.text :: partsFrom [] runs
    else partsFrom (run :: part) runs

/-- Cuts a text at the words AND outside quotes. There must be no word OR and no open quote. -/
def splitConditions (cs : List Char) : Except ParseError (List (List Char)) :=
  let (runs, isOpen) := runsFrom none [] cs
  if runs.any (Run.isWord ['o', 'r']) then .error .disjunction
  else if isOpen then .error (.openQuote (String.ofList cs))
  else .ok (partsFrom [] runs)

/-! ## One condition -/

/-- Takes one pair of equal quotes off the ends. -/
def stripQuotes (cs : List Char) : List Char :=
  match cs with
  | first :: rest =>
    if isQuote first ∧ rest.getLast? = some first then rest.dropLast else cs
  | [] => []

def isOperatorChar (c : Char) : Bool := c == '<' || c == '>' || c == '=' || c == '!'

/-- A condition whose value, without blanks, is on one line and not empty. -/
def condition? (field operator value : List Char) : Option Condition :=
  if field.isEmpty || operator.isEmpty || value.isEmpty || value.contains '\n' then none
  else
    some ⟨String.ofList field, String.ofList operator,
      String.ofList (stripQuotes (Text.trim value))⟩

/-- A field, a run of operator characters and a value. If nothing follows the operator, its last
character is the value. -/
def symbolicCondition? (cs : List Char) : Option Condition :=
  let field := cs.takeWhile fun c => !Text.isBlank c && !isOperatorChar c
  let afterField := Text.trimLeft (cs.drop field.length)
  let operator := afterField.takeWhile isOperatorChar
  let value := Text.trimLeft (afterField.drop operator.length)
  if value.isEmpty then condition? field operator.dropLast (operator.drop (operator.length - 1))
  else condition? field operator value

/-- A field, an operator of ASCII letters and a value, with blanks between them. -/
def wordCondition? (cs : List Char) : Option Condition := do
  let (field, cs) ← Text.firstWord? cs
  let (operator, value) ← Text.firstWord? cs
  if operator.all Char.isAlpha then condition? field operator value else none

def readCondition (cs : List Char) : Except ParseError Condition :=
  let cs := Text.trim cs
  match (symbolicCondition? cs).or (wordCondition? cs) with
  | some condition => .ok condition
  | none => .error (.malformedCondition (String.ofList cs))

/-- The conditions of a WHERE clause. -/
def readWhere (cs : List Char) : Except ParseError (List Condition) := do
  let cs := Text.trim cs
  if cs.isEmpty then .error .emptyCondition
  else if cs.head? = some '(' then .error .parenthesized
  else
    let parts ← splitConditions cs
    parts.mapM readCondition

end Tabular.Query
