/-!
# Why a text is not a query
-/

namespace Tabular

inductive ParseError
  | empty
  | notSelect
  | emptyField (list : String)
  | missingTable
  | textAfterTable (source : String)
  | malformedJoin (source : String)
  | malformedJoinCondition (text : String)
  | unknownJoin (keyword : String)
  | emptyCondition
  | malformedCondition (text : String)
  | openQuote (text : String)
  | parenthesized
  | disjunction
  | emptyGroupField (list : String)
deriving DecidableEq

namespace ParseError

/-- The part of the query that an error is about. -/
inductive Subject
  | nothing
  | form
  | join
  | condition
  | grouping
  | unsupported
deriving DecidableEq

def subject : ParseError → Subject
  | .empty => .nothing
  | .notSelect | .emptyField _ | .missingTable | .textAfterTable _ => .form
  | .malformedJoin _ | .malformedJoinCondition _ => .join
  | .emptyCondition | .malformedCondition _ | .openQuote _ => .condition
  | .emptyGroupField _ => .grouping
  | .unknownJoin _ | .parenthesized | .disjunction => .unsupported

def Subject.heading : Subject → String
  | .nothing => "Empty query"
  | .form => "Invalid query format: "
  | .join => "Invalid JOIN clause: "
  | .condition => "Invalid WHERE clause: "
  | .grouping => "Invalid GROUP BY clause: "
  | .unsupported => "Unsupported syntax: "

def detail : ParseError → String
  | .empty => ""
  | .notSelect => "expected SELECT <fields> FROM <table>"
  | .emptyField list => "empty entry in field list '" ++ list ++ "'"
  | .missingTable => "missing table name"
  | .textAfterTable source => "unexpected text after table name: '" ++ source ++ "'"
  | .malformedJoin source => source
  | .malformedJoinCondition text => "expected <table.field> = <table.field>, got '" ++ text ++ "'"
  | .unknownJoin keyword => keyword ++ " JOIN"
  | .emptyCondition => "empty condition"
  | .malformedCondition text => text
  | .openQuote text => "unterminated quote in '" ++ text ++ "'"
  | .parenthesized => "parenthesized WHERE conditions"
  | .disjunction => "OR in WHERE clause"
  | .emptyGroupField list => "empty entry in '" ++ list ++ "'"

def message (error : ParseError) : String := error.subject.heading ++ error.detail

def code (_ : ParseError) : String := "FQ_QUERY_INVALID"

end ParseError

end Tabular
