import Tabular.Filter
import Tabular.Grouping
import Tabular.Join
import Tabular.Load.Basic
import Tabular.Query.Reader
/-!
# Answering queries

A query is answered in a fixed order: load, join, group, filter, and then summarize, group again
or project. Grouping comes before filtering, so the conditions of a grouped query see the grouped
rows. The first stage that fails decides the outcome.
-/

namespace Tabular

/-- Work that logs entries and either gives a value or fails; what was logged before a failure
stays. -/
structure Logged (α : Type) where
  entries : List Log.Entry
  outcome : Except QueryError α

namespace Logged

def pure {α : Type} (value : α) : Logged α := ⟨[], .ok value⟩

def bind {α β : Type} (first : Logged α) (next : α → Logged β) : Logged β :=
  match first.outcome with
  | .error error => ⟨first.entries, .error error⟩
  | .ok value => ⟨first.entries ++ (next value).entries, (next value).outcome⟩

instance : Monad Logged where
  pure := Logged.pure
  bind := Logged.bind

/-- Puts an entry in front. -/
def after {α : Type} (entry : Log.Entry) (work : Logged α) : Logged α :=
  { work with entries := entry :: work.entries }

end Logged

namespace Loader

def fetch (loader : Loader) (table : String) : Logged Table :=
  ⟨loader.entries table, (loader.load table).mapError .load⟩

end Loader

namespace Query

/-! ## Stages -/

/-- The rows of a stage, with the event that reports their number. -/
def stage (event : Log.Event) (rows : Table) : Logged Table :=
  ⟨[event.entry [("rows", rows.length.repr)]], .ok rows⟩

/-- The rows of the base table, joined if the query has a join. -/
def sourceRows (loader : Loader) (query : Query) : Logged Table := do
  let base ← loader.fetch query.table
  match query.join with
  | none => return base
  | some join =>
    let joined ← loader.fetch join.table
    stage .joinApplied (Table.join join.kind base joined join.condition query.fields query.table)

def groupedRows (query : Query) (rows : Table) : Logged Table :=
  match query.groupBy with
  | none => return rows
  | some names => stage .groupingApplied (Table.groupBy rows names query.fields)

def filteredRows (query : Query) (rows : Table) : Logged Table :=
  match Table.filterBy rows query.conditions with
  | .ok kept => stage .filterApplied kept
  | .error error => ⟨[], .error error⟩

/-- The last stage. -/
def outputRows (query : Query) (rows : Table) : Table :=
  if query.summarized then [Table.summarize rows query.fields]
  else
    match query.groupBy with
    | some names => Table.groupBy rows names query.fields
    | none => Table.project rows query.fields

/-- All stages. -/
def answer (loader : Loader) (query : Query) : Logged Table := do
  let rows ← query.sourceRows loader
  let rows ← query.groupedRows rows
  let rows ← query.filteredRows rows
  return query.outputRows rows

/-! ## Running -/

def rejected (error : QueryError) : Log.Entry :=
  Log.Event.queryRejected.entry [("code", error.code), ("message", error.message)]

/-- What is logged when the outcome of a query is known. -/
def closing (scope : Log.Scope) (table elapsed : String) : Except QueryError Table → List Log.Entry
  | .ok rows =>
    let count := ("rows", rows.length.repr)
    Log.Event.queryExecuted.entry [("table", table), count] ::
      scope.ended (some (scope.completed [count] elapsed))
  | .error error => rejected error :: scope.ended (some (scope.failed error.code error.message))

/-- Answers a query. `elapsed` is what the log gives as the milliseconds that it took. -/
def execute (loader : Loader) (elapsed : String) (query : Query) : Logged Table :=
  let scope : Log.Scope := ⟨"QUERY", [("table", query.table)]⟩
  let work := query.answer loader
  ⟨scope.opened :: work.entries ++ closing scope query.table elapsed work.outcome, work.outcome⟩

/-- Reads a query text and answers it. -/
def executeText (loader : Loader) (elapsed : String) (text : String) : Logged Table :=
  .after (Log.Event.queryReceived.entry [("sql", text)]) <|
    match Query.read text with
    | .error error => ⟨[rejected (.parse error)], .error (.parse error)⟩
    | .ok query =>
      .after (Log.Event.queryParsed.entry [("table", query.table)]) (query.execute loader elapsed)

end Query

end Tabular
