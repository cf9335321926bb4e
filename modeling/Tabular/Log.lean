import Tabular.Json.Writer
import Tabular.Text.Keyword
/-!
# The log

One line of JSON for each event: its name, its severity, and its fields in the order of their
keys. Lines below the threshold are not written. Nothing logged changes a result.
-/

namespace Tabular.Log

/-! ## Severities and events -/

inductive Severity
  | trace
  | info
  | warn
  | error
  | fatal
deriving DecidableEq

namespace Severity

def all : List Severity := [.trace, .info, .warn, .error, .fatal]

def name : Severity → String
  | .trace => "TRACE"
  | .info => "INFO"
  | .warn => "WARN"
  | .error => "ERROR"
  | .fatal => "FATAL"

/-- The severity of a name in any case. -/
def ofName? (name : String) : Option Severity :=
  all.find? fun severity => Text.sameLetters name.toList severity.name.toList

def rank : Severity → Nat
  | .trace => 0
  | .info => 1
  | .warn => 2
  | .error => 3
  | .fatal => 4

end Severity

/-- What happens to a query. -/
inductive Event
  | configLoaded
  | queryReceived
  | queryParsed
  | tableLoaded
  | joinApplied
  | groupingApplied
  | filterApplied
  | queryExecuted
  | queryRejected
deriving DecidableEq

namespace Event

def all : List Event :=
  [.configLoaded, .queryReceived, .queryParsed, .tableLoaded, .joinApplied, .groupingApplied,
    .filterApplied, .queryExecuted, .queryRejected]

def name : Event → String
  | .configLoaded => "CONFIG_LOADED"
  | .queryReceived => "QUERY_RECEIVED"
  | .queryParsed => "QUERY_PARSED"
  | .tableLoaded => "TABLE_LOADED"
  | .joinApplied => "JOIN_APPLIED"
  | .groupingApplied => "GROUPING_APPLIED"
  | .filterApplied => "FILTER_APPLIED"
  | .queryExecuted => "QUERY_EXECUTED"
  | .queryRejected => "QUERY_REJECTED"

def ofName? (name : String) : Option Event := all.find? (·.name == name)

/-- The events of single stages of a query. -/
def isStage : Event → Bool
  | .queryParsed | .tableLoaded | .joinApplied | .groupingApplied | .filterApplied => true
  | _ => false

def isFailure : Event → Bool
  | .queryRejected => true
  | _ => false

def severity (event : Event) : Severity :=
  if event.isFailure then .error else if event.isStage then .trace else .info

end Event

/-! ## Entries -/

/-- A line to be logged. -/
structure Entry where
  severity : Severity
  event : String
  fields : List (String × String)
deriving DecidableEq

def Event.entry (event : Event) (fields : List (String × String)) : Entry :=
  ⟨event.severity, event.name, fields⟩

/-- The line of an entry, with its line break. -/
def Entry.line (entry : Entry) : String :=
  Json.object
    ([("event", Json.text entry.event), ("severity", Json.text entry.severity.name)] ++
      (Json.sorted entry.fields).map fun (key, value) => (key, Json.text value)) ++ "\n"

/-! ## Scopes -/

/-- A piece of work that logs its start and its outcome. -/
structure Scope where
  name : String
  fields : List (String × String)

namespace Scope

def opened (scope : Scope) : Entry := ⟨.trace, scope.name ++ "_BEGIN", scope.fields⟩

/-- `elapsed` is the time since the start, in milliseconds. -/
def completed (scope : Scope) (extra : List (String × String)) (elapsed : String) : Entry :=
  ⟨.info, scope.name ++ "_COMPLETE", scope.fields ++ extra ++ [("elapsed_ms", elapsed)]⟩

def failed (scope : Scope) (code reason : String) : Entry :=
  ⟨.error, scope.name ++ "_FAILED", scope.fields ++ [("code", code), ("reason", reason)]⟩

/-- The line of a scope that was given up before its outcome was known. -/
def dropped (scope : Scope) : Entry :=
  ⟨.warn, scope.name ++ "_INCOMPLETE", [("reason", "scope dropped without completion")]⟩

/-- What a scope logs by its end: the entry that closed it, or else that it was given up. -/
def ended (scope : Scope) : Option Entry → List Entry
  | some entry => [entry]
  | none => [scope.dropped]

end Scope

/-! ## The logger -/

/-- A log with its threshold; `lines` are the lines written, oldest first. -/
structure Logger where
  threshold : Severity
  lines : List String

namespace Logger

def initial : Logger := ⟨.warn, []⟩

def isEnabled (logger : Logger) (severity : Severity) : Bool :=
  logger.threshold.rank ≤ severity.rank

def setThreshold (logger : Logger) (threshold : Severity) : Logger := { logger with threshold }

/-- Writes the entries that the threshold lets through. -/
def log (logger : Logger) (entries : List Entry) : Logger :=
  let enabled := entries.filter (logger.isEnabled ·.severity)
  { logger with lines := logger.lines ++ enabled.map Entry.line }

/-- All lines written. -/
def text (logger : Logger) : String := String.join logger.lines

end Logger

end Tabular.Log
