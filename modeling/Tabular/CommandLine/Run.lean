import Tabular.CommandLine.Arguments
import Tabular.CommandLine.Failure
import Tabular.Engine
/-!
# Running commands

A command writes one line of JSON: its result, or the code and the message of its failure.
-/

namespace Tabular

/-- What a command sees of the outside. -/
structure World where
  files : Files
  input : List UInt8
  /-- The milliseconds that the log gives for a query. -/
  elapsed : String

/-- What a command leaves: its output, its log, and its failure if it failed. -/
structure Report where
  output : String
  log : Log.Logger
  failure : Option Failure

def Report.exitCode (report : Report) : UInt32 := if report.failure.isSome then 1 else 0

namespace CommandLine

/-! ## Responses -/

/-- The rows with the columns of each in the order of their names. -/
def rowsJson (rows : Table) : String :=
  Json.array (rows.map fun row => Json.object (Json.sorted row.members))

def okJson (rows : Table) : String :=
  Json.object [("data", rowsJson rows), ("status", Json.text "ok")]

def failureJson (failure : Failure) : String :=
  Json.object [("code", Json.text failure.responseCode), ("message", Json.text failure.message),
    ("status", Json.text "error")]

def queryJson (query : Query) : String := Json.object (Json.sorted query.members)

/-- Reports an outcome, where `write` gives the JSON of a result. -/
def report {α : Type} (write : α → String) (log : Log.Logger) (outcome : Except Failure α) :
    Report :=
  match outcome with
  | .ok value => ⟨write value ++ "\n", log, none⟩
  | .error failure => ⟨failureJson failure ++ "\n", log, some failure⟩

/-! ## Commands -/

/-- The query text: the argument, or else the whole input, without blanks around it. -/
def queryText (input : List UInt8) (arg : Option String) : Except Failure String := do
  let cs ← match arg with
    | some text => .ok text.toList
    | none =>
      (Text.decodeUtf8 input).mapError fun _ => .io "stream did not contain valid UTF-8"
  let cs := Text.trim cs
  if cs.isEmpty then throw (.io "Empty query")
  return String.ofList cs

/-- Answers a query text over the tables of a configuration. -/
def executeQuery (world : World) (config : Config) (text : String) :
    List Log.Entry × Except Failure Table :=
  match config.tableFiles with
  | .error error => ([], .error (.ofConfig error))
  | .ok tables =>
    let work := Query.executeText (tables.loader world.files) world.elapsed text
    (work.entries, work.outcome.mapError .engine)

/-- The configuration of a query, checked, with its log level. -/
def prepare (world : World) (path dataDir : Option String) :
    Except Failure (Config × Log.Severity) :=
  Except.mapError Failure.ofConfig do
    let config ← Config.resolve world.files path dataDir
    config.validate
    return (config, ← config.severity)

def configLoaded (config : Config) : Log.Entry :=
  Log.Event.configLoaded.entry [("data_dir", config.dataDir), ("extension", config.extension)]

def runQuery (world : World) (path dataDir arg : Option String) : Report :=
  match prepare world path dataDir with
  | .error failure => report okJson .initial (.error failure)
  | .ok (config, level) =>
    let log := (Log.Logger.initial.setThreshold level).log [configLoaded config]
    match queryText world.input arg with
    | .error failure => report okJson log (.error failure)
    | .ok text =>
      let (entries, outcome) := executeQuery world config text
      report okJson (log.log entries) outcome

def runParse (world : World) (arg : Option String) : Report :=
  report queryJson .initial do
    let text ← queryText world.input arg
    (Query.read text).mapError fun error => .engine (.parse error)

def run (world : World) : Command → Report
  | .query path dataDir arg => runQuery world path dataDir arg
  | .parse arg => runParse world arg

/-! ## What a command needs -/

/-- Whether a command takes its text from the input. -/
def readsInput (world : World) : Command → Bool
  | .parse arg => arg.isNone
  | .query path dataDir arg =>
    match prepare world path dataDir with
    | .ok _ => arg.isNone
    | .error _ => false

/-- The file of the configuration. -/
def configPaths : Command → List String
  | .query (some path) _ _ => [path]
  | _ => []

/-- The files of the tables that a command's query names. -/
def tablePaths (world : World) : Command → List String
  | .parse _ => []
  | .query path dataDir arg =>
    match prepare world path dataDir, (queryText world.input arg).map Query.read with
    | .ok (config, _), .ok (.ok query) =>
      match config.tableFiles with
      | .ok tables =>
        (query.table :: (query.join.map JoinClause.table).toList).filterMap tables.path?
      | .error _ => []
    | _, _ => []

end CommandLine

end Tabular
