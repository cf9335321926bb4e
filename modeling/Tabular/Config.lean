import Tabular.Json.Reader
import Tabular.Load.TableFiles
/-!
# Configuration

Where the tables are, how they are written, and what is logged. All of it may be left out.
-/

namespace Tabular

inductive ConfigError
  | unreadable (reason : String)
  | notConfig
  | delimiter (text : String)
  | emptyExtension
  | logLevel (text : String)
deriving DecidableEq

def ConfigError.message : ConfigError → String
  | .unreadable reason => "Failed to read config: " ++ reason
  | .notConfig => "Invalid config JSON: not an object or list of config texts"
  | .delimiter text => "Invalid delimiter: '" ++ text ++ "'. Must be exactly one character."
  | .emptyExtension => "extension must not be empty"
  | .logLevel text =>
    "Invalid log_level: '" ++ text ++ "'. Expected trace, info, warn, error or fatal."

structure Config where
  dataDir : String
  delimiter : String
  extension : String
  logLevel : String
deriving DecidableEq

namespace Config

def default : Config := ⟨".", ",", "csv", "warn"⟩

/-! ## Values -/

/-- The delimiter as the one character it must be. -/
def delimiterChar (config : Config) : Except ConfigError Char :=
  match config.delimiter.toList with
  | [c] => .ok c
  | _ => .error (.delimiter config.delimiter)

def severity (config : Config) : Except ConfigError Log.Severity :=
  match Log.Severity.ofName? config.logLevel with
  | some severity => .ok severity
  | none => .error (.logLevel config.logLevel)

/-- Checks the delimiter, then the extension, then the log level. -/
def validate (config : Config) : Except ConfigError Unit := do
  let _ ← config.delimiterChar
  if config.extension.isEmpty then throw .emptyExtension
  let _ ← config.severity

def tableFiles (config : Config) : Except ConfigError TableFiles := do
  return ⟨config.dataDir, ← config.delimiterChar, config.extension⟩

/-! ## Reading -/

/-- The names of the settings, in the order in which a list gives them. -/
def settings : List String := ["data_dir", "delimiter", "extension", "log_level"]

/-- A configuration from the settings that are given. -/
def ofSettings (given : List (String × String)) : Config where
  dataDir := (given.lookup "data_dir").getD default.dataDir
  delimiter := (given.lookup "delimiter").getD default.delimiter
  extension := (given.lookup "extension").getD default.extension
  logLevel := (given.lookup "log_level").getD default.logLevel

def content? : Json.Value → Option String
  | .text content => content
  | _ => none

/-- A member of the object: nothing if its name is no setting. -/
def setting? (member : Option String × Json.Value) : Option (Option (String × String)) := do
  let name ← member.1
  if settings.contains name then return some (name, ← content? member.2) else return none

/-- Reads an object with the settings as members, each at most once and beside any others, or a
list with the first of them in order. Every setting is a text. -/
def ofJson? : Json.Value → Option Config
  | .object members => do
    let given := (← members.mapM setting?).filterMap id
    if (given.map Prod.fst).eraseDups.length = given.length then some (ofSettings given) else none
  | .array items => do
    let contents ← items.mapM content?
    if contents.length ≤ settings.length then some (ofSettings (settings.zip contents)) else none
  | _ => none

/-- The configuration in a file. -/
def ofBytes (bytes : List UInt8) : Except ConfigError Config :=
  match Text.decodeUtf8 bytes with
  | .error _ => .error (.unreadable "stream did not contain valid UTF-8")
  | .ok cs =>
    match (Json.read? (String.ofList cs)).bind ofJson? with
    | none => .error .notConfig
    | some config => .ok config

/-- Reads and checks the configuration file at `path`. -/
def load (files : Files) (path : String) : Except ConfigError Config := do
  let bytes ← (files path).mapError fun error => .unreadable error.message
  let config ← ofBytes bytes
  config.validate
  return config

/-- The configuration file, or the defaults without one; `dataDir` replaces the directory. -/
def resolve (files : Files) (path dataDir : Option String) : Except ConfigError Config := do
  let config ← match path with
    | some path => load files path
    | none => .ok default
  return match dataDir with
    | some dataDir => { config with dataDir }
    | none => config

def json (config : Config) : String :=
  Json.object (settings.zip ([config.dataDir, config.delimiter, config.extension,
    config.logLevel].map Json.text))

end Config

end Tabular
