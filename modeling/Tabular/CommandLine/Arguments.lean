/-!
# Arguments

`query [--config PATH] [--data-dir DIR] [TEXT]` and `parse [TEXT]`. An option's value follows it,
or is attached with an equals sign. After `--` everything is text. An option is only settled when
the next argument is looked at, so an argument that is wrong in itself is reported first.
-/

namespace Tabular.CommandLine

inductive Command
  | query (config dataDir text : Option String)
  | parse (text : Option String)
deriving DecidableEq

/-- Arguments that give no command: requests for help, and mistakes. -/
inductive Usage
  | help
  | version
  | missingCommand
  | unknownCommand
  | unknownArgument
  | missingValue
  | unwantedValue
  | repeatedOption
deriving DecidableEq

def Usage.exitCode : Usage → UInt32
  | .help | .version => 0
  | _ => 2

/-! ## Options -/

inductive OptionName
  | config
  | dataDir
deriving DecidableEq

def OptionName.text : OptionName → String
  | .config => "config"
  | .dataDir => "data-dir"

/-- What was read so far. A pending option waits for its value or to be settled. -/
structure Reading where
  config : Option String
  dataDir : Option String
  text : Option String
  pending : Option (OptionName × Option String)

namespace Reading

def initial : Reading := ⟨none, none, none, none⟩

def value (reading : Reading) : OptionName → Option String
  | .config => reading.config
  | .dataDir => reading.dataDir

/-- Gives an option its value. No option may be given twice or be empty. -/
def assign (reading : Reading) (name : OptionName) (value : String) : Except Usage Reading :=
  if (reading.value name).isSome then .error .repeatedOption
  else if value.isEmpty then .error .missingValue
  else
    match name with
    | .config => .ok { reading with config := some value }
    | .dataDir => .ok { reading with dataDir := some value }

/-- Settles the pending option. -/
def settle (reading : Reading) : Except Usage Reading :=
  let rest := { reading with pending := none }
  match reading.pending with
  | none => .ok rest
  | some (_, none) => .error .missingValue
  | some (name, some value) => rest.assign name value

/-- Takes an argument as the query text. -/
def takeText (reading : Reading) (arg : String) : Except Usage Reading := do
  if reading.text.isSome then throw .unknownArgument
  return { ← reading.settle with text := some arg }

/-- Takes an argument that is no flag. -/
def takePlain (reading : Reading) (arg : String) : Except Usage Reading :=
  match reading.pending with
  | some (name, none) => .ok { reading with pending := some (name, some arg) }
  | _ => reading.takeText arg

/-- Asks for help, once the pending option is settled. -/
def askHelp (reading : Reading) : Except Usage Reading := do
  let _ ← reading.settle
  throw .help

/-- Takes a long flag without its dashes. -/
def takeLong (options : List OptionName) (reading : Reading) (flag : List Char) :
    Except Usage Reading :=
  let name := String.ofList (flag.takeWhile (· ≠ '='))
  let attached :=
    match flag.dropWhile (· ≠ '=') with
    | [] => none
    | _ :: value => some (String.ofList value)
  match options.find? (·.text == name), attached with
  | some option, some value => do (← reading.settle).assign option value
  | some option, none => do return { ← reading.settle with pending := some (option, none) }
  | none, attached =>
    if name = "help" then
      if attached.isSome then .error .unwantedValue else reading.askHelp
    else .error .unknownArgument

/-- Takes one argument before `--`. -/
def take (options : List OptionName) (reading : Reading) (arg : String) : Except Usage Reading :=
  match arg.toList with
  | '-' :: '-' :: flag => takeLong options reading flag
  | '-' :: 'h' :: _ => reading.askHelp
  | '-' :: _ :: _ => .error .unknownArgument
  | _ => reading.takePlain arg

/-- Takes all arguments of a command. -/
def takeAll (options : List OptionName) (reading : Reading) : List String → Except Usage Reading
  | [] => reading.settle
  | arg :: args =>
    if arg = "--" then do (← args.foldlM takeText reading).settle
    else do (← reading.take options arg).takeAll options args

end Reading

/-! ## Commands -/

def commandNames : List String := ["query", "parse", "help"]

def readQuery (args : List String) : Except Usage Command := do
  let reading ← Reading.initial.takeAll [.config, .dataDir] args
  return .query reading.config reading.dataDir reading.text

def readParse (args : List String) : Except Usage Command := do
  let reading ← Reading.initial.takeAll [] args
  return .parse reading.text

/-- The command `help`, optionally with the name of a command. -/
def readHelp : List String → Usage
  | [] => .help
  | [name] => if commandNames.contains name then .help else .unknownCommand
  | _ => .unknownCommand

/-- Where only a flag could stand in place of the command. -/
def readFlag (arg : String) : Usage :=
  match arg.toList with
  | '-' :: '-' :: flag =>
    if flag = "help".toList then .help
    else if flag = "version".toList then .version
    else if flag.takeWhile (· ≠ '=') = "help".toList ∨
        flag.takeWhile (· ≠ '=') = "version".toList then .unwantedValue
    else .unknownArgument
  | '-' :: 'h' :: _ => .help
  | '-' :: 'V' :: _ => .version
  | '-' :: _ :: _ => .unknownArgument
  | _ => .unknownCommand

/-- Reads the arguments. -/
def read : List String → Except Usage Command
  | [] => .error .missingCommand
  | "query" :: args => readQuery args
  | "parse" :: args => readParse args
  | "help" :: args => .error (readHelp args)
  | "--" :: [] => .error .missingCommand
  | "--" :: arg :: _ =>
    .error (if commandNames.contains arg then .unknownArgument else .unknownCommand)
  | arg :: _ => .error (readFlag arg)

end Tabular.CommandLine
