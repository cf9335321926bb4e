import Tabular.CommandLine.Run
/-!
# The program

Reads what a command needs, runs it, and writes what it leaves.
-/

open Tabular

/-- Why the system could not read a file. -/
def readErrorOf : IO.Error → ReadError
  | .noFileOrDirectory _ _ _ => .notFound
  | .inappropriateType _ code _ => if code = 21 then .isDirectory else .notDirectory
  | .permissionDenied _ _ _ => .other "Permission denied (os error 13)"
  | .invalidArgument _ code details =>
    if code = 36 ∨ code + 36 = 0 then .nameTooLong else .other details
  | error => .other (toString error)

def readFile (path : String) : IO (String × Except ReadError (List UInt8)) := do
  try
    return (path, .ok (← IO.FS.readBinFile path).data.toList)
  catch error =>
    return (path, .error (readErrorOf error))

/-- The files at `paths`. No other path is ever asked for. -/
def readFiles (paths : List String) : IO Files := do
  let contents ← paths.mapM readFile
  return fun path => (contents.lookup path).getD (.error .notFound)

def usageText : String :=
  "usage: query [--config PATH] [--data-dir DIR] [TEXT]\n" ++
  "       parse [TEXT]\n" ++
  "Without TEXT the query is read from the input.\n"

def runCommand (command : CommandLine.Command) : IO UInt32 := do
  let start ← IO.monoMsNow
  let config ← readFiles (CommandLine.configPaths command)
  let world : World := ⟨config, [], ""⟩
  let input ←
    if CommandLine.readsInput world command then
      pure (← (← IO.getStdin).readBinToEnd).data.toList
    else pure []
  let world : World := ⟨config, input, ""⟩
  let files ← readFiles (CommandLine.configPaths command ++ CommandLine.tablePaths world command)
  let finish ← IO.monoMsNow
  let report := CommandLine.run ⟨files, input, (finish - start).repr⟩ command
  IO.eprint report.log.text
  IO.print report.output
  (← IO.getStdout).flush
  if let some failure := report.failure then IO.eprintln failure.display
  return report.exitCode

def main (args : List String) : IO UInt32 := do
  match CommandLine.read args with
  | .ok command => runCommand command
  | .error usage =>
    if usage = .help then IO.print usageText
    else if usage = .version then IO.println "0.1.0"
    else IO.eprint usageText
    return usage.exitCode
