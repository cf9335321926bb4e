import Tabular.Delimited
import Tabular.Files.Basic
import Tabular.Load.Basic
import Tabular.Text.Utf8
/-!
# Tables in files

The table `t` stands in the file `t.<extension>` of one directory. A name that could lead out of
that directory names no table.
-/

namespace Tabular

structure TableFiles where
  directory : String
  delimiter : Char
  extension : String
deriving DecidableEq

namespace TableFiles

/-- Two points in a row. -/
def hasDoublePoint : List Char → Bool
  | '.' :: '.' :: _ => true
  | _ :: cs => hasDoublePoint cs
  | [] => false

/-- Whether a name stays inside the directory. -/
def isTableName (table : String) : Bool :=
  let cs := table.toList
  !cs.isEmpty && !cs.contains '/' && !cs.contains '\\' && !hasDoublePoint cs

/-- A name under a directory, with a slash between them where one is needed. -/
def joinPath (directory name : String) : String :=
  if directory.isEmpty || directory.toList.getLast? = some '/' then directory ++ name
  else directory ++ "/" ++ name

/-- The file of a table. -/
def path? (tables : TableFiles) (table : String) : Option String :=
  if isTableName table then some (joinPath tables.directory (table ++ "." ++ tables.extension))
  else none

/-- The table in the bytes of a file. -/
def decode (tables : TableFiles) (location : String) (bytes : List UInt8) :
    Except LoadError Table :=
  match Text.decodeUtf8 bytes with
  | .error fault => .error (.malformed location 0 ("invalid UTF-8: " ++ fault.message))
  | .ok cs =>
    (Delimited.read tables.delimiter (String.ofList cs)).mapError fun fault =>
      .malformed location fault.line fault.reason

def load (tables : TableFiles) (files : Files) (table : String) : Except LoadError Table :=
  match tables.path? table with
  | none => .error (.tableNotFound table "invalid table name")
  | some path =>
    match files path with
    | .error .notFound => .error (.tableNotFound table path)
    | .error error => .error (.unreadable path error.message)
    | .ok bytes => tables.decode path bytes

def loader (tables : TableFiles) (files : Files) : Loader where
  load := tables.load files
  reports := true

end TableFiles

end Tabular
