/-!
# Why a table cannot be loaded
-/

namespace Tabular

inductive LoadError
  | tableNotFound (table location : String)
  | malformed (source : String) (line : Nat) (reason : String)
  | unreadable (location reason : String)
deriving DecidableEq

namespace LoadError

def message : LoadError → String
  | .tableNotFound table location => "Table not found: " ++ table ++ " (" ++ location ++ ")"
  | .malformed source line reason =>
    "Malformed source " ++ source ++ " at line " ++ line.repr ++ ": " ++ reason
  | .unreadable location reason => "I/O error reading " ++ location ++ ": " ++ reason

def code : LoadError → String
  | .tableNotFound _ _ => "FQ_TABLE_NOT_FOUND"
  | .malformed _ _ _ => "FQ_MALFORMED_SOURCE"
  | .unreadable _ _ => "FQ_LOAD_IO"

end LoadError

end Tabular
