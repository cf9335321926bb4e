import Tabular.Load.Error
import Tabular.Log
import Tabular.Row
/-!
# Loaders

A loader turns the name of a table into its rows.
-/

namespace Tabular

structure Loader where
  load : String → Except LoadError Table
  /-- Whether a load that succeeds is logged. -/
  reports : Bool

namespace Loader

/-- What loading logs. -/
def entries (loader : Loader) (table : String) : List Log.Entry :=
  match loader.load table with
  | .ok rows =>
    if loader.reports then
      [Log.Event.tableLoaded.entry [("table", table), ("rows", rows.length.repr)]]
    else []
  | .error _ => []

/-- Serves the tables of a list, the first of each name. -/
def ofTables (tables : List (String × Table)) : Loader where
  load table :=
    match tables.lookup table with
    | some rows => .ok rows
    | none => .error (.tableNotFound table "memory")
  reports := false

end Loader

end Tabular
