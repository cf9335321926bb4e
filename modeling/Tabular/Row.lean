import Tabular.Cell
/-!
# Rows

A row is a list of named cells, no name twice. Setting a column that exists keeps its place.
-/

namespace Tabular

structure Row where
  columns : List (String × Cell)
  distinct : (columns.map Prod.fst).Nodup
deriving DecidableEq

/-- Rows in order. -/
abbrev Table := List Row

namespace Row

def empty : Row := ⟨[], List.nodup_nil⟩

def names (row : Row) : List String := row.columns.map Prod.fst

def get? (row : Row) (name : String) : Option Cell := row.columns.lookup name

/-- The cell under `name`; a missing column reads as null. -/
def cell (row : Row) (name : String) : Cell := (row.get? name).getD .null

def contains (row : Row) (name : String) : Bool := (row.get? name).isSome

/-! ## Setting a column -/

/-- Overwrites the cell under `name` where it stands, or adds it at the end. -/
def put (name : String) (cell : Cell) : List (String × Cell) → List (String × Cell)
  | [] => [(name, cell)]
  | (other, old) :: rest =>
    if other = name then (name, cell) :: rest else (other, old) :: put name cell rest

theorem names_put (name : String) (cell : Cell) (columns : List (String × Cell)) :
    (put name cell columns).map Prod.fst =
      if name ∈ columns.map Prod.fst then columns.map Prod.fst else columns.map Prod.fst ++ [name] := by
  induction columns with
  | nil => rfl
  | cons column rest ih =>
    by_cases h : column.1 = name
    · simp [put, h]
    · simp only [put, if_neg h, List.map_cons, ih, List.mem_cons, Ne.symm h, false_or]
      split <;> simp

theorem nodup_put (name : String) (cell : Cell) {columns : List (String × Cell)}
    (h : (columns.map Prod.fst).Nodup) : ((put name cell columns).map Prod.fst).Nodup := by
  rw [names_put]
  split
  · exact h
  · rename_i hn
    exact List.nodup_append.2 ⟨h, by simp, fun a ha b hb => by
      rw [List.mem_singleton.1 hb]; rintro rfl; exact hn ha⟩

def insert (row : Row) (name : String) (cell : Cell) : Row :=
  ⟨put name cell row.columns, nodup_put name cell row.distinct⟩

/-- The row that inserting the pairs in order builds. -/
def ofList (pairs : List (String × Cell)) : Row :=
  pairs.foldl (fun row (name, cell) => row.insert name cell) empty

/-- The cells under `names`, in that order. -/
def project (row : Row) (names : List String) : Row :=
  ofList (names.map fun name => (name, row.cell name))

/-! ## Comparison and text -/

/-- The same columns in the same order with the same values. -/
def same (a b : Row) : Bool :=
  a.columns.length == b.columns.length &&
    (a.columns.zip b.columns).all fun (x, y) => x.1 == y.1 && x.2.same y.2

def members (row : Row) : List (String × String) :=
  row.columns.map fun (name, cell) => (name, cell.json)

def json (row : Row) : String := Json.object row.members

end Row

namespace Table

def json (table : Table) : String := Json.array (table.map Row.json)

/-- Each row cut down to the columns `names`. -/
def project (table : Table) (names : List String) : Table := table.map (·.project names)

end Table

end Tabular
