import Tabular.Row
/-!
# Delimited text

A table as text: the first record names the columns, each further record is a row. A field may be
wrapped in double quotes; it then may hold delimiters and line breaks, and a doubled quote stands
for one. Records that decode to a single empty field are skipped.
-/

namespace Tabular.Delimited

/-! ## Records -/

/-- The fields of one record, and the line it starts on. -/
structure Record where
  line : Nat
  fields : List String
deriving DecidableEq

/-- What stops the reading of a table. -/
inductive Fault
  | afterQuote (line : Nat)
  | openQuote (line : Nat)
  | width (line expected found : Nat)
deriving DecidableEq

def Fault.line : Fault → Nat
  | .afterQuote line => line
  | .openQuote line => line
  | .width line _ _ => line

def Fault.reason : Fault → String
  | .afterQuote _ => "unexpected character after closing quote"
  | .openQuote _ => "unterminated quoted field"
  | .width _ expected found =>
    "expected " ++ expected.repr ++ " fields, found " ++ found.repr

/-- Where the reader is in a field: not in quotes, in quotes, or behind a quote that closes the
field unless another one follows. -/
inductive Mode
  | bare
  | quoted
  | closed
deriving DecidableEq

/-- The state of the reader. The field, the fields and the records read so far are kept last
first. -/
structure State where
  mode : Mode
  /-- The line of the next character. -/
  line : Nat
  /-- The line that the current record starts on. -/
  start : Nat
  field : List Char
  fields : List String
  records : List Record

namespace State

def initial : State := ⟨.bare, 1, 1, [], [], []⟩

def push (state : State) (c : Char) : State := { state with field := c :: state.field }

def endField (state : State) : State :=
  { state with
    mode := .bare, field := [], fields := String.ofList state.field.reverse :: state.fields }

/-- Ends the record at a line break; the next one starts on the line after it. -/
def endRecord (state : State) : State :=
  let fields := (String.ofList state.field.reverse :: state.fields).reverse
  { mode := .bare, line := state.line + 1, start := state.line + 1, field := [], fields := [],
    records := ⟨state.start, fields⟩ :: state.records }

/-- Reads a character outside quotes; `next` is the character after it. A quote that opens a field
comes before the delimiter, and the delimiter before line breaks. -/
def readBare (delimiter : Char) (state : State) (c : Char) (next : Option Char) :
    Except Fault State :=
  if c = '"' ∧ state.mode = .bare ∧ state.field = [] then .ok { state with mode := .quoted }
  else if c = delimiter then .ok state.endField
  else if c = '\r' ∧ next = some '\n' then .ok state
  else if c = '\n' then .ok state.endRecord
  else if state.mode = .closed then .error (.afterQuote state.line)
  else .ok (state.push c)

def read (delimiter : Char) (state : State) (c : Char) (next : Option Char) : Except Fault State :=
  match state.mode with
  | .bare => state.readBare delimiter c next
  | .quoted =>
    if c = '"' then .ok { state with mode := .closed }
    else if c = '\n' then .ok { state.push c with line := state.line + 1 }
    else .ok (state.push c)
  | .closed =>
    if c = '"' then .ok { state.push c with mode := .quoted }
    else state.readBare delimiter c next

end State

/-- The records of a text, and the fault that ends them early. -/
def recordsFrom (delimiter : Char) (state : State) : List Char → List Record × Option Fault
  | [] =>
    if state.mode = .quoted then (state.records.reverse, some (.openQuote state.start))
    else (state.endRecord.records.reverse, none)
  | c :: cs =>
    match state.read delimiter c cs.head? with
    | .ok state => recordsFrom delimiter state cs
    | .error fault => (state.records.reverse, some fault)

/-- A byte order mark at the very start is no part of the text. -/
def dropMark : List Char → List Char
  | '\ufeff' :: cs => cs
  | cs => cs

def records (delimiter : Char) (content : List Char) : List Record × Option Fault :=
  recordsFrom delimiter .initial (dropMark content)

/-! ## Tables -/

def Record.isBlank (record : Record) : Bool := record.fields == [""]

/-- A row under a header of the record's width. Of columns with one name the last field counts. -/
def Record.row (header : List String) (record : Record) : Row :=
  Row.ofList (header.zip (record.fields.map Cell.text))

def Record.toRow (header : List String) (record : Record) : Except Fault Row :=
  if record.fields.length = header.length then .ok (record.row header)
  else .error (.width record.line header.length record.fields.length)

/-- Records give rows if all of them have the header's width, and then each gives its own. -/
theorem mapM_toRow_iff {header : List String} {records : List Record} {rows : Table} :
    records.mapM (·.toRow header) = .ok rows ↔
      (∀ record ∈ records, record.fields.length = header.length) ∧
        rows = records.map (·.row header) := by
  induction records generalizing rows with
  | nil =>
    constructor
    · intro h
      cases h
      exact ⟨nofun, rfl⟩
    · rintro ⟨-, rfl⟩
      rfl
  | cons record records ih =>
    rw [List.mapM_cons, List.forall_mem_cons, List.map_cons]
    by_cases hwidth : record.fields.length = header.length
    · have hrow : record.toRow header = .ok (record.row header) := if_pos hwidth
      rw [hrow]
      cases hrest : records.mapM (·.toRow header) with
      | error fault =>
        have hnone := fun hall => ih.2 ⟨hall, rfl⟩
        rw [hrest] at hnone
        exact ⟨nofun, fun h => nomatch hnone h.1.2⟩
      | ok rest =>
        obtain ⟨hall, rfl⟩ := ih.1 hrest
        constructor
        · intro h
          cases h
          exact ⟨⟨hwidth, hall⟩, rfl⟩
        · rintro ⟨-, rfl⟩
          rfl
    · have hrow : record.toRow header =
          .error (.width record.line header.length record.fields.length) := if_neg hwidth
      rw [hrow]
      exact ⟨nofun, fun h => absurd h.1.1 hwidth⟩

/-- The rows of records under the first of them, if all have its width and no fault follows. -/
def tableOf (records : List Record) (fault : Option Fault) : Except Fault Table := do
  let rows ← match records with
    | [] => .ok []
    | header :: records => records.mapM (·.toRow header.fields)
  match fault with
  | some fault => .error fault
  | none => .ok rows

/-- Reads a table. -/
def read (delimiter : Char) (content : String) : Except Fault Table :=
  let (records, fault) := records delimiter content.toList
  tableOf (records.filter (!·.isBlank)) fault

end Tabular.Delimited
