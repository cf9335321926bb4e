import Tabular.Delimited
/-!
# Tables as they are written

The text of a table by its parts: fields, bare or in quotes, with delimiters between them, and the
line ends, empty lines and the byte order mark around them.
-/

namespace Tabular.Delimited.Written

/-! ## Fields -/

/-- What can stand between fields: no quote, no part of a line break and no byte order mark. -/
def IsDelimiter (d : Char) : Prop := d ∉ ['"', '\r', '\n', '\ufeff']

instance (d : Char) : Decidable (IsDelimiter d) := inferInstanceAs (Decidable (_ ∉ _))

/-- The content of a field in quotes, with every quote doubled. -/
def escape (content : List Char) : List Char :=
  content.flatMap fun c => if c = '"' then ['"', '"'] else [c]

/-- Anything can be written in quotes. A bare field does not start with one, and it holds neither the
delimiter nor a line break. -/
inductive Field (d : Char)
  | quoted (content : List Char)
  | bare (content : List Char) (unbroken : ∀ c ∈ content, c ≠ d ∧ c ≠ '\r' ∧ c ≠ '\n')
    (unquoted : content.head? ≠ some '"')

namespace Field
variable {d : Char}

def content : Field d → List Char
  | quoted content => content
  | bare content _ _ => content

def text : Field d → List Char
  | quoted content => '"' :: escape content ++ ['"']
  | bare content _ _ => content

/-- What is written starts with a byte order mark. -/
def StartsMarked (field : Field d) : Prop := field.text.head? = some '\ufeff'

end Field

/-! ## Lines -/

inductive LineEnd
  | lf
  | crlf

def LineEnd.text : LineEnd → List Char
  | .lf => ['\n']
  | .crlf => ['\r', '\n']

/-- One field or more with a delimiter between any two. -/
structure Line (d : Char) where
  first : Field d
  rest : List (Field d)

namespace Line
variable {d : Char}

def text (line : Line d) : List Char :=
  line.first.text ++ line.rest.flatMap fun field => d :: field.text

def fields (line : Line d) : List String :=
  (line.first :: line.rest).map fun field => String.ofList field.content

end Line

/-- The end of a line, and the empty lines that follow it. -/
structure Break where
  lineEnd : LineEnd
  empty : List LineEnd

def emptyLines (lines : List LineEnd) : List Char := lines.flatMap LineEnd.text

def Break.text (lineBreak : Break) : List Char :=
  lineBreak.lineEnd.text ++ emptyLines lineBreak.empty

/-! ## Tables -/

/-- A header and records, each with the break before it. The last line need not be ended. -/
structure Document (d : Char) where
  /-- Whether the text starts with a byte order mark. -/
  mark : Bool
  before : List LineEnd
  header : Line d
  records : List (Break × Line d)
  after : Option Break

namespace Document
variable {d : Char}

/-- What stands behind the byte order mark. -/
def body (document : Document d) : List Char :=
  emptyLines document.before ++
    (document.header.text ++ (document.records.flatMap fun p => p.1.text ++ p.2.text)) ++
      (document.after.map Break.text).getD []

def text (document : Document d) : List Char :=
  (if document.mark then ['\ufeff'] else []) ++ document.body

def names (document : Document d) : List String := document.header.fields

def rows (document : Document d) : List (List String) := document.records.map fun p => p.2.fields

end Document

end Tabular.Delimited.Written
