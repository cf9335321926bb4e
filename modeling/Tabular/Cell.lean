import Tabular.Json.Writer
import Tabular.Text.Blank
/-!
# Cells

A loaded cell is text. Numbers appear only where an aggregate was evaluated, and `null` where a
row has no such column. Text is read as a number at the moment an aggregate or an ordering needs
it, and nowhere else.
-/

namespace Tabular

inductive Cell
  | null
  | text (content : String)
  | number (value : Binary64)
deriving DecidableEq

namespace Cell

def isNull : Cell → Bool
  | .null => true
  | _ => false

def text? : Cell → Option String
  | .text content => some content
  | _ => none

def number? : Cell → Option Binary64
  | .number value => some value
  | _ => none

/-- The numeral that `content` is, up to blanks around it. -/
def numeral? (content : String) : Option Binary64 := Binary64.read? (Text.trim content.toList)

/-- The number an aggregate takes from the cell: `nan` if the cell holds none. -/
def toNumber : Cell → Binary64
  | .null => .nan
  | .text content => (numeral? content).getD .nan
  | .number value => value

/-- The number that a cell counts as: only numerals and numbers are worth one. -/
inductive CountsAs : Cell → Binary64 → Prop
  | null : CountsAs .null .nan
  | broken {content : String} (h : numeral? content = none) : CountsAs (.text content) .nan
  | numeral {content : String} {x : Binary64} (h : numeral? content = some x) :
    CountsAs (.text content) x
  | number (x : Binary64) : CountsAs (.number x) x

theorem countsAs_iff {cell : Cell} {x : Binary64} : cell.CountsAs x ↔ x = cell.toNumber := by
  constructor
  · intro h
    cases h with
    | null | number => rfl
    | broken h => simp [toNumber, h]
    | numeral h => simp [toNumber, h]
  · rintro rfl
    cases cell with
    | null => exact .null
    | number x => exact .number x
    | text content =>
      cases h : numeral? content with
      | none => simpa [toNumber, h] using CountsAs.broken h
      | some x => simpa [toNumber, h] using CountsAs.numeral h

/-- Equality of values. Numbers are equal as numbers, so a `nan` cell differs from itself. -/
def same : Cell → Cell → Bool
  | .null, .null => true
  | .text a, .text b => a == b
  | .number x, .number y => x.same y
  | _, _ => false

/-- Both null, one text, or two numbers of one place in the numeric order. `nan` has no place. -/
inductive SameValue : Cell → Cell → Prop
  | null : SameValue .null .null
  | text (content : String) : SameValue (.text content) (.text content)
  | number {x y : Binary64} (h : x.compare? y = some .eq) : SameValue (.number x) (.number y)

theorem same_iff {a b : Cell} : a.same b = true ↔ a.SameValue b := by
  constructor
  · intro h
    cases a with
    | null =>
      cases b with
      | null => exact .null
      | text | number => cases h
    | text content =>
      cases b with
      | text other =>
        cases eq_of_beq h
        exact .text content
      | null | number => cases h
    | number x =>
      cases b with
      | number y => exact .number (eq_of_beq h)
      | null | text => cases h
  · intro h
    cases h with
    | null => rfl
    | text content => exact beq_self_eq_true content
    | number h => exact beq_iff_eq.2 h

instance (a b : Cell) : Decidable (a.SameValue b) := decidable_of_iff _ same_iff

/-! ## Text -/

/-- Never an exponent, and no `.0`. -/
def plainLayout : Binary64.Layout := ⟨.up, fun _ => true, false⟩

def numberText (x : Binary64) : String :=
  match x.toInt? with
  | some n => Json.integer n
  | none => String.ofList (plainLayout.write x)

def display : Cell → String
  | .null => "NULL"
  | .text content => content
  | .number value => numberText value

/-- What the cell contributes to a group key. -/
def keyFragment : Cell → String
  | .null => ""
  | .text content => content
  | .number value => numberText value

/-- JSON has no infinities and no `nan`; they become null. -/
def json : Cell → String
  | .null => Json.null
  | .text content => Json.text content
  | .number value =>
    match value.toInt? with
    | some n => Json.integer n
    | none => if value.isFinite then Json.number value else Json.null

end Cell

end Tabular
