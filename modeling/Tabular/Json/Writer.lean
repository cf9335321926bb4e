import Tabular.Binary64.Decimal
/-!
# Written JSON

Values as compact JSON text: no spaces, members in the order given.
-/

namespace Tabular.Json

def hexDigit (n : Nat) : Char :=
  if n < 10 then Char.ofNat ('0'.toNat + n) else Char.ofNat ('a'.toNat + (n - 10))

/-- A character inside a string: quotes, backslashes and everything below the space are escaped. -/
def escape (c : Char) : List Char :=
  if c = '"' then ['\\', '"']
  else if c = '\\' then ['\\', '\\']
  else if c = '\n' then ['\\', 'n']
  else if c = '\r' then ['\\', 'r']
  else if c = '\t' then ['\\', 't']
  else if c = '\x08' then ['\\', 'b']
  else if c = '\x0c' then ['\\', 'f']
  else if c.toNat < 0x20 then ['\\', 'u', '0', '0', hexDigit (c.toNat / 16), hexDigit (c.toNat % 16)]
  else [c]

/-- A string value. -/
def text (s : String) : String := String.ofList ('"' :: s.toList.flatMap escape ++ ['"'])

def null : String := "null"

def bool (b : Bool) : String := if b then "true" else "false"

def integer (n : Int) : String :=
  String.ofList ((if n < 0 then ['-'] else []) ++ Nat.toDigits 10 n.natAbs)

/-- Numbers from 10^-5 up to 10^16 are written without an exponent, and whole ones with `.0`. -/
def layout : Binary64.Layout := ⟨.even, fun power => -5 ≤ power && power < 16, true⟩

def number (x : Binary64) : String := String.ofList (layout.write x)

/-- Written values, as a list. -/
def array (items : List String) : String := "[" ++ ",".intercalate items ++ "]"

/-- Names with written values. -/
def object (members : List (String × String)) : String :=
  "\x7b" ++ ",".intercalate (members.map fun (name, value) => text name ++ ":" ++ value) ++ "\x7d"

/-- Members in the order of their names, by code point. Members of one name keep their order. -/
def sorted {α : Type} (members : List (String × α)) : List (String × α) :=
  members.mergeSort fun a b => a.1 ≤ b.1

end Tabular.Json
