/-!
# Reading JSON

A document is read down to what a configuration needs: its texts, lists and objects. Numbers and
literals are checked and then forgotten.
-/

namespace Tabular.Json

/-- A value. A text with an unpaired surrogate is well formed but has no content. -/
inductive Value
  | text (content : Option String)
  | array (items : List Value)
  | object (members : List (Option String × Value))
  | other

def isSpace (c : Char) : Bool := c == ' ' || c == '\n' || c == '\t' || c == '\r'

def skipSpaces (cs : List Char) : List Char := cs.dropWhile isSpace

/-! ## Texts -/

def hexValue? (c : Char) : Option Nat :=
  if c.isDigit then some (c.toNat - '0'.toNat)
  else if 'a' ≤ c ∧ c ≤ 'f' then some (c.toNat - 'a'.toNat + 10)
  else if 'A' ≤ c ∧ c ≤ 'F' then some (c.toNat - 'A'.toNat + 10)
  else none

/-- The code of a one-letter escape. -/
def escapeCode? (c : Char) : Option Nat :=
  match c with
  | '"' | '\\' | '/' => some c.toNat
  | 'b' => some 8
  | 'f' => some 12
  | 'n' => some 10
  | 'r' => some 13
  | 't' => some 9
  | _ => none

/-- The codes of a text up to its closing quote, and what follows. A `\u` escape gives a 16-bit
unit, anything else a code point. `codes` are those read so far, last first. -/
def readCodes? (codes : List Nat) : List Char → Option (List Nat × List Char)
  | [] => none
  | '"' :: cs => some (codes.reverse, cs)
  | '\\' :: 'u' :: a :: b :: c :: d :: cs =>
    match hexValue? a, hexValue? b, hexValue? c, hexValue? d with
    | some a, some b, some c, some d =>
      readCodes? ((((a * 16 + b) * 16 + c) * 16 + d) :: codes) cs
    | _, _, _, _ => none
  | '\\' :: c :: cs =>
    match escapeCode? c with
    | some code => readCodes? (code :: codes) cs
    | none => none
  | c :: cs => if c.toNat < 0x20 then none else readCodes? (c.toNat :: codes) cs

/-- Characters of codes; two surrogates that form a pair make one character. -/
def charsOfCodes? : List Nat → Option (List Char)
  | [] => some []
  | high :: codes =>
    if 0xD800 ≤ high ∧ high ≤ 0xDBFF then
      match codes with
      | low :: rest =>
        if 0xDC00 ≤ low ∧ low ≤ 0xDFFF then
          let code := 0x10000 + (high - 0xD800) * 0x400 + (low - 0xDC00)
          (charsOfCodes? rest).map (Char.ofNat code :: ·)
        else none
      | [] => none
    else if 0xDC00 ≤ high ∧ high ≤ 0xDFFF then none
    else (charsOfCodes? codes).map (Char.ofNat high :: ·)

/-- A text after its opening quote. -/
def readText? (cs : List Char) : Option (Option String × List Char) :=
  (readCodes? [] cs).map fun (codes, rest) => ((charsOfCodes? codes).map String.ofList, rest)

/-! ## Numbers and literals -/

/-- What follows one or more digits. -/
def afterDigits? (cs : List Char) : Option (List Char) :=
  match cs with
  | c :: _ => if c.isDigit then some (cs.dropWhile Char.isDigit) else none
  | [] => none

/-- What follows a fraction, if there is one. -/
def afterFraction? : List Char → Option (List Char)
  | '.' :: cs => afterDigits? cs
  | cs => some cs

/-- What follows an exponent, if there is one. -/
def afterExponent? : List Char → Option (List Char)
  | c :: cs =>
    if c == 'e' || c == 'E' then
      match cs with
      | '+' :: cs | '-' :: cs => afterDigits? cs
      | cs => afterDigits? cs
    else some (c :: cs)
  | [] => some []

/-- What follows a number. Its whole part has no leading zero. -/
def afterNumber? (cs : List Char) : Option (List Char) := do
  let cs := match cs with
    | '-' :: cs => cs
    | cs => cs
  let rest ← match cs with
    | '0' :: rest => some rest
    | cs => afterDigits? cs
  afterExponent? (← afterFraction? rest)

def afterLiteral? : List Char → Option (List Char)
  | 't' :: 'r' :: 'u' :: 'e' :: cs => some cs
  | 'f' :: 'a' :: 'l' :: 's' :: 'e' :: cs => some cs
  | 'n' :: 'u' :: 'l' :: 'l' :: cs => some cs
  | _ => none

/-! ## Values -/

mutual

/-- A value and what follows it. `fuel` bounds the steps; the number of characters is enough. -/
def readValue? (fuel : Nat) (cs : List Char) : Option (Value × List Char) :=
  match fuel with
  | 0 => none
  | fuel + 1 =>
    match skipSpaces cs with
    | '"' :: cs => (readText? cs).map fun (content, cs) => (.text content, cs)
    | '[' :: cs =>
      match skipSpaces cs with
      | ']' :: cs => some (.array [], cs)
      | cs => readItems? fuel [] cs
    | '\x7b' :: cs =>
      match skipSpaces cs with
      | '\x7d' :: cs => some (.object [], cs)
      | cs => readMembers? fuel [] cs
    | cs => ((afterLiteral? cs).or (afterNumber? cs)).map (.other, ·)

/-- The items of a list up to its closing bracket; `items` are those before, last first. -/
def readItems? (fuel : Nat) (items : List Value) (cs : List Char) : Option (Value × List Char) :=
  match fuel with
  | 0 => none
  | fuel + 1 =>
    match readValue? fuel cs with
    | none => none
    | some (item, cs) =>
      match skipSpaces cs with
      | ',' :: cs => readItems? fuel (item :: items) cs
      | ']' :: cs => some (.array (item :: items).reverse, cs)
      | _ => none

/-- The members of an object up to its closing brace; `members` are those before, last first. -/
def readMembers? (fuel : Nat) (members : List (Option String × Value)) (cs : List Char) :
    Option (Value × List Char) :=
  match fuel with
  | 0 => none
  | fuel + 1 =>
    match skipSpaces cs with
    | '"' :: cs =>
      match readText? cs with
      | none => none
      | some (name, cs) =>
        match skipSpaces cs with
        | ':' :: cs =>
          match readValue? fuel cs with
          | none => none
          | some (value, cs) =>
            match skipSpaces cs with
            | ',' :: cs => readMembers? fuel ((name, value) :: members) cs
            | '\x7d' :: cs => some (.object ((name, value) :: members).reverse, cs)
            | _ => none
        | _ => none
    | _ => none

end

/-- Reads a document: one value with nothing but spaces around it. -/
def read? (text : String) : Option Value :=
  match readValue? (2 * text.length + 1) text.toList with
  | some (value, rest) => if (skipSpaces rest).isEmpty then some value else none
  | none => none

end Tabular.Json
