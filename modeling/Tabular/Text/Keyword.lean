import Tabular.Text.Blank
/-!
# Keywords

Keywords are read without regard to case. A keyword is given by its lower-case letters.
-/

namespace Tabular.Text

/-- Lower case for the characters whose case folding is a lower-case ASCII letter: the ASCII
letters, the long s and the Kelvin sign. All others stay. -/
def foldCase (c : Char) : Char :=
  if c == '\u017F' then 's' else if c == '\u212A' then 'k' else c.toLower

/-- What follows `keyword` at the start of the text. -/
def afterKeyword? (keyword : List Char) (cs : List Char) : Option (List Char) :=
  if (cs.take keyword.length).map foldCase == keyword then some (cs.drop keyword.length) else none

/-- The two texts are equal up to the case of ASCII letters. -/
def sameLetters (a b : List Char) : Bool := a.map Char.toLower == b.map Char.toLower

/-- What follows a clause that opens with `keywords`: blanks before each keyword, and blanks or
the end of the text after the last. -/
def afterClause? : List (List Char) → List Char → Option (List Char)
  | [], [] => some []
  | [], cs => afterBlanks? cs
  | keyword :: keywords, cs =>
    (afterBlanks? cs).bind fun cs => (afterKeyword? keyword cs).bind (afterClause? keywords)

/-- Cuts the text at the first place where `opening?` applies: what stands before it, and what
`opening?` leaves. -/
def cutAt? (opening? : List Char → Option (List Char)) : List Char → Option (List Char × List Char)
  | [] => (opening? []).map ([], ·)
  | c :: cs =>
    match opening? (c :: cs) with
    | some after => some ([], after)
    | none => (cutAt? opening? cs).map fun (before, after) => (c :: before, after)

end Tabular.Text
