/-!
# Blanks

The characters that separate words, and text cut at them. Text is worked on as a list of
characters; every cut is written so that the pieces say what was dropped.
-/

namespace Tabular.Text

/-- White space: the 25 characters with the Unicode property of that name. -/
def isBlank (c : Char) : Bool :=
  let n := c.toNat
  (9 ≤ n && n ≤ 13) || n == 0x20 || n == 0x85 || n == 0xA0 || n == 0x1680 ||
    (0x2000 ≤ n && n ≤ 0x200A) || n == 0x2028 || n == 0x2029 || n == 0x202F || n == 0x205F ||
    n == 0x3000

def trimLeft (cs : List Char) : List Char := cs.dropWhile isBlank

def trimRight (cs : List Char) : List Char := (cs.reverse.dropWhile isBlank).reverse

/-- Without the blanks at both ends. -/
def trim (cs : List Char) : List Char := trimRight (trimLeft cs)

/-- What follows a run of one or more blanks; nothing if `cs` does not start with a blank. -/
def afterBlanks? : List Char → Option (List Char)
  | [] => none
  | c :: cs => if isBlank c then some (trimLeft cs) else none

/-- The maximal runs without blanks. -/
def words (cs : List Char) : List (List Char) := (cs.splitOnP isBlank).filter (!·.isEmpty)

/-- The first word, and what follows it and the blanks after it. There must be both a word and
a blank after it. -/
def firstWord? (cs : List Char) : Option (List Char × List Char) :=
  let word := cs.takeWhile (!isBlank ·)
  if word.isEmpty then none
  else (afterBlanks? (cs.dropWhile (!isBlank ·))).map (word, ·)

end Tabular.Text
