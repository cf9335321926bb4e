import Tabular.Binary64.Basic
/-!
# Decimal text of binary64 numbers

Reading takes decimal notation and rounds its exact value once. Writing picks the fewest digits
that read back to the number, and a `Layout` says how they are set out.
-/

namespace Tabular.Binary64

/-! ## Reading -/

/-- The value of a row of decimal digits. -/
def digitsValue (digits : List Char) : Nat :=
  digits.foldl (fun n d => 10 * n + (d.toNat - '0'.toNat)) 0

/-- The number nearest to `coefficient * 10 ^ exponent`, where `coefficient` has `width` digits.
Far outside the range the answer is known without computing the power. -/
def ofDecimal (negative : Bool) (coefficient width : Nat) (exponent : Int) : Binary64 :=
  if coefficient = 0 then zero negative
  else if exponent + width > 310 then .infinite negative
  else if exponent + width < -330 then zero negative
  else ofUnits negative (coefficient * Nat.pow 10 exponent.toNat * one) (Nat.pow 10 (-exponent).toNat)

/-- An optional sign, and the rest. -/
def splitSign : List Char → Bool × List Char
  | '-' :: cs => (true, cs)
  | '+' :: cs => (false, cs)
  | cs => (false, cs)

/-- The exponent at the end of a numeral: none, or `e` with an optional sign and digits. -/
def readExponent? : List Char → Option Int
  | [] => some 0
  | e :: cs =>
    if e == 'e' || e == 'E' then
      let (negative, digits) := splitSign cs
      if digits.isEmpty || !digits.all Char.isDigit then none
      else if negative then some (-(digitsValue digits : Int)) else some (digitsValue digits)
    else none

/-- The digits behind a point, and the rest. -/
def splitFraction : List Char → List Char × List Char
  | '.' :: cs => (cs.takeWhile Char.isDigit, cs.dropWhile Char.isDigit)
  | cs => ([], cs)

/-- Digits with an optional point and an optional exponent. There is a digit on at least one side
of the point. -/
def readNumeral? (negative : Bool) (cs : List Char) : Option Binary64 :=
  let whole := cs.takeWhile Char.isDigit
  let (fraction, rest) := splitFraction (cs.dropWhile Char.isDigit)
  let digits := whole ++ fraction
  if digits.isEmpty then none
  else
    (readExponent? rest).map fun exponent =>
      ofDecimal negative (digitsValue digits) (digits.dropWhile (· == '0')).length
        (exponent - fraction.length)

/-- Reads a signed numeral, or one of the words `inf`, `infinity` and `nan` in any case. -/
def read? (cs : List Char) : Option Binary64 :=
  let (negative, cs) := splitSign cs
  let word := cs.map Char.toLower
  if word = ['n', 'a', 'n'] then some .nan
  else if word = ['i', 'n', 'f'] || word = ['i', 'n', 'f', 'i', 'n', 'i', 't', 'y'] then
    some (.infinite negative)
  else readNumeral? negative cs

/-! ## The fewest digits -/

/-- The decimal `digits * 10 ^ exponent`. -/
structure Decimal where
  digits : Nat
  exponent : Int
deriving DecidableEq

/-- Which of two equally near decimals is taken. -/
inductive Tie
  | up
  | even
deriving DecidableEq

/-- The decimal on the grid of multiples of `10 ^ exponent` that is nearest to `units`, if it
reads back to `units`. What reads back lies between the midpoints to the two neighbours, a
midpoint itself only when `units` has an even significand. Lengths are in quarters of a unit. -/
def onGrid? (tie : Tie) (units : Nat) (exponent : Int) : Option Nat :=
  let scale := Nat.pow 10 (-exponent).toNat
  let grid := 4 * one * Nat.pow 10 exponent.toNat
  let s := step units
  let narrow := units.log2 > 52 ∧ units = Nat.pow 2 units.log2
  let low := (4 * units - if narrow then s else 2 * s) * scale
  let high := (4 * units + 2 * s) * scale
  let closed := units / s % 2 = 0
  let value := 4 * units * scale
  let floor := value / grid
  let rest := value % grid
  let below := low < floor * grid ∨ (closed ∧ low = floor * grid)
  let above := (floor + 1) * grid < high ∨ (closed ∧ (floor + 1) * grid = high)
  let nearer := 2 * rest < grid ∨ (2 * rest = grid ∧ tie = .even ∧ floor % 2 = 0)
  if below ∧ (¬above ∨ nearer) then some floor
  else if above then some (floor + 1)
  else none

/-- The power of ten of the first significant digit. -/
def leadingPower (units : Nat) : Int :=
  ((Nat.toDigits 10 (units * Nat.pow 10 340 / one)).length : Int) - 341

/-- The decimal with the fewest digits that reads back to `units`, the nearest of those. Seventeen
digits always suffice; past them stands the exact value. -/
def shortest (tie : Tie) (units : Nat) : Decimal :=
  let power := leadingPower units
  let found := (List.range 17).findSome? fun (places : Nat) =>
    (onGrid? tie units (power - places)).map (Decimal.mk · (power - places))
  found.getD ⟨units * Nat.pow 5 1074, -1074⟩

/-! ## Layout -/

/-- How a number is set out. -/
structure Layout where
  tie : Tie
  /-- Whether a number is written without an exponent, by the power of its first digit. -/
  plain : Int → Bool
  /-- Whether a whole number written without an exponent ends in `.0`. -/
  pointZero : Bool

def zeros (n : Nat) : List Char := List.replicate n '0'

/-- Digits with the point after the first `point` places. -/
def Layout.positional (layout : Layout) (digits : List Char) (point : Int) : List Char :=
  if point ≤ 0 then '0' :: '.' :: zeros (-point).toNat ++ digits
  else if digits.length ≤ point.toNat then
    digits ++ zeros (point.toNat - digits.length) ++ (if layout.pointZero then ['.', '0'] else [])
  else digits.take point.toNat ++ '.' :: digits.drop point.toNat

/-- The first digit, the point, the others and a signed exponent. -/
def scientific (digits : List Char) (exponent : Int) : List Char :=
  let mantissa :=
    match digits with
    | first :: rest@(_ :: _) => first :: '.' :: rest
    | few => few
  mantissa ++ 'e' :: (if exponent < 0 then '-' else '+') :: Nat.toDigits 10 exponent.natAbs

def Layout.magnitude (layout : Layout) (units : Nat) : List Char :=
  if units = 0 then layout.positional ['0'] 1
  else
    let decimal := shortest layout.tie units
    let all := Nat.toDigits 10 decimal.digits
    let digits := (all.reverse.dropWhile (· == '0')).reverse
    let point := decimal.exponent + all.length
    if layout.plain (point - 1) then layout.positional digits point
    else scientific digits (point - 1)

def Layout.write (layout : Layout) : Binary64 → List Char
  | .nan => ['N', 'a', 'N']
  | .infinite negative => sign negative ++ ['i', 'n', 'f']
  | .finite negative size => sign negative ++ layout.magnitude size.units
where
  sign (negative : Bool) : List Char := if negative then ['-'] else []

end Tabular.Binary64
