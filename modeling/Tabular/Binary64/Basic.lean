/-!
# Binary64 numbers

The numbers that aggregates compute with: binary floating point with 53 significant bits. Every
finite one is a whole number of units of 2^-1074, so a number is kept as that whole number and
each operation is exact arithmetic followed by one rounding to nearest, ties to even.
-/

namespace Tabular

namespace Binary64

/-- The units in 1. -/
def one : Nat := Nat.pow 2 1074

/-- The least number of units that is too large to be finite: 2^1024. -/
def limit : Nat := Nat.pow 2 2098

/-- The distance from a number of `units` to the next larger one. -/
def step (units : Nat) : Nat := Nat.pow 2 (units.log2 - 52)

/-- At most 53 significant bits, and finite. -/
def Fits (units : Nat) : Prop := units % step units = 0 ∧ units < limit

instance (units : Nat) : Decidable (Fits units) :=
  inferInstanceAs (Decidable (_ ∧ _))

theorem limit_pos : 0 < limit := by rw [limit]; apply Nat.two_pow_pos

theorem fits_zero : Fits 0 := ⟨Nat.zero_mod _, limit_pos⟩

end Binary64

/-- The size of a finite number. -/
structure Magnitude where
  units : Nat
  fits : Binary64.Fits units
deriving DecidableEq

/-- A binary64 number. There is one `nan`, and zero has a sign. -/
inductive Binary64
  | nan
  | infinite (negative : Bool)
  | finite (negative : Bool) (size : Magnitude)
deriving DecidableEq

namespace Binary64

/-! ## Rounding -/

/-- The whole number nearest to `num / den`, the even one of two. -/
def nearest (num den : Nat) : Nat :=
  let floor := num / den
  let rest := num % den
  if 2 * rest < den ∨ (2 * rest = den ∧ floor % 2 = 0) then floor else floor + 1

/-- The nearest number of units with 53 significant bits to `num / den` units. -/
def roundUnits (num den : Nat) : Nat :=
  let s := step (num / den)
  nearest num (den * s) * s

/-- The number nearest to `num / den` units. A rounded number of units never has too many bits,
so what does not fit is too large. -/
def ofUnits (negative : Bool) (num den : Nat) : Binary64 :=
  if h : Fits (roundUnits num den) then .finite negative ⟨roundUnits num den, h⟩
  else .infinite negative

def zero (negative : Bool) : Binary64 := .finite negative ⟨0, fits_zero⟩

def ofNat (n : Nat) : Binary64 := ofUnits false (n * one) 1

/-! ## Arithmetic -/

/-- The rounded sum. Opposite numbers add up to positive zero. -/
def add : Binary64 → Binary64 → Binary64
  | .nan, _ => .nan
  | _, .nan => .nan
  | .infinite s, .infinite t => if s = t then .infinite s else .nan
  | .infinite s, .finite _ _ => .infinite s
  | .finite _ _, .infinite t => .infinite t
  | .finite s a, .finite t b =>
    if s = t then ofUnits s (a.units + b.units) 1
    else if b.units < a.units then ofUnits s (a.units - b.units) 1
    else if a.units < b.units then ofUnits t (b.units - a.units) 1
    else zero false

/-- The rounded quotient. -/
def div : Binary64 → Binary64 → Binary64
  | .nan, _ => .nan
  | _, .nan => .nan
  | .infinite _, .infinite _ => .nan
  | .infinite s, .finite t _ => .infinite (s != t)
  | .finite s _, .infinite t => zero (s != t)
  | .finite s a, .finite t b =>
    if b.units = 0 then if a.units = 0 then .nan else .infinite (s != t)
    else ofUnits (s != t) (a.units * one) b.units

/-! ## Order -/

/-- The units with their sign; an infinity comes just outside the finite range, and `nan` has no
place. -/
def rank? : Binary64 → Option Int
  | .nan => none
  | .infinite negative => some (if negative then -(limit : Int) else limit)
  | .finite negative size => some (if negative then -(size.units : Int) else size.units)

/-- The numeric order. The two zeros are equal, and `nan` is not comparable. -/
def compare? (x y : Binary64) : Option Ordering :=
  match x.rank?, y.rank? with
  | some a, some b => some (compare a b)
  | _, _ => none

/-- Numeric equality: the zeros are equal, and `nan` differs from itself. -/
def same (x y : Binary64) : Bool := x.compare? y == some .eq

def isFinite : Binary64 → Bool
  | .finite _ _ => true
  | _ => false

def isNegative : Binary64 → Bool
  | .nan => false
  | .infinite negative => negative
  | .finite negative _ => negative

/-- The order of finite numbers in which negative zero comes before positive zero. -/
def compareSigned (x y : Binary64) : Ordering :=
  (compare (x.rank?.getD 0) (y.rank?.getD 0)).then (compare (!x.isNegative) (!y.isNegative))

/-- The smaller number; `nan` if either is. -/
def min (x y : Binary64) : Binary64 :=
  match x.compare? y with
  | none => .nan
  | some .gt => y
  | some _ => x

/-- The larger number; `nan` if either is. -/
def max (x y : Binary64) : Binary64 :=
  match x.compare? y with
  | none => .nan
  | some .lt => y
  | some _ => x

/-- The whole number that `x` is, if it is one of at most 2^53 in size. -/
def toInt? : Binary64 → Option Int
  | .finite negative size =>
    if size.units % one = 0 ∧ size.units ≤ Nat.pow 2 53 * one then
      let n : Int := size.units / one
      some (if negative then -n else n)
    else none
  | _ => none

/-! ## The 64-bit form -/

/-- Reads the sign bit, the 11 bits of the exponent and the 52 bits of the fraction. -/
def ofBits (bits : UInt64) : Binary64 :=
  let negative := bits.toNat / Nat.pow 2 63 == 1
  let exponent := bits.toNat / Nat.pow 2 52 % Nat.pow 2 11
  let fraction := bits.toNat % Nat.pow 2 52
  if exponent = 2047 then if fraction = 0 then .infinite negative else .nan
  else if exponent = 0 then ofUnits negative fraction 1
  else ofUnits negative ((Nat.pow 2 52 + fraction) * Nat.pow 2 (exponent - 1)) 1

/-- The bits of `x`; of `nan`, those of the quiet one without a payload. -/
def toBits : Binary64 → UInt64
  | .nan => 0x7FF8000000000000
  | .infinite negative => sign negative ||| 0x7FF0000000000000
  | .finite negative size =>
    let magnitude :=
      if size.units < Nat.pow 2 52 then size.units
      else size.units / step size.units + (size.units.log2 - 52) * Nat.pow 2 52
    sign negative ||| UInt64.ofNat magnitude
where
  sign (negative : Bool) : UInt64 := if negative then 0x8000000000000000 else 0

end Binary64

end Tabular
