import Mathlib.Algebra.Order.Field.Rat
import Tabular.Proofs.Numbers
import Tabular.Proofs.RowFilters
/-!
# Comparisons

What the six operators say of a cell and a literal. Two numerals are ordered by their values, except
that a text counts negative zero as less than zero. A cell that has an order relative to the literal
meets the operators that fit this order; a cell without one meets `!=` only.
-/

namespace Tabular

namespace Comparison

/-- What the comparison says of two numbers. -/
def Relates : Comparison → Rat → Rat → Prop
  | .equal, p, q => p = q
  | .notEqual, p, q => p ≠ q
  | .greater, p, q => q < p
  | .less, p, q => p < q
  | .atLeast, p, q => q ≤ p
  | .atMost, p, q => p ≤ q

instance (comparison : Comparison) (p q : Rat) : Decidable (comparison.Relates p q) :=
  match comparison with
  | .equal => inferInstanceAs (Decidable (p = q))
  | .notEqual => inferInstanceAs (Decidable (p ≠ q))
  | .greater => inferInstanceAs (Decidable (q < p))
  | .less => inferInstanceAs (Decidable (p < q))
  | .atLeast => inferInstanceAs (Decidable (q ≤ p))
  | .atMost => inferInstanceAs (Decidable (p ≤ q))

/-- One of `>`, `<`, `>=` and `<=`. -/
def IsOrdering (comparison : Comparison) : Prop :=
  comparison ≠ .equal ∧ comparison ≠ .notEqual

instance (comparison : Comparison) : Decidable comparison.IsOrdering :=
  inferInstanceAs (Decidable (_ ∧ _))

theorem ofToken?_token (comparison : Comparison) :
    ofToken? comparison.token = some comparison := by
  cases comparison <;> decide

theorem holds_compare (comparison : Comparison) (p q : Rat) :
    comparison.holds (compare p q) = decide (comparison.Relates p q) := by
  rw [Bool.eq_iff_iff, decide_eq_true_iff]
  cases comparison with
  | equal | notEqual => simp [holds, Relates]
  | greater => simp [holds, Relates, compare_gt_iff_gt]
  | less => simp [holds, Relates, compare_lt_iff_lt]
  | atLeast => simp [holds, Relates, compare_lt_iff_lt]
  | atMost => simp [holds, Relates, compare_gt_iff_gt]

end Comparison

theorem Condition.evaluate_token (row : Row) (field literal : String) (comparison : Comparison) :
    (Condition.mk field comparison.token literal).evaluate row =
      .ok ((row.cell field).satisfies comparison literal) := by
  rw [evaluate, Condition.comparison, Comparison.ofToken?_token]
  rfl

/-! ## Values -/

namespace Binary64
variable {x y : Binary64} {a b : Int}

/-- The number that a finite binary64 number is. -/
def value? : Binary64 → Option Rat
  | .finite negative size => some ((if negative then -(size.units : Rat) else size.units) / one)
  | _ => none

theorem exists_rank (h : x.isFinite = true) :
    ∃ n : Int, x.rank? = some n ∧ x.value? = some ((n : Rat) / one) := by
  cases x with
  | nan | infinite _ => cases h
  | finite negative size =>
    refine ⟨_, rfl, ?_⟩
    rw [value?, apply_ite (Int.cast : Int → Rat), Int.cast_neg, Int.cast_natCast]

theorem value?_zero (sign : Bool) : (zero sign).value? = some 0 := by
  rw [zero, value?, Nat.cast_zero, neg_zero, ite_self, zero_div]

/-- The order of values is the order of places. -/
theorem compare_values (a b : Int) : compare ((a : Rat) / one) ((b : Rat) / one) = compare a b := by
  have hone : (0 : Rat) < one := Nat.cast_pos.2 one_pos
  rcases lt_trichotomy a b with h | rfl | h
  · rw [compare_lt_iff_lt.2 h, compare_lt_iff_lt, div_lt_div_iff_of_pos_right hone, Int.cast_lt]
    exact h
  · rw [compare_eq_iff_eq.2 rfl, compare_eq_iff_eq.2 rfl]
  · rw [compare_gt_iff_gt.2 h, compare_gt_iff_gt, div_lt_div_iff_of_pos_right hone, Int.cast_lt]
    exact h

/-- The two orders differ on a negative and a positive zero, and nowhere else. -/
theorem compareSigned_eq (hx : x.rank? = some a) (hy : y.rank? = some b) :
    x.compareSigned y = compare a b ∨ a = b ∧
      ((x = zero true ∧ y = zero false ∧ x.compareSigned y = .lt) ∨
        (x = zero false ∧ y = zero true ∧ x.compareSigned y = .gt)) := by
  have hsigned : x.compareSigned y =
      (compare a b).then (compare (!x.isNegative) (!y.isNegative)) := by
    rw [compareSigned, hx, hy]
    rfl
  rcases eq_or_ne a b with rfl | hne
  · rcases eq_or_zeros hx hy with rfl | ⟨s, t, rfl, rfl⟩
    · left
      rw [hsigned, compare_eq_iff_eq.2 rfl, compare_eq_iff_eq.2 rfl]
      rfl
    · rw [hsigned, compare_eq_iff_eq.2 rfl]
      cases s <;> cases t
      · exact .inl rfl
      · exact .inr ⟨rfl, .inr ⟨rfl, rfl, rfl⟩⟩
      · exact .inr ⟨rfl, .inl ⟨rfl, rfl, rfl⟩⟩
      · exact .inl rfl
  · left
    rw [hsigned]
    cases h : compare a b with
    | eq => exact absurd (compare_eq_iff_eq.1 h) hne
    | lt | gt => rfl

theorem compareSigned_self (x : Binary64) : x.compareSigned x = .eq := by
  rw [compareSigned, compare_eq_iff_eq.2 rfl, compare_eq_iff_eq.2 rfl]
  rfl

end Binary64

/-! ## Numerals -/

namespace Comparison
open Binary64 (zero)

/-- The comparison tells the two zeros apart: negative zero would be less than zero, or zero greater
than negative zero. -/
inductive PartsZeros : Comparison → Binary64 → Binary64 → Prop
  | less : PartsZeros .less (zero true) (zero false)
  | atLeast : PartsZeros .atLeast (zero true) (zero false)
  | greater : PartsZeros .greater (zero false) (zero true)
  | atMost : PartsZeros .atMost (zero false) (zero true)

section Zeros
variable {comparison : Comparison} {x y : Binary64} {a b : Int}
  (hx : x.rank? = some a) (hy : y.rank? = some b)
include hx hy

theorem holds_of_partsZeros (h : comparison.PartsZeros x y) :
    comparison.holds (x.compareSigned y) = !comparison.holds (compare a b) := by
  cases h <;> cases hx <;> cases hy <;> rfl

theorem holds_of_not_partsZeros (hordering : comparison.IsOrdering)
    (h : ¬ comparison.PartsZeros x y) :
    comparison.holds (x.compareSigned y) = comparison.holds (compare a b) := by
  rcases Binary64.compareSigned_eq hx hy with heq | ⟨rfl, ⟨rfl, rfl, hlt⟩ | ⟨rfl, rfl, hgt⟩⟩
  · rw [heq]
  · rw [hlt, compare_eq_iff_eq.2 rfl]
    cases comparison with
    | equal => exact absurd rfl hordering.1
    | notEqual => exact absurd rfl hordering.2
    | less => exact absurd .less h
    | atLeast => exact absurd .atLeast h
    | greater | atMost => rfl
  · rw [hgt, compare_eq_iff_eq.2 rfl]
    cases comparison with
    | equal => exact absurd rfl hordering.1
    | notEqual => exact absurd rfl hordering.2
    | greater => exact absurd .greater h
    | atMost => exact absurd .atMost h
    | less | atLeast => rfl

end Zeros

end Comparison

namespace Cell
variable {content literal : String} {x y : Binary64} {comparison : Comparison}

theorem isFinite_of_finiteNumeral? (h : finiteNumeral? content = some x) : x.isFinite = true :=
  (Option.filter_eq_some_iff.1 h).2

theorem satisfies_text (hordering : comparison.IsOrdering) (content literal : String) :
    (Cell.text content).satisfies comparison literal =
      comparison.holds (compareText content literal) := by
  cases comparison with
  | equal => exact absurd rfl hordering.1
  | notEqual => exact absurd rfl hordering.2
  | greater | less | atLeast | atMost => rfl

theorem compareText_numerals (hx : finiteNumeral? content = some x)
    (hy : finiteNumeral? literal = some y) : compareText content literal = x.compareSigned y := by
  rw [compareText, hx, hy]

theorem compareText_self (content : String) : compareText content content = .eq := by
  unfold compareText
  split
  · rename_i x y hx hy
    cases hx.symm.trans hy
    exact Binary64.compareSigned_self x
  · exact Std.ReflCmp.compare_self

theorem satisfies_number {a b : Int} (hy : finiteNumeral? literal = some y)
    (ha : x.rank? = some a) (hb : y.rank? = some b) (comparison : Comparison) :
    (Cell.number x).satisfies comparison literal = comparison.holds (compare a b) := by
  simp only [satisfies, hy, Binary64.compare?, ha, hb]

/-- Where a text and a literal are finite numerals, a number cell with the value of the text compares
as the values do, by every ordering operator. So does the text, unless the two are zeros of different
sign and the operator is one that tells them apart; then it says the opposite. -/
theorem evaluate_numerals (hordering : comparison.IsOrdering)
    (hx : finiteNumeral? content = some x) (hy : finiteNumeral? literal = some y)
    {field : String} {text number : Row} (htext : text.cell field = .text content)
    (hnumber : number.cell field = .number x) :
    let condition : Condition := ⟨field, comparison.token, literal⟩
    ∃ p q, x.value? = some p ∧ y.value? = some q ∧
      condition.evaluate number = .ok (decide (comparison.Relates p q)) ∧
      (¬ comparison.PartsZeros x y →
        condition.evaluate text = .ok (decide (comparison.Relates p q))) ∧
      (comparison.PartsZeros x y →
        condition.evaluate text = .ok (!decide (comparison.Relates p q))) := by
  intro condition
  obtain ⟨a, ha, hp⟩ := Binary64.exists_rank (isFinite_of_finiteNumeral? hx)
  obtain ⟨b, hb, hq⟩ := Binary64.exists_rank (isFinite_of_finiteNumeral? hy)
  refine ⟨_, _, hp, hq, ?_⟩
  have hvalues : comparison.holds (compare a b) =
      decide (comparison.Relates (a / Binary64.one) (b / Binary64.one)) := by
    rw [← Binary64.compare_values, Comparison.holds_compare]
  rw [← hvalues, Condition.evaluate_token, Condition.evaluate_token, hnumber, htext,
    satisfies_number hy ha hb, satisfies_text hordering, compareText_numerals hx hy]
  exact ⟨rfl, fun h => congrArg Except.ok (Comparison.holds_of_not_partsZeros ha hb hordering h),
    fun h => congrArg Except.ok (Comparison.holds_of_partsZeros ha hb h)⟩

/-- Blanks, signs and exponents do not matter: 100 is greater than 99.5. -/
theorem evaluate_hundred :
    let condition : Condition := ⟨"n", ">", "99.5"⟩
    ∃ p q, (Binary64.ofNat 100).value? = some p ∧
      (Binary64.ofDecimal false 995 3 (-1)).value? = some q ∧
      condition.evaluate (Row.ofList [("n", .number (Binary64.ofNat 100))]) =
        .ok (decide (q < p)) ∧
      condition.evaluate (Row.ofList [("n", .text " +1e2\t")]) = .ok (decide (q < p)) := by
  obtain ⟨p, q, hp, hq, hnumber, htext, -⟩ := @evaluate_numerals " +1e2\t" "99.5"
    (Binary64.ofNat 100) (Binary64.ofDecimal false 995 3 (-1)) .greater (by decide)
    (by decide +kernel) (by decide +kernel) "n" (Row.ofList [("n", .text " +1e2\t")])
    (Row.ofList [("n", .number (Binary64.ofNat 100))]) rfl rfl
  have hzero {x y : Binary64} (h : Comparison.greater.PartsZeros x y) : x = .zero false := by
    cases h
    rfl
  have hne : Binary64.ofNat 100 ≠ .zero false := by decide +kernel
  exact ⟨p, q, hp, hq, hnumber, htext fun h => hne (hzero h)⟩

/-- Zero is at least zero, but not if the text is `-0`. -/
theorem evaluate_negativeZero :
    let condition : Condition := ⟨"n", ">=", "0"⟩
    finiteNumeral? "-0" = some (.zero true) ∧ finiteNumeral? "0" = some (.zero false) ∧
      (Binary64.zero true).value? = some 0 ∧ (Binary64.zero false).value? = some 0 ∧
      Comparison.atLeast.Relates 0 0 ∧
      condition.evaluate (Row.ofList [("n", .number (.zero true))]) = .ok true ∧
      condition.evaluate (Row.ofList [("n", .text "-0")]) = .ok false := by
  intro condition
  refine ⟨?_, ?_, Binary64.value?_zero true, Binary64.value?_zero false, ?_, ?_, ?_⟩
  · decide +kernel
  · decide +kernel
  · exact le_refl (0 : Rat)
  · decide +kernel
  · decide +kernel

end Cell

/-! ## Laws of the operators -/

namespace Cell

/-- The cell has no order relative to the literal: it is absent, or it is `nan` and the literal is a
finite numeral. -/
inductive Unordered (literal : String) : Cell → Prop
  | null : Unordered literal .null
  | nan {bound : Binary64} (h : finiteNumeral? literal = some bound) :
    Unordered literal (.number .nan)

theorem satisfies_unordered {cell : Cell} {literal : String} (h : cell.Unordered literal)
    (comparison : Comparison) :
    cell.satisfies comparison literal = decide (comparison = .notEqual) := by
  cases h with
  | null => rfl
  | nan h => simp only [satisfies, h, Binary64.compare?, Binary64.rank?]

/-- A cell with an order: the ordering operators ask for it, and equality is a case of it. -/
theorem exists_order {cell : Cell} {literal : String} (h : ¬ cell.Unordered literal) :
    ∃ order : Ordering,
      (∀ comparison : Comparison, comparison.IsOrdering →
        cell.satisfies comparison literal = comparison.holds order) ∧
      (cell.satisfies .equal literal = true → order = .eq) ∧
      cell.satisfies .notEqual literal = !cell.satisfies .equal literal := by
  cases cell with
  | null => exact absurd .null h
  | text content =>
    refine ⟨compareText content literal, fun _ h => satisfies_text h content literal, ?_, rfl⟩
    intro hequal
    rw [show content = literal from eq_of_beq hequal, compareText_self]
  | number value =>
    -- Equality is the order itself.
    suffices hall : ∃ order, ∀ comparison : Comparison,
        (Cell.number value).satisfies comparison literal = comparison.holds order by
      obtain ⟨order, hall⟩ := hall
      refine ⟨order, fun comparison _ => hall comparison, ?_, ?_⟩
      · rw [hall]
        exact eq_of_beq
      · rw [hall, hall]
        rfl
    cases hliteral : finiteNumeral? literal with
    | none => exact ⟨compare (Cell.number value).display literal, fun comparison => by
        simp only [satisfies, hliteral]⟩
    | some bound =>
      have hvalue : value ≠ .nan := by
        rintro rfl
        exact h (.nan hliteral)
      obtain ⟨a, ha⟩ := Option.ne_none_iff_exists'.1 (mt Binary64.rank?_eq_none.1 hvalue)
      obtain ⟨b, hb, -⟩ := Binary64.exists_rank (isFinite_of_finiteNumeral? hliteral)
      exact ⟨compare a b, satisfies_number hliteral ha hb⟩

end Cell

/-- The row's cell under `field` stands in the comparison to the literal. -/
def Row.Compares (row : Row) (field : String) (comparison : Comparison) (literal : String) : Prop :=
  (Condition.mk field comparison.token literal).evaluate row = .ok true

namespace Row

theorem compares_iff (row : Row) (field literal : String) (comparison : Comparison) :
    row.Compares field comparison literal ↔
      (row.cell field).satisfies comparison literal = true := by
  rw [Compares, Condition.evaluate_token, Except.ok.injEq]

/-- The laws of the operators where there is an order. -/
structure Consistent (row : Row) (field literal : String) : Prop where
  equality : Xor (row.Compares field .equal literal) (row.Compares field .notEqual literal)
  above : Xor (row.Compares field .greater literal) (row.Compares field .atMost literal)
  below : Xor (row.Compares field .less literal) (row.Compares field .atLeast literal)
  exclusive : ¬ (row.Compares field .greater literal ∧ row.Compares field .less literal)
  bounds : row.Compares field .equal literal →
    row.Compares field .atLeast literal ∧ row.Compares field .atMost literal

theorem consistent_of_ordered {row : Row} {field literal : String}
    (h : ¬ (row.cell field).Unordered literal) : row.Consistent field literal := by
  obtain ⟨order, hordering, hequal, hnotEqual⟩ := Cell.exists_order h
  have hgreater := hordering .greater (by decide)
  have hless := hordering .less (by decide)
  have hatLeast := hordering .atLeast (by decide)
  have hatMost := hordering .atMost (by decide)
  constructor
  case equality =>
    rw [compares_iff, compares_iff, hnotEqual]
    cases (row.cell field).satisfies .equal literal <;> decide
  case above =>
    rw [compares_iff, compares_iff, hgreater, hatMost]
    cases order <;> decide
  case below =>
    rw [compares_iff, compares_iff, hless, hatLeast]
    cases order <;> decide
  case exclusive =>
    rw [compares_iff, compares_iff, hgreater, hless]
    cases order <;> decide
  case bounds =>
    rw [compares_iff, compares_iff, compares_iff, hatLeast, hatMost]
    intro h
    rw [hequal h]
    decide

/-- Every known operator has an answer for every cell and literal. The answers are consistent where
the cell has an order relative to the literal; elsewhere only `!=` says yes. -/
theorem compares_laws (row : Row) (field literal : String) :
    (∀ comparison : Comparison, ∃ answer,
      (Condition.mk field comparison.token literal).evaluate row = .ok answer) ∧
    (¬ (row.cell field).Unordered literal → row.Consistent field literal) ∧
    ((row.cell field).Unordered literal →
      ∀ comparison, row.Compares field comparison literal ↔ comparison = .notEqual) := by
  refine ⟨fun comparison => ⟨_, Condition.evaluate_token row field literal comparison⟩,
    consistent_of_ordered, fun h comparison => ?_⟩
  rw [compares_iff, Cell.satisfies_unordered h, decide_eq_true_iff]

/-- A `nan` cell is a text for a literal that is no number, and has no order for one that is. -/
theorem compares_nan :
    let row := Row.ofList [("n", .number .nan)]
    row.Consistent "n" "seven" ∧ ∀ comparison, row.Compares "n" comparison "7" ↔
      comparison = .notEqual := by
  intro row
  have hseven : Cell.finiteNumeral? "seven" = none := by decide +kernel
  refine ⟨(compares_laws row "n" "seven").2.1 ?_, (compares_laws row "n" "7").2.2 ?_⟩
  · rintro (_ | h)
    rw [hseven] at h
    cases h
  · have h : Cell.finiteNumeral? "7" = some (.ofNat 7) := by decide +kernel
    exact .nan h

end Row

end Tabular
