import Mathlib.Control.Monad.Basic
import Tabular.Proofs.Filtering
/-!
# Filters row by row

A filter looks at all operators before it looks at a row. A row by itself takes its conditions one by
one, and the first one that it does not meet is the last one it looks at, so it may never get to an
unknown operator. Filtering is the same either way: with known operators a filter keeps the rows that
meet their conditions, and with an unknown one no row says yes.
-/

namespace Tabular

namespace Condition

/-! ## One condition -/

section One
variable {condition : Condition}

theorem evaluate_supported (h : condition.operator ∈ operators) (row : Row) :
    condition.evaluate row = .ok (condition.holds (row.cell condition.field)) := by
  obtain ⟨comparison, hcomparison, hholds⟩ := comparison_of_supported h
  rw [evaluate, hcomparison, ← hholds]
  rfl

theorem evaluate_unsupported (h : condition.operator ∉ operators) (row : Row) :
    condition.evaluate row = .error (.unsupportedOperator condition.operator) := by
  rw [evaluate, comparison_of_unsupported h]
  rfl

theorem evaluate_eq_ok_iff (h : condition.operator ∈ operators) {row : Row} {answer : Bool} :
    condition.evaluate row = .ok answer ↔ condition.holds (row.cell condition.field) = answer := by
  rw [evaluate_supported h, Except.ok.injEq]

end One

/-! ## The first unknown operator -/

theorem firstUnsupported?_append (conditions more : List Condition) :
    firstUnsupported? (conditions ++ more) =
      (firstUnsupported? conditions).or (firstUnsupported? more) := List.find?_append

theorem firstUnsupported?_middle {earlier : List Condition} {condition : Condition}
    (hearlier : ∀ c ∈ earlier, c.operator ∈ operators) (h : condition.operator ∉ operators)
    (later : List Condition) :
    firstUnsupported? (earlier ++ condition :: later) = some condition := by
  have hfirst : firstUnsupported? (condition :: later) = some condition :=
    List.find?_cons_of_pos (by simpa using h)
  rw [firstUnsupported?_append, firstUnsupported?_eq_none.2 hearlier, Option.none_or, hfirst]

end Condition

open Condition

/-! ## One row -/

namespace Row
variable (row : Row) {earlier : List Condition} (hearlier : ∀ c ∈ earlier, c.operator ∈ operators)
include hearlier

/-- A row gets past conditions with known operators if it meets them, and says no otherwise. -/
theorem meets_append (later : List Condition) :
    row.meets (earlier ++ later) =
      if earlier.all fun c => c.holds (row.cell c.field) then row.meets later else .ok false := by
  induction earlier with
  | nil => rfl
  | cons first earlier ih =>
    obtain ⟨hfirst, hrest⟩ := List.forall_mem_cons.1 hearlier
    rw [List.cons_append, meets, evaluate_supported hfirst, List.all_cons]
    cases first.holds (row.cell first.field) with
    | false => rfl
    | true => exact ih hrest

theorem meets_supported :
    row.meets earlier = .ok (earlier.all fun c => c.holds (row.cell c.field)) := by
  have h := row.meets_append hearlier []
  rw [List.append_nil] at h
  rw [h]
  cases earlier.all fun c => c.holds (row.cell c.field) <;> rfl

theorem all_holds_iff :
    (earlier.all fun c => c.holds (row.cell c.field)) = true ↔
      ∀ c ∈ earlier, c.evaluate row = .ok true := by
  rw [List.all_eq_true]
  exact forall₂_congr fun c hc => (evaluate_eq_ok_iff (hearlier c hc)).symm

/-- An unknown operator is found if the row meets all conditions before it. -/
theorem meets_unsupported {condition : Condition} (h : condition.operator ∉ operators)
    (later : List Condition) :
    (row.meets (earlier ++ condition :: later) =
        .error (.unsupportedOperator condition.operator) ∧
      ∀ c ∈ earlier, c.evaluate row = .ok true) ∨
    (row.meets (earlier ++ condition :: later) = .ok false ∧
      ∃ c ∈ earlier, c.evaluate row = .ok false) := by
  rw [row.meets_append hearlier]
  split
  · rename_i hall
    refine .inl ⟨?_, (row.all_holds_iff hearlier).1 hall⟩
    rw [meets, evaluate_unsupported h]
    rfl
  · rename_i hall
    obtain ⟨c, hc, hholds⟩ := List.all_eq_false.1 (Bool.eq_false_iff.2 hall)
    exact .inr ⟨rfl, c, hc, (evaluate_eq_ok_iff (hearlier c hc)).2 (Bool.eq_false_iff.2 hholds)⟩

end Row

/-! ## All rows -/

namespace Table
variable (rows : Table)

/-- Conditions that are taken one after the other filter as all of them at once. -/
theorem filterBy_append (conditions more : List Condition) :
    rows.filterBy (conditions ++ more) = rows.filterBy conditions >>= (·.filterBy more) := by
  have happend := firstUnsupported?_append conditions more
  cases hfirst : firstUnsupported? conditions with
  | some condition =>
    rw [hfirst, Option.some_or] at happend
    rw [filterBy_unsupported rows happend, filterBy_unsupported rows hfirst]
    rfl
  | none =>
    rw [hfirst, Option.none_or] at happend
    have hconditions := firstUnsupported?_eq_none.1 hfirst
    rw [filterBy_supported rows hconditions]
    change _ = filterBy _ more
    cases hmore : firstUnsupported? more with
    | some condition =>
      rw [filterBy_unsupported rows (happend.trans hmore), filterBy_unsupported _ hmore]
    | none =>
      have hmore := firstUnsupported?_eq_none.1 hmore
      rw [filterBy_supported _ hmore,
        filterBy_supported rows (List.forall_mem_append.2 ⟨hconditions, hmore⟩), List.filter_filter]
      simp only [List.all_append, Bool.and_comm]

/-- A filter agrees with its rows one by one. It fails at the first unknown operator, and then a row
fails there too unless it does not meet an earlier condition. With known operators it keeps the rows
in place that meet every condition. -/
theorem filterBy_rows (conditions : List Condition) :
    (∀ earlier condition later, conditions = earlier ++ condition :: later →
      (∀ c ∈ earlier, c.operator ∈ operators) → condition.operator ∉ operators →
        rows.filterBy conditions = .error (.unsupportedOperator condition.operator) ∧
        ∀ row : Row,
          (row.meets conditions = .error (.unsupportedOperator condition.operator) ∧
            ∀ c ∈ earlier, c.evaluate row = .ok true) ∨
          (row.meets conditions = .ok false ∧ ∃ c ∈ earlier, c.evaluate row = .ok false)) ∧
    ((∀ c ∈ conditions, c.operator ∈ operators) →
      rows.filterBy conditions =
        .ok (rows.filter fun row => ∀ c ∈ conditions, c.evaluate row = .ok true) ∧
      ∀ row : Row,
        row.meets conditions = .ok (decide (∀ c ∈ conditions, c.evaluate row = .ok true))) ∧
    ∀ more, rows.filterBy (conditions ++ more) = rows.filterBy conditions >>= (·.filterBy more) := by
  refine ⟨?_, fun hsupported => ?_, filterBy_append rows conditions⟩
  · rintro earlier condition later rfl hearlier h
    exact ⟨filterBy_unsupported rows (firstUnsupported?_middle hearlier h later),
      fun row => row.meets_unsupported hearlier h later⟩
  · have hall (row : Row) : (conditions.all fun c => c.holds (row.cell c.field)) =
        decide (∀ c ∈ conditions, c.evaluate row = .ok true) := by
      rw [Bool.eq_iff_iff, row.all_holds_iff hsupported, decide_eq_true_iff]
    simp only [filterBy_supported rows hsupported, Row.meets_supported _ hsupported, hall,
      implies_true, and_self]

/-- An unknown operator behind a condition that not all rows meet. -/
theorem filterBy_ages :
    let ages : Table := ["25", "35"].map fun age => Row.ofList [("age", .text age)]
    let conditions : List Condition := [⟨"age", ">", "30"⟩, ⟨"age", "LIKE", "3%"⟩]
    ages.filterBy conditions = .error (.unsupportedOperator "LIKE") ∧
      ∀ row : Row,
        (row.meets conditions = .error (.unsupportedOperator "LIKE") ∧
          ∀ c ∈ [Condition.mk "age" ">" "30"], c.evaluate row = .ok true) ∨
        (row.meets conditions = .ok false ∧
          ∃ c ∈ [Condition.mk "age" ">" "30"], c.evaluate row = .ok false) := by
  intro ages conditions
  exact (filterBy_rows ages conditions).1 [⟨"age", ">", "30"⟩] ⟨"age", "LIKE", "3%"⟩ [] rfl
    (by decide) (by decide)

end Table

end Tabular
