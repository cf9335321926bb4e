import Mathlib.Logic.Basic
import Tabular.Filter
/-!
# What a filter keeps

A filter fails at the first operator that it does not know, before it looks at a row. If it knows
all of them, it keeps in place the rows whose cells meet every condition.
-/

namespace Tabular

/-- Work that succeeds has a first part that succeeds. -/
theorem exists_of_bind {ε α β : Type} {x : Except ε α} {f : α → Except ε β} {b : β}
    (h : x >>= f = .ok b) : ∃ a, x = .ok a ∧ f a = .ok b := by
  cases x with
  | error error => cases h
  | ok a => exact ⟨a, rfl, h⟩

namespace Condition

/-! ## One condition -/

/-- The operators a filter knows. -/
def operators : List String := ["=", "!=", ">", "<", ">=", "<="]

/-- Whether a cell meets the condition. No cell meets one with an unknown operator. -/
def holds (condition : Condition) (cell : Cell) : Bool :=
  (Comparison.ofToken? condition.operator).any (cell.satisfies · condition.literal)

theorem comparison_of_supported {condition : Condition} (h : condition.operator ∈ operators) :
    ∃ comparison, condition.comparison = .ok comparison ∧
      ∀ cell : Cell, cell.satisfies comparison condition.literal = condition.holds cell := by
  simp only [operators, List.mem_cons, List.not_mem_nil, or_false] at h
  rcases h with h | h | h | h | h | h <;>
    exact ⟨_, by rw [comparison, h]; rfl, fun cell => by rw [holds, h]; rfl⟩

theorem ofToken?_eq_none {token : String} (h : token ∉ operators) :
    Comparison.ofToken? token = none := by
  rw [Comparison.ofToken?, List.find?_eq_none]
  intro comparison _ ht
  apply h
  rw [← eq_of_beq ht]
  cases comparison <;> decide

theorem comparison_of_unsupported {condition : Condition} (h : condition.operator ∉ operators) :
    condition.comparison = .error (.unsupportedOperator condition.operator) := by
  rw [comparison, ofToken?_eq_none h]

/-! ## All conditions -/

/-- The first condition whose operator no filter knows. -/
def firstUnsupported? (conditions : List Condition) : Option Condition :=
  conditions.find? (·.operator ∉ operators)

theorem firstUnsupported?_eq_none {conditions : List Condition} :
    firstUnsupported? conditions = none ↔
      ∀ condition ∈ conditions, condition.operator ∈ operators := by
  simp [firstUnsupported?]

theorem mapM_comparison_error {conditions : List Condition} {condition : Condition}
    (h : firstUnsupported? conditions = some condition) :
    conditions.mapM comparison = .error (.unsupportedOperator condition.operator) := by
  induction conditions with
  | nil => cases h
  | cons first conditions ih =>
    rw [List.mapM_cons]
    by_cases hf : first.operator ∈ operators
    · obtain ⟨comparison, hfirst, -⟩ := comparison_of_supported hf
      rw [firstUnsupported?, List.find?_cons_of_neg (by simpa using hf)] at h
      rw [hfirst, ih h]
      rfl
    · rw [firstUnsupported?, List.find?_cons_of_pos (by simpa using hf)] at h
      cases h
      rw [comparison_of_unsupported hf]
      rfl

/-- The comparisons of known operators; checking a row against them is asking for all conditions. -/
theorem mapM_comparison_ok {conditions : List Condition}
    (h : ∀ condition ∈ conditions, condition.operator ∈ operators) :
    ∃ comparisons, conditions.mapM comparison = .ok comparisons ∧
      ∀ row : Row, ((conditions.zip comparisons).all fun (condition, comparison) =>
          (row.cell condition.field).satisfies comparison condition.literal) =
        conditions.all fun condition => condition.holds (row.cell condition.field) := by
  induction conditions with
  | nil => exact ⟨[], rfl, fun _ => rfl⟩
  | cons first conditions ih =>
    obtain ⟨comparison, hfirst, hholds⟩ := comparison_of_supported (h first List.mem_cons_self)
    obtain ⟨comparisons, hrest, hall⟩ := ih fun c hc => h c (List.mem_cons_of_mem _ hc)
    refine ⟨comparison :: comparisons, by rw [List.mapM_cons, hfirst, hrest]; rfl, fun row => ?_⟩
    rw [List.zip_cons_cons, List.all_cons, List.all_cons, ← hholds, hall]

/-- Only the cells under the fields of the conditions count. -/
theorem all_holds_congr {conditions : List Condition} {a b : String → Cell}
    (h : ∀ condition ∈ conditions, a condition.field = b condition.field) :
    (conditions.all fun condition => condition.holds (a condition.field)) =
      conditions.all fun condition => condition.holds (b condition.field) := by
  rw [Bool.eq_iff_iff, List.all_eq_true, List.all_eq_true]
  exact forall₂_congr fun condition hc => by rw [h condition hc]

end Condition

namespace Table
open Condition

/-- A filter fails at its first unknown operator, whatever the rows are. -/
theorem filterBy_unsupported (rows : Table) {conditions : List Condition} {condition : Condition}
    (h : firstUnsupported? conditions = some condition) :
    rows.filterBy conditions = .error (.unsupportedOperator condition.operator) := by
  rw [filterBy, mapM_comparison_error h]
  rfl

/-- With known operators a filter keeps the rows whose cells meet all conditions. -/
theorem filterBy_supported (rows : Table) {conditions : List Condition}
    (h : ∀ condition ∈ conditions, condition.operator ∈ operators) :
    rows.filterBy conditions = .ok (rows.filter fun row =>
      conditions.all fun condition => condition.holds (row.cell condition.field)) := by
  obtain ⟨comparisons, hcs, hall⟩ := mapM_comparison_ok h
  rw [filterBy, hcs]
  simp only [← hall]
  rfl

theorem filterBy_total (rows : Table) {conditions : List Condition}
    (h : ∀ condition ∈ conditions, condition.operator ∈ operators) :
    ∃ kept, rows.filterBy conditions = .ok kept :=
  ⟨_, filterBy_supported rows h⟩

/-- A filter keeps rows in place. -/
theorem filterBy_sublist {rows kept : Table} {conditions : List Condition}
    (h : rows.filterBy conditions = .ok kept) : kept.Sublist rows := by
  rw [filterBy] at h
  obtain ⟨comparisons, -, h⟩ := exists_of_bind h
  cases h
  exact List.filter_sublist

end Table

end Tabular
