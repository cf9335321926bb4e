import Tabular.Proofs.DecimalText
import Tabular.Proofs.Extremes
/-!
# What aggregates say of their numbers

MIN is a number of its column that is at most all of them, and MAX one that is at least all of them.
Where a cell holds no number, MIN, MAX, SUM and AVG are `nan`. The same is true of a summary and of
every group of a grouping, which come to their values in two ways.
-/

namespace Tabular

/-- Numerically less or equal. With `nan` nothing is. -/
def Binary64.AtMost (x y : Binary64) : Prop := x.compare? y = some .lt ∨ x.compare? y = some .eq

instance (x y : Binary64) : Decidable (x.AtMost y) := inferInstanceAs (Decidable (_ ∨ _))

/-- The numbers that aggregates take from a column. -/
def Table.numbers (rows : Table) (column : String) : List Binary64 :=
  rows.map fun row => (row.cell column).toNumber

/-- They are what the cells count as; a missing column counts as null. -/
theorem Table.numbers_iff {rows : Table} {column : String} {numbers : List Binary64} :
    numbers = rows.numbers column ↔
      List.Forall₂ (fun row x => ((row.get? column).getD .null).CountsAs x) rows numbers := by
  rw [eq_comm, Table.numbers, ← List.forall₂_eq_eq_eq, List.forall₂_map_left_iff]
  simp only [Cell.countsAs_iff, eq_comm, Row.cell]

namespace Aggregate

/-! ## Values -/

/-- The cell holds `nan` if one of the numbers is `nan`, and else one of them that bounds them all. -/
structure Bounds (bound : Binary64 → Binary64 → Prop) (numbers : List Binary64) (cell : Cell) :
    Prop where
  nan : .nan ∈ numbers → cell = .number .nan
  bound : .nan ∉ numbers → ∃ x ∈ numbers, cell = .number x ∧ ∀ y ∈ numbers, bound x y

/-- The cell is what the function says of one number or more. -/
def Function.IsValue (function : Function) (numbers : List Binary64) (cell : Cell) : Prop :=
  match function with
  | .min => Bounds (fun x y => x.AtMost y) numbers cell
  | .max => Bounds (fun x y => y.AtMost x) numbers cell
  | .sum | .avg => .nan ∈ numbers → cell = .number .nan
  | .count => cell = .number (.ofNat numbers.length)

/-- What the function says of no numbers. -/
def Function.ofNothing : Function → Cell
  | .min | .max => .null
  | .sum | .count => .number (.ofNat 0)
  | .avg => .number .nan

section Bounds
variable {x y : Binary64} {a b : Int}

theorem atMost_of_le (hx : x.rank? = some a) (hy : y.rank? = some b) (h : a ≤ b) : x.AtMost y := by
  rw [Binary64.AtMost, Binary64.compare?, hx, hy]
  rcases h.lt_or_eq with h | rfl
  · exact .inl (congrArg some (compare_lt_iff_lt.2 h))
  · exact .inr (congrArg some (compare_eq_iff_eq.2 rfl))

/-- The number in the first place bounds all numbers, and `nan` comes before all of them. -/
theorem bounds_of_first {direction : Int → Int} {bound : Binary64 → Binary64 → Prop}
    (hbound : ∀ {x y a b}, x.rank? = some a → y.rank? = some b → direction a ≤ direction b →
      bound x y) {numbers : List Binary64} (h : Binary64.First (Binary64.place direction) numbers x) :
    Bounds bound numbers (.number x) := by
  have hrank {z : Binary64} (hz : z ∈ numbers) (hnan : .nan ∉ numbers) : ∃ a, z.rank? = some a :=
    Option.ne_none_iff_exists'.1 fun hnone => hnan (Binary64.rank?_eq_none.1 hnone ▸ hz)
  refine ⟨fun hnan => ?_, fun hnan => ⟨x, h.mem, rfl, fun y hy => ?_⟩⟩
  · have hbottom : Binary64.place direction x = ⊥ := le_bot_iff.1 (h.le _ hnan)
    rw [Binary64.place] at hbottom
    cases hx : x.rank? with
    | none => rw [Binary64.rank?_eq_none.1 hx]
    | some a => rw [hx] at hbottom; cases hbottom
  · obtain ⟨a, ha⟩ := hrank h.mem hnan
    obtain ⟨b, hb⟩ := hrank hy hnan
    have hle := h.le y hy
    rw [Binary64.place, Binary64.place, ha, hb] at hle
    exact hbound ha hb (WithBot.coe_le_coe.1 hle)

theorem bounds_reduce_min {numbers : List Binary64} (h : numbers ≠ []) :
    Bounds (fun x y => x.AtMost y) numbers (Table.reduce .min numbers) := by
  obtain ⟨x, hx, hfirst⟩ := Table.reduce_first Binary64.picks_min h
  rw [hx]
  exact bounds_of_first (fun ha hb hle => atMost_of_le ha hb hle) hfirst

theorem bounds_reduce_max {numbers : List Binary64} (h : numbers ≠ []) :
    Bounds (fun x y => y.AtMost x) numbers (Table.reduce .max numbers) := by
  obtain ⟨x, hx, hfirst⟩ := Table.reduce_first Binary64.picks_max h
  rw [hx]
  exact bounds_of_first (fun ha hb hle => atMost_of_le hb ha (neg_le_neg_iff.1 hle)) hfirst

end Bounds

end Aggregate

namespace Table
open Aggregate

/-! ## Summaries -/

theorem isValue_aggregate {rows : Table} (h : rows ≠ []) (a : Aggregate) :
    a.function.IsValue (rows.numbers a.argument.text) (rows.aggregate a) := by
  have hnumbers : rows.numbers a.argument.text ≠ [] := by simpa [numbers] using h
  have hnan (hcount : a.function ≠ .count) (hn : .nan ∈ rows.numbers a.argument.text) :
      rows.aggregate a = .number .nan := aggregate_nan hcount hn
  obtain ⟨function, argument⟩ := a
  cases function with
  | min => exact bounds_reduce_min hnumbers
  | max => exact bounds_reduce_max hnumbers
  | sum => exact hnan nofun
  | avg => exact hnan nofun
  | count => exact congrArg (fun n => Cell.number (.ofNat n)) (List.length_map _).symm

theorem aggregate_nil (a : Aggregate) : aggregate [] a = a.function.ofNothing := by
  obtain ⟨function, argument⟩ := a
  cases function with
  | min | max | count => rfl
  | sum => exact congrArg Cell.number Binary64.ofNat_zero.symm
  | avg =>
    -- Zero by zero.
    have hzero : (total []).div (.ofNat 0) = .nan := by
      rw [Binary64.ofNat_zero]
      rfl
    exact congrArg Cell.number hzero

theorem get?_summarize_aggregate (rows : Table) {exprs : List String} {expr : String}
    {a : Aggregate} (he : expr ∈ exprs) (ha : Aggregate.read? expr = some a) :
    (rows.summarize exprs).get? expr = some (rows.aggregate a) := by
  rw [get?_summarize rows he, summaryCell, ha]

/-! ## Groups -/

open Grouping in
/-- The value of a group that MIN, MAX or SUM comes to row by row. -/
theorem isValue_outputCell {exprs : List String} {rows : Table} (h : Raw exprs rows)
    (hrows : rows ≠ []) {expr : String} {a : Aggregate} (he : expr ∈ exprs)
    (ha : Aggregate.read? expr = some a) (hf : a.function ∈ [Function.min, .max, .sum]) :
    a.function.IsValue (rows.numbers a.argument.text) (outputCell exprs rows expr) := by
  have hnumbers : rows.numbers a.argument.text ≠ [] := by simpa [numbers] using hrows
  have havg : a.function ≠ .avg := by
    rintro h
    rw [h] at hf
    exact absurd hf (by decide)
  have haggregate : (Output.ofExpr expr).aggregate = some a := by
    simp [Output.ofExpr, ha, Option.filter, havg]
  have hcell {combine : Binary64 → Binary64 → Binary64}
      (hcombine : (Output.ofExpr expr).combined? = some (combine, a.argument)) :
      outputCell exprs rows expr = reduce combine (rows.numbers a.argument.text) := by
    rw [outputCell_combined hcombine, parts_eq h he]
    rfl
  rw [Output.combined?, haggregate, Option.bind_some] at hcell
  simp only [List.mem_cons, List.not_mem_nil, or_false] at hf
  rcases hf with hf | hf | hf <;> rw [hf] at hcell ⊢ <;> rw [hcell rfl]
  · exact bounds_reduce_min hnumbers
  · exact bounds_reduce_max hnumbers
  · exact reduce_nan Binary64.absorbs_add

open Grouping in
/-- An aggregate in a summary, over rows and over none, and MIN, MAX and SUM in every group of rows
that are no results of a grouping. The numbers are those that the cells of the column count as: for a
text the number of its numeral, and `nan` if it is none or if there is no text. -/
theorem aggregate_values (rows : Table) (names exprs : List String) (expr : String) (a : Aggregate)
    (he : expr ∈ exprs) (ha : Aggregate.read? expr = some a) :
    (∀ (table : Table) (column : String) (values : List Binary64), values = table.numbers column ↔
        List.Forall₂ (fun row x => ((row.get? column).getD .null).CountsAs x) table values) ∧
      (∀ content x, Cell.numeral? content = some x ↔ Cell.IsNumeral content x) ∧
      (rows ≠ [] → ∃ cell, (rows.summarize exprs).get? expr = some cell ∧
        a.function.IsValue (rows.numbers a.argument.text) cell) ∧
      (summarize [] exprs).get? expr = some a.function.ofNothing ∧
      ((∀ row ∈ rows, ∀ e ∈ exprs, ∀ x, row.get? e ≠ some (.number x)) → expr ∉ names →
        a.function ∈ [Function.min, .max, .sum] →
          ∀ row ∈ rows.groupBy names exprs, ∃ first rest,
            rows.filter (·.groupKey names = row.groupKey names) = first :: rest ∧
              ∃ cell, row.get? expr = some cell ∧
                a.function.IsValue (numbers (first :: rest) a.argument.text) cell) := by
  refine ⟨fun table column values => numbers_iff, fun content x => Cell.numeral?_iff,
    fun hrows => ⟨_, get?_summarize_aggregate rows he ha, isValue_aggregate hrows a⟩, ?_, ?_⟩
  · rw [get?_summarize_aggregate [] he ha, aggregate_nil]
  · intro hraw hn hf row hrow
    rw [groupBy_eq] at hrow
    obtain ⟨k, hk, rfl⟩ := List.mem_map.1 hrow
    obtain ⟨first, rest, hm⟩ := List.exists_cons_of_ne_nil (members_ne_nil (·.groupKey names) hk)
    have hgroup : Raw exprs (first :: rest) := by
      rw [← hm]
      exact fun row hr => hraw row (List.mem_filter.1 hr).1
    refine ⟨first, rest, ?_, _, get?_output he hn _, ?_⟩
    · rw [groupKey_groupRow names exprs hk]
      exact hm
    · rw [hm]
      exact isValue_outputCell hgroup (List.cons_ne_nil first rest) he ha hf

/-- One of the readings is broken, and the least one of the other sensor is negative zero. -/
theorem minimum_readings :
    List.Forall₂ (fun row x => ((row.get? "value").getD .null).CountsAs x) readings
        [.nearestTo false 25 (-1), .nan, .zero true] ∧
      (readings.summarize ["MIN(value)"]).get? "MIN(value)" = some (.number .nan) ∧
      (summarize [] ["MIN(value)"]).get? "MIN(value)" = some .null ∧
      (readings.groupBy ["sensor"] ["MIN(value)"]).map (·.groupKey ["sensor"]) = ["a", "b"] ∧
      ∀ row ∈ readings.groupBy ["sensor"] ["MIN(value)"], row.get? "MIN(value)" =
        some (.number (if row.groupKey ["sensor"] = "a" then .zero true else .nan)) := by
  obtain ⟨hnumbers, -, hall, hnone, hgroups⟩ := aggregate_values readings ["sensor"] ["MIN(value)"]
    "MIN(value)" ⟨.min, .column "value"⟩ (by decide) (by decide)
  obtain ⟨cell, hcell, hvalue⟩ := hall (List.cons_ne_nil _ _)
  have hbroken : .nan ∈ readings.numbers "value" := by decide +kernel
  have hkeys : (readings.groupBy ["sensor"] ["MIN(value)"]).map (·.groupKey ["sensor"]) =
      ["a", "b"] := by decide +kernel
  refine ⟨(hnumbers readings "value" _).1 (by decide +kernel), hvalue.nan hbroken ▸ hcell, hnone,
    hkeys, fun row hrow => ?_⟩
  obtain ⟨first, rest, hfilter, cell, hget, hvalue⟩ :=
    hgroups (Grouping.raw_of_cells (by decide)) (by decide) (by decide) row hrow
  have hkey : row.groupKey ["sensor"] = "a" ∨ row.groupKey ["sensor"] = "b" := by
    have hmem := List.mem_map_of_mem (f := (·.groupKey ["sensor"])) hrow
    rw [hkeys] at hmem
    simpa using hmem
  rw [← hfilter] at hvalue
  rcases hkey with hkey | hkey <;> rw [hkey] at hvalue ⊢
  · have hsound : numbers (readings.filter (·.groupKey ["sensor"] = "a")) "value" =
        [.nearestTo false 25 (-1), .zero true] := by decide +kernel
    change Function.min.IsValue (numbers _ "value") cell at hvalue
    rw [hsound] at hvalue
    obtain ⟨x, hx, rfl, hle⟩ := hvalue.bound (by decide +kernel)
    have hzero : x.AtMost (.zero true) := hle _ (List.mem_cons_of_mem _ List.mem_cons_self)
    rw [hget, if_pos rfl]
    rcases List.mem_cons.1 hx with hx | hx
    · -- The other number, 2.5, is not at most negative zero.
      rw [hx] at hzero
      exact absurd hzero (by decide +kernel)
    · rw [List.mem_singleton.1 hx]
  · rw [hget, hvalue.nan (by decide +kernel)]
    rfl

end Table

end Tabular
