import Tabular.Proofs.Groups
/-!
# Grouping against summarizing

The row of a group holds what a summary of the group's rows holds. The two are computed apart: a
group starts from its first number, a summary starts a sum from zero and takes its count from the
number of rows. They meet as long as no row is itself the result of a grouping, and AVG is left out,
which a grouping takes for a column.
-/

namespace Tabular

namespace Grouping

/-! ## Rows without partial results -/

/-- No row holds a number under the name of an output. -/
def Raw (exprs : List String) (rows : Table) : Prop :=
  ∀ row ∈ rows, ∀ expr ∈ exprs, ∀ x, row.get? expr ≠ some (.number x)

theorem raw_of_cells {exprs : List String} {rows : Table}
    (h : ∀ row ∈ rows, ∀ expr ∈ exprs, (row.cell expr).number? = none) : Raw exprs rows := by
  intro row hr expr he x hx
  have hcell := h row hr expr he
  rw [Row.cell_of_get? hx] at hcell
  cases hcell

theorem partial?_eq_none {exprs : List String} {rows : Table} (h : Raw exprs rows) {row : Row}
    (hr : row ∈ rows) {expr : String} (he : expr ∈ exprs) :
    (Output.ofExpr expr).partial? row = none := by
  rw [Output.partial?, Option.bind_eq_none_iff]
  intro cell hc
  cases cell with
  | number x => exact absurd hc (h row hr expr he x)
  | null | text content => rfl

theorem weight_eq_one {exprs : List String} {rows : Table} (h : Raw exprs rows) {row : Row}
    (hr : row ∈ rows) : weight (exprs.map Output.ofExpr) row = .ofNat 1 := by
  have hnone :
      ((exprs.map Output.ofExpr).filter Output.isCount).findSome? (·.partial? row) = none := by
    rw [List.findSome?_eq_none_iff]
    intro output ho
    obtain ⟨expr, he, rfl⟩ := List.mem_map.1 (List.mem_filter.1 ho).1
    exact partial?_eq_none h hr he
  simp only [weight, hnone, Option.getD_none]

/-- Without partial counts a count adds one for each row. -/
theorem count_eq_ones {exprs : List String} {rows : Table} (h : Raw exprs rows) :
    count (exprs.map Output.ofExpr) rows = Table.total (List.replicate rows.length (.ofNat 1)) := by
  rw [count, Table.total, ← List.map_const', List.foldl_map]
  apply List.foldl_ext
  intro n row hr
  rw [weight_eq_one h hr]

/-- Without partial results the parts of an aggregate are the numbers of its argument. -/
theorem parts_eq {exprs : List String} {rows : Table} (h : Raw exprs rows) {expr : String}
    (he : expr ∈ exprs) (argument : Aggregate.Argument) :
    rows.map ((Output.ofExpr expr).part argument) =
      rows.map fun row => (row.cell argument.text).toNumber := by
  apply List.map_congr_left
  intro row hr
  rw [Output.part, partial?_eq_none h hr he, Option.getD_none]

/-! ## One output -/

/-- A sum from zero is the sum from its first number. -/
theorem reduce_add_like {numbers : List Binary64} (h : numbers ≠ []) :
    (Table.reduce .add numbers).Like (.number (Table.total numbers)) := by
  obtain ⟨x, rest, rfl⟩ := List.exists_cons_of_ne_nil h
  exact Cell.like_number (Binary64.foldl_add_like rest (Binary64.zero_add_like false x).symm)

/-- An output of a group is like the summary of the group's rows. -/
theorem outputCell_like {exprs : List String} {rows : Table} (h : Raw exprs rows) (hr : rows ≠ [])
    (hones : Table.total (List.replicate rows.length (.ofNat 1)) = .ofNat rows.length)
    {expr : String} (he : expr ∈ exprs)
    (havg : ∀ a, Aggregate.read? expr = some a → a.function ≠ .avg) :
    (outputCell exprs rows expr).Like (rows.summaryCell expr) := by
  rw [Table.summaryCell]
  cases ha : Aggregate.read? expr with
  | none =>
    have hcol : (Output.ofExpr expr).aggregate = none := by rw [Output.ofExpr, ha]; rfl
    rw [outputCell_column hcol]
    exact .refl _
  | some a =>
    have hagg : (Output.ofExpr expr).aggregate = some a := by
      simp [Output.ofExpr, ha, Option.filter, havg a ha]
    have hmap : rows.map (fun row => (row.cell a.argument.text).toNumber) ≠ [] := by simpa using hr
    simp only [Table.aggregate]
    cases hf : a.function with
    | count =>
      rw [outputCell_count (by simp [Output.isCount, hagg, hf]), count_eq_ones h, hones]
      exact .refl _
    | avg => exact absurd hf (havg a ha)
    | sum =>
      -- The one output that the two start differently.
      rw [outputCell_combined (by rw [Output.combined?, hagg, Option.bind_some, hf]), parts_eq h he]
      exact reduce_add_like hmap
    | min | max =>
      rw [outputCell_combined (by rw [Output.combined?, hagg, Option.bind_some, hf]), parts_eq h he]
      exact .refl _

/-! ## Grouping by nothing -/

theorem keys_nil {rows : Table} (h : rows ≠ []) : keys (·.groupKey []) rows = [""] := by
  obtain ⟨first, rest, rfl⟩ := List.exists_cons_of_ne_nil h
  have hrest : (rest.map (·.groupKey [])).filter (fun b => !b == "") = [] := by
    rw [List.filter_eq_nil_iff]
    intro b hb
    obtain ⟨row, -, rfl⟩ := List.mem_map.1 hb
    exact Bool.eq_false_iff.1 rfl
  rw [keys, List.map_cons, List.eraseDups_cons, show first.groupKey [] = "" from rfl, hrest]
  rfl

theorem members_nil (rows : Table) : members (·.groupKey []) rows "" = rows :=
  List.filter_eq_self.2 fun _ _ => decide_eq_true rfl

end Grouping

namespace Table

open Grouping

/-- One `nan` among the numbers is enough. -/
theorem reduce_nan {combine : Binary64 → Binary64 → Binary64} (h : Binary64.Absorbs combine)
    {numbers : List Binary64} (hnan : .nan ∈ numbers) : reduce combine numbers = .number .nan := by
  obtain ⟨x, rest, rfl⟩ := List.exists_cons_of_ne_nil (List.ne_nil_of_mem hnan)
  exact congrArg Cell.number (h.foldl ((List.mem_cons.1 hnan).imp_left Eq.symm))

/-- One row without a number makes an aggregate `nan`, unless it counts. -/
theorem aggregate_nan {rows : Table} {e : Aggregate} (hf : e.function ≠ .count)
    (hnan : .nan ∈ rows.map fun row => (row.cell e.argument.text).toNumber) :
    rows.aggregate e = .number .nan := by
  have htotal : total (rows.map fun row => (row.cell e.argument.text).toNumber) = .nan :=
    Binary64.absorbs_add.foldl (.inr hnan)
  rw [aggregate]
  cases hfunction : e.function with
  | count => exact absurd hfunction hf
  | sum => simp only [htotal]
  | avg => simp only [htotal, Binary64.div]
  | min => exact reduce_nan Binary64.absorbs_min hnan
  | max => exact reduce_nan Binary64.absorbs_max hnan

/-- An aggregate depends on the numbers of its argument alone. -/
theorem aggregate_congr {a b : Table} {e : Aggregate}
    (h : a.map (fun row => (row.cell e.argument.text).toNumber) =
      b.map fun row => (row.cell e.argument.text).toNumber) : a.aggregate e = b.aggregate e := by
  have hlength : a.length = b.length := by simpa using congrArg List.length h
  simp only [aggregate, h, hlength]

theorem get?_summarize (rows : Table) {exprs : List String} {expr : String} (he : expr ∈ exprs) :
    (rows.summarize exprs).get? expr = some (rows.summaryCell expr) := by
  rw [summarize, Row.get?_ofList_map, if_pos he]

/-- Grouping gives one row for each key, in the order of first rows. A grouping column holds the
cell of the group's first row, and any other output but AVG what a summary of the group's rows
holds. Grouping by nothing is summarizing. -/
theorem groupBy_summarize (rows : Table) (names exprs : List String)
    (hraw : ∀ row ∈ rows, ∀ expr ∈ exprs, ∀ x, row.get? expr ≠ some (.number x))
    (hones : ∀ n ≤ rows.length, total (List.replicate n (.ofNat 1)) = .ofNat n) :
    (rows.groupBy names exprs).map (·.groupKey names) = (rows.map (·.groupKey names)).eraseDups ∧
      (∀ row ∈ rows.groupBy names exprs, ∃ first rest,
        rows.filter (·.groupKey names = row.groupKey names) = first :: rest ∧
          (∀ name ∈ names, row.get? name = some (first.cell name)) ∧
          ∀ expr ∈ exprs, expr ∉ names → (∀ a, Aggregate.read? expr = some a → a.function ≠ .avg) →
            ∃ cell summary, row.get? expr = some cell ∧
              (summarize (first :: rest) exprs).get? expr = some summary ∧ cell.Like summary) ∧
      (rows ≠ [] → (∀ expr ∈ exprs, ∀ a, Aggregate.read? expr = some a → a.function ≠ .avg) →
        ∃ row, rows.groupBy [] exprs = [row] ∧ row.Like (rows.summarize exprs)) := by
  have hlike (ks : List String) (k : String) (hk : k ∈ keys (·.groupKey ks) rows) {expr : String}
      (he : expr ∈ exprs)
      (havg : ∀ a, Aggregate.read? expr = some a → a.function ≠ .avg) :
      (outputCell exprs (members (·.groupKey ks) rows k) expr).Like
        (summaryCell (members (·.groupKey ks) rows k) expr) :=
    outputCell_like (fun row hr => hraw row (List.mem_filter.1 hr).1) (members_ne_nil _ hk)
      (hones _ (List.length_filter_le _ _)) he havg
  refine ⟨map_groupKey_groupBy rows names exprs, fun row hrow => ?_, fun hrows havg => ?_⟩
  · -- The row of one key.
    rw [groupBy_eq] at hrow
    obtain ⟨k, hk, rfl⟩ := List.mem_map.1 hrow
    obtain ⟨first, rest, hm⟩ := List.exists_cons_of_ne_nil (members_ne_nil (·.groupKey names) hk)
    refine ⟨first, rest, ?_, fun name hn => ?_, fun expr he hn havg => ?_⟩
    · rw [groupKey_groupRow names exprs hk]
      exact hm
    · rw [get?_groupRow, if_pos hn, hm]
      rfl
    · refine ⟨_, _, ?_, get?_summarize _ he, hm ▸ hlike names k hk he havg⟩
      rw [get?_groupRow, if_neg hn, if_pos he, hm]
  · -- All rows have the empty key.
    have hkeys := keys_nil hrows
    refine ⟨groupRow [] exprs rows, by rw [groupBy_eq, hkeys, List.map_singleton, members_nil], ?_⟩
    have hnames : (groupRow [] exprs rows).names = (rows.summarize exprs).names := by
      rw [names_groupRow, summarize, Row.names_ofList_map, List.nil_append]
    refine Row.like_of_cells hnames fun expr hm => ?_
    rw [names_groupRow, List.nil_append, List.mem_eraseDups] at hm
    have hcell : (groupRow [] exprs rows).get? expr = some (outputCell exprs rows expr) := by
      rw [get?_groupRow, if_neg List.not_mem_nil, if_pos hm]
    rw [Row.cell_of_get? hcell, Row.cell_of_get? (get?_summarize rows hm)]
    have h := hlike [] "" (by rw [hkeys]; exact List.mem_singleton_self _) hm (havg expr hm)
    rwa [members_nil] at h

/-- Readings of two sensors, one of them not a number. -/
def readings : Table :=
  [("a", "2.5"), ("b", "broken"), ("a", "-0")].map fun (sensor, value) =>
    Row.ofList [("sensor", .text sensor), ("value", .text value)]

theorem groupBy_readings :
    (readings.groupBy ["sensor"] ["SUM(value)", "COUNT(*)", "value"]).map (·.groupKey ["sensor"]) =
      ["a", "b"] ∧
      ∃ row, readings.groupBy [] ["SUM(value)", "COUNT(*)", "value"] = [row] ∧
        row.Like (readings.summarize ["SUM(value)", "COUNT(*)", "value"]) := by
  have havg : ∀ expr ∈ ["SUM(value)", "COUNT(*)", "value"],
      (Aggregate.read? expr).all (·.function ≠ .avg) = true := by decide
  obtain ⟨hkeys, -, hall⟩ := groupBy_summarize readings ["sensor"]
    ["SUM(value)", "COUNT(*)", "value"]
    (raw_of_cells (by decide))
    (fun n hn => Binary64.ones_eq_ofNat (hn.trans (by decide)))
  refine ⟨hkeys, hall (by decide) fun expr he a ha => ?_⟩
  have h := havg expr he
  rw [ha] at h
  simpa using h

end Table

end Tabular
