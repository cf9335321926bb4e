import Tabular.Proofs.Answers
import Tabular.Proofs.Groups
/-!
# Grouping a grouped table again

A grouped query groups twice: once before its conditions are applied, and once more on the grouped
rows that are left. The second pass changes nothing, whichever rows are left: their keys are
distinct, so every group is a single row, and that row's numbers are taken as partial results. The
conditions of a grouped query therefore act on the groups.

A count that is also a grouping column is left out where the column holds numbers: there the
partial count of a grouped row would be a cell of the original table.
-/

namespace Tabular

namespace Grouping

/-! ## A grouped row as a group of its own -/

theorem weight_of_counts {outputs : List Output} {row : Row} {c : Binary64}
    (hsome : ∃ output ∈ outputs, output.isCount = true ∧ output.partial? row = some c)
    (hall : ∀ output ∈ outputs, output.isCount = true → ∀ x, output.partial? row = some x → x = c) :
    weight outputs row = c := by
  rw [weight]
  cases hx : (outputs.filter Output.isCount).findSome? (·.partial? row) with
  | none =>
    obtain ⟨output, ho, hc, hp⟩ := hsome
    have hnone := List.findSome?_eq_none_iff.1 hx output (List.mem_filter.2 ⟨ho, hc⟩)
    rw [hp] at hnone
    cases hnone
  | some x =>
    obtain ⟨output, ho, hp⟩ := List.exists_of_findSome?_eq_some hx
    obtain ⟨ho, hc⟩ := List.mem_filter.1 ho
    exact hall output ho hc x hp

/-- A count is a sum from zero, so it is never negative zero. -/
theorem count_ne_negative_zero (outputs : List Output) (rows : Table) :
    count outputs rows ≠ .zero true := by
  apply Binary64.foldl_add_ne_negative_zero
  intro h
  exact Bool.noConfusion (Binary64.zero_inj h)

theorem partial?_groupRow {names exprs : List String} {expr : String} (he : expr ∈ exprs)
    (hn : expr ∉ names) {rows : Table} {x : Binary64}
    (hx : outputCell exprs rows expr = .number x) :
    (Output.ofExpr expr).partial? (groupRow names exprs rows) = some x := by
  have hg : (groupRow names exprs rows).get? (Output.ofExpr expr).name = some (.number x) := by
    rw [← hx]
    exact get?_output he hn rows
  rw [Output.partial?, hg]
  rfl

/-- No grouping column that counts holds a number. -/
def Uncounted (names exprs : List String) (rows : Table) : Prop :=
  ∀ row ∈ rows, ∀ name ∈ names, name ∈ exprs → (Output.ofExpr name).isCount = true →
    (row.cell name).number? = none

theorem uncounted_of_not_count {names exprs : List String}
    (h : ∀ name ∈ names, name ∈ exprs → (Output.ofExpr name).isCount = false) (rows : Table) :
    Uncounted names exprs rows := by
  intro row _ name hn he hc
  rw [h name hn he] at hc
  cases hc

theorem Uncounted.firstCell {names exprs : List String} {rows : Table}
    (h : Uncounted names exprs rows) {name : String} (hn : name ∈ names) (he : name ∈ exprs)
    (hc : (Output.ofExpr name).isCount = true) : (rows.firstCell name).number? = none := by
  cases rows with
  | nil => rfl
  | cons first rest => exact h first List.mem_cons_self name hn he hc

/-- A group's row stands for as many rows as the group had. -/
theorem weight_groupRow {names exprs : List String} {expr : String} (he : expr ∈ exprs)
    (hn : expr ∉ names) (hc : (Output.ofExpr expr).isCount = true) {rows : Table}
    (hcount : Uncounted names exprs rows) :
    weight (exprs.map Output.ofExpr) (groupRow names exprs rows) =
      count (exprs.map Output.ofExpr) rows := by
  refine weight_of_counts ⟨_, List.mem_map_of_mem he, hc,
    partial?_groupRow he hn (outputCell_count hc exprs rows)⟩ fun output ho hoc x hx => ?_
  obtain ⟨e, hem, rfl⟩ := List.mem_map.1 ho
  by_cases hen : e ∈ names
  · -- A grouping column keeps the cell of the first row, and that is no number.
    have hcell : (groupRow names exprs rows).get? (Output.ofExpr e).name =
        some (rows.firstCell e) :=
      (get?_groupRow names exprs rows e).trans (if_pos hen)
    rw [Output.partial?, hcell, Option.bind_some, hcount.firstCell hen hem hoc] at hx
    cases hx
  · rw [partial?_groupRow hem hen (outputCell_count hoc exprs rows)] at hx
    exact (Option.some.inj hx).symm

theorem count_groupRow {names exprs : List String} {expr : String} (he : expr ∈ exprs)
    (hn : expr ∉ names) (hc : (Output.ofExpr expr).isCount = true) {rows : Table}
    (hcount : Uncounted names exprs rows) :
    count (exprs.map Output.ofExpr) [groupRow names exprs rows] =
      count (exprs.map Output.ofExpr) rows := by
  rw [count, List.foldl_cons, List.foldl_nil, weight_groupRow he hn hc hcount]
  exact Binary64.positive_zero_add (count_ne_negative_zero _ rows)

/-- The outputs of a group's row, taken as a group of its own, are the outputs of the group. -/
theorem outputCell_groupRow {names exprs : List String} {expr : String} (he : expr ∈ exprs)
    (hn : expr ∉ names) {rows : Table} (hcount : Uncounted names exprs rows) (hr : rows ≠ []) :
    outputCell exprs [groupRow names exprs rows] expr = outputCell exprs rows expr := by
  rcases Output.kinds expr with hcol | hc | ⟨combine, argument, hcomb⟩
  · -- A column holds the cell already.
    rw [outputCell_column hcol exprs [_]]
    exact Row.cell_of_get? (get?_output he hn rows)
  · -- A count takes the row for as many rows as the group had.
    rw [outputCell_count hc, outputCell_count hc, count_groupRow he hn hc hcount]
  · -- A combined number starts from the partial result and ends there.
    obtain ⟨first, rest, rfl⟩ := List.exists_cons_of_ne_nil hr
    rw [outputCell_combined hcomb exprs [_], List.map_singleton]
    have hx := outputCell_combined hcomb exprs (first :: rest)
    rw [List.map_cons, Table.reduce] at hx
    rw [Table.reduce, Output.part, partial?_groupRow he hn hx, Option.getD_some, hx]
    rfl

theorem groupRow_groupRow {names exprs : List String} {rows : Table}
    (hcount : Uncounted names exprs rows) (hr : rows ≠ []) :
    groupRow names exprs [groupRow names exprs rows] = groupRow names exprs rows := by
  refine Row.ext_names (by rw [names_groupRow, names_groupRow]) fun name hm => ?_
  rw [names_groupRow, List.mem_eraseDups, List.mem_append] at hm
  by_cases hn : name ∈ names
  · exact Row.cell_of_get? (by rw [get?_groupRow, if_pos hn]; rfl)
  · have he : name ∈ exprs := hm.resolve_left hn
    rw [Row.cell_of_get? (get?_output he hn _), Row.cell_of_get? (get?_output he hn _),
      outputCell_groupRow he hn hcount hr]

/-! ## Tables with distinct keys -/

theorem keys_of_distinct {key : Row → String} {rows : Table} (h : (rows.map key).Nodup) :
    keys key rows = rows.map key :=
  eraseDups_of_nodup h

theorem members_of_distinct {key : Row → String} {rows : Table} (h : (rows.map key).Nodup)
    {row : Row} (hr : row ∈ rows) : members key rows (key row) = [row] := by
  induction rows with
  | nil => cases hr
  | cons first rest ih =>
    obtain ⟨hf, hn⟩ := List.nodup_cons.1 h
    rcases List.mem_cons.1 hr with rfl | hr
    · have hrest : members key rest (key row) = [] := by
        apply members_eq_nil
        intro hk
        exact hf (List.mem_eraseDups.1 hk)
      simpa [members] using hrest
    · have hne : key first ≠ key row := fun he => hf (he ▸ List.mem_map_of_mem hr)
      have hfirst : members key (first :: rest) (key row) = members key rest (key row) := by
        simp [members, hne]
      rw [hfirst, ih hn hr]

/-- A table whose keys are distinct is grouped row by row. -/
theorem groupBy_of_distinct {rows : Table} {names : List String}
    (h : (rows.map (·.groupKey names)).Nodup) (exprs : List String) :
    rows.groupBy names exprs = rows.map fun row => groupRow names exprs [row] := by
  rw [groupBy_eq, keys_of_distinct h, List.map_map]
  apply List.map_congr_left
  intro row hr
  rw [Function.comp_apply, members_of_distinct h hr]

/-- Grouping again any rows that are left of a grouped table changes nothing. -/
theorem groupBy_of_uncounted {rows kept : Table} {names exprs : List String}
    (hcount : Uncounted names exprs rows) (h : kept.Sublist (rows.groupBy names exprs)) :
    kept.groupBy names exprs = kept := by
  -- The keys of the rows that are left are some of the keys of the groups.
  have hn : (kept.map (·.groupKey names)).Nodup := by
    refine List.Nodup.sublist (h.map _) ?_
    rw [map_groupKey_groupBy]
    exact keys_nodup _ rows
  rw [groupBy_of_distinct hn]
  conv_rhs => rw [← List.map_id kept]
  apply List.map_congr_left
  intro row hr
  have hg := h.subset hr
  rw [groupBy_eq] at hg
  obtain ⟨k, hk, rfl⟩ := List.mem_map.1 hg
  exact groupRow_groupRow (fun row hr => hcount row (List.mem_filter.1 hr).1) (members_ne_nil _ hk)

theorem groupBy_of_sublist {rows kept : Table} {names exprs : List String}
    (hcount : ∀ name ∈ names, name ∈ exprs → (Output.ofExpr name).isCount = false)
    (h : kept.Sublist (rows.groupBy names exprs)) : kept.groupBy names exprs = kept :=
  groupBy_of_uncounted (uncounted_of_not_count hcount rows) h

end Grouping

/-! ## Grouped queries -/

namespace Query

theorem isCount_eq_false {name : String}
    (h : ∀ a, Aggregate.read? name = some a → a.function ≠ .count) :
    (Grouping.Output.ofExpr name).isCount = false := by
  rw [Grouping.Output.isCount]
  split
  · rename_i a ha
    simpa using h a (Option.filter_eq_some_iff.1 ha).1
  · rfl

/-- The conditions of a grouped query act on the groups: the second grouping changes nothing. -/
theorem outcome_grouped (loader : Loader) (elapsed : String) (query : Query) (names : List String)
    (rows : Table)
    (hsource : query.source loader = .ok rows) (hgroup : query.groupBy = some names)
    (hflag : query.summarized = false)
    (hops : ∀ condition ∈ query.conditions, condition.operator ∈ Condition.operators)
    (hcount : ∀ name ∈ names, name ∈ query.fields →
      ∀ a, Aggregate.read? name = some a → a.function ≠ .count) :
    (∀ kept : Table, kept.Sublist (rows.groupBy names query.fields) →
      kept.groupBy names query.fields = kept) ∧
      ∃ kept, (rows.groupBy names query.fields).filterBy query.conditions = .ok kept ∧
        (query.execute loader elapsed).outcome = .ok kept := by
  have hstable : ∀ kept : Table, kept.Sublist (rows.groupBy names query.fields) →
      kept.groupBy names query.fields = kept := by
    intro kept
    apply Grouping.groupBy_of_sublist
    intro name hn he
    exact isCount_eq_false (hcount name hn he)
  refine ⟨hstable, ?_⟩
  obtain ⟨kept, hkept⟩ := Table.filterBy_total (rows.groupBy names query.fields) hops
  have hfiltered : (query.grouped rows).filterBy query.conditions = .ok kept := by
    rw [grouped, hgroup]
    exact hkept
  have houtput : query.outputRows kept = kept := by
    simp only [outputRows, hflag, hgroup]
    exact hstable kept (Table.filterBy_sublist hkept)
  refine ⟨kept, hkept, ?_⟩
  rw [outcome_execute, hsource]
  change ((query.grouped rows).filterBy query.conditions >>=
    fun kept => .ok (query.outputRows kept)) = .ok kept
  rw [hfiltered]
  exact congrArg Except.ok houtput

/-- Three employees of two departments. -/
def employees : Table :=
  [("eng", "4"), ("hr", "7"), ("eng", "n/a")].map fun (dept, rank) =>
    Row.ofList [("dept", .text dept), ("rank", .text rank)]

/-- The departments with more than one employee. -/
def largeDepartments : Query :=
  (select "employees" ["MAX(rank)", "COUNT(*)", "dept"]).withCondition ⟨"COUNT(*)", ">", "1"⟩
    |>.withGroupBy ["dept"]

theorem outcome_largeDepartments :
    largeDepartments.source (.ofTables [("employees", employees)]) = .ok employees ∧
      ∃ kept,
        (employees.groupBy ["dept"] largeDepartments.fields).filterBy largeDepartments.conditions =
          .ok kept ∧
        (largeDepartments.execute (.ofTables [("employees", employees)]) "0").outcome = .ok kept := by
  have hcolumn : Aggregate.read? "dept" = none := by decide
  refine ⟨rfl,
    (outcome_grouped _ _ largeDepartments ["dept"] employees rfl rfl rfl (by decide) ?_).2⟩
  intro name hn _ a ha
  rw [List.mem_singleton.1 hn, hcolumn] at ha
  cases ha

end Query

end Tabular
