import Tabular.Proofs.Regrouping
/-!
# The columns of an answer

The columns of an answer follow from the query alone. Every last stage builds its rows name by name
and drops a name that is there already, so tables, joins and conditions decide which rows there are
and what they hold, but not under which names.
-/

namespace Tabular

/-! ## Stages -/

theorem Row.names_project (row : Row) (names : List String) :
    (row.project names).names = names.eraseDups :=
  Row.names_ofList_map _ names

namespace Table

theorem names_summarize (rows : Table) (exprs : List String) :
    (rows.summarize exprs).names = exprs.eraseDups :=
  Row.names_ofList_map _ exprs

theorem names_groupBy {rows : Table} {names exprs : List String} {row : Row}
    (h : row ∈ rows.groupBy names exprs) : row.names = (names ++ exprs).eraseDups := by
  rw [Grouping.groupBy_eq] at h
  obtain ⟨k, -, rfl⟩ := List.mem_map.1 h
  exact Grouping.names_groupRow names exprs _

theorem groupKey_nodup (rows : Table) (names exprs : List String) :
    ((rows.groupBy names exprs).map (·.groupKey names)).Nodup := by
  rw [Grouping.map_groupKey_groupBy]
  exact Grouping.keys_nodup _ rows

end Table

/-! ## Answers -/

namespace Query

/-- The columns of an answer: the select list, behind the grouping columns if the query is grouped
and not summarized. A repeated name stands where it comes first. -/
def columns (query : Query) : List String :=
  match query.summarized, query.groupBy with
  | false, some names => (names ++ query.fields).eraseDups
  | _, _ => query.fields.eraseDups

theorem columns_nodup (query : Query) : query.columns.Nodup := by
  rw [columns]
  split <;> exact nodup_eraseDups _

theorem names_outputRows {query : Query} {kept : Table} {row : Row}
    (h : row ∈ query.outputRows kept) : row.names = query.columns := by
  rw [outputRows] at h
  rw [columns]
  cases hflag : query.summarized with
  | true =>
    rw [hflag, if_pos rfl, List.mem_singleton] at h
    rw [h]
    exact Table.names_summarize kept query.fields
  | false =>
    rw [hflag, if_neg Bool.false_ne_true] at h
    cases hgroup : query.groupBy with
    | some names =>
      rw [hgroup] at h
      exact Table.names_groupBy h
    | none =>
      rw [hgroup] at h
      obtain ⟨source, -, rfl⟩ := List.mem_map.1 h
      exact source.names_project query.fields

/-- An answer is what the last stage makes of the rows that the conditions leave. -/
theorem exists_outputRows {loader : Loader} {elapsed : String} {query : Query} {rows : Table}
    (h : (query.execute loader elapsed).outcome = .ok rows) : ∃ kept, rows = query.outputRows kept := by
  rw [outcome_execute] at h
  obtain ⟨source, -, h⟩ := exists_of_bind h
  obtain ⟨kept, -, h⟩ := exists_of_bind h
  cases h
  exact ⟨kept, rfl⟩

/-- All rows of an answer have the columns of the query. A summarized query has one row, and the rows
of a grouped one have distinct keys. -/
theorem outcome_columns (loader : Loader) (elapsed : String) (query : Query) (rows : Table)
    (h : (query.execute loader elapsed).outcome = .ok rows) :
    query.columns.Nodup ∧ (∀ row ∈ rows, row.names = query.columns) ∧
      (query.summarized = true → ∃ row, rows = [row]) ∧
      ∀ names, query.groupBy = some names → query.summarized = false →
        (rows.map (·.groupKey names)).Nodup := by
  obtain ⟨kept, rfl⟩ := exists_outputRows h
  refine ⟨query.columns_nodup, fun row hr => names_outputRows hr, fun hflag => ?_,
    fun names hgroup hflag => ?_⟩
  · exact ⟨kept.summarize query.fields, if_pos hflag⟩
  · simp only [outputRows, hflag, hgroup]
    exact Table.groupKey_nodup kept names query.fields

/-- The employees of one department, grouped by a column that is not selected. Names are repeated in
both lists. -/
def repeatedNames : Query :=
  (select "employees" ["COUNT(*)", "dept", "COUNT(*)"]).withCondition ⟨"dept", "=", "eng"⟩
    |>.withGroupBy ["rank", "dept", "rank"]

theorem outcome_repeatedNames :
    ∃ rows,
      (repeatedNames.execute (.ofTables [("employees", employees)]) "0").outcome = .ok rows ∧
        rows.length = 2 ∧ (∀ row ∈ rows, row.names = ["rank", "dept", "COUNT(*)"]) ∧
        (rows.map (·.groupKey ["rank", "dept", "rank"])).Nodup := by
  let answer := (repeatedNames.execute (.ofTables [("employees", employees)]) "0").outcome
  have hlength : answer.toOption.map List.length = some 2 := by decide +kernel
  have hcolumns : repeatedNames.columns = ["rank", "dept", "COUNT(*)"] := by decide
  cases h : answer with
  | error error =>
    rw [h] at hlength
    cases hlength
  | ok rows =>
    obtain ⟨-, hnames, -, hkeys⟩ := outcome_columns _ _ repeatedNames rows h
    rw [h] at hlength
    rw [hcolumns] at hnames
    exact ⟨rows, h, Option.some.inj hlength, hnames, hkeys _ rfl rfl⟩

end Query

end Tabular
