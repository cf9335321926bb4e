import Tabular.Engine
import Tabular.Proofs.Filtering
/-!
# The outcome of a query

What `execute` returns, without what it logs: load, join, group, filter and the last stage, each on
the rows of the one before.
-/

namespace Tabular

namespace Logged
variable {α β : Type}

theorem outcome_bind (first : Logged α) (next : α → Logged β) :
    (first >>= next).outcome = first.outcome >>= fun value => (next value).outcome := by
  change (Logged.bind first next).outcome = _
  rw [Logged.bind]
  cases first.outcome <;> rfl

end Logged

/-! ## Stages -/

namespace Query

/-- The rows a query starts from: those of its table, joined if it asks for a join. -/
def source (loader : Loader) (query : Query) : Except LoadError Table := do
  let base ← loader.load query.table
  match query.join with
  | none => return base
  | some join =>
    let joined ← loader.load join.table
    return Table.join join.kind base joined join.condition query.fields query.table

/-- The rows that the conditions see. -/
def grouped (query : Query) (rows : Table) : Table :=
  match query.groupBy with
  | none => rows
  | some names => rows.groupBy names query.fields

theorem outcome_sourceRows (loader : Loader) (query : Query) :
    (query.sourceRows loader).outcome = (query.source loader).mapError .load := by
  rw [sourceRows, Logged.outcome_bind, source]
  simp only [Loader.fetch]
  cases loader.load query.table with
  | error error => rfl
  | ok base =>
    cases query.join with
    | none => rfl
    | some join =>
      simp only [bind, Except.bind, Logged.bind]
      cases loader.load join.table <;> rfl

theorem outcome_groupedRows (query : Query) (rows : Table) :
    (query.groupedRows rows).outcome = .ok (query.grouped rows) := by
  rw [groupedRows, grouped]
  cases query.groupBy <;> rfl

theorem outcome_filteredRows (query : Query) (rows : Table) :
    (query.filteredRows rows).outcome = rows.filterBy query.conditions := by
  rw [filteredRows]
  cases rows.filterBy query.conditions <;> rfl

/-- The outcome of a query, stage by stage. -/
theorem outcome_execute (loader : Loader) (elapsed : String) (query : Query) :
    (query.execute loader elapsed).outcome = do
      let rows ← (query.source loader).mapError .load
      let kept ← (query.grouped rows).filterBy query.conditions
      return query.outputRows kept := by
  simp only [execute, answer, Logged.outcome_bind, outcome_sourceRows, outcome_groupedRows,
    outcome_filteredRows]
  rfl

/-! ## Stages that go well -/

section Sources
variable {loader : Loader} {query : Query}

theorem source_of_load {rows : Table} (hload : loader.load query.table = .ok rows)
    (hjoin : query.join = none) : query.source loader = .ok rows := by
  rw [source, hload, hjoin]
  rfl

theorem source_of_loads {left right : Table} {join : JoinClause}
    (hleft : loader.load query.table = .ok left) (hjoin : query.join = some join)
    (hright : loader.load join.table = .ok right) :
    query.source loader =
      .ok (Table.join join.kind left right join.condition query.fields query.table) := by
  rw [source, hleft, hjoin]
  change (loader.load join.table >>= fun joined => .ok _) = _
  rw [hright]
  rfl

/-- Once there are rows, only the conditions can fail. -/
theorem outcome_of_source {rows : Table} (elapsed : String) (h : query.source loader = .ok rows) :
    (query.execute loader elapsed).outcome =
      ((query.grouped rows).filterBy query.conditions).map query.outputRows := by
  rw [outcome_execute, h]
  change ((query.grouped rows).filterBy query.conditions >>= fun kept => .ok _) = _
  cases (query.grouped rows).filterBy query.conditions <;> rfl

end Sources

end Query

end Tabular
