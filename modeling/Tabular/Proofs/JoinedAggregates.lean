import Tabular.Proofs.AggregateForms
import Tabular.Proofs.GroupSummaries
import Tabular.Proofs.JoinedAnswers
/-!
# Aggregates of joined columns

The rows of a join hold the entries of the select list and nothing else. An aggregate reads its
argument, and the argument of an aggregate is no entry of its own: where it is not selected beside the
aggregate, it is missing in every joined row. The aggregate of a joined column is then `nan`, unless
it counts or there is nothing to aggregate.
-/

namespace Tabular

/-! ## Summaries -/

namespace Table

theorem cell_summarize {rows : Table} {exprs : List String} {expr : String} {e : Aggregate}
    (h : expr ∈ exprs) (hread : Aggregate.read? expr = some e) :
    (rows.summarize exprs).cell expr = rows.aggregate e := by
  rw [Row.cell_of_get? (get?_summarize rows h), summaryCell, hread]

end Table

/-! ## Joined columns -/

namespace Join

/-- The numbers of a selected column come from the two tables. -/
theorem map_number_join {fields : List String} {name : String} (h : name ∈ fields) (kind : JoinKind)
    (left right : Table) (condition : JoinCondition) (base : String) :
    (Table.join kind left right condition fields base).map (fun row => (row.cell name).toNumber) =
      (joinedPairs kind condition left right).map fun pair =>
        (sourceCell base pair.1 pair.2 name).toNumber := by
  rw [Table.join, pairs_eq_joinedPairs, List.map_map]
  apply List.map_congr_left
  intro pair _
  rw [Function.comp_apply, cell_merge fields base pair h]

/-- A column that is not selected is missing in every joined row. -/
theorem cell_join_unselected {fields : List String} {name : String} (h : name ∉ fields)
    {kind : JoinKind} {left right : Table} {condition : JoinCondition} {base : String} {row : Row}
    (hr : row ∈ Table.join kind left right condition fields base) : row.cell name = .null := by
  obtain ⟨pair, -, rfl⟩ := List.mem_map.1 hr
  have hnone : (merge fields base pair).get? name = none := by
    apply Row.get?_eq_none
    rwa [names_merge, List.mem_eraseDups]
  rw [Row.cell, hnone]
  rfl

end Join

/-! ## Arguments -/

namespace Aggregate

theorem parenthesis_notMem {cs : List Char} (h : Written.IsColumn cs) : '(' ∉ cs := by
  have hidentifier {cs : List Char} (h : Written.IsIdentifier cs) : '(' ∉ cs :=
    fun hc => absurd (h.2 _ hc) (by decide)
  rcases h with h | ⟨table, column, htable, hcolumn, rfl⟩
  · exact hidentifier h
  · simp [hidentifier htable, hidentifier hcolumn]

/-- An aggregate is not the name of its argument: it has parentheses, and a name has none. -/
theorem argument_ne {expr name : String} {function : Function}
    (h : read? expr = some ⟨function, .column name⟩) : name ≠ expr := by
  rintro rfl
  obtain ⟨form, hform⟩ := exists_form_of_read? h
  refine parenthesis_notMem form.fits ?_
  rw [hform]
  simp [Form.text]

end Aggregate

/-! ## Join queries -/

namespace Query
open Join

section Aggregates
variable {fields selected : List String} {expr name : String} {function : Aggregate.Function}
  {kind : JoinKind} {condition : JoinCondition} {left right : Table} {base : String}

/-- An aggregate does not see which columns are selected beside its argument. -/
theorem aggregate_join_selected (hf : name ∈ fields) (hs : name ∈ selected) :
    (Table.join kind left right condition fields base).aggregate ⟨function, .column name⟩ =
      (Table.join kind left right condition selected base).aggregate ⟨function, .column name⟩ := by
  apply Table.aggregate_congr
  rw [Aggregate.Argument.text, map_number_join hf, map_number_join hs]

theorem aggregate_join_count (fields selected : List String) :
    (Table.join kind left right condition fields base).aggregate ⟨.count, .column name⟩ =
      (Table.join kind left right condition selected base).aggregate ⟨.count, .column name⟩ := by
  simp only [Table.aggregate, Table.join, List.length_map]

theorem join_nil (h : joinedPairs kind condition left right = []) (fields : List String) :
    Table.join kind left right condition fields base = [] := by
  rw [Table.join, pairs_eq_joinedPairs, h, List.map_nil]

theorem aggregate_join_unselected (hf : name ∉ fields)
    (hpairs : joinedPairs kind condition left right ≠ []) (hcount : function ≠ .count) :
    (Table.join kind left right condition fields base).aggregate ⟨function, .column name⟩ =
      .number .nan := by
  obtain ⟨pair, hp⟩ := List.exists_mem_of_ne_nil _ hpairs
  have hrow : merge fields base pair ∈ Table.join kind left right condition fields base := by
    rw [Table.join, pairs_eq_joinedPairs]
    exact List.mem_map_of_mem hp
  refine Table.aggregate_nan hcount (List.mem_map.2 ⟨_, hrow, ?_⟩)
  rw [Aggregate.Argument.text, cell_join_unselected hf hrow]
  rfl

end Aggregates

/-- A join query without clauses whose select list has an aggregate gives the summary of its rows. -/
theorem outcome_join_summary (loader : Loader) (elapsed base : String) {fields : List String}
    {join : JoinClause} {left right : Table} (hleft : loader.load base = .ok left)
    (hright : loader.load join.table = .ok right) (haggregate : hasAggregate fields = true) :
    (((select base fields).withJoin join).execute loader elapsed).outcome =
      .ok [(Table.join join.kind left right join.condition fields base).summarize fields] := by
  have hsource : ((select base fields).withJoin join).source loader =
      .ok (Table.join join.kind left right join.condition fields base) :=
    source_of_loads hleft rfl hright
  have hkept : ∀ rows : Table, rows.filterBy [] = .ok rows := by
    intro rows
    rw [Table.filterBy_supported rows (List.forall_mem_nil _)]
    simp
  rw [outcome_of_source elapsed hsource]
  exact (congrArg (Except.map _) (hkept _)).trans
    (congrArg Except.ok (if_pos haggregate))

/-- The aggregate of a joined column is the aggregate of the column where it is selected, if it is
selected beside the aggregate. Otherwise it is `nan`, as soon as there is a pair to aggregate and the
function does not count. An aggregate is not the name of its column, so a select list of one aggregate
is such a case. -/
theorem outcome_joined_aggregate (loader : Loader) (elapsed base : String)
    (fields selected : List String) (join : JoinClause) (left right : Table)
    (hleft : loader.load base = .ok left) (hright : loader.load join.table = .ok right)
    {expr name : String} {function : Aggregate.Function} (hexpr : expr ∈ fields)
    (hread : Aggregate.read? expr = some ⟨function, .column name⟩) (hselected : name ∈ selected) :
    let pairs := joinedPairs join.kind join.condition left right
    let summary :=
      ((Table.join join.kind left right join.condition selected base).summarize [expr]).cell expr
    name ≠ expr ∧
      ∃ row, (((select base fields).withJoin join).execute loader elapsed).outcome = .ok [row] ∧
        ((row.cell expr).Like summary ↔
          name ∈ fields ∨ pairs = [] ∨ function = .count ∨ summary = .number .nan) ∧
        (name ∉ fields → pairs ≠ [] → function ≠ .count → row.cell expr = .number .nan) := by
  intro pairs summary
  have haggregate : hasAggregate fields = true :=
    List.any_eq_true.2 ⟨expr, hexpr, by rw [hread]; rfl⟩
  have hcell :
      ((Table.join join.kind left right join.condition fields base).summarize fields).cell expr =
        (Table.join join.kind left right join.condition fields base).aggregate
          ⟨function, .column name⟩ :=
    Table.cell_summarize hexpr hread
  have hsummary : summary =
      (Table.join join.kind left right join.condition selected base).aggregate
        ⟨function, .column name⟩ :=
    Table.cell_summarize List.mem_cons_self hread
  have hmissing : name ∉ fields → pairs ≠ [] → function ≠ .count →
      ((Table.join join.kind left right join.condition fields base).summarize fields).cell expr =
        .number .nan := by
    intro hname hpairs hcount
    rw [hcell]
    exact aggregate_join_unselected hname hpairs hcount
  refine ⟨Aggregate.argument_ne hread, _,
    outcome_join_summary loader elapsed base hleft hright haggregate, ?_, hmissing⟩
  by_cases hsame : name ∈ fields ∨ pairs = [] ∨ function = .count
  · -- Both sides aggregate the same numbers.
    have heq : ((Table.join join.kind left right join.condition fields base).summarize fields).cell
        expr = summary := by
      rw [hcell, hsummary]
      rcases hsame with hname | hpairs | rfl
      · exact aggregate_join_selected hname hselected
      · rw [join_nil hpairs, join_nil hpairs]
      · exact aggregate_join_count fields selected
    rw [heq]
    exact iff_of_true (Cell.Like.refl summary) (hsame.imp_right (Or.imp_right Or.inl))
  · obtain ⟨hname, hpairs, hcount⟩ : name ∉ fields ∧ pairs ≠ [] ∧ function ≠ .count := by
      simpa only [not_or] using hsame
    rw [hmissing hname hpairs hcount, Cell.like_nan]
    simp only [hname, hpairs, hcount, false_or]

/-- Two orders of one customer; the other customer has none. -/
def customers : Table := ["1", "2"].map fun id => Row.ofList [("id", .text id)]

def orders : Table :=
  ["50", "150"].map fun amount => Row.ofList [("customer", .text "1"), ("amount", .text amount)]

def orderTotal : Query :=
  (select "customers" ["SUM(orders.amount)"]).withJoin
    ⟨.inner, "orders", "customers.id", "orders.customer"⟩

theorem outcome_orderTotal :
    let pairs := joinedPairs .inner ⟨"customers.id", "orders.customer"⟩ customers orders
    let summary := ((Table.join .inner customers orders ⟨"customers.id", "orders.customer"⟩
      ["orders.amount"] "customers").summarize ["SUM(orders.amount)"]).cell "SUM(orders.amount)"
    ∃ row, (orderTotal.execute (Loader.ofTables [("customers", customers), ("orders", orders)])
        "0").outcome = .ok [row] ∧
      ((row.cell "SUM(orders.amount)").Like summary ↔
        "orders.amount" ∈ ["SUM(orders.amount)"] ∨ pairs = [] ∨ Aggregate.Function.sum = .count ∨
          summary = .number .nan) :=
  have ⟨_, row, hrow, hlike, _⟩ := outcome_joined_aggregate
    (Loader.ofTables [("customers", customers), ("orders", orders)]) "0" "customers"
    ["SUM(orders.amount)"] ["orders.amount"]
    ⟨.inner, "orders", "customers.id", "orders.customer"⟩ customers orders rfl rfl
    List.mem_cons_self (by decide +kernel) List.mem_cons_self
  ⟨row, hrow, hlike⟩

/-- The total of the orders is 200, but the query for it gives `nan`. -/
theorem orderTotal_lost :
    (executeText (Loader.ofTables [("customers", customers), ("orders", orders)]) "0"
      "SELECT SUM(orders.amount) FROM customers INNER JOIN orders ON customers.id = orders.customer"
        ).outcome = .ok [Row.ofList [("SUM(orders.amount)", .number .nan)]] ∧
    (Table.join .inner customers orders ⟨"customers.id", "orders.customer"⟩ ["orders.amount"]
      "customers").summarize ["SUM(orders.amount)"] =
        Row.ofList [("SUM(orders.amount)", .number (.ofNat 200))] ∧
    ¬ (Cell.number .nan).Like (.number (.ofNat 200)) := by
  refine ⟨by decide +kernel, by decide +kernel, ?_⟩
  rw [Cell.like_nan]
  decide +kernel

end Query

end Tabular
