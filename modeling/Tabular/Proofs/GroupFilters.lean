import Tabular.Proofs.Regrouping
/-!
# Filtering groups and filtering rows

A grouped query applies its conditions to the groups. Where they look at grouping columns only, and
rows with one group key have the same cells in these columns, every row of a group meets them or none
does. Filtering the table first then leaves the same groups with the same rows.
-/

namespace Tabular

/-- A filter keeps the order in which items first occur. -/
theorem eraseDups_filter (p : String → Bool) (l : List String) :
    (l.filter p).eraseDups = l.eraseDups.filter p := by
  induction l using List.reverseRecOn with
  | nil => rfl
  | append_singleton l a ih =>
    rw [List.filter_append, eraseDups_concat]
    by_cases ha : p a = true
    · have hmem : a ∈ l.filter p ↔ a ∈ l := by simp [ha]
      rw [List.filter_singleton, ha, cond_true, eraseDups_concat, ih]
      by_cases h : a ∈ l
      · rw [if_pos h, if_pos (hmem.2 h)]
      · rw [if_neg h, if_neg (hmem.1.mt h), List.filter_append, List.filter_singleton, ha, cond_true]
    · rw [Bool.not_eq_true] at ha
      rw [List.filter_singleton, ha, cond_false, List.append_nil, ih]
      split
      · rfl
      · rw [List.filter_append, List.filter_singleton, ha, cond_false, List.append_nil]

namespace Grouping

/-! ## Conditions on the key -/

section Keys
variable {key : Row → String} {rows : Table} {p : Row → Bool} {q : String → Bool}

/-- A filter that is decided by the key keeps whole groups. -/
theorem keys_filter (h : ∀ row ∈ rows, p row = q (key row)) :
    keys key (rows.filter p) = (keys key rows).filter q := by
  have hfilter : rows.filter p = rows.filter (q ∘ key) := List.filter_congr h
  rw [keys, keys, hfilter, ← List.filter_map, eraseDups_filter]

theorem members_filter (h : ∀ row ∈ rows, p row = q (key row)) {k : String} (hk : q k = true) :
    members key (rows.filter p) k = members key rows k := by
  rw [members, members, List.filter_filter]
  apply List.filter_congr
  intro row hr
  by_cases he : key row = k
  · simp [h row hr, he, hk]
  · simp [he]

end Keys

/-! ## Conditions on grouping columns -/

section Columns
variable {names : List String} {rows : Table}

/-- Rows with one group key have the same cells in the grouping columns. -/
def Agree (names : List String) (rows : Table) : Prop :=
  ∀ a ∈ rows, ∀ b ∈ rows, a.groupKey names = b.groupKey names →
    ∀ name ∈ names, a.cell name = b.cell name

/-- The row of a group has the cells of each row of the group in the grouping columns. -/
theorem cell_groupRow (hagree : Agree names rows) (exprs : List String) {row : Row} (hr : row ∈ rows)
    {name : String} (hn : name ∈ names) :
    (groupRow names exprs (members (·.groupKey names) rows (row.groupKey names))).cell name =
      row.cell name := by
  have hrow : row ∈ members (·.groupKey names) rows (row.groupKey names) :=
    List.mem_filter.2 ⟨hr, decide_eq_true rfl⟩
  obtain ⟨first, rest, hm⟩ := List.exists_cons_of_ne_nil (List.ne_nil_of_mem hrow)
  have hfirst : first ∈ members (·.groupKey names) rows (row.groupKey names) :=
    hm ▸ List.mem_cons_self
  have hcell := get?_groupRow names exprs (first :: rest) name
  rw [if_pos hn] at hcell
  rw [hm, Row.cell_of_get? hcell]
  exact hagree first (List.mem_filter.1 hfirst).1 row hr
    (key_of_mem_members (·.groupKey names) hfirst) name hn

/-- A filter that takes each row as it takes the row of its group can change places with the
grouping. -/
theorem filter_groupBy_of_members (exprs : List String) {p : Row → Bool}
    (hp : ∀ row ∈ rows, p row =
      p (groupRow names exprs (members (·.groupKey names) rows (row.groupKey names)))) :
    (rows.groupBy names exprs).filter p = Table.groupBy (rows.filter p) names exprs := by
  -- A key passes if the row of its group does.
  let q (k : String) : Bool := p (groupRow names exprs (members (·.groupKey names) rows k))
  have hq : ∀ row ∈ rows, p row = q (row.groupKey names) := hp
  rw [groupBy_eq, groupBy_eq, List.filter_map, keys_filter hq]
  apply List.map_congr_left
  intro k hk
  rw [members_filter hq (List.mem_filter.1 hk).2]

/-- Filtering by grouping columns and grouping can change places. -/
theorem filter_groupBy (hagree : Agree names rows) (exprs : List String) {p : Row → Bool}
    (hp : ∀ a b : Row, (∀ name ∈ names, a.cell name = b.cell name) → p a = p b) :
    (rows.groupBy names exprs).filter p = Table.groupBy (rows.filter p) names exprs :=
  filter_groupBy_of_members exprs fun _ hr =>
    hp _ _ fun _ hn => (cell_groupRow hagree exprs hr hn).symm

end Columns

end Grouping

/-! ## Grouped queries -/

namespace Query

/-- Conditions on grouping columns act on the groups as they act on the rows: grouping the rows that
meet them gives the answer. -/
theorem outcome_grouped_filter (loader : Loader) (elapsed : String) (query : Query)
    (names : List String) (rows : Table)
    (hload : loader.load query.table = .ok rows) (htext : rows.AllText)
    (hjoin : query.join = none) (hgroup : query.groupBy = some names)
    (hflag : query.summarized = false)
    (hops : ∀ condition ∈ query.conditions, condition.operator ∈ Condition.operators)
    (hfields : ∀ condition ∈ query.conditions, condition.field ∈ names)
    (hagree : ∀ a ∈ rows, ∀ b ∈ rows, a.groupKey names = b.groupKey names →
      ∀ name ∈ names, a.cell name = b.cell name) :
    ∃ kept, rows.filterBy query.conditions = .ok kept ∧
      (query.execute loader elapsed).outcome = .ok (kept.groupBy names query.fields) := by
  let p (row : Row) : Bool :=
    query.conditions.all fun condition => condition.holds (row.cell condition.field)
  have hfiltered : (query.grouped rows).filterBy query.conditions =
      .ok (Table.groupBy (rows.filter p) names query.fields) := by
    rw [grouped, hgroup, Table.filterBy_supported _ hops]
    refine congrArg Except.ok (Grouping.filter_groupBy hagree query.fields fun a b hab => ?_)
    exact Condition.all_holds_congr fun condition hc => hab _ (hfields condition hc)
  have huncounted : Grouping.Uncounted names query.fields (rows.filter p) :=
    fun row hr name _ _ _ => htext.number?_cell (List.mem_filter.1 hr).1 name
  have houtput : query.outputRows (Table.groupBy (rows.filter p) names query.fields) =
      Table.groupBy (rows.filter p) names query.fields := by
    simp only [outputRows, hflag, hgroup]
    exact Grouping.groupBy_of_uncounted huncounted (List.Sublist.refl _)
  refine ⟨rows.filter p, Table.filterBy_supported rows hops, ?_⟩
  rw [outcome_of_source elapsed (source_of_load hload hjoin), hfiltered]
  exact congrArg Except.ok houtput

/-- The departments but one. There is no column `COUNT(*)` to group by. -/
def otherDepartments : Query :=
  (select "employees" ["MAX(rank)", "COUNT(*)", "COUNT(rank)"]).withCondition ⟨"dept", "!=", "hr"⟩
    |>.withGroupBy ["dept", "COUNT(*)"]

theorem outcome_otherDepartments :
    employees.AllText ∧
      (∀ a ∈ employees, ∀ b ∈ employees,
        a.groupKey ["dept", "COUNT(*)"] = b.groupKey ["dept", "COUNT(*)"] →
          ∀ name ∈ ["dept", "COUNT(*)"], a.cell name = b.cell name) ∧
      ∃ kept, employees.filterBy otherDepartments.conditions = .ok kept ∧
        (otherDepartments.execute (.ofTables [("employees", employees)]) "0").outcome =
          .ok (kept.groupBy ["dept", "COUNT(*)"] otherDepartments.fields) := by
  have htext : employees.AllText := by decide
  have hagree : ∀ a ∈ employees, ∀ b ∈ employees,
      a.groupKey ["dept", "COUNT(*)"] = b.groupKey ["dept", "COUNT(*)"] →
        ∀ name ∈ ["dept", "COUNT(*)"], a.cell name = b.cell name := by decide
  exact ⟨htext, hagree, outcome_grouped_filter _ _ otherDepartments _ employees rfl htext rfl rfl rfl
    (by decide) (by decide) hagree⟩

end Query

end Tabular
