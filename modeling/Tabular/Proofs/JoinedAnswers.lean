import Tabular.Proofs.Answers
import Tabular.Proofs.Joining
/-!
# Filtered joins

The rows of a join hold the selected names only. The conditions look a name up in such a row, and the
projection looks it up once more. As long as every filtered name is selected, both find what the join
has put there: the cell that the name stands for in the two tables.
-/

namespace Tabular

namespace Join

/-! ## Joined pairs -/

/-- The pairs of a join: matching rows, and for an outer join the rows of its side that match
none. -/
def joinedPairs (kind : JoinKind) (condition : JoinCondition) (left right : Table) :
    List (Option Row × Option Row) :=
  match kind with
  | .inner =>
    ((left ×ˢ right).filter fun p => Matches condition p.1 p.2).map fun p => (some p.1, some p.2)
  | .left => left.flatMap fun l =>
    let partners := right.filter fun r => Matches condition l r
    if partners = [] then [(some l, none)] else partners.map fun r => (some l, some r)
  | .right => right.flatMap fun r =>
    let owners := left.filter fun l => Matches condition l r
    if owners = [] then [(none, some r)] else owners.map fun l => (some l, some r)

theorem pairs_eq_joinedPairs (kind : JoinKind) (condition : JoinCondition) (left right : Table) :
    pairs kind condition left right = joinedPairs kind condition left right := by
  have horAlone {α : Type} (others : List Row) (pair : Option Row → α) :
      orAlone others pair =
        if others = [] then [pair none] else others.map fun other => pair (some other) := by
    rw [← List.map_id (orAlone others pair), map_orAlone]
    rfl
  cases kind with
  | inner => exact pairs_inner condition left right
  | left => simp only [pairs_left, horAlone]; rfl
  | right => simp only [pairs_right, horAlone]; rfl

/-! ## Joined rows -/

section Rows
variable (fields : List String) (base : String) (pair : Option Row × Option Row)

theorem cell_merge {name : String} (h : name ∈ fields) :
    (merge fields base pair).cell name = sourceCell base pair.1 pair.2 name :=
  Row.cell_of_get? (get?_merge fields base pair h)

/-- A row with the selected names and their source cells is the joined row. -/
theorem eq_merge {row : Row} (hnames : row.names = fields.eraseDups)
    (hcells : ∀ name ∈ fields, row.get? name = some (sourceCell base pair.1 pair.2 name)) :
    row = merge fields base pair := by
  apply Row.ext_names (hnames.trans (names_merge fields base pair).symm)
  intro name hn
  rw [hnames, List.mem_eraseDups] at hn
  rw [Row.cell_of_get? (hcells name hn), cell_merge fields base pair hn]

/-- A joined row holds the selected names already. -/
theorem project_merge : (merge fields base pair).project fields = merge fields base pair := by
  rw [Row.project, merge]
  congr 1
  apply List.map_congr_left
  intro name hn
  rw [← merge, cell_merge fields base pair hn]

end Rows

end Join

/-! ## Join queries -/

namespace Query
open Join

/-- A joined row meets the conditions if the source cells do. -/
theorem filter_joined {fields : List String} {conditions : List Condition}
    (h : ∀ condition ∈ conditions, condition.field ∈ fields) (base : String)
    (pairs : List (Option Row × Option Row)) :
    (pairs.map (merge fields base)).filter (fun row =>
        conditions.all fun condition => condition.holds (row.cell condition.field)) =
      (pairs.filter fun pair => conditions.all fun condition =>
        condition.holds (sourceCell base pair.1 pair.2 condition.field)).map (merge fields base) := by
  rw [List.filter_map]
  congr 1
  apply List.filter_congr
  intro pair _
  exact Condition.all_holds_congr fun condition hc => cell_merge fields base pair (h condition hc)

/-- A filtered join whose conditions look at selected names has, in the order of the join, one row
for each joined pair whose source cells meet the conditions. The row has the selected names, each
once, with the source cells. -/
theorem outcome_joined (loader : Loader) (elapsed : String) (query : Query) (join : JoinClause)
    (left right : Table)
    (hleft : loader.load query.table = .ok left) (hright : loader.load join.table = .ok right)
    (hjoin : query.join = some join) (hgroup : query.groupBy = none)
    (hflag : query.summarized = false)
    (hops : ∀ condition ∈ query.conditions, condition.operator ∈ Condition.operators)
    (hfields : ∀ condition ∈ query.conditions, condition.field ∈ query.fields) :
    let source pair name := sourceCell query.table pair.1 pair.2 name
    (∀ pair name cell, IsSource query.table pair name cell ↔ cell = source pair name) ∧
      ∃ rows, (query.execute loader elapsed).outcome = .ok rows ∧
        List.Forall₂
          (fun pair row => row.names = query.fields.eraseDups ∧
            ∀ name ∈ query.fields, row.get? name = some (source pair name))
          ((joinedPairs join.kind join.condition left right).filter fun pair =>
            query.conditions.all fun condition => condition.holds (source pair condition.field))
          rows := by
  intro source
  refine ⟨isSource_iff query.table, ?_⟩
  let kept := (joinedPairs join.kind join.condition left right).filter fun pair =>
    query.conditions.all fun condition => condition.holds (source pair condition.field)
  have hfiltered : (query.grouped
      (Table.join join.kind left right join.condition query.fields query.table)).filterBy
        query.conditions = .ok (kept.map (merge query.fields query.table)) := by
    rw [grouped, hgroup, Table.filterBy_supported _ hops, Table.join, pairs_eq_joinedPairs,
      filter_joined hfields]
  have houtput : query.outputRows (kept.map (merge query.fields query.table)) =
      kept.map (merge query.fields query.table) := by
    simp only [outputRows, hflag, hgroup, Table.project, List.map_map, Function.comp_def,
      project_merge]
    rfl
  refine ⟨kept.map (merge query.fields query.table), ?_, ?_⟩
  · rw [outcome_of_source elapsed (source_of_loads hleft hjoin hright), hfiltered]
    exact congrArg Except.ok houtput
  · rw [List.forall₂_map_right_iff, List.forall₂_same]
    exact fun pair _ => ⟨names_merge query.fields query.table pair,
      fun name hn => get?_merge query.fields query.table pair hn⟩

/-- Two students, one of them enrolled; a course has no student. -/
def students : Table :=
  [("1", "John"), ("2", "Jane")].map fun (id, name) =>
    Row.ofList [("id", .text id), ("name", .text name)]

def enrollments : Table :=
  [("1", "Math"), ("5", "Biology"), ("1", "Algebra")].map fun (student, course) =>
    Row.ofList [("student", .text student), ("course", .text course)]

/-- A right join that selects a name twice, one of a third table and one of no table. -/
def enrolled : Query :=
  (select "students" ["students.name", "courses.course", "id", "students.name"]).withJoin
    ⟨.right, "enrollments", "students.id", "enrollments.student"⟩
  |>.withCondition ⟨"students.name", "!=", "Jane"⟩ |>.withCondition ⟨"courses.course", ">", "B"⟩

/-- Algebra comes before B, and a student that is missing is not Jane. -/
theorem outcome_enrolled :
    (enrolled.execute (Loader.ofTables [("students", students), ("enrollments", enrollments)])
        "0").outcome =
      .ok ([(.text "John", "Math"), (.null, "Biology")].map fun (name, course) =>
        Row.ofList [("students.name", name), ("courses.course", .text course), ("id", .null)]) := by
  obtain ⟨-, rows, houtcome, hrows⟩ := outcome_joined
    (Loader.ofTables [("students", students), ("enrollments", enrollments)]) "0" enrolled
    ⟨.right, "enrollments", "students.id", "enrollments.student"⟩ students enrollments rfl rfl rfl
    rfl rfl (by decide) (by decide)
  have hmerged := hrows.imp fun pair row h => (eq_merge _ _ _ h.1 h.2).symm
  rw [← List.forall₂_map_left_iff, List.forall₂_eq_eq_eq] at hmerged
  rw [houtcome, ← hmerged]
  exact congrArg Except.ok (by decide +kernel)

end Query

end Tabular
