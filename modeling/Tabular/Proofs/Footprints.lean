import Tabular.Proofs.Failures
import Tabular.Proofs.GroupSummaries
import Tabular.Proofs.Joining
/-!
# The cells a query reads

Every stage looks cells up by name. What a query asks of its tables is therefore a list of names, its
footprint: cutting the tables down to it changes no answer, and two loaders whose tables agree there
give the same one. A missing column and a null cell are the same to every stage.
-/

namespace Tabular

/-! ## Agreement -/

namespace Row
variable {names : List String}

/-- The same cells under the names. A column that is missing counts as null. -/
def AgreeOn (names : List String) (a b : Row) : Prop := ∀ name ∈ names, a.cell name = b.cell name

instance (names : List String) (a b : Row) : Decidable (AgreeOn names a b) :=
  inferInstanceAs (Decidable (∀ name ∈ names, _))

theorem cell_project (row : Row) {name : String} (h : name ∈ names) :
    (row.project names).cell name = row.cell name := by
  apply cell_of_get?
  rw [project, get?_ofList_map, if_pos h]

theorem AgreeOn.project_eq {a b : Row} (h : AgreeOn names a b) : a.project names = b.project names := by
  unfold project
  congr 1
  apply List.map_congr_left
  intro name hn
  rw [h name hn]

theorem groupKey_project (row : Row) {columns : List String} (h : columns ⊆ names) :
    (row.project names).groupKey columns = row.groupKey columns :=
  Grouping.groupKey_congr fun _ hn => row.cell_project (h hn)

end Row

/-- Two loads that fail alike, or give as many rows, which agree one by one under the names. -/
inductive LoadsAlike (names : List String) :
    Except LoadError Table → Except LoadError Table → Prop
  | fails (error : LoadError) : LoadsAlike names (.error error) (.error error)
  | loads {a b : Table} (hrows : List.Forall₂ (Row.AgreeOn names) a b) :
    LoadsAlike names (.ok a) (.ok b)

/-! ## Expressions on tables cut down -/

/-- What an output expression reads: the column of its own name, and the argument of its aggregate. -/
def exprReads (expr : String) : List String :=
  expr :: ((Aggregate.read? expr).map (·.argument.text)).toList

theorem expr_mem_exprReads (expr : String) : expr ∈ exprReads expr := List.mem_cons_self

theorem argument_mem_exprReads {expr : String} {a : Aggregate} (h : Aggregate.read? expr = some a) :
    a.argument.text ∈ exprReads expr := by
  simp [exprReads, h]

section Pruned
variable {names : List String} (rows : Table)

namespace Table

theorem project_eq_of_agree {a b : Table} (h : List.Forall₂ (Row.AgreeOn names) a b) :
    a.project names = b.project names := by
  unfold project
  induction h with
  | nil => rfl
  | cons hrow _ ih => rw [List.map_cons, List.map_cons, hrow.project_eq, ih]

theorem firstCell_project {name : String} (h : name ∈ names) :
    (rows.project names).firstCell name = rows.firstCell name := by
  cases rows with
  | nil => rfl
  | cons row rows => exact row.cell_project h

theorem aggregate_project {a : Aggregate} (h : a.argument.text ∈ names) :
    (rows.project names).aggregate a = rows.aggregate a := by
  apply aggregate_congr
  rw [project, List.map_map]
  apply List.map_congr_left
  intro row _
  rw [Function.comp_apply, row.cell_project h]

theorem summaryCell_project {expr : String} (h : exprReads expr ⊆ names) :
    (rows.project names).summaryCell expr = rows.summaryCell expr := by
  unfold summaryCell
  cases hread : Aggregate.read? expr with
  | none => exact firstCell_project rows (h (expr_mem_exprReads expr))
  | some a => exact aggregate_project rows (h (argument_mem_exprReads hread))

theorem summarize_project {exprs : List String} (h : ∀ expr ∈ exprs, exprReads expr ⊆ names) :
    (rows.project names).summarize exprs = rows.summarize exprs := by
  unfold summarize
  refine congrArg Row.ofList (List.map_congr_left fun expr he => ?_)
  rw [summaryCell_project rows (h expr he)]

theorem project_project {fields : List String} (h : fields ⊆ names) :
    (rows.project names).project fields = rows.project fields := by
  unfold project
  rw [List.map_map]
  apply List.map_congr_left
  intro row _
  exact Row.AgreeOn.project_eq fun name hn => row.cell_project (h hn)

/-- The conditions decide on a row cut down as they decide on the row. -/
theorem filterBy_project {conditions : List Condition}
    (h : ∀ condition ∈ conditions, condition.field ∈ names) :
    (rows.project names).filterBy conditions =
      (rows.filterBy conditions).map fun kept => kept.project names := by
  cases hfirst : Condition.firstUnsupported? conditions with
  | some condition =>
    rw [filterBy_unsupported _ hfirst, filterBy_unsupported _ hfirst]
    rfl
  | none =>
    have hops := Condition.firstUnsupported?_eq_none.1 hfirst
    rw [filterBy_supported _ hops, filterBy_supported _ hops, Except.map, project, List.filter_map]
    refine congrArg (Except.ok <| List.map _ ·) ?_
    apply List.filter_congr
    intro row _
    exact Condition.all_holds_congr fun condition hc => row.cell_project (h condition hc)

end Table

/-! ## Grouping tables cut down -/

namespace Grouping
variable {exprs : List String}

theorem partial?_eq (output : Output) (row : Row) :
    output.partial? row = (row.cell output.name).number? := by
  unfold Output.partial? Row.cell
  cases row.get? output.name <;> rfl

theorem partial?_project (row : Row) {expr : String} (h : exprReads expr ⊆ names) :
    (Output.ofExpr expr).partial? (row.project names) = (Output.ofExpr expr).partial? row := by
  rw [partial?_eq, partial?_eq, Output.ofExpr, row.cell_project (h (expr_mem_exprReads expr))]

theorem next_project (row : Row) {expr : String} (h : exprReads expr ⊆ names)
    (v : Option Binary64) :
    (Output.ofExpr expr).next (row.project names) v = (Output.ofExpr expr).next row v := by
  unfold Output.next
  cases hc : (Output.ofExpr expr).combined? with
  | none => rfl
  | some pair =>
    obtain ⟨combine, argument⟩ := pair
    obtain ⟨a, ha, hpair⟩ := Option.bind_eq_some_iff.1 hc
    have hread : Aggregate.read? expr = some a := (Option.filter_eq_some_iff.1 ha).1
    have hargument : argument = a.argument := by
      cases hf : a.function <;> simp [hf] at hpair <;> exact hpair.2.symm
    have hpart : (Output.ofExpr expr).part argument (row.project names) =
        (Output.ofExpr expr).part argument row := by
      rw [Output.part, Output.part, partial?_project row h, hargument,
        row.cell_project (h (argument_mem_exprReads hread))]
    simp only [hpart]

theorem weight_project (row : Row) (h : ∀ expr ∈ exprs, exprReads expr ⊆ names) :
    weight (exprs.map Output.ofExpr) (row.project names) = weight (exprs.map Output.ofExpr) row := by
  have hcounts : ∀ output ∈ (exprs.map Output.ofExpr).filter Output.isCount,
      output.partial? (row.project names) = output.partial? row := by
    intro output ho
    obtain ⟨expr, he, rfl⟩ := List.mem_map.1 (List.mem_filter.1 ho).1
    exact partial?_project row (h expr he)
  simp only [weight, ← List.head?_filterMap, List.filterMap_congr hcounts]

theorem value_project {expr : String} (h : exprReads expr ⊆ names) :
    value (.ofExpr expr) (rows.project names) = value (.ofExpr expr) rows := by
  unfold value Table.project
  rw [List.foldl_map]
  simp only [next_project _ h]

theorem count_project (h : ∀ expr ∈ exprs, exprReads expr ⊆ names) :
    count (exprs.map Output.ofExpr) (rows.project names) =
      count (exprs.map Output.ofExpr) rows := by
  unfold count Table.project
  rw [List.foldl_map]
  simp only [weight_project _ h]

theorem outputCell_project (h : ∀ expr ∈ exprs, exprReads expr ⊆ names) {expr : String}
    (he : expr ∈ exprs) :
    outputCell exprs (rows.project names) expr = outputCell exprs rows expr := by
  unfold outputCell
  rw [count_project rows h, value_project rows (h expr he),
    Table.firstCell_project rows (h expr he (expr_mem_exprReads expr))]

variable {columns : List String}

theorem groupRow_project (hcolumns : columns ⊆ names) (h : ∀ expr ∈ exprs, exprReads expr ⊆ names) :
    groupRow columns exprs (rows.project names) = groupRow columns exprs rows := by
  apply Row.ext_names
  · rw [names_groupRow, names_groupRow]
  · intro name _
    rw [Row.cell, Row.cell, get?_groupRow, get?_groupRow]
    by_cases hn : name ∈ columns
    · rw [if_pos hn, if_pos hn, Table.firstCell_project rows (hcolumns hn)]
    · by_cases he : name ∈ exprs
      · rw [if_neg hn, if_neg hn, outputCell_project rows h he]
      · rw [if_neg hn, if_neg hn, if_neg he, if_neg he]

/-- Rows cut down fall into the same groups, and the groups give the same rows. -/
theorem groupBy_project (hcolumns : columns ⊆ names) (h : ∀ expr ∈ exprs, exprReads expr ⊆ names) :
    (rows.project names).groupBy columns exprs = rows.groupBy columns exprs := by
  have hkey (row : Row) : (row.project names).groupKey columns = row.groupKey columns :=
    row.groupKey_project hcolumns
  have hkeys : keys (·.groupKey columns) (rows.project names) = keys (·.groupKey columns) rows := by
    simp only [keys, Table.project, List.map_map, Function.comp_def, hkey]
  have hmembers (k : String) : members (·.groupKey columns) (rows.project names) k =
      Table.project (members (·.groupKey columns) rows k) names := by
    simp only [members, Table.project, List.filter_map, Function.comp_def, hkey]
  rw [groupBy_eq, groupBy_eq, hkeys]
  simp only [hmembers, groupRow_project _ hcolumns h]

end Grouping

end Pruned

/-! ## Joining tables cut down -/

namespace Join

/-- The columns of the selected names whose table is one of `tables`. -/
def columnsOf (tables : String → Bool) (fields : List String) : List String :=
  fields.filterMap fun field =>
    (splitQualified? field).bind fun (table, column) => if tables table then some column else none

theorem mem_columnsOf {tables : String → Bool} {fields : List String} {field table column : String}
    (hf : field ∈ fields) (hs : splitQualified? field = some (table, column))
    (ht : tables table = true) : column ∈ columnsOf tables fields :=
  List.mem_filterMap.2 ⟨field, hf, by simp [hs, ht]⟩

section Pruned
variable {ownNames otherNames : List String}

/-- A pair with its rows cut down. -/
def cut (ownNames otherNames : List String) : Option Row × Option Row → Option Row × Option Row :=
  Prod.map (Option.map (·.project ownNames)) (Option.map (·.project otherNames))

theorem probe_project {names : List String} (row : Row) {operand : String}
    (h : (JoinCondition.probed? operand).toList ⊆ names) :
    probe (row.project names) operand = probe row operand := by
  rw [probe_eq, probe_eq]
  cases hp : JoinCondition.probed? operand with
  | none => rfl
  | some column => exact row.cell_project (h (by simp [hp]))

theorem orAlone_map {α β : Type} (f : Row → Row) (g : α → β) {pair : Option Row → α}
    {pair' : Option Row → β} (h : ∀ other, pair' (other.map f) = g (pair other))
    (others : List Row) : orAlone (others.map f) pair' = (orAlone others pair).map g := by
  cases others with
  | nil => exact congrArg (fun x => [x]) (h none)
  | cons other others => simp [orAlone, ← h]

section Condition
variable {condition : JoinCondition} (hown : condition.leftColumn?.toList ⊆ ownNames)
  (hother : condition.rightColumn?.toList ⊆ otherNames)
include hown hother

theorem isMatch_project (left right : Row) :
    isMatch condition (left.project ownNames) (right.project otherNames) =
      isMatch condition left right := by
  rw [Bool.eq_iff_iff, isMatch_iff, isMatch_iff, Matches, Matches, probe_project left hown,
    probe_project right hother]

/-- The pairs of tables cut down are the pairs of the tables, cut down. -/
theorem pairs_project (kind : JoinKind) (left right : Table) :
    pairs kind condition (left.project ownNames) (right.project otherNames) =
      (pairs kind condition left right).map (cut ownNames otherNames) := by
  have hmatch := isMatch_project hown hother
  cases kind with
  | inner =>
    simp only [pairs, Table.project, List.flatMap_map, List.map_flatMap, List.filter_map,
      List.map_map, Function.comp_def, hmatch]
    rfl
  | left | right =>
    simp only [pairs, Table.project, List.flatMap_map, List.map_flatMap, List.filter_map,
      Function.comp_def, hmatch]
    congr 1
    funext row
    apply orAlone_map
    intro other
    rfl

end Condition

section Fields
variable {fields : List String} {base : String} (hown : columnsOf (· = base) fields ⊆ ownNames)
  (hother : columnsOf (· ≠ base) fields ⊆ otherNames)
include hown hother

theorem sourceCell_cut (pair : Option Row × Option Row) {field : String} (hf : field ∈ fields) :
    sourceCell base (cut ownNames otherNames pair).1 (cut ownNames otherNames pair).2 field =
      sourceCell base pair.1 pair.2 field := by
  obtain ⟨left, right⟩ := pair
  unfold sourceCell
  cases hs : splitQualified? field with
  | none => rfl
  | some name =>
    obtain ⟨table, column⟩ := name
    by_cases ht : table = base
    · have hcolumn := hown (mem_columnsOf hf hs (decide_eq_true ht))
      cases left with
      | none => simp [ht, cut]
      | some row => simp [ht, cut, row.cell_project hcolumn]
    · have hcolumn := hother (mem_columnsOf hf hs (decide_eq_true ht))
      cases right with
      | none => simp [ht, cut]
      | some row => simp [ht, cut, row.cell_project hcolumn]

theorem merge_cut (pair : Option Row × Option Row) :
    merge fields base (cut ownNames otherNames pair) = merge fields base pair := by
  unfold merge
  refine congrArg Row.ofList (List.map_congr_left fun field hf => ?_)
  rw [sourceCell_cut hown hother pair hf]

/-- A join of tables cut down gives the rows of the join. -/
theorem join_project {condition : JoinCondition} (hleft : condition.leftColumn?.toList ⊆ ownNames)
    (hright : condition.rightColumn?.toList ⊆ otherNames) (kind : JoinKind) (left right : Table) :
    Table.join kind (left.project ownNames) (right.project otherNames) condition fields base =
      Table.join kind left right condition fields base := by
  unfold Table.join
  rw [pairs_project hleft hright, List.map_map]
  exact List.map_congr_left fun pair _ => merge_cut hown hother pair

end Fields

end Pruned

end Join

/-! ## Footprints of queries -/

namespace Query

/-- What a query reads in the rows of its table, or of the tables it joins once they are joined. -/
def reads (query : Query) : List String :=
  query.fields.flatMap exprReads ++ query.groupBy.getD [] ++ query.conditions.map Condition.field

/-- What a query reads in its base table. In a join that is what the select list takes from the base
table, and the column that the left operand probes. -/
def baseReads (query : Query) : List String :=
  match query.join with
  | none => query.reads
  | some join =>
    Join.columnsOf (· = query.table) query.fields ++ join.condition.leftColumn?.toList

/-- What a query reads in the table it joins. -/
def joinedReads (query : Query) (join : JoinClause) : List String :=
  Join.columnsOf (· ≠ query.table) query.fields ++ join.condition.rightColumn?.toList

theorem exprReads_subset (query : Query) {expr : String} (h : expr ∈ query.fields) :
    exprReads expr ⊆ query.reads := by
  intro name hn
  simp only [reads, List.mem_append, List.mem_flatMap]
  exact .inl (.inl ⟨expr, h, hn⟩)

/-- The stages behind the loads and the join. -/
def answerRows (query : Query) (rows : Table) : Except QueryError Table :=
  ((query.grouped rows).filterBy query.conditions).map query.outputRows

theorem outputRows_project (query : Query) (hgroup : query.groupBy = none) (rows : Table) :
    query.outputRows (rows.project query.reads) = query.outputRows rows := by
  have hfields : query.fields ⊆ query.reads := fun expr he =>
    query.exprReads_subset he (expr_mem_exprReads expr)
  unfold outputRows
  rw [hgroup, Table.summarize_project rows fun _ => query.exprReads_subset,
    Table.project_project rows hfields]

/-- The footprint of a query is all that its stages see of its rows. -/
theorem answerRows_project (query : Query) (rows : Table) :
    query.answerRows (rows.project query.reads) = query.answerRows rows := by
  unfold answerRows grouped
  cases hgroup : query.groupBy with
  | none =>
    have hconditions : ∀ condition ∈ query.conditions, condition.field ∈ query.reads :=
      fun condition hc => List.mem_append_right _ (List.mem_map_of_mem hc)
    simp only [Table.filterBy_project rows hconditions]
    cases rows.filterBy query.conditions with
    | error error => rfl
    | ok kept => exact congrArg Except.ok (query.outputRows_project hgroup kept)
  | some names =>
    have hnames : names ⊆ query.reads := fun name hn => by simp [reads, hgroup, hn]
    simp only [Grouping.groupBy_project rows hnames fun _ => query.exprReads_subset]

theorem answerRows_of_agree (query : Query) {a b : Table}
    (h : List.Forall₂ (Row.AgreeOn query.reads) a b) : query.answerRows a = query.answerRows b := by
  rw [← answerRows_project, Table.project_eq_of_agree h, answerRows_project]

theorem join_of_agree {query : Query} {join : JoinClause} (hjoin : query.join = some join)
    {left left' right right' : Table}
    (hleft : List.Forall₂ (Row.AgreeOn query.baseReads) left left')
    (hright : List.Forall₂ (Row.AgreeOn (query.joinedReads join)) right right') :
    Table.join join.kind left right join.condition query.fields query.table =
      Table.join join.kind left' right' join.condition query.fields query.table := by
  have hown : Join.columnsOf (· = query.table) query.fields ⊆ query.baseReads := by
    simp [baseReads, hjoin]
  have hother : Join.columnsOf (· ≠ query.table) query.fields ⊆ query.joinedReads join := by
    simp [joinedReads]
  have hprobed : join.condition.leftColumn?.toList ⊆ query.baseReads := by simp [baseReads, hjoin]
  have hprobed' : join.condition.rightColumn?.toList ⊆ query.joinedReads join := by
    simp [joinedReads]
  have hproject := Join.join_project hown hother hprobed hprobed' join.kind
  rw [← hproject, Table.project_eq_of_agree hleft, Table.project_eq_of_agree hright, hproject]

/-- A query depends on the cells of its footprint alone: two loaders that fail alike, or give tables
that agree there, lead to one answer or one error. The joined table counts only once the base table
is there. -/
theorem outcome_of_agree (a b : Loader) (elapsed elapsed' : String) (query : Query)
    (hbase : LoadsAlike query.baseReads (a.load query.table) (b.load query.table))
    (hjoined : ∀ join base, query.join = some join → a.load query.table = .ok base →
      LoadsAlike (query.joinedReads join) (a.load join.table) (b.load join.table)) :
    (query.execute a elapsed).outcome = (query.execute b elapsed').outcome := by
  generalize ha : a.load query.table = x at hbase hjoined
  generalize hb : b.load query.table = y at hbase
  cases hbase with
  | fails error => rw [outcome_of_fails elapsed (.base ha), outcome_of_fails elapsed' (.base hb)]
  | @loads left left' hleft =>
    cases hjoin : query.join with
    | none =>
      rw [baseReads, hjoin] at hleft
      rw [outcome_of_source elapsed (source_of_load ha hjoin),
        outcome_of_source elapsed' (source_of_load hb hjoin)]
      exact query.answerRows_of_agree hleft
    | some join =>
      have hjoined := hjoined join left hjoin rfl
      generalize ha' : a.load join.table = x at hjoined
      generalize hb' : b.load join.table = y at hjoined
      cases hjoined with
      | fails error =>
        rw [outcome_of_fails elapsed (.joined ha hjoin ha'),
          outcome_of_fails elapsed' (.joined hb hjoin hb')]
      | loads hright =>
        rw [outcome_of_source elapsed (source_of_loads ha hjoin ha'),
          outcome_of_source elapsed' (source_of_loads hb hjoin hb'),
          join_of_agree hjoin hleft hright]

/-- A register of two pupils, one of them without a name, and the lessons of one of them. -/
def register : Table :=
  [Row.ofList [("id", .text "1"), ("name", .text "Ada")],
    Row.ofList [("id", .text "2"), ("name", .null)]]

def lessons : Table := [Row.ofList [("pupil", .text "1"), ("topic", .text "Sets")]]

/-- The same register and lessons with other columns around, in another order; the second pupil has
no column for the name. -/
def longRegister : Table :=
  [Row.ofList [("name", .text "Ada"), ("age", .text "9"), ("id", .text "1")],
    Row.ofList [("topic", .text "none"), ("id", .text "2")]]

def longLessons : Table :=
  [Row.ofList [("room", .number .nan), ("topic", .text "Sets"), ("pupil", .text "1")]]

/-- The pupils by name, with the number of lessons of each. -/
def lessonCounts : Query :=
  ((select "register" ["register.name", "COUNT(*)", "lessons.topic"]).withJoin
    ⟨.left, "lessons", "register.id", "lessons.pupil"⟩).withGroupBy ["register.name"]

theorem outcome_lessonCounts :
    register ≠ longRegister ∧ lessons ≠ longLessons ∧
      List.Forall₂ (Row.AgreeOn ["name", "id"]) register longRegister ∧
      List.Forall₂ (Row.AgreeOn ["topic", "pupil"]) lessons longLessons ∧
      (lessonCounts.execute (.ofTables [("register", register), ("lessons", lessons)]) "0").outcome =
        (lessonCounts.execute
          (.ofTables [("lessons", longLessons), ("register", longRegister)]) "7").outcome := by
  have hregister : List.Forall₂ (Row.AgreeOn ["name", "id"]) register longRegister := by decide
  have hlessons : List.Forall₂ (Row.AgreeOn ["topic", "pupil"]) lessons longLessons := by decide
  refine ⟨by decide, by decide, hregister, hlessons,
    outcome_of_agree _ _ "0" "7" lessonCounts (.loads hregister) ?_⟩
  rintro join base hjoin -
  cases hjoin
  exact .loads hlessons

end Query

end Tabular
