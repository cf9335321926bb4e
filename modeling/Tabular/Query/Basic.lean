import Tabular.Aggregate
import Tabular.Json.Writer
/-!
# Queries

A query names its output expressions and its table, and may join a second table, filter with
conditions that must all hold, and group.
-/

namespace Tabular

/-! ## Joins -/

inductive JoinKind
  | inner
  | left
  | right
deriving DecidableEq

def JoinKind.keyword : JoinKind → String
  | .inner => "INNER"
  | .left => "LEFT"
  | .right => "RIGHT"

/-- The kind of a keyword in any case. -/
def JoinKind.ofKeyword? (keyword : String) : Option JoinKind :=
  let upper := keyword.toList.map Char.toUpper
  [JoinKind.inner, .left, .right].find? fun kind => kind.keyword.toList == upper

/-- A name cut at its first point: the table and the column. -/
def splitQualified? (name : String) : Option (String × String) :=
  let cs := name.toList
  match cs.dropWhile (· ≠ '.') with
  | [] => none
  | _ :: column => some (String.ofList (cs.takeWhile (· ≠ '.')), String.ofList column)

/-- The name is `table.column`; the table ends at the first point. -/
def IsQualified (name table column : String) : Prop :=
  name.toList = table.toList ++ '.' :: column.toList ∧ '.' ∉ table.toList

section Points
variable {cs : List Char}

theorem ne_point (h : '.' ∉ cs) : ∀ c ∈ cs, decide (c ≠ '.') = true := by
  intro c hc
  rw [decide_eq_true_iff]
  rintro rfl
  exact h hc

theorem takeWhile_point (h : '.' ∉ cs) (rest : List Char) :
    (cs ++ '.' :: rest).takeWhile (· ≠ '.') = cs := by
  rw [List.takeWhile_append_of_pos (ne_point h)]
  simp

theorem dropWhile_point (h : '.' ∉ cs) (rest : List Char) :
    (cs ++ '.' :: rest).dropWhile (· ≠ '.') = '.' :: rest := by
  rw [List.dropWhile_append_of_pos (ne_point h)]
  simp

theorem takeWhile_bare (h : '.' ∉ cs) : cs.takeWhile (· ≠ '.') = cs := by
  have htake : (cs ++ []).takeWhile (· ≠ '.') = cs ++ [] := List.takeWhile_append_of_pos (ne_point h)
  rwa [List.append_nil] at htake

theorem dropWhile_bare (h : '.' ∉ cs) : cs.dropWhile (· ≠ '.') = [] := by
  have hdrop : (cs ++ []).dropWhile (· ≠ '.') = [] := List.dropWhile_append_of_pos (ne_point h)
  rwa [List.append_nil] at hdrop

end Points

theorem splitQualified?_of_isQualified {name table column : String}
    (h : IsQualified name table column) : splitQualified? name = some (table, column) := by
  simp only [splitQualified?, h.1, dropWhile_point h.2, takeWhile_point h.2, String.ofList_toList]

theorem splitQualified?_of_bare {name : String} (h : '.' ∉ name.toList) :
    splitQualified? name = none := by
  simp only [splitQualified?, dropWhile_bare h]

theorem exists_isQualified {name : String} (h : '.' ∈ name.toList) :
    ∃ table column, IsQualified name table column := by
  obtain ⟨table, column, hname, htable⟩ := List.eq_append_cons_of_mem h
  refine ⟨String.ofList table, String.ofList column, ?_⟩
  rw [IsQualified, String.toList_ofList, String.toList_ofList]
  exact ⟨hname, htable⟩

/-- The two operands of a join's equality, each `table.column`. -/
structure JoinCondition where
  left : String
  right : String
deriving DecidableEq

namespace JoinCondition

/-- The column an operand probes: what stands between its first two points. Without a point it
probes none. -/
def probed? (operand : String) : Option String :=
  (splitQualified? operand).map fun (_, column) =>
    String.ofList (column.toList.takeWhile (· ≠ '.'))

/-- An operand probes the second of the parts that its points cut it into. Without a point there is
only one part. -/
theorem probed?_eq (operand : String) :
    probed? operand = (operand.toList.splitOn '.')[1]?.map String.ofList := by
  by_cases hpoint : '.' ∈ operand.toList
  · obtain ⟨table, column, h⟩ := exists_isQualified hpoint
    have hprobed :
        probed? operand = some (String.ofList (column.toList.takeWhile (· ≠ '.'))) := by
      rw [probed?, splitQualified?_of_isQualified h]
      rfl
    rw [hprobed, h.1, List.splitOn_append_cons_self_of_not_mem h.2, List.getElem?_cons_succ]
    -- What follows the first point is cut at the next one, if there is one.
    by_cases hcolumn : '.' ∈ column.toList
    · obtain ⟨first, rest, hcut, hfirst⟩ := List.eq_append_cons_of_mem hcolumn
      rw [hcut, takeWhile_point hfirst, List.splitOn_append_cons_self_of_not_mem hfirst]
      rfl
    · rw [takeWhile_bare hcolumn, List.splitOn_eq_singleton hcolumn]
      rfl
  · rw [probed?, splitQualified?_of_bare hpoint, List.splitOn_eq_singleton hpoint]
    rfl

def leftColumn? (condition : JoinCondition) : Option String := probed? condition.left

def rightColumn? (condition : JoinCondition) : Option String := probed? condition.right

end JoinCondition

structure JoinClause where
  kind : JoinKind
  table : String
  condition : JoinCondition
deriving DecidableEq

/-! ## Conditions -/

/-- A comparison of a column with a literal. The operator is kept as written; it is checked when
the condition is evaluated. -/
structure Condition where
  field : String
  operator : String
  literal : String
deriving DecidableEq

/-! ## The query -/

structure Query where
  fields : List String
  table : String
  conditions : List Condition
  join : Option JoinClause
  groupBy : Option (List String)
  /-- The result is one row over the whole table. -/
  summarized : Bool
deriving DecidableEq

namespace Query

def hasAggregate (fields : List String) : Bool :=
  fields.any fun field => (Aggregate.read? field).isSome

/-- A query without clauses. It is summarized if it selects an aggregate. -/
def select (table : String) (fields : List String) : Query :=
  { fields, table, conditions := [], join := none, groupBy := none,
    summarized := hasAggregate fields }

def withCondition (query : Query) (condition : Condition) : Query :=
  { query with conditions := query.conditions ++ [condition] }

def withJoin (query : Query) (join : JoinClause) : Query := { query with join := some join }

/-- A grouped query is not summarized. -/
def withGroupBy (query : Query) (names : List String) : Query :=
  { query with groupBy := some names, summarized := false }

/-! ## JSON -/

def texts (items : List String) : String := Json.array (items.map Json.text)

def conditionJson (condition : Condition) : String :=
  Json.object [("field", Json.text condition.field), ("operator", Json.text condition.operator),
    ("value", Json.text condition.literal)]

def joinMembers (join : JoinClause) : List (String × String) :=
  [("joinType", Json.text join.kind.keyword), ("joinTable", Json.text join.table),
    ("joinCondition", Json.object [("left", Json.text join.condition.left),
      ("right", Json.text join.condition.right)])]

def members (query : Query) : List (String × String) :=
  [("fields", texts query.fields), ("table", Json.text query.table),
    ("whereClauses", Json.array (query.conditions.map conditionJson))] ++
  (query.join.map joinMembers).getD [] ++
  [("groupByFields", (query.groupBy.map texts).getD Json.null),
    ("hasAggregateWithoutGroupBy", Json.bool query.summarized)]

def json (query : Query) : String := Json.object query.members

end Query

end Tabular
