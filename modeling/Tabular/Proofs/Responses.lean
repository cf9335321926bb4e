import Tabular.CommandLine.Run
import Tabular.Proofs.WrittenJson
/-!
# Responses

What a line of output says: the rows of an answer, the parts of a query, or a failure.
-/

namespace Tabular

open Json (Written Describes Value)

/-! ## Rows -/

/-- What stands for a cell. Texts keep their content. -/
def Cell.value : Cell → Value
  | .text content => .text (some content)
  | .null | .number _ => .other

theorem Cell.written (cell : Cell) : Written cell.json cell.value := by
  cases cell with
  | null => exact Json.written_null
  | text content => exact Json.written_text content
  | number x =>
    have hinteger (n : Int) := Json.written_numeral (Json.isNumeral_integer n)
    unfold Cell.json
    simp only
    split
    · exact hinteger _
    · split
      · rename_i hfinite
        exact Json.written_numeral (Json.isNumeral_number hfinite)
      · exact Json.written_null

/-- What stands for a row: its columns in the order of their names. -/
def Row.value (row : Row) : Value :=
  .ofMembers (Json.sorted (row.columns.map fun (name, cell) => (name, cell.value)))

theorem Row.describes_members (row : Row) :
    List.Forall₂ Describes row.members (row.columns.map fun (name, cell) => (name, cell.value)) := by
  rw [Row.members, List.forall₂_map_left_iff, List.forall₂_map_right_iff, List.forall₂_same]
  exact fun column _ => ⟨rfl, column.2.written⟩

theorem Row.written (row : Row) : Written (Json.object (Json.sorted row.members)) row.value :=
  Json.written_members (Json.describes_sorted row.describes_members)

/-! ## Queries -/

namespace Query

def textsValue (items : List String) : Value := .array (items.map fun item => .text (some item))

theorem written_texts (items : List String) : Written (texts items) (textsValue items) :=
  Json.written_array fun item _ => Json.written_text item

/-- Texts under names. -/
def textMembers (members : List (String × String)) : List (String × Value) :=
  members.map fun (name, content) => (name, .text (some content))

theorem written_textMembers (members : List (String × String)) :
    Written (Json.object (members.map fun (name, content) => (name, Json.text content)))
      (.ofMembers (textMembers members)) := by
  refine Json.written_members ?_
  rw [textMembers, List.forall₂_map_left_iff, List.forall₂_map_right_iff, List.forall₂_same]
  exact fun member _ => ⟨rfl, Json.written_text member.2⟩

def conditionValue (condition : Condition) : Value :=
  .ofMembers (textMembers [("field", condition.field), ("operator", condition.operator),
    ("value", condition.literal)])

theorem written_condition (condition : Condition) :
    Written (conditionJson condition) (conditionValue condition) :=
  written_textMembers [("field", condition.field), ("operator", condition.operator),
    ("value", condition.literal)]

def joinValues (join : JoinClause) : List (String × Value) :=
  [("joinType", .text (some join.kind.keyword)), ("joinTable", .text (some join.table)),
    ("joinCondition", .ofMembers (textMembers [("left", join.condition.left),
      ("right", join.condition.right)]))]

theorem describes_join (join : JoinClause) :
    List.Forall₂ Describes (joinMembers join) (joinValues join) :=
  .cons ⟨rfl, Json.written_text _⟩ (.cons ⟨rfl, Json.written_text _⟩
    (.cons ⟨rfl, written_textMembers [("left", join.condition.left),
      ("right", join.condition.right)]⟩ .nil))

/-- The parts of a query; those of a join only if there is one. -/
def values (query : Query) : List (String × Value) :=
  [("fields", textsValue query.fields), ("table", .text (some query.table)),
    ("whereClauses", .array (query.conditions.map conditionValue))] ++
  (query.join.map joinValues).getD [] ++
  [("groupByFields", (query.groupBy.map textsValue).getD .other),
    ("hasAggregateWithoutGroupBy", .other)]

def value (query : Query) : Value := .ofMembers (Json.sorted query.values)

theorem describes_members (query : Query) :
    List.Forall₂ Describes query.members query.values := by
  have hfields : List.Forall₂ Describes
      [("fields", texts query.fields), ("table", Json.text query.table),
        ("whereClauses", Json.array (query.conditions.map conditionJson))]
      [("fields", textsValue query.fields), ("table", .text (some query.table)),
        ("whereClauses", .array (query.conditions.map conditionValue))] :=
    .cons ⟨rfl, written_texts _⟩ (.cons ⟨rfl, Json.written_text _⟩
      (.cons ⟨rfl, Json.written_array fun condition _ => written_condition condition⟩ .nil))
  have hjoin : List.Forall₂ Describes ((query.join.map joinMembers).getD [])
      ((query.join.map joinValues).getD []) := by
    cases query.join with
    | none => exact .nil
    | some join => exact describes_join join
  have hgroups : Written ((query.groupBy.map texts).getD Json.null)
      ((query.groupBy.map textsValue).getD .other) := by
    cases query.groupBy with
    | none => exact Json.written_null
    | some names => exact written_texts names
  exact List.rel_append (List.rel_append hfields hjoin)
    (.cons ⟨rfl, hgroups⟩ (.cons ⟨rfl, Json.written_bool _⟩ .nil))

end Query

/-! ## Lines -/

namespace CommandLine

def okValues (rows : Table) : List (String × Value) :=
  [("data", .array (rows.map Row.value)), ("status", .text (some "ok"))]

theorem written_okJson (rows : Table) : Written (okJson rows) (.ofMembers (okValues rows)) :=
  Json.written_members (.cons ⟨rfl, Json.written_array fun row _ => row.written⟩
    (.cons ⟨rfl, Json.written_text _⟩ .nil))

def failureValues (failure : Failure) : List (String × Value) :=
  [("code", .text (some failure.responseCode)), ("message", .text (some failure.message)),
    ("status", .text (some "error"))]

theorem written_failureJson (failure : Failure) :
    Written (failureJson failure) (.ofMembers (failureValues failure)) :=
  Json.written_members (.cons ⟨rfl, Json.written_text _⟩ (.cons ⟨rfl, Json.written_text _⟩
    (.cons ⟨rfl, Json.written_text _⟩ .nil)))

theorem written_queryJson (query : Query) : Written (queryJson query) query.value :=
  Json.written_members (Json.describes_sorted query.describes_members)

end CommandLine

end Tabular
