import Tabular.Proofs.JoinedAnswers
/-!
# Joins from the other side

A right join is the left join of the exchanged tables, row for row, and the two inner joins differ in
the order of their rows only. This needs every name to say which of the two tables it is about: of
any other table a joined row takes the side that is not the named one.
-/

namespace Tabular

theorem Binary64.same_comm (x y : Binary64) : x.same y = y.same x := by
  rw [Bool.eq_iff_iff, same_iff, same_iff]
  simp only [and_comm]

theorem Cell.same_comm (a b : Cell) : a.same b = b.same a := by
  cases a <;> cases b <;> first
    | rfl
    | exact Bool.beq_comm
    | exact Binary64.same_comm _ _

/-- The same equality with its sides exchanged. -/
def JoinCondition.swap (condition : JoinCondition) : JoinCondition :=
  ⟨condition.right, condition.left⟩

namespace Join

/-! ## Pairs -/

section Pairs
variable (condition : JoinCondition) (left right : Table)

theorem sameKey_comm (a b : Option Cell) : sameKey a b = sameKey b a := by
  cases a <;> cases b <;> first
    | rfl
    | exact Cell.same_comm _ _

theorem isMatch_swap (l r : Row) : isMatch condition.swap r l = isMatch condition l r :=
  sameKey_comm _ _

/-- From the other side the partners of a row are its owners. -/
theorem filter_isMatch_swap (row : Row) :
    left.filter (isMatch condition.swap row) = owners condition left row := by
  rw [← filter_isMatch_right]
  exact congrArg (left.filter ·) (funext fun other => isMatch_swap condition other row)

theorem orAlone_swap (others : List Row) (row : Row) :
    (orAlone others (some row, ·)).map Prod.swap = orAlone others (·, some row) := by
  cases others <;> simp [orAlone]

theorem pairs_right_swap :
    pairs .right condition left right =
      (pairs .left condition.swap right left).map Prod.swap := by
  rw [pairs_right]
  simp only [pairs, List.map_flatMap, filter_isMatch_swap, orAlone_swap]

theorem pairs_inner_swap_perm :
    (pairs .inner condition left right).Perm
      ((pairs .inner condition.swap right left).map Prod.swap) := by
  have hswap : (pairs .inner condition.swap right left).map Prod.swap =
      right.flatMap fun row => (owners condition left row).map fun other =>
        (some other, some row) := by
    simp only [pairs, List.map_flatMap, List.map_map, filter_isMatch_swap]
    rfl
  rw [hswap]
  exact (flatMap_owners_perm condition left right).symm

end Pairs

/-! ## Rows -/

section Rows
variable {l r : String}

/-- A name of one of the two tables stands for the same cell from either side. -/
theorem sourceCell_swap (hne : l ≠ r) {field : String}
    (h : ∀ table column, IsQualified field table column → table = l ∨ table = r)
    (pair : Option Row × Option Row) :
    sourceCell l pair.1 pair.2 field = sourceCell r pair.swap.1 pair.swap.2 field := by
  by_cases hpoint : '.' ∈ field.toList
  · obtain ⟨table, column, hq⟩ := exists_isQualified hpoint
    rw [sourceCell_qualified l pair hq, sourceCell_qualified r pair.swap hq]
    rcases h table column hq with rfl | rfl
    · rw [if_pos rfl, if_neg hne]
      rfl
    · rw [if_neg (Ne.symm hne), if_pos rfl]
      rfl
  · simp only [sourceCell, splitQualified?_of_bare hpoint]

theorem merge_swap (hne : l ≠ r) {fields : List String}
    (h : ∀ field ∈ fields, ∀ table column, IsQualified field table column → table = l ∨ table = r)
    (pair : Option Row × Option Row) : merge fields l pair = merge fields r pair.swap := by
  rw [merge, merge]
  congr 1
  apply List.map_congr_left
  intro field hf
  rw [sourceCell_swap hne (h field hf)]

end Rows

end Join

/-! ## Joins -/

open Join in
/-- Exchanging the tables, the operands and the table that the rows name turns a right join into a
left join, and leaves an inner join but for the order of its rows. -/
theorem Table.join_exchanged (left right : Table) (a b l r : String) (fields : List String)
    (hne : l ≠ r)
    (hfields : ∀ field ∈ fields, ∀ table column, IsQualified field table column →
      table = l ∨ table = r) :
    Table.join .right left right ⟨a, b⟩ fields l = Table.join .left right left ⟨b, a⟩ fields r ∧
      (Table.join .inner left right ⟨a, b⟩ fields l).Perm
        (Table.join .inner right left ⟨b, a⟩ fields r) := by
  have hmerge : merge fields l = merge fields r ∘ Prod.swap := funext (merge_swap hne hfields)
  have hpairs (kind : JoinKind) :
      Table.join kind right left ⟨b, a⟩ fields r =
        ((pairs kind ⟨b, a⟩ right left).map Prod.swap).map (merge fields l) := by
    rw [Table.join, List.map_map, hmerge]
    rfl
  rw [hpairs, hpairs]
  exact ⟨congrArg _ (pairs_right_swap ⟨a, b⟩ left right),
    (pairs_inner_swap_perm ⟨a, b⟩ left right).map _⟩

open Query Join in
/-- A student without a course and a course without a student, with a name of neither table. -/
theorem Table.join_enrollments :
    let fields := ["students.name", "enrollments.course", "id"]
    (∀ field ∈ fields, ∀ table column, IsQualified field table column →
      table = "students" ∨ table = "enrollments") ∧
      Table.join .right students enrollments ⟨"students.id", "enrollments.student"⟩ fields
          "students" =
        Table.join .left enrollments students ⟨"enrollments.student", "students.id"⟩ fields
          "enrollments" ∧
      (Table.join .inner students enrollments ⟨"students.id", "enrollments.student"⟩ fields
          "students").Perm
        (Table.join .inner enrollments students ⟨"enrollments.student", "students.id"⟩ fields
          "enrollments") := by
  intro fields
  have htables : ∀ field ∈ fields, ∀ qualified ∈ splitQualified? field,
      qualified.1 = "students" ∨ qualified.1 = "enrollments" := by decide
  have hfields : ∀ field ∈ fields, ∀ table column, IsQualified field table column →
      table = "students" ∨ table = "enrollments" := fun field hf table column hq =>
    htables field hf (table, column) (splitQualified?_of_isQualified hq)
  exact ⟨hfields, join_exchanged students enrollments "students.id" "enrollments.student" "students"
    "enrollments" fields (by decide) hfields⟩

end Tabular
