import Tabular.Proofs.Rows
/-!
# Histories of a row

A row is changed one column at a time, or made anew from pairs. After every history it is the ordered
map of the insertions that made it: the names stand in the order of their first insertions, and under
each is the cell of its last one.
-/

namespace Tabular

/-! ## Rows that equal themselves -/

theorem Cell.same_self (cell : Cell) : cell.same cell = true ↔ cell ≠ .number .nan := by
  constructor
  · rintro h rfl
    cases h
  · intro hne
    exact (Like.refl cell).resolve_right fun hnan => hne hnan.1

namespace Row

/-- Only `nan` keeps a row from being equal to itself. -/
theorem same_self (row : Row) :
    row.same row = true ↔ ∀ column ∈ row.columns, column.2 ≠ .number .nan := by
  have hzip : row.columns.zip row.columns = row.columns.map fun column => (column, column) := by
    rw [← List.zip_map', List.map_id']
  rw [same, hzip, List.all_map, beq_self_eq_true, Bool.true_and, List.all_eq_true]
  simp only [Function.comp_apply, beq_self_eq_true, Bool.true_and, Cell.same_self]

/-! ## Changes -/

/-- One change of a row. A column is set, in place or in a row that is handed on, which is the same;
or pairs are collected into a row, which starts empty again. -/
inductive Change
  | insert (name : String) (cell : Cell)
  | collect (pairs : List (String × Cell))

def Change.apply (row : Row) : Change → Row
  | .insert name cell => row.insert name cell
  | .collect pairs => ofList pairs

/-- The row that the changes make of the empty row, one after the other. -/
def ofChanges (changes : List Change) : Row := changes.foldl Change.apply empty

/-- The insertions into the row behind the change, if `inserted` are those in front of it. -/
def Change.record (inserted : List (String × Cell)) : Change → List (String × Cell)
  | .insert name cell => inserted ++ [(name, cell)]
  | .collect pairs => pairs

/-- The insertions into the row that the changes make, in order. -/
def insertions (changes : List Change) : List (String × Cell) := changes.foldl Change.record []

theorem Change.apply_ofList (inserted : List (String × Cell)) (change : Change) :
    change.apply (ofList inserted) = ofList (change.record inserted) := by
  cases change with
  | insert name cell => exact (ofList_concat inserted (name, cell)).symm
  | collect pairs => rfl

theorem ofChanges_eq (changes : List Change) : ofChanges changes = ofList (insertions changes) := by
  have hrun : ∀ inserted, changes.foldl Change.apply (ofList inserted) =
      ofList (changes.foldl Change.record inserted) := by
    induction changes with
    | nil => exact fun _ => rfl
    | cons change changes ih =>
      intro inserted
      rw [List.foldl_cons, Change.apply_ofList, ih, List.foldl_cons]
  exact hrun []

/-- After any changes the names are distinct and stand in the order of their first insertions. A name
has the cell of its last insertion, and no cell if it was not inserted. Collected from its own columns
the row is the same, and compares as equal unless there is a `nan` in it. -/
theorem ofChanges_orderedMap (changes : List Change) :
    (ofChanges changes).names.Nodup ∧
      (ofChanges changes).names = ((insertions changes).map Prod.fst).eraseDups ∧
      (∀ name, (ofChanges changes).get? name = (insertions changes).reverse.lookup name) ∧
      ofList (ofChanges changes).columns = ofChanges changes ∧
      ((ofList (ofChanges changes).columns).same (ofChanges changes) = true ↔
        ∀ column ∈ (ofChanges changes).columns, column.2 ≠ .number .nan) := by
  have hnames : (ofChanges changes).names = ((insertions changes).map Prod.fst).eraseDups := by
    rw [ofChanges_eq, names_ofList]
  have hcopy : ofList (ofChanges changes).columns = ofChanges changes := ofList_columns _
  refine ⟨?_, hnames, fun name => ?_, hcopy, ?_⟩
  · rw [hnames]
    exact nodup_eraseDups _
  · rw [ofChanges_eq, get?_ofList]
  · rw [hcopy]
    exact same_self _

example :
    (ofChanges [.insert "lost" .null, .collect [("b", .text "1"), ("a", .text "2"), ("b", .text "3")],
      .insert "c" (.number .nan), .insert "a" (.text "4")]).columns =
        [("b", .text "3"), ("a", .text "4"), ("c", .number .nan)] := by
  decide

end Row

end Tabular
