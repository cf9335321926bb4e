import Tabular.Proofs.Filtering
import Tabular.Proofs.Rows
import Tabular.Delimited
/-!
# Rows under a header

A table that was read is rectangular: its rows have the names of one header for columns, each name
once, and hold text only. Where the header repeats a name, the field under its last place is kept.
-/

namespace Tabular.Delimited

/-! ## The row of a record -/

/-- The row holds the fields under the names of the header. -/
structure IsRow (header fields : List String) (row : Row) : Prop where
  names : row.names = header.eraseDups
  width : fields.length = header.length
  cell : ∀ (i : Nat) (name : String), header[i]? = some name → (∀ j > i, header[j]? ≠ some name) →
    ∃ field, fields[i]? = some field ∧ row.get? name = some (.text field)

section Row
variable {header : List String} {record : Record}

theorem names_row (h : record.fields.length = header.length) :
    (record.row header).names = header.eraseDups := by
  rw [Record.row, Row.names_ofList, List.map_fst_zip (by rw [List.length_map, h])]

theorem get?_row (h : record.fields.length = header.length) {i : Nat} {name : String}
    (hi : header[i]? = some name) (hlast : ∀ j > i, header[j]? ≠ some name) :
    ∃ field, record.fields[i]? = some field ∧
      (record.row header).get? name = some (.text field) := by
  obtain ⟨hlt, -⟩ := List.getElem?_eq_some_iff.1 hi
  have hfield : record.fields[i]? = some record.fields[i] := List.getElem?_eq_getElem (h ▸ hlt)
  refine ⟨record.fields[i], hfield, ?_⟩
  rw [Record.row]
  generalize hpairs : header.zip (record.fields.map Cell.text) = pairs
  have hpair : pairs[i]? = some (name, .text record.fields[i]) := by
    rw [← hpairs, List.getElem?_zip_eq_some, List.getElem?_map, hfield]
    exact ⟨hi, rfl⟩
  have hnames : pairs.map Prod.fst = header := by
    rw [← hpairs, List.map_fst_zip (by rw [List.length_map, h])]
  obtain ⟨hi, hpair⟩ := List.getElem?_eq_some_iff.1 hpair
  rw [← List.take_append_drop i pairs, List.drop_eq_getElem_cons hi, hpair]
  refine Row.get?_ofList_last _ _ fun hmem => ?_
  -- A later place of the name.
  rw [List.map_drop, hnames, List.mem_iff_getElem?] at hmem
  obtain ⟨j, hj⟩ := hmem
  rw [List.getElem?_drop] at hj
  exact hlast (i + 1 + j) (by omega) hj

theorem isRow_row (h : record.fields.length = header.length) :
    IsRow header record.fields (record.row header) :=
  ⟨names_row h, h, fun _ _ => get?_row h⟩

theorem isText_row {column : String × Cell} (h : column ∈ (record.row header).columns) :
    column.2.text?.isSome = true := by
  obtain ⟨field, -, he⟩ := List.mem_map.1 (List.of_mem_zip (Row.mem_of_mem_ofList h)).2
  rw [← he]
  rfl

end Row

/-! ## Tables -/

/-- A table with rows has a header, and every row is that of a record under it, in order. Blank
records count neither as the header nor as rows. -/
theorem read_rectangular (d : Char) (content : String) (rows : Table)
    (h : read d content = .ok rows) (hrows : rows ≠ []) :
    ∃ header body,
      ((records d content.toList).1.filter (!·.isBlank)).map Record.fields = header :: body ∧
        rows.AllText ∧ List.Forall₂ (IsRow header) body rows := by
  cases hlist : records d content.toList with | mk list fault =>
  simp only [read, hlist] at h ⊢
  cases hkept : list.filter (!·.isBlank) with
  | nil =>
    -- Without a header there are no rows.
    rw [hkept] at h
    cases fault with
    | none => cases h; exact absurd rfl hrows
    | some fault => cases h
  | cons header body =>
    rw [hkept] at h
    obtain ⟨table, htable, h⟩ := exists_of_bind h
    cases fault with
    | none =>
      cases h
      obtain ⟨hwidth, rfl⟩ := mapM_toRow_iff.1 htable
      refine ⟨header.fields, body.map Record.fields, rfl, ?_, ?_⟩
      · exact List.forall_mem_map.2 fun record _ column => isText_row
      · rw [List.forall₂_map_left_iff, List.forall₂_map_right_iff, List.forall₂_same]
        exact fun record hrecord => isRow_row (hwidth record hrecord)
    | some fault => cases h

/-- The second column of the name `id` is the one that is kept. -/
theorem read_repeatedHeader :
    let content := "id,name,id\n1,Ann,2\n\n3,Bob,4\n"
    let rows : Table := [[("id", "2"), ("name", "Ann")], [("id", "4"), ("name", "Bob")]].map
      fun columns => Row.ofList (columns.map fun (name, field) => (name, .text field))
    read ',' content = .ok rows ∧ rows ≠ [] ∧ rows.AllText ∧
      List.Forall₂ (IsRow ["id", "name", "id"]) [["1", "Ann", "2"], ["3", "Bob", "4"]] rows := by
  intro content rows
  have hread : read ',' content = .ok rows := by decide +kernel
  have hrows : rows ≠ [] := List.cons_ne_nil _ _
  have hrecords : ((records ',' content.toList).1.filter (!·.isBlank)).map Record.fields =
      [["id", "name", "id"], ["1", "Ann", "2"], ["3", "Bob", "4"]] := by decide +kernel
  obtain ⟨header, body, hbody, htext, hall⟩ := read_rectangular ',' content rows hread hrows
  cases hrecords.symm.trans hbody
  exact ⟨hread, hrows, htext, hall⟩

end Tabular.Delimited
