import Tabular.Grouping
import Tabular.Proofs.Numbers
import Tabular.Proofs.Rows
/-!
# What the grouping pass computes

`pass` reads the table once and keeps the state of every group. `pass_eq` says what is then in it:
the keys in the order of their first rows, each with the state its own rows lead to. `groupBy_eq`
reads off the rows: each output is a function of the rows of its group alone.
-/

namespace Tabular

namespace Grouping

/-! ## The rows of a key -/

section Keys
variable (key : Row → String)

/-- The values that `key` takes, in the order of their first rows. -/
def keys (rows : Table) : List String := (rows.map key).eraseDups

/-- The rows with the key `k`. -/
def members (rows : Table) (k : String) : Table := rows.filter (key · = k)

theorem keys_concat (rows : Table) (row : Row) :
    keys key (rows ++ [row]) =
      if key row ∈ keys key rows then keys key rows else keys key rows ++ [key row] := by
  simp only [keys, List.map_append, List.map_singleton, eraseDups_concat, List.mem_eraseDups]

theorem keys_nodup (rows : Table) : (keys key rows).Nodup := nodup_eraseDups _

theorem mem_keys {rows : Table} {k : String} : k ∈ keys key rows ↔ ∃ row ∈ rows, key row = k := by
  simp [keys, List.mem_eraseDups]

theorem members_concat (rows : Table) (row : Row) (k : String) :
    members key (rows ++ [row]) k =
      if key row = k then members key rows k ++ [row] else members key rows k := by
  by_cases h : key row = k <;> simp [members, h]

theorem members_eq_nil {rows : Table} {k : String} (h : k ∉ keys key rows) :
    members key rows k = [] := by
  rw [members, List.filter_eq_nil_iff]
  intro row hr he
  exact h ((mem_keys key).2 ⟨row, hr, by simpa using he⟩)

theorem members_ne_nil {rows : Table} {k : String} (h : k ∈ keys key rows) :
    members key rows k ≠ [] := by
  obtain ⟨row, hr, he⟩ := (mem_keys key).1 h
  exact List.ne_nil_of_mem (List.mem_filter.2 ⟨hr, by simpa using he⟩)

theorem key_of_mem_members {rows : Table} {k : String} {row : Row} (h : row ∈ members key rows k) :
    key row = k := by
  simpa using (List.mem_filter.1 h).2

end Keys

/-! ## The state of a group -/

section State
variable (outputs : List Output)

/-- The value of an output over rows. -/
def value (output : Output) (rows : Table) : Option Binary64 :=
  rows.foldl (fun v row => output.next row v) none

def count (rows : Table) : Binary64 :=
  rows.foldl (fun n row => n.add (weight outputs row)) (.zero false)

/-- The state of a group whose rows are `rows`; `first` is the first of them. -/
def state (first : Row) (rows : Table) : Group :=
  ⟨first, count outputs rows, outputs.map fun output => value output rows⟩

theorem value_concat (output : Output) (rows : Table) (row : Row) :
    value output (rows ++ [row]) = output.next row (value output rows) := by
  simp [value, List.foldl_append]

theorem count_concat (rows : Table) (row : Row) :
    count outputs (rows ++ [row]) = (count outputs rows).add (weight outputs row) := by
  simp [count, List.foldl_append]

theorem state_start (first : Row) : state outputs first [] = Group.start outputs first := rfl

/-- One more row moves a group from the state of its rows to the state of one more. -/
theorem state_observe (first : Row) (rows : Table) (row : Row) :
    (state outputs first rows).observe outputs row = state outputs first (rows ++ [row]) := by
  simp only [state, Group.observe, count_concat, Group.mk.injEq, true_and]
  simp [List.zipWith_map_right, List.zipWith_self, value_concat]

/-! ## The pass -/

/-- What the pass holds for a key after `rows`. -/
def entry (key : Row → String) (rows : Table) (k : String) : String × Group :=
  (k, state outputs ((members key rows k).headD .empty) (members key rows k))

variable (key : Row → String)

theorem take_entry (k : String) (row row' : Row) (rows : Table) (rest : List (String × Group)) :
    take outputs (key row) row' (entry outputs key rows k :: rest) =
      if k = key row then (k, (entry outputs key rows k).2.observe outputs row') :: rest
      else entry outputs key rows k :: take outputs (key row) row' rest := rfl

theorem entry_other {rows : Table} {row : Row} {k : String} (h : key row ≠ k) :
    entry outputs key (rows ++ [row]) k = entry outputs key rows k := by
  simp only [entry, members_concat, if_neg h]

theorem entry_again {rows : Table} {row : Row} (h : members key rows (key row) ≠ []) :
    entry outputs key (rows ++ [row]) (key row) =
      (key row, (entry outputs key rows (key row)).2.observe outputs row) := by
  simp only [entry, members_concat, if_true, state_observe]
  cases hm : members key rows (key row) with
  | nil => exact absurd hm h
  | cons first rest => rfl

theorem entry_new {rows : Table} {row : Row} (h : members key rows (key row) = []) :
    entry outputs key (rows ++ [row]) (key row) =
      (key row, (Group.start outputs row).observe outputs row) := by
  simp only [entry, members_concat, if_true, h, ← state_start, state_observe]
  rfl

/-- Taking one row into the groups of `rows` gives the groups of one more row. -/
theorem take_entries (rows : Table) (row : Row) {ks : List String} (hn : ks.Nodup)
    (hm : ∀ k ∈ ks, members key rows k ≠ []) (hk : key row ∉ ks → members key rows (key row) = []) :
    take outputs (key row) row (ks.map (entry outputs key rows)) =
      (if key row ∈ ks then ks else ks ++ [key row]).map (entry outputs key (rows ++ [row])) := by
  induction ks with
  | nil => simp [take, entry_new outputs key (hk (by simp))]
  | cons k ks ih =>
    obtain ⟨hnk, hn⟩ := List.nodup_cons.1 hn
    rw [List.map_cons, take_entry]
    by_cases he : k = key row
    · -- The row's own group moves on, and no later group has its key.
      subst he
      have hrest : ks.map (entry outputs key rows) = ks.map (entry outputs key (rows ++ [row])) := by
        apply List.map_congr_left
        intro j hj
        refine (entry_other outputs key ?_).symm
        rintro rfl
        exact hnk hj
      simp [hrest, entry_again outputs key (hm _ List.mem_cons_self)]
    · -- A group of another key stays as it is.
      have hne : key row ≠ k := Ne.symm he
      rw [if_neg he,
        ih hn (fun j hj => hm j (List.mem_cons_of_mem _ hj)) fun h => hk (by simp [hne, h])]
      have hsame : entry outputs key rows k = entry outputs key (rows ++ [row]) k :=
        (entry_other outputs key hne).symm
      by_cases h : key row ∈ ks <;> simp [h, hne, hsame]

/-- The pass holds every key in the order of its first row, with the state of its rows. -/
theorem pass_eq (rows : Table) :
    pass key outputs rows = (keys key rows).map (entry outputs key rows) := by
  -- The pass goes on at the end of the table, so the induction does too.
  induction rows using List.reverseRecOn with
  | nil => rfl
  | append_singleton rows row ih =>
    have hstep :
        pass key outputs (rows ++ [row]) = take outputs (key row) row (pass key outputs rows) := by
      simp [pass, List.foldl_append]
    rw [hstep, ih, keys_concat]
    exact take_entries outputs key rows row (keys_nodup key rows)
      (fun k hk => members_ne_nil key hk) (members_eq_nil key)

end State

/-! ## The row of a group -/

theorem addMissing_eq (row : Row) (name : String) (cell : Cell) :
    Group.addMissing row name cell = if name ∈ row.names then row else row.insert name cell := by
  simp only [Group.addMissing, Row.contains_iff]

theorem names_addMissing (row : Row) (name : String) (cell : Cell) :
    (Group.addMissing row name cell).names =
      if name ∈ row.names then row.names else row.names ++ [name] := by
  rw [addMissing_eq]
  split
  · rfl
  · rename_i h
    rw [Row.names_insert, if_neg h]

theorem get?_addMissing (row : Row) (name other : String) (cell : Cell) :
    (Group.addMissing row name cell).get? other =
      if other ∈ row.names then row.get? other else if other = name then some cell else none := by
  rw [addMissing_eq]
  by_cases ho : other ∈ row.names
  · rw [if_pos ho]
    split
    · rfl
    · rename_i h
      rw [Row.get?_insert, if_neg (by rintro rfl; exact h ho)]
  · rw [if_neg ho, ← Row.get?_eq_none row ho]
    split
    · rename_i h
      rw [if_neg (by rintro rfl; exact ho h)]
    · rw [Row.get?_insert]

section Fold
variable (f : String → Cell)

theorem names_foldl_addMissing (row : Row) (exprs : List String) :
    (exprs.foldl (fun row expr => Group.addMissing row expr (f expr)) row).names =
      (row.names ++ exprs).eraseDups := by
  induction exprs using List.reverseRecOn with
  | nil => simp [eraseDups_of_nodup row.names_nodup]
  | append_singleton exprs expr ih =>
    rw [List.foldl_append, List.foldl_cons, List.foldl_nil, names_addMissing, ih,
      ← List.append_assoc, eraseDups_concat]
    simp only [List.mem_eraseDups]

theorem get?_foldl_addMissing (row : Row) (exprs : List String) (name : String) :
    (exprs.foldl (fun row expr => Group.addMissing row expr (f expr)) row).get? name =
      if name ∈ row.names then row.get? name else if name ∈ exprs then some (f name) else none := by
  induction exprs using List.reverseRecOn with
  | nil =>
    by_cases h : name ∈ row.names
    · simp [h]
    · simp [h, Row.get?_eq_none row h]
  | append_singleton exprs expr ih =>
    rw [List.foldl_append, List.foldl_cons, List.foldl_nil, get?_addMissing, ih,
      names_foldl_addMissing]
    simp only [List.mem_eraseDups, List.mem_append, List.mem_singleton]
    by_cases hr : name ∈ row.names
    · simp [hr]
    · by_cases he : name ∈ exprs
      · simp [hr, he]
      · by_cases hl : name = expr
        · subst hl; simp [hr, he]
        · simp [hr, he, hl]

end Fold

/-- The cell of an output expression in the row of a group whose rows are `rows`. -/
def outputCell (exprs : List String) (rows : Table) (expr : String) : Cell :=
  match (Output.ofExpr expr).aggregate with
  | none => rows.firstCell expr
  | some a =>
    if a.function = .count then .number (count (exprs.map Output.ofExpr) rows)
    else (value (.ofExpr expr) rows).elim .null .number

/-- An output is a plain column, a count, or a combination of numbers. -/
theorem Output.kinds (expr : String) :
    (Output.ofExpr expr).aggregate = none ∨ (Output.ofExpr expr).isCount = true ∨
      ∃ combine argument, (Output.ofExpr expr).combined? = some (combine, argument) := by
  cases h : (Output.ofExpr expr).aggregate with
  | none => exact .inl rfl
  | some a =>
    have havg : a.function ≠ .avg := by simpa using (Option.filter_eq_some_iff.1 h).2
    cases hf : a.function with
    | count => exact .inr (.inl (by simp [Output.isCount, h, hf]))
    | avg => exact absurd hf havg
    | sum | min | max => exact .inr (.inr ⟨_, _, by rw [Output.combined?, h, Option.bind_some, hf]⟩)

/-- The value of a combined output is its parts, combined from the left. -/
theorem value_eq {output : Output} {combine : Binary64 → Binary64 → Binary64}
    {argument : Aggregate.Argument}
    (h : output.combined? = some (combine, argument)) (rows : Table) :
    (value output rows).elim .null .number =
      Table.reduce combine (rows.map (output.part argument)) := by
  have hnext (row : Row) (v : Option Binary64) :
      output.next row v =
        some (v.elim (output.part argument row) (combine · (output.part argument row))) := by
    rw [Output.next, h]
  -- A value that has started never stops.
  have hsome (rows : Table) (x : Binary64) :
      rows.foldl (fun v row => output.next row v) (some x) =
        some ((rows.map (output.part argument)).foldl combine x) := by
    induction rows generalizing x with
    | nil => rfl
    | cons row rows ih =>
      rw [List.foldl_cons, hnext, Option.elim_some, ih, List.map_cons, List.foldl_cons]
  cases rows with
  | nil => rfl
  | cons row rows =>
    rw [value, List.foldl_cons, hnext, Option.elim_none, hsome]
    rfl

theorem outputCell_column {expr : String} (h : (Output.ofExpr expr).aggregate = none)
    (exprs : List String) (rows : Table) : outputCell exprs rows expr = rows.firstCell expr := by
  rw [outputCell, h]

theorem outputCell_count {expr : String} (h : (Output.ofExpr expr).isCount = true)
    (exprs : List String) (rows : Table) :
    outputCell exprs rows expr = .number (count (exprs.map Output.ofExpr) rows) := by
  rw [Output.isCount] at h
  rw [outputCell]
  split at h
  · rename_i a ha
    rw [ha]
    exact if_pos (by simpa using h)
  · cases h

theorem outputCell_combined {expr : String} {combine : Binary64 → Binary64 → Binary64}
    {argument : Aggregate.Argument} (h : (Output.ofExpr expr).combined? = some (combine, argument))
    (exprs : List String) (rows : Table) :
    outputCell exprs rows expr =
      Table.reduce combine (rows.map ((Output.ofExpr expr).part argument)) := by
  rw [outputCell, ← value_eq h]
  rw [Output.combined?] at h
  cases ha : (Output.ofExpr expr).aggregate with
  | none => rw [ha] at h; cases h
  | some a =>
    rw [ha, Option.bind_some] at h
    exact if_neg (by rintro hf; rw [hf] at h; cases h)

/-- The row of a group whose rows are `rows`. -/
def groupRow (names exprs : List String) (rows : Table) : Row :=
  exprs.foldl (fun row expr => Group.addMissing row expr (outputCell exprs rows expr))
    (.ofList (names.map fun name => (name, rows.firstCell name)))

theorem firstCell_eq (rows : Table) (name : String) :
    (rows.headD .empty).cell name = rows.firstCell name := by
  cases rows <;> rfl

theorem cell_state (exprs : List String) (rows : Table) (expr : String) :
    (state (exprs.map Output.ofExpr) (rows.headD .empty) rows).cell (.ofExpr expr)
      (value (.ofExpr expr) rows) =
      outputCell exprs rows expr := by
  rw [Group.cell, outputCell, ← firstCell_eq]
  rfl

theorem row_state (names exprs : List String) (rows : Table) :
    (state (exprs.map Output.ofExpr) (rows.headD .empty) rows).row names (exprs.map Output.ofExpr) =
      groupRow names exprs rows := by
  have hzip :
      (exprs.map Output.ofExpr).zip ((exprs.map Output.ofExpr).map (value · rows)) =
        exprs.map fun expr => (Output.ofExpr expr, value (.ofExpr expr) rows) := by
    rw [← List.map_prod_left_eq_zip, List.map_map]
    rfl
  rw [Group.row, groupRow]
  simp only [state, hzip, List.foldl_map, ← cell_state, firstCell_eq]
  rfl

/-- Grouping gives one row for each key, in the order of first rows. -/
theorem groupBy_eq (rows : Table) (names exprs : List String) :
    rows.groupBy names exprs =
      (keys (·.groupKey names) rows).map fun k =>
        groupRow names exprs (members (·.groupKey names) rows k) := by
  simp only [Table.groupBy, pass_eq, List.map_map]
  apply List.map_congr_left
  intro k _
  exact row_state names exprs _

theorem names_groupRow (names exprs : List String) (rows : Table) :
    (groupRow names exprs rows).names = (names ++ exprs).eraseDups := by
  rw [groupRow, names_foldl_addMissing, Row.names_ofList_map, eraseDups_append_left]

/-- The grouping columns come from the first row; the other columns are outputs. -/
theorem get?_groupRow (names exprs : List String) (rows : Table) (name : String) :
    (groupRow names exprs rows).get? name =
      if name ∈ names then some (rows.firstCell name)
      else if name ∈ exprs then some (outputCell exprs rows name) else none := by
  rw [groupRow, get?_foldl_addMissing, Row.names_ofList_map, Row.get?_ofList_map]
  by_cases h : name ∈ names <;> simp [List.mem_eraseDups, h]

/-- The row of a group has every output that is not a grouping column under the output's name. -/
theorem get?_output {names exprs : List String} {expr : String} (he : expr ∈ exprs)
    (hn : expr ∉ names) (rows : Table) :
    (groupRow names exprs rows).get? expr = some (outputCell exprs rows expr) := by
  rw [get?_groupRow, if_neg hn, if_pos he]

theorem groupKey_congr {names : List String} {a b : Row}
    (h : ∀ name ∈ names, a.cell name = b.cell name) : a.groupKey names = b.groupKey names := by
  unfold Row.groupKey
  congr 1
  apply List.map_congr_left
  intro name hm
  rw [h name hm]

/-- The row of a group has the key of the group's rows. -/
theorem groupKey_groupRow (names exprs : List String) {rows : Table} {k : String}
    (hk : k ∈ keys (·.groupKey names) rows) :
    (groupRow names exprs (members (·.groupKey names) rows k)).groupKey names = k := by
  obtain ⟨first, rest, hm⟩ := List.exists_cons_of_ne_nil (members_ne_nil (·.groupKey names) hk)
  have hfirst : first.groupKey names = k :=
    key_of_mem_members (·.groupKey names) (hm ▸ List.mem_cons_self)
  rw [← hfirst]
  refine groupKey_congr fun name hn => Row.cell_of_get? ?_
  rw [get?_groupRow, if_pos hn, hfirst, hm]
  rfl

/-- The rows of a grouped table have the keys of the table, each once. -/
theorem map_groupKey_groupBy (rows : Table) (names exprs : List String) :
    (rows.groupBy names exprs).map (·.groupKey names) = keys (·.groupKey names) rows := by
  rw [groupBy_eq, List.map_map]
  conv_rhs => rw [← List.map_id (keys _ rows)]
  apply List.map_congr_left
  intro k hk
  exact groupKey_groupRow names exprs hk

end Grouping

end Tabular
