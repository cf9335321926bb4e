import Mathlib.Data.List.Forall2
import Mathlib.Data.List.Induction
import Mathlib.Data.List.Perm.Subperm
import Tabular.Proofs.Numbers
import Tabular.Row
/-!
# Rows as maps

A row is known by its names, in order, and by the cell under each name. `insert` and `ofList` are
described by these two, and no later proof looks at the list of columns.
-/

namespace Tabular

/-! ## Lists without repeats -/

/-- Adding one item to a list without repeats. -/
theorem eraseDups_concat (l : List String) (a : String) :
    (l ++ [a]).eraseDups = if a ∈ l then l.eraseDups else l.eraseDups ++ [a] := by
  rw [List.eraseDups_append]
  by_cases h : a ∈ l <;> simp [List.removeAll, h, List.eraseDups_cons]

theorem nodup_eraseDups (l : List String) : l.eraseDups.Nodup := by
  induction l using List.reverseRecOn with
  | nil => simp
  | append_singleton l a ih =>
    rw [eraseDups_concat]
    split
    · exact ih
    · rename_i h
      refine List.nodup_append.2 ⟨ih, by simp, ?_⟩
      intro b hb c hc
      rw [List.mem_singleton.1 hc]
      rintro rfl
      exact h (List.mem_eraseDups.1 hb)

theorem eraseDups_of_nodup {l : List String} (h : l.Nodup) : l.eraseDups = l := by
  induction l using List.reverseRecOn with
  | nil => rfl
  | append_singleton l a ih =>
    obtain ⟨hl, -, hd⟩ := List.nodup_append.1 h
    rw [eraseDups_concat, ih hl, if_neg fun ha => hd a ha a (by simp) rfl]

theorem eraseDups_append_left (l m : List String) :
    (l.eraseDups ++ m).eraseDups = (l ++ m).eraseDups := by
  induction m using List.reverseRecOn with
  | nil => simp only [List.append_nil, eraseDups_of_nodup (nodup_eraseDups l)]
  | append_singleton m a ih =>
    rw [← List.append_assoc, ← List.append_assoc, eraseDups_concat, eraseDups_concat, ih]
    simp only [List.mem_append, List.mem_eraseDups]

/-- A list that loses nothing when repeats are dropped has none. -/
theorem nodup_of_length_eraseDups {l : List String} (h : l.eraseDups.length = l.length) : l.Nodup := by
  have hperm : l.eraseDups.Perm l :=
    (List.subperm_of_subset (nodup_eraseDups l) fun _ ha =>
      List.mem_eraseDups.1 ha).perm_of_length_le h.ge
  exact hperm.nodup_iff.1 (nodup_eraseDups l)

/-! ## Named items -/

section Named
variable {α : Type}

theorem lookup_cons (name : String) (item : String × α) (items : List (String × α)) :
    (item :: items).lookup name = if name = item.1 then some item.2 else items.lookup name := by
  rw [List.lookup_cons]
  by_cases h : name = item.1
  · simp [h]
  · rw [if_neg h, beq_false_of_ne h]

/-- Under distinct names every item is found. -/
theorem lookup_of_mem {items : List (String × α)} (hnames : (items.map Prod.fst).Nodup)
    {item : String × α} (h : item ∈ items) : items.lookup item.1 = some item.2 := by
  induction items with
  | nil => cases h
  | cons first rest ih =>
    rw [List.map_cons, List.nodup_cons] at hnames
    rw [lookup_cons]
    rcases List.mem_cons.1 h with rfl | h
    · rw [if_pos rfl]
    · have hne : item.1 ≠ first.1 := fun he => hnames.1 (he ▸ List.mem_map_of_mem h)
      rw [if_neg hne, ih hnames.2 h]

end Named

namespace Row

/-! ## One column set -/

theorem lookup_put (name other : String) (cell : Cell) (columns : List (String × Cell)) :
    (put name cell columns).lookup other =
      if other = name then some cell else columns.lookup other := by
  induction columns with
  | nil => simp only [put, lookup_cons]
  | cons column rest ih =>
    by_cases hk : column.1 = name
    · simp only [put, if_pos hk, lookup_cons]
      by_cases h : other = name <;> simp [h, hk]
    · simp only [put, if_neg hk, lookup_cons, ih]
      by_cases h : other = name
      · subst h; simp [Ne.symm hk]
      · simp [h]

@[simp] theorem get?_insert (row : Row) (name other : String) (cell : Cell) :
    (row.insert name cell).get? other = if other = name then some cell else row.get? other :=
  lookup_put name other cell row.columns

theorem names_insert (row : Row) (name : String) (cell : Cell) :
    (row.insert name cell).names = if name ∈ row.names then row.names else row.names ++ [name] :=
  names_put name cell row.columns

theorem names_nodup (row : Row) : row.names.Nodup := row.distinct

theorem get?_isSome (row : Row) (name : String) : (row.get? name).isSome ↔ name ∈ row.names := by
  simp only [get?, names]
  induction row.columns with
  | nil => simp
  | cons column rest ih =>
    rw [lookup_cons, List.map_cons, List.mem_cons, ← ih]
    by_cases h : name = column.1 <;> simp [h]

theorem contains_iff (row : Row) (name : String) : row.contains name = true ↔ name ∈ row.names :=
  row.get?_isSome name

theorem get?_eq_none (row : Row) {name : String} (h : name ∉ row.names) : row.get? name = none := by
  rw [← get?_isSome] at h
  simpa using h

theorem get?_of_mem (row : Row) {column : String × Cell} (h : column ∈ row.columns) :
    row.get? column.1 = some column.2 :=
  lookup_of_mem row.distinct h

theorem cell_of_get? {row : Row} {name : String} {cell : Cell} (h : row.get? name = some cell) :
    row.cell name = cell := by
  simp [Row.cell, h]

/-- A row is its names in order with the cell under each. -/
theorem columns_eq (row : Row) : row.columns = row.names.map fun name => (name, row.cell name) := by
  rw [names, List.map_map]
  conv_lhs => rw [← List.map_id row.columns]
  apply List.map_congr_left
  intro column h
  simp [cell_of_get? (row.get?_of_mem h)]

theorem eq_of_columns {a b : Row} (h : a.columns = b.columns) : a = b := by
  cases a
  cases b
  cases h
  rfl

theorem ext_names {a b : Row} (hn : a.names = b.names)
    (hc : ∀ name ∈ a.names, a.cell name = b.cell name) : a = b := by
  apply eq_of_columns
  rw [columns_eq a, columns_eq b, ← hn]
  apply List.map_congr_left
  intro name hm
  rw [hc name hm]

/-- The same columns in the same order with like cells. -/
def Like (a b : Row) : Prop :=
  List.Forall₂ (fun x y => x.1 = y.1 ∧ x.2.Like y.2) a.columns b.columns

theorem like_of_cells {a b : Row} (hn : a.names = b.names)
    (hc : ∀ name ∈ a.names, (a.cell name).Like (b.cell name)) : a.Like b := by
  rw [Like, columns_eq a, columns_eq b, ← hn, List.forall₂_map_left_iff, List.forall₂_map_right_iff,
    List.forall₂_same]
  exact fun name hm => ⟨rfl, hc name hm⟩

/-! ## Rows from lists -/

theorem ofList_concat (pairs : List (String × Cell)) (pair : String × Cell) :
    ofList (pairs ++ [pair]) = (ofList pairs).insert pair.1 pair.2 := by
  simp [ofList, List.foldl_append]

theorem names_ofList (pairs : List (String × Cell)) :
    (ofList pairs).names = (pairs.map Prod.fst).eraseDups := by
  induction pairs using List.reverseRecOn with
  | nil => rfl
  | append_singleton pairs pair ih =>
    rw [ofList_concat, names_insert, ih, List.map_append, List.map_singleton, eraseDups_concat]
    simp only [List.mem_eraseDups]

/-- Of the pairs with one name the last counts, which is the first from the end. -/
theorem get?_ofList (pairs : List (String × Cell)) (name : String) :
    (ofList pairs).get? name = pairs.reverse.lookup name := by
  induction pairs using List.reverseRecOn with
  | nil => rfl
  | append_singleton pairs pair ih =>
    rw [ofList_concat, get?_insert, List.reverse_concat, lookup_cons, ih]

theorem get?_ofList_last (before : List (String × Cell)) {after : List (String × Cell)} {name : String}
    (cell : Cell) (hafter : name ∉ after.map Prod.fst) :
    (ofList (before ++ (name, cell) :: after)).get? name = some cell := by
  have hnone : after.reverse.lookup name = none := by
    rw [List.lookup_eq_none_iff]
    intro pair hpair
    rw [bne_iff_ne]
    rintro rfl
    exact hafter (List.mem_map_of_mem (List.mem_reverse.1 hpair))
  rw [get?_ofList, List.reverse_append, List.reverse_cons, List.append_assoc, List.lookup_append,
    hnone, Option.none_or, List.singleton_append, lookup_cons, if_pos rfl]

theorem mem_put {name : String} {cell : Cell} {columns : List (String × Cell)}
    {column : String × Cell} (h : column ∈ put name cell columns) :
    column = (name, cell) ∨ column ∈ columns := by
  induction columns with
  | nil => exact .inl (List.mem_singleton.1 h)
  | cons first rest ih =>
    rw [put] at h
    split at h
    · exact (List.mem_cons.1 h).imp_right (List.mem_cons_of_mem first)
    · rcases List.mem_cons.1 h with rfl | h
      · exact .inr List.mem_cons_self
      · exact (ih h).imp_right (List.mem_cons_of_mem first)

/-- A row holds no cell but those it was made from. -/
theorem mem_of_mem_ofList {pairs : List (String × Cell)} {column : String × Cell}
    (h : column ∈ (ofList pairs).columns) : column ∈ pairs := by
  induction pairs using List.reverseRecOn with
  | nil => exact h
  | append_singleton pairs pair ih =>
    rw [ofList_concat] at h
    rcases mem_put h with rfl | h
    · exact List.mem_append_right pairs (List.mem_singleton_self _)
    · exact List.mem_append_left [pair] (ih h)

theorem put_of_new {name : String} (cell : Cell) {columns : List (String × Cell)}
    (h : name ∉ columns.map Prod.fst) : put name cell columns = columns ++ [(name, cell)] := by
  induction columns with
  | nil => rfl
  | cons column rest ih =>
    rw [List.map_cons, List.mem_cons, not_or] at h
    rw [put, if_neg (Ne.symm h.1), ih h.2]
    rfl

/-- Under distinct names the pairs are the columns. -/
theorem columns_ofList {pairs : List (String × Cell)} (h : (pairs.map Prod.fst).Nodup) :
    (ofList pairs).columns = pairs := by
  induction pairs using List.reverseRecOn with
  | nil => rfl
  | append_singleton pairs pair ih =>
    rw [List.map_append, List.map_singleton] at h
    obtain ⟨hn, -, hd⟩ := List.nodup_append.1 h
    have hnew : pair.1 ∉ (ofList pairs).columns.map Prod.fst := by
      rw [ih hn]
      exact fun hm => hd _ hm _ (List.mem_singleton_self _) rfl
    have hput : (ofList (pairs ++ [pair])).columns = put pair.1 pair.2 (ofList pairs).columns := by
      rw [ofList_concat]
      rfl
    rw [hput, put_of_new pair.2 hnew, ih hn]

/-- A row is the one collected from its own columns. -/
theorem ofList_columns (row : Row) : ofList row.columns = row :=
  eq_of_columns (columns_ofList row.distinct)

/-- A row made from names and a function of them has the function's cells, repeated or not. -/
theorem get?_ofList_map (f : String → Cell) (names : List String) (name : String) :
    (ofList (names.map fun n => (n, f n))).get? name =
      if name ∈ names then some (f name) else none := by
  induction names using List.reverseRecOn with
  | nil => rfl
  | append_singleton names last ih =>
    rw [List.map_append, List.map_singleton, ofList_concat, get?_insert, ih]
    by_cases h : name = last <;> simp [h]

theorem names_ofList_map (f : String → Cell) (names : List String) :
    (ofList (names.map fun n => (n, f n))).names = names.eraseDups := by
  rw [names_ofList, List.map_map]
  congr 1
  exact List.map_id names

end Row

/-! ## Tables of text -/

/-- All cells are text, as they are in a table that was loaded. -/
def Table.AllText (rows : Table) : Prop :=
  ∀ row ∈ rows, ∀ column ∈ row.columns, column.2.text?.isSome = true

instance (rows : Table) : Decidable rows.AllText :=
  inferInstanceAs (Decidable (∀ row ∈ rows, ∀ column ∈ row.columns, _))

/-- A missing column is no number either. -/
theorem Table.AllText.number?_cell {rows : Table} (h : rows.AllText) {row : Row} (hr : row ∈ rows)
    (name : String) : (row.cell name).number? = none := by
  by_cases hn : name ∈ row.names
  · have hm : (name, row.cell name) ∈ row.columns := by
      rw [row.columns_eq]
      exact List.mem_map_of_mem hn
    have htext := h row hr _ hm
    cases hc : row.cell name with
    | null | text content => rfl
    | number value => rw [hc] at htext; cases htext
  · rw [Row.cell, row.get?_eq_none hn]
    rfl

end Tabular
