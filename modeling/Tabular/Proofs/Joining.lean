import Mathlib.Data.List.FinRange
import Mathlib.Data.List.Perm.Basic
import Mathlib.Data.List.ProdSigma
import Tabular.Join
import Tabular.Proofs.Rows
/-!
# What the three joins hold

All three joins are built from the matching pairs of rows. An inner join has one row for each, in
the order of the left rows and then of the right ones. A left join adds one row for each left row
without a partner, where it stands; a right join does the same for the right rows, and goes through
the pairs in the order of the right rows.
-/

namespace Tabular

namespace Join

/-! ## Matching rows -/

/-- The cell that an operand probes: what the row holds under the second of the parts that the points
of the operand cut it into. Without a point that is nothing. -/
def probe (row : Row) (operand : String) : Cell :=
  match operand.toList.splitOn '.' with
  | _ :: column :: _ => (row.get? (String.ofList column)).getD .null
  | _ => .null

/-- Both keys are absent, or both are there and are the same value. -/
def Matches (condition : JoinCondition) (left right : Row) : Prop :=
  (probe left condition.left = .null ∧ probe right condition.right = .null) ∨
    (probe left condition.left ≠ .null ∧ probe right condition.right ≠ .null ∧
      (probe left condition.left).SameValue (probe right condition.right))

instance (condition : JoinCondition) (left right : Row) :
    Decidable (Matches condition left right) :=
  inferInstanceAs (Decidable (_ ∨ _))

theorem probe_eq (row : Row) (operand : String) :
    probe row operand = (JoinCondition.probed? operand).elim .null row.cell := by
  rw [probe, JoinCondition.probed?_eq]
  match operand.toList.splitOn '.' with
  | [] => rfl
  | [_] => rfl
  | _ :: _ :: _ => rfl

/-- A key is the probed cell, if that is not null. -/
theorem key?_eq (row : Row) (operand : String) :
    key? row (JoinCondition.probed? operand) =
      if probe row operand = .null then none else some (probe row operand) := by
  rw [key?, probe_eq]
  cases JoinCondition.probed? operand with
  | none => rfl
  | some column =>
    simp only [Option.bind_some, Option.elim_some]
    cases h : row.get? column with
    | none => simp [Row.cell, h]
    | some cell => cases cell <;> simp [Row.cell, h, Option.filter, Cell.isNull]

theorem isMatch_iff (condition : JoinCondition) (left right : Row) :
    isMatch condition left right = true ↔ Matches condition left right := by
  rw [isMatch, JoinCondition.leftColumn?, JoinCondition.rightColumn?, key?_eq, key?_eq, Matches]
  by_cases hl : probe left condition.left = .null <;>
    by_cases hr : probe right condition.right = .null <;>
    simp [hl, hr, sameKey, Cell.same_iff]

/-! ## Pairs of two lists -/

section Pairs
variable {α β : Type}

/-- The pairs of a relation, in the order of the first list. -/
theorem filter_product (R : α → β → Prop) [∀ a b, Decidable (R a b)] (l : List α) (m : List β) :
    (l ×ˢ m).filter (fun p => R p.1 p.2) =
      l.flatMap fun a => (m.filter fun b => R a b).map fun b => (a, b) := by
  induction l with
  | nil => rfl
  | cons a l ih =>
    rw [List.product_cons, List.filter_append, ih, List.flatMap_cons, List.filter_map]
    rfl

theorem swap_product_perm (l : List α) (m : List β) : ((m ×ˢ l).map Prod.swap).Perm (l ×ˢ m) := by
  induction l with
  | nil => rw [List.product_nil]; exact .refl _
  | cons a l ih =>
    rw [List.product_cons]
    have hsplit : m ×ˢ (a :: l) = m.flatMap fun b => (b, a) :: l.map fun x => (b, x) := rfl
    -- The pairs with `a`, one in each stretch, move to the front.
    have hperm := List.map_append_flatMap_perm m (fun b => (b, a)) fun b => l.map fun x => (b, x)
    replace hperm := hperm.symm.map Prod.swap
    rw [hsplit]
    refine hperm.trans ?_
    rw [List.map_append, List.map_map]
    exact (List.Perm.refl _).append ih

theorem product_map {γ δ : Type} (f : α → γ) (g : β → δ) (l : List α) (m : List β) :
    l.map f ×ˢ m.map g = (l ×ˢ m).map fun p => (f p.1, g p.2) := by
  induction l with
  | nil => rfl
  | cons a l ih =>
    rw [List.map_cons, List.product_cons, List.product_cons, ih, List.map_append, List.map_map,
      List.map_map]
    rfl

theorem map_positions (l : List α) : ((List.finRange l.length).map fun i => l[i]) = l := by
  rw [← List.ofFn_eq_map]
  exact List.ofFn_getElem

/-- Going through two lists is going through their positions. -/
theorem product_positions (l : List α) (m : List β) :
    l ×ˢ m = (List.finRange l.length ×ˢ List.finRange m.length).map fun p => (l[p.1], m[p.2]) := by
  rw [← product_map (fun i => l[i]) (fun i => m[i]), map_positions, map_positions]

end Pairs

/-! ## Padding -/

section Padding
variable {α : Type} (l : Table) (partners : Row → List Row) (pair : Row → Option Row → α)

/-- Without the padded pairs there are the pairs of partners, in place. -/
theorem filter_orAlone (p : α → Bool) (halone : ∀ row, p (pair row none) = false)
    (hpair : ∀ row other, p (pair row (some other)) = true) :
    (l.flatMap fun row => orAlone (partners row) (pair row)).filter p =
      l.flatMap fun row => (partners row).map fun other => pair row (some other) := by
  rw [List.filter_flatMap]
  congr 1
  funext row
  rw [orAlone]
  cases partners row with
  | nil => simp [halone]
  | cons other others => simp [hpair]

theorem map_orAlone {β : Type} (f : α → β) (others : List Row) (pair : Option Row → α) :
    (orAlone others pair).map f =
      if others = [] then [f (pair none)] else others.map fun other => f (pair (some other)) := by
  cases others <;> simp [orAlone]

/-- There is one padded pair for each row without partners. -/
theorem length_orAlone :
    (l.flatMap fun row => orAlone (partners row) (pair row)).length =
      (l.flatMap fun row => (partners row).map fun other => pair row (some other)).length +
        l.countP fun row => (partners row).isEmpty := by
  induction l with
  | nil => rfl
  | cons row l ih =>
    rw [List.flatMap_cons, List.flatMap_cons, List.length_append, List.length_append,
      List.countP_cons, ih, orAlone]
    cases partners row with
    | nil => simp; omega
    | cons other others => simp; omega

end Padding

/-! ## The pairs of each join -/

section Kinds
variable (condition : JoinCondition) (left right : Table)

/-- The rows a left row is joined with. -/
def partners (row : Row) : Table := right.filter fun other => Matches condition row other

/-- The rows a right row is joined with. -/
def owners (row : Row) : Table := left.filter fun other => Matches condition other row

theorem filter_isMatch_left (row : Row) :
    right.filter (isMatch condition row) = partners condition right row := by
  apply List.filter_congr
  intro other _
  rw [Bool.eq_iff_iff, isMatch_iff, decide_eq_true_iff]

theorem filter_isMatch_right (row : Row) :
    left.filter (isMatch condition · row) = owners condition left row := by
  apply List.filter_congr
  intro other _
  rw [Bool.eq_iff_iff, isMatch_iff, decide_eq_true_iff]

theorem pairs_inner :
    pairs .inner condition left right =
      ((left ×ˢ right).filter fun p => Matches condition p.1 p.2).map fun p =>
        (some p.1, some p.2) := by
  simp only [pairs, filter_isMatch_left, filter_product (Matches condition), List.map_flatMap,
    List.map_map]
  rfl

theorem pairs_left :
    pairs .left condition left right =
      left.flatMap fun row => orAlone (partners condition right row) (some row, ·) := by
  simp only [pairs, filter_isMatch_left]

theorem pairs_right :
    pairs .right condition left right =
      right.flatMap fun row => orAlone (owners condition left row) (·, some row) := by
  simp only [pairs, filter_isMatch_right]

theorem partners_isEmpty (row : Row) :
    (partners condition right row).isEmpty =
      decide (∀ other ∈ right, ¬ Matches condition row other) := by
  rw [Bool.eq_iff_iff, decide_eq_true_iff, List.isEmpty_iff, partners, List.filter_eq_nil_iff]
  simp only [decide_eq_true_eq]

theorem owners_isEmpty (row : Row) :
    (owners condition left row).isEmpty =
      decide (∀ other ∈ left, ¬ Matches condition other row) := by
  rw [Bool.eq_iff_iff, decide_eq_true_iff, List.isEmpty_iff, owners, List.filter_eq_nil_iff]
  simp only [decide_eq_true_eq]

theorem flatMap_partners :
    (left.flatMap fun row => (partners condition right row).map fun other =>
      (some row, some other)) =
      pairs .inner condition left right := by
  simp only [pairs, filter_isMatch_left]

/-- The matching pairs in the order of the right rows. -/
theorem flatMap_owners_perm :
    (right.flatMap fun row => (owners condition left row).map fun other =>
      (some other, some row)).Perm
      (pairs .inner condition left right) := by
  have howners :
      (right.flatMap fun row => (owners condition left row).map fun other =>
        (some other, some row)) =
      (((right ×ˢ left).map Prod.swap).filter fun p => Matches condition p.1 p.2).map fun p =>
        (some p.1, some p.2) := by
    rw [List.filter_map, List.map_map]
    have h := filter_product (fun r l => Matches condition l r) right left
    simp only [Function.comp_def, Prod.fst_swap, Prod.snd_swap, h, List.map_flatMap, List.map_map]
    rfl
  rw [howners, pairs_inner]
  exact ((swap_product_perm left right).filter _).map _

end Kinds

/-! ## The cells of a joined row -/

/-- The cell of a side of a pair; the side may be missing, and so may the column. -/
def sideCell (side : Option Row) (column : String) : Cell := side.elim .null (·.cell column)

/-- What a name stands for in a pair: a column of the base row if it names the base table, of the
joined row if it names any other, and nothing if it names no table. -/
structure IsSource (base : String) (pair : Option Row × Option Row) (name : String) (cell : Cell) :
    Prop where
  ofBase : ∀ column, IsQualified name base column → cell = sideCell pair.1 column
  ofJoined : ∀ table column, IsQualified name table column → table ≠ base →
    cell = sideCell pair.2 column
  ofNone : '.' ∉ name.toList → cell = .null

theorem sourceCell_qualified (base : String) (pair : Option Row × Option Row)
    {name table column : String} (h : IsQualified name table column) :
    sourceCell base pair.1 pair.2 name =
      sideCell (if table = base then pair.1 else pair.2) column := by
  simp only [sourceCell, splitQualified?_of_isQualified h]
  cases if table = base then pair.1 else pair.2 <;> rfl

theorem isSource_sourceCell (base : String) (pair : Option Row × Option Row) (name : String) :
    IsSource base pair name (sourceCell base pair.1 pair.2 name) where
  ofBase column h := by rw [sourceCell_qualified base pair h, if_pos rfl]
  ofJoined table column h hne := by rw [sourceCell_qualified base pair h, if_neg hne]
  ofNone h := by rw [sourceCell, splitQualified?_of_bare h]

theorem IsSource.unique {base : String} {pair : Option Row × Option Row} {name : String}
    {a b : Cell} (ha : IsSource base pair name a) (hb : IsSource base pair name b) : a = b := by
  by_cases hpoint : '.' ∈ name.toList
  · obtain ⟨table, column, h⟩ := exists_isQualified hpoint
    by_cases ht : table = base
    · subst ht
      rw [ha.ofBase column h, hb.ofBase column h]
    · rw [ha.ofJoined table column h ht, hb.ofJoined table column h ht]
  · rw [ha.ofNone hpoint, hb.ofNone hpoint]

/-- Every name stands for exactly one cell. -/
theorem isSource_iff (base : String) (pair : Option Row × Option Row) (name : String) (cell : Cell) :
    IsSource base pair name cell ↔ cell = sourceCell base pair.1 pair.2 name :=
  ⟨fun h => h.unique (isSource_sourceCell base pair name),
    fun h => h ▸ isSource_sourceCell base pair name⟩

/-- Without a joined row a name that is none of the base table stands for nothing. -/
theorem IsSource.of_left_alone {base name : String} {side : Option Row} {cell : Cell}
    (h : IsSource base (side, none) name cell) (hname : ∀ column, ¬ IsQualified name base column) :
    cell = .null := by
  by_cases hpoint : '.' ∈ name.toList
  · obtain ⟨table, column, hq⟩ := exists_isQualified hpoint
    refine h.ofJoined table column hq ?_
    rintro rfl
    exact hname column hq
  · exact h.ofNone hpoint

section Merged
variable (fields : List String) (base : String) (pair : Option Row × Option Row)

theorem names_merge : (merge fields base pair).names = fields.eraseDups :=
  Row.names_ofList_map _ fields

theorem get?_merge {field : String} (h : field ∈ fields) :
    (merge fields base pair).get? field = some (sourceCell base pair.1 pair.2 field) := by
  rw [merge, Row.get?_ofList_map, if_pos h]

end Merged

end Join

/-! ## Completeness -/

open Join in
/-- Inner: one row for each matching pair of positions, left positions first. Left: for each left row
the rows of its partners, or one row without a right side; without the padded rows it is the inner
join. Right: the same driven by the right rows, and the inner join but for the order. A row has the
fields, each once, with what they stand for in its pair. -/
theorem Table.join_complete (left right : Table) (condition : JoinCondition) (fields : List String)
    (leftTable : String) :
    let rows kind := Table.join kind left right condition fields leftTable
    let merged := merge fields leftTable
    let partnersOf l := right.filter fun r => Matches condition l r
    let ownersOf r := left.filter fun l => Matches condition l r
    (rows .inner =
        ((List.finRange left.length ×ˢ List.finRange right.length).filter fun p =>
          Matches condition left[p.1] right[p.2]).map fun p =>
            merged (some left[p.1], some right[p.2])) ∧
      (rows .left = left.flatMap fun l =>
        if partnersOf l = [] then [merged (some l, none)]
        else (partnersOf l).map fun r => merged (some l, some r)) ∧
      (rows .right = right.flatMap fun r =>
        if ownersOf r = [] then [merged (none, some r)]
        else (ownersOf r).map fun l => merged (some l, some r)) ∧
      (∀ pair, (merged pair).names = fields.eraseDups ∧
        ∀ field ∈ fields, ∃ cell, (merged pair).get? field = some cell ∧
          IsSource leftTable pair field cell) ∧
      (∀ l, ∀ field ∈ fields, (∀ column, ¬ IsQualified field leftTable column) →
        (merged (some l, none)).get? field = some .null) ∧
      (∀ r, ∀ field ∈ fields, ∀ column, IsQualified field leftTable column →
        (merged (none, some r)).get? field = some .null) ∧
      ((pairs .left condition left right).filter (·.2.isSome)).map merged = rows .inner ∧
      (((pairs .right condition left right).filter (·.1.isSome)).map merged).Perm (rows .inner) ∧
      (rows .left).length = (rows .inner).length +
        left.countP (fun l => ∀ r ∈ right, ¬ Matches condition l r) ∧
      (rows .right).length = (rows .inner).length +
        right.countP (fun r => ∀ l ∈ left, ¬ Matches condition l r) := by
  intro rows merged partnersOf ownersOf
  have hleft : (pairs .left condition left right).filter (·.2.isSome) =
      pairs .inner condition left right := by
    rw [pairs_left, filter_orAlone _ _ _ _ (fun _ => rfl) (fun _ _ => rfl), flatMap_partners]
  have hright : ((pairs .right condition left right).filter (·.1.isSome)).Perm
      (pairs .inner condition left right) := by
    rw [pairs_right, filter_orAlone _ _ _ _ (fun _ => rfl) (fun _ _ => rfl)]
    exact flatMap_owners_perm condition left right
  have hcell (pair) {field : String} (hf : field ∈ fields) :
      ∃ cell, (merged pair).get? field = some cell ∧ IsSource leftTable pair field cell :=
    ⟨_, get?_merge fields leftTable pair hf, isSource_sourceCell leftTable pair field⟩
  refine ⟨?_, ?_, ?_, fun pair => ⟨names_merge fields leftTable pair, fun field => hcell pair⟩,
    fun l field hf hname => ?_, fun r field hf column hq => ?_, congrArg _ hleft, hright.map _,
    ?_, ?_⟩
  · simp only [rows, Table.join, pairs_inner, product_positions left right, List.filter_map,
      List.map_map]
    rfl
  · simp only [rows, Table.join, pairs_left, List.map_flatMap, map_orAlone]
    rfl
  · simp only [rows, Table.join, pairs_right, List.map_flatMap, map_orAlone]
    rfl
  · obtain ⟨cell, hget, hsource⟩ := hcell (some l, none) hf
    rw [hget, hsource.of_left_alone hname]
  · obtain ⟨cell, hget, hsource⟩ := hcell (none, some r) hf
    exact hget.trans (congrArg some (hsource.ofBase column hq))
  · simp only [rows, Table.join, List.length_map, pairs_left, length_orAlone, flatMap_partners,
      partners_isEmpty]
  · simp only [rows, Table.join, List.length_map, pairs_right, length_orAlone, owners_isEmpty,
      (flatMap_owners_perm condition left right).length_eq]

namespace Join

/-- Of the clients one has no bill, one has no id, and the id of one is `nan`. -/
def clients : Table :=
  [[("id", .text "1"), ("name", .text "Ada")], [("id", .text "2"), ("name", .text "Grace")],
    [("id", .text "3"), ("name", .text "Linus")], [("name", .text "Nobody")],
    [("id", .number .nan), ("name", .text "Hal")]].map Row.ofList

def bills : Table :=
  [(.text "1", "lamp"), (.text "2", "desk"), (.text "1", "chair"), (.text "9", "rug"),
    (.null, "orphan"), (.number .nan, "vase")].map fun (client, item) =>
      Row.ofList [("client", client), ("item", .text item)]

/-- Absent ids go together and `nan` goes with nothing. An operand without a point probes nothing, so
that every client goes with the bill of none. -/
theorem join_bills :
    let joined (kind : JoinKind) (operand : String) := Table.join kind clients bills
      ⟨operand, "bills.client"⟩ ["clients.name", "bills.item"] "clients"
    let row (name item : Cell) := Row.ofList [("clients.name", name), ("bills.item", item)]
    let both (name item : String) := row (.text name) (.text item)
    joined .inner "clients.id" =
        [both "Ada" "lamp", both "Ada" "chair", both "Grace" "desk", both "Nobody" "orphan"] ∧
      joined .left "clients.id" =
        [both "Ada" "lamp", both "Ada" "chair", both "Grace" "desk", row (.text "Linus") .null,
          both "Nobody" "orphan", row (.text "Hal") .null] ∧
      joined .right "clients.id" =
        [both "Ada" "lamp", both "Grace" "desk", both "Ada" "chair", row .null (.text "rug"),
          both "Nobody" "orphan", row .null (.text "vase")] ∧
      joined .inner "id" =
        ["Ada", "Grace", "Linus", "Nobody", "Hal"].map fun name => both name "orphan" := by
  intro joined row both
  have hjoined (operand : String) := Table.join_complete clients bills ⟨operand, "bills.client"⟩
    ["clients.name", "bills.item"] "clients"
  obtain ⟨hinner, hleft, hright, -⟩ := hjoined "clients.id"
  exact ⟨hinner.trans (by decide +kernel), hleft.trans (by decide +kernel),
    hright.trans (by decide +kernel), (hjoined "id").1.trans (by decide +kernel)⟩

end Join

end Tabular
