import Mathlib.Algebra.BigOperators.Group.List.Lemmas
import Tabular.Proofs.Extremes
import Tabular.Proofs.GroupFilters
/-!
# Coarser groups from finer ones

A grouped table can be grouped again by some of its grouping columns. Each coarse group is then a
group of fine ones: its count is the sum of theirs, its least number the least of theirs, and its
first row the first row of the first of them. So the rows of the coarse groups need not be looked at
again. Sums are left out, since they are rounded on the way.
-/

namespace Tabular

/-- The first occurrences of images are the images of first occurrences. -/
theorem eraseDups_map_eraseDups (f : String → String) (l : List String) :
    (l.eraseDups.map f).eraseDups = (l.map f).eraseDups := by
  induction l using List.reverseRecOn with
  | nil => rfl
  | append_singleton l a ih =>
    rw [List.map_append, List.map_singleton, eraseDups_concat, eraseDups_concat, ← ih]
    by_cases ha : a ∈ l
    · rw [if_pos ha, if_pos (List.mem_map_of_mem ha)]
    · rw [if_neg ha, List.map_append, List.map_singleton, eraseDups_concat]
      simp only [List.mem_map, List.mem_eraseDups]

/-- Like cells make the same part of a key: zero is written without its sign. -/
theorem Cell.Like.keyFragment_eq {a b : Cell} (h : a.Like b) : a.keyFragment = b.keyFragment := by
  have hnumber {x y : Binary64} (h : x.Like y) : numberText x = numberText y := by
    rcases (Binary64.like_iff x y).1 h with rfl | ⟨s, t, rfl, rfl⟩
    · rfl
    · simp only [numberText, Binary64.toInt?_zero]
  rcases h with h | ⟨rfl, rfl⟩
  · cases a <;> cases b <;> first
      | rfl
      | cases h
      | exact eq_of_beq h
      | exact hnumber (.inl h)
  · rfl

namespace Grouping

/-! ## Fine and coarse keys -/

/-- Rows with one group key have like cells in the grouping columns. -/
def AgreeLike (names : List String) (rows : Table) : Prop :=
  ∀ a ∈ rows, ∀ b ∈ rows, a.groupKey names = b.groupKey names →
    ∀ name ∈ names, (a.cell name).Like (b.cell name)

section Keys
variable {fine coarse : List String} {rows : Table}

theorem groupKey_like {names : List String} {a b : Row}
    (h : ∀ name ∈ names, (a.cell name).Like (b.cell name)) : a.groupKey names = b.groupKey names := by
  unfold Row.groupKey
  congr 1
  apply List.map_congr_left
  intro name hn
  exact (h name hn).keyFragment_eq

/-- The row of a fine group has the coarse key of each of its rows. -/
theorem coarseKey_groupRow (hsub : ∀ name ∈ coarse, name ∈ fine) (hagree : AgreeLike fine rows)
    (exprs : List String) {row : Row} (hr : row ∈ rows) :
    (groupRow fine exprs (members (·.groupKey fine) rows (row.groupKey fine))).groupKey coarse =
      row.groupKey coarse := by
  have hrow : row ∈ members (·.groupKey fine) rows (row.groupKey fine) :=
    List.mem_filter.2 ⟨hr, decide_eq_true rfl⟩
  obtain ⟨first, rest, hm⟩ := List.exists_cons_of_ne_nil (List.ne_nil_of_mem hrow)
  have hfirst : first ∈ members (·.groupKey fine) rows (row.groupKey fine) :=
    hm ▸ List.mem_cons_self
  refine groupKey_like fun name hn => ?_
  have hcell := get?_groupRow fine exprs (first :: rest) name
  rw [if_pos (hsub name hn)] at hcell
  rw [hm, Row.cell_of_get? hcell]
  exact hagree first (List.mem_filter.1 hfirst).1 row hr
    (key_of_mem_members (·.groupKey fine) hfirst) name (hsub name hn)

/-- The fine groups have the coarse keys of the table, in the order of their first rows. -/
theorem keys_groupBy (hsub : ∀ name ∈ coarse, name ∈ fine) (hagree : AgreeLike fine rows)
    (exprs : List String) :
    keys (·.groupKey coarse) (rows.groupBy fine exprs) = keys (·.groupKey coarse) rows := by
  have hrows : rows.map (fun row =>
      (groupRow fine exprs (members (·.groupKey fine) rows (row.groupKey fine))).groupKey coarse) =
      rows.map (·.groupKey coarse) :=
    List.map_congr_left fun row hr => coarseKey_groupRow hsub hagree exprs hr
  have herase := eraseDups_map_eraseDups
    (fun k => (groupRow fine exprs (members (·.groupKey fine) rows k)).groupKey coarse)
    (rows.map (·.groupKey fine))
  rw [List.map_map, Function.comp_def, hrows] at herase
  rw [keys, keys, groupBy_eq, List.map_map, ← herase]
  rfl

/-- The fine groups of a coarse group are the fine groups of its rows. -/
theorem members_groupBy (hsub : ∀ name ∈ coarse, name ∈ fine) (hagree : AgreeLike fine rows)
    (exprs : List String) (k : String) :
    members (·.groupKey coarse) (rows.groupBy fine exprs) k =
      Table.groupBy (members (·.groupKey coarse) rows k) fine exprs :=
  filter_groupBy_of_members exprs fun _ hr =>
    congrArg (fun key => decide (key = k)) (coarseKey_groupRow hsub hagree exprs hr).symm

end Keys

/-! ## One coarse group -/

section Group
variable {fine exprs : List String} {rows : Table}

/-- The first fine group begins with the first row. -/
theorem firstCell_groupBy (hr : rows ≠ []) {name : String}
    (h : name ∈ fine ∨ name ∈ exprs ∧ (Output.ofExpr name).aggregate = none) :
    (rows.groupBy fine exprs).firstCell name = rows.firstCell name := by
  obtain ⟨first, rest, rfl⟩ := List.exists_cons_of_ne_nil hr
  have hkeys : keys (·.groupKey fine) (first :: rest) = first.groupKey fine ::
      ((rest.map (·.groupKey fine)).filter fun k => !k == first.groupKey fine).eraseDups := by
    rw [keys, List.map_cons, List.eraseDups_cons]
  have hmembers : members (·.groupKey fine) (first :: rest) (first.groupKey fine) =
      first :: members (·.groupKey fine) rest (first.groupKey fine) :=
    List.filter_cons_of_pos (decide_eq_true rfl)
  rw [groupBy_eq, hkeys, List.map_cons, hmembers]
  change Row.cell (groupRow _ _ _) name = first.cell name
  apply Row.cell_of_get?
  by_cases hn : name ∈ fine
  · rw [get?_groupRow, if_pos hn]
    rfl
  · obtain ⟨he, hcol⟩ := h.resolve_left hn
    rw [get?_output he hn, outputCell_column hcol]
    rfl

/-- Every row has one key. -/
theorem sum_length_members (key : Row → String) (rows : Table) :
    ((keys key rows).map fun k => (members key rows k).length).sum = rows.length := by
  have hkeys : (keys key rows).Perm (rows.map key).dedup := by
    refine (List.perm_ext_iff_of_nodup (keys_nodup key rows) (List.nodup_dedup _)).2 fun k => ?_
    rw [keys, List.mem_eraseDups, List.mem_dedup]
  have hcount (k : String) : (members key rows k).length = (rows.map key).count k := by
    rw [members, List.count, List.countP_map, List.countP_eq_length_filter]
    rfl
  simp only [hcount]
  rw [(hkeys.map _).sum_eq, List.sum_map_count_dedup_eq_length, List.length_map]

/-- The counts of the fine groups add up to the count of the rows. -/
theorem count_groupBy (hraw : Raw exprs rows) (hsize : rows.length ≤ 2 ^ 53) {expr : String}
    (he : expr ∈ exprs) (hn : expr ∉ fine) (hc : (Output.ofExpr expr).isCount = true)
    (hcounts : ∀ name ∈ fine, name ∈ exprs → (Output.ofExpr name).isCount = false) :
    count (exprs.map Output.ofExpr) (rows.groupBy fine exprs) =
      count (exprs.map Output.ofExpr) rows := by
  let size (k : String) : Nat := (members (·.groupKey fine) rows k).length
  have hraws (k : String) : Raw exprs (members (·.groupKey fine) rows k) :=
    fun row hr => hraw row (List.mem_filter.1 hr).1
  have hweight (k : String) :
      weight (exprs.map Output.ofExpr) (groupRow fine exprs (members (·.groupKey fine) rows k)) =
        .ofNat (size k) := by
    have hlength : size k ≤ 2 ^ 53 := (List.length_filter_le _ _).trans hsize
    rw [weight_groupRow he hn hc (uncounted_of_not_count hcounts _), count_eq_ones (hraws k)]
    exact Binary64.ones_eq_ofNat hlength
  have hsum : ((keys (·.groupKey fine) rows).map size).sum = rows.length :=
    sum_length_members _ rows
  calc count (exprs.map Output.ofExpr) (rows.groupBy fine exprs)
      = (((keys (·.groupKey fine) rows).map size).map Binary64.ofNat).foldl .add (.zero false) := by
        simp only [count, groupBy_eq, List.foldl_map, hweight]
    _ = .ofNat rows.length := by rw [Binary64.foldl_add_ofNat (hsum.trans_le hsize), hsum]
    _ = count (exprs.map Output.ofExpr) rows := by
        rw [count_eq_ones hraw]
        exact (Binary64.ones_eq_ofNat hsize).symm

/-- A number picked from the numbers of the fine groups is picked from all of them. -/
theorem reduce_groupBy_like {expr : String} {combine : Binary64 → Binary64 → Binary64}
    {argument : Aggregate.Argument} {place : Binary64 → WithBot Int}
    (hpicks : Binary64.Picks combine place)
    (hcomb : (Output.ofExpr expr).combined? = some (combine, argument)) (he : expr ∈ exprs)
    (hn : expr ∉ fine) (hr : rows ≠ []) :
    (Table.reduce combine ((rows.groupBy fine exprs).map ((Output.ofExpr expr).part argument))).Like
      (Table.reduce combine (rows.map ((Output.ofExpr expr).part argument))) := by
  let part (k : String) : List Binary64 :=
    (members (·.groupKey fine) rows k).map ((Output.ofExpr expr).part argument)
  rw [groupBy_eq, List.map_map]
  refine Table.reduce_parts_like hpicks part (fun y => ?_) (by simpa using hr) fun k hk => ?_
  · -- Every row is in the fine group of its key.
    simp only [part, members, List.mem_flatMap, List.mem_map, List.mem_filter, decide_eq_true_eq]
    constructor
    · rintro ⟨k, -, row, ⟨hrow, -⟩, rfl⟩
      exact ⟨row, hrow, rfl⟩
    · rintro ⟨row, hrow, rfl⟩
      exact ⟨_, (mem_keys _).2 ⟨row, hrow, rfl⟩, row, ⟨hrow, rfl⟩, rfl⟩
  · have hne : part k ≠ [] := mt List.map_eq_nil_iff.1 (members_ne_nil _ hk)
    obtain ⟨x, hx, -⟩ := Table.reduce_first hpicks hne
    refine ⟨hne, hx.trans ?_⟩
    have hcell := outputCell_combined hcomb exprs (members (·.groupKey fine) rows k)
    rw [Function.comp_apply, Output.part, partial?_groupRow he hn (hcell.trans hx)]
    rfl

/-- Where sums are left out and no aggregate is a grouping column, the outputs of a coarse group
follow from its fine groups. -/
theorem outputCell_groupBy_like
    (hsum : ∀ expr ∈ exprs, ∀ a, Aggregate.read? expr = some a → a.function ≠ .sum)
    (hnamed : ∀ expr ∈ exprs, expr ∈ fine → (Output.ofExpr expr).aggregate = none)
    (hraw : Raw exprs rows) (hr : rows ≠ []) {expr : String} (he : expr ∈ exprs)
    (hsize : (Output.ofExpr expr).isCount = true → rows.length ≤ 2 ^ 53) :
    (outputCell exprs (rows.groupBy fine exprs) expr).Like (outputCell exprs rows expr) := by
  have hcolumn (hcol : (Output.ofExpr expr).aggregate = none) :
      (outputCell exprs (rows.groupBy fine exprs) expr).Like (outputCell exprs rows expr) := by
    rw [outputCell_column hcol, outputCell_column hcol, firstCell_groupBy hr (.inr ⟨he, hcol⟩)]
    exact .refl _
  by_cases hn : expr ∈ fine
  · exact hcolumn (hnamed expr he hn)
  · rcases Output.kinds expr with hcol | hc | ⟨combine, argument, hcomb⟩
    · exact hcolumn hcol
    · have hcounts : ∀ name ∈ fine, name ∈ exprs → (Output.ofExpr name).isCount = false :=
        fun name hf hm => by rw [Output.isCount, hnamed name hm hf]
      rw [outputCell_count hc, outputCell_count hc,
        count_groupBy hraw (hsize hc) he hn hc hcounts]
      exact .refl _
    · obtain ⟨place, hpicks⟩ := Output.exists_picks (hsum expr he) hcomb
      rw [outputCell_combined hcomb, outputCell_combined hcomb]
      exact reduce_groupBy_like hpicks hcomb he hn hr

theorem groupRow_groupBy_like {coarse : List String} (hsub : ∀ name ∈ coarse, name ∈ fine)
    (hsum : ∀ expr ∈ exprs, ∀ a, Aggregate.read? expr = some a → a.function ≠ .sum)
    (hnamed : ∀ expr ∈ exprs, expr ∈ fine → (Output.ofExpr expr).aggregate = none)
    (hraw : Raw exprs rows) (hr : rows ≠ [])
    (hsize : ∀ expr ∈ exprs, (Output.ofExpr expr).isCount = true → rows.length ≤ 2 ^ 53) :
    (groupRow coarse exprs (rows.groupBy fine exprs)).Like (groupRow coarse exprs rows) := by
  refine Row.like_of_cells (by rw [names_groupRow, names_groupRow]) fun name hm => ?_
  rw [names_groupRow, List.mem_eraseDups, List.mem_append] at hm
  by_cases hn : name ∈ coarse
  · have hcell (rows : Table) : (groupRow coarse exprs rows).cell name = rows.firstCell name :=
      Row.cell_of_get? (by rw [get?_groupRow, if_pos hn])
    rw [hcell, hcell, firstCell_groupBy hr (.inl (hsub name hn))]
    exact .refl _
  · have he : name ∈ exprs := hm.resolve_left hn
    rw [Row.cell_of_get? (get?_output he hn _), Row.cell_of_get? (get?_output he hn _)]
    exact outputCell_groupBy_like hsum hnamed hraw hr he (hsize name he)

end Group

end Grouping

namespace Table
open Grouping

/-- Grouping a grouped table by some of its grouping columns is grouping the table by them, as long as
there are no sums, no aggregate is itself a grouping column, and rows with one fine key agree on the
fine columns. Counts are exact up to 2^53. -/
theorem groupBy_groupBy (rows : Table) (fine coarse exprs : List String)
    (hsub : ∀ name ∈ coarse, name ∈ fine)
    (hfunctions : ∀ expr ∈ exprs, ∀ a, Aggregate.read? expr = some a →
      a.function ∈ [.count, .min, .max, .avg])
    (hnames : ∀ expr ∈ exprs, ∀ a, Aggregate.read? expr = some a → a.function ≠ .avg → expr ∉ fine)
    (hraw : ∀ row ∈ rows, ∀ expr ∈ exprs, ∀ x, row.get? expr ≠ some (.number x))
    (hagree : ∀ a ∈ rows, ∀ b ∈ rows, a.groupKey fine = b.groupKey fine →
      ∀ name ∈ fine, (a.cell name).Like (b.cell name))
    (hsize : ∀ expr ∈ exprs, ∀ a, Aggregate.read? expr = some a → a.function = .count →
      ∀ key, (rows.filter (·.groupKey coarse = key)).length ≤ 2 ^ 53) :
    List.Forall₂ Row.Like ((rows.groupBy fine exprs).groupBy coarse exprs)
      (rows.groupBy coarse exprs) := by
  have hsum : ∀ expr ∈ exprs, ∀ a, Aggregate.read? expr = some a → a.function ≠ .sum := by
    intro expr he a ha hf
    have hmem := hfunctions expr he a ha
    rw [hf] at hmem
    exact absurd hmem (by decide)
  have hnamed : ∀ expr ∈ exprs, expr ∈ fine → (Output.ofExpr expr).aggregate = none := by
    intro expr he hn
    rw [Output.ofExpr, Option.filter_eq_none_iff]
    intro a ha hf
    exact hnames expr he a ha (by simpa using hf) hn
  rw [groupBy_eq (rows.groupBy fine exprs), groupBy_eq rows coarse,
    keys_groupBy hsub hagree, List.forall₂_map_left_iff, List.forall₂_map_right_iff,
    List.forall₂_same]
  intro k hk
  rw [members_groupBy hsub hagree]
  refine groupRow_groupBy_like hsub hsum hnamed (fun row hr => hraw row (List.mem_filter.1 hr).1)
    (members_ne_nil _ hk) fun expr he hc => ?_
  by_contra hlarge
  have hnot : (Output.ofExpr expr).isCount = false :=
    Query.isCount_eq_false fun a ha hf => hlarge (hsize expr he a ha hf k)
  rw [hnot] at hc
  cases hc

/-- Sales by region and city; amounts are missing or no numbers, and zero is written in two ways. -/
def sales : Table :=
  [("north", "a", "0"), ("south", "c", "3"), ("north", "b", "-0"), ("north", "a", "2"),
    ("south", "c", "n/a")].map fun (region, city, amount) =>
      Row.ofList [("region", .text region), ("city", .text city), ("amount", .text amount)]

theorem groupBy_sales :
    let exprs := ["MIN(amount)", "COUNT(*)", "AVG(amount)", "city"]
    (∀ a ∈ sales, ∀ b ∈ sales, a.groupKey ["region", "city"] = b.groupKey ["region", "city"] →
        ∀ name ∈ ["region", "city"], (a.cell name).Like (b.cell name)) ∧
      List.Forall₂ Row.Like ((sales.groupBy ["region", "city"] exprs).groupBy ["region"] exprs)
        (sales.groupBy ["region"] exprs) := by
  intro exprs
  have hcells : ∀ a ∈ sales, ∀ b ∈ sales,
      a.groupKey ["region", "city"] = b.groupKey ["region", "city"] →
        ∀ name ∈ ["region", "city"], a.cell name = b.cell name := by decide
  have hagree : ∀ a ∈ sales, ∀ b ∈ sales,
      a.groupKey ["region", "city"] = b.groupKey ["region", "city"] →
        ∀ name ∈ ["region", "city"], (a.cell name).Like (b.cell name) :=
    fun a ha b hb hkey name hn => hcells a ha b hb hkey name hn ▸ .refl _
  have hreads : ∀ expr ∈ exprs, ∀ a ∈ Aggregate.read? expr,
      a.function ∈ [.count, .min, .max, .avg] ∧ (a.function ≠ .avg → expr ∉ ["region", "city"]) := by
    decide
  refine ⟨hagree, groupBy_groupBy sales ["region", "city"] ["region"] exprs (by decide)
    (fun expr he a ha => (hreads expr he a ha).1) (fun expr he a ha => (hreads expr he a ha).2)
    (raw_of_cells (by decide)) hagree fun expr _ a _ _ key => ?_⟩
  have hlength : sales.length ≤ 2 ^ 53 := by decide
  exact (List.length_filter_le _ _).trans hlength

end Table

end Tabular
