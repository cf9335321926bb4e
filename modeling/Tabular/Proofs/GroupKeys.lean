import Mathlib.Data.List.Basic
import Tabular.Proofs.Groups
/-!
# Keys that tell groups apart

A group key is its fragments with a separator between them. Off the separator the fragments can be
read back from the key, so rows of one key have the same fragments, and the rows of a group hold the
same texts in the grouping columns.
-/

namespace Tabular

/-! ## Fragments of a key -/

namespace Row

/-- What the columns `names` contribute to a group key. -/
def fragments (row : Row) (names : List String) : List String :=
  names.map fun name => (row.cell name).keyFragment

/-- No fragment holds the separator. -/
def Separable (row : Row) (names : List String) : Prop :=
  ∀ name ∈ names, '-' ∉ (row.cell name).keyFragment.toList

instance (row : Row) (names : List String) : Decidable (row.Separable names) :=
  inferInstanceAs (Decidable (∀ name ∈ names, _))

/-- Every column `names` holds a text. -/
def HoldsTexts (row : Row) (names : List String) : Prop :=
  ∀ name ∈ names, (row.cell name).text?.isSome = true

instance (row : Row) (names : List String) : Decidable (row.HoldsTexts names) :=
  inferInstanceAs (Decidable (∀ name ∈ names, _))

variable {a b : Row} {names : List String}

theorem fragments_eq_iff :
    a.fragments names = b.fragments names ↔
      ∀ name ∈ names, (a.cell name).keyFragment = (b.cell name).keyFragment :=
  List.map_inj_left

/-- A key without stray separators is cut back into its fragments. -/
theorem splitOn_groupKey {row : Row} (h : row.Separable names) (hne : names ≠ []) :
    (row.groupKey names).toList.splitOn '-' = (row.fragments names).map String.toList := by
  have hkey : (row.groupKey names).toList =
      ['-'].intercalate ((row.fragments names).map String.toList) := String.toList_intercalate
  rw [hkey, List.splitOn_intercalate '-']
  · intro fragment hf
    obtain ⟨_, ht, rfl⟩ := List.mem_map.1 hf
    obtain ⟨name, hn, rfl⟩ := List.mem_map.1 ht
    exact h name hn
  · simpa [fragments] using hne

theorem groupKey_eq_iff (ha : a.Separable names) (hb : b.Separable names) :
    a.groupKey names = b.groupKey names ↔ a.fragments names = b.fragments names := by
  constructor
  · intro h
    by_cases hne : names = []
    · rw [hne]
      rfl
    · have hcut := splitOn_groupKey ha hne
      rw [h, splitOn_groupKey hb hne] at hcut
      exact (List.map_injective_iff.2 (fun _ _ => String.toList_inj.1) hcut).symm
  · intro h
    exact congrArg keySeparator.intercalate h

/-- The fragment of a text is the text. -/
theorem cell_eq_iff_of_text {name : String} (ha : (a.cell name).text?.isSome = true)
    (hb : (b.cell name).text?.isSome = true) :
    a.cell name = b.cell name ↔ (a.cell name).keyFragment = (b.cell name).keyFragment := by
  cases hca : a.cell name with
  | null | number _ => rw [hca] at ha; cases ha
  | text content =>
    cases hcb : b.cell name with
    | null | number _ => rw [hcb] at hb; cases hb
    | text content' => exact Cell.text.injEq content content' ▸ Iff.rfl

end Row

/-! ## Places of groups -/

namespace Grouping

section Places
variable (names exprs : List String)

/-- The place of the group that takes `row` in when the rows `before` were read: that of its key
among the groups so far, or the next one behind them. -/
def place (before : Table) (row : Row) : Nat :=
  ((pass (·.groupKey names) (exprs.map Output.ofExpr) before).map Prod.fst).idxOf
    (row.groupKey names)

theorem place_eq (before : Table) (row : Row) :
    place names exprs before row = (keys (·.groupKey names) before).idxOf (row.groupKey names) := by
  have hkeys : ((keys (·.groupKey names) before).map
      (entry (exprs.map Output.ofExpr) (·.groupKey names) before)).map Prod.fst =
        keys (·.groupKey names) before := by
    rw [List.map_map]
    exact List.map_id _
  rw [place, pass_eq, hkeys]

/-- One more row leaves the groups where they are. A new group comes where its row was expected. -/
theorem place_concat {before : Table} {row next : Row}
    (h : row.groupKey names ∈ keys (·.groupKey names) before ∨ row = next) :
    place names exprs (before ++ [next]) row = place names exprs before row := by
  rw [place_eq, place_eq, keys_concat]
  split
  · rfl
  · rename_i hnew
    rw [List.idxOf_append]
    rcases h with h | rfl
    · rw [if_pos h]
    · rw [if_neg hnew, List.idxOf_cons_self, Nat.zero_add, List.idxOf_eq_length hnew]

/-- The group that took a row in keeps its place to the end. -/
theorem place_append (before after : Table) (row : Row) :
    place names exprs (before ++ row :: after) row = place names exprs before row := by
  induction after using List.reverseRecOn with
  | nil => exact place_concat names exprs (.inr rfl)
  | append_singleton after next ih =>
    have hmem : row.groupKey names ∈ keys (·.groupKey names) (before ++ row :: after) :=
      (mem_keys (·.groupKey names)).2
        ⟨row, List.mem_append_right before List.mem_cons_self, rfl⟩
    rw [← List.cons_append, ← List.append_assoc, place_concat names exprs (.inl hmem), ih]

/-- At the place of the group that took a row in stands the row of all rows with its key. -/
theorem getElem?_groupBy_place (before after : Table) (row : Row) :
    ((before ++ row :: after).groupBy names exprs)[place names exprs before row]? =
      some (groupRow names exprs
        ((before ++ row :: after).filter (·.groupKey names = row.groupKey names))) := by
  have hmem : row.groupKey names ∈ keys (·.groupKey names) (before ++ row :: after) :=
    (mem_keys (·.groupKey names)).2 ⟨row, List.mem_append_right before List.mem_cons_self, rfl⟩
  rw [← place_append names exprs before after row, place_eq, groupBy_eq, List.getElem?_map,
    List.getElem?_idxOf hmem]
  rfl

/-- Two rows are taken into one group exactly if they have one key. -/
theorem place_eq_place_iff (before between : Table) (a b : Row) :
    place names exprs before a = place names exprs (before ++ a :: between) b ↔
      a.groupKey names = b.groupKey names := by
  have hmem : a.groupKey names ∈ keys (·.groupKey names) (before ++ a :: between) :=
    (mem_keys (·.groupKey names)).2 ⟨a, List.mem_append_right before List.mem_cons_self, rfl⟩
  rw [← place_append names exprs before between a, place_eq, place_eq, List.idxOf_inj hmem]

end Places

end Grouping

namespace Table

open Grouping

/-- Off the separator two rows have one group key exactly if they contribute the same fragments, column
by column. The group that takes a row in gives the result's row of all rows with its key. So a grouping
takes two rows into one group exactly if they contribute the same fragments, whatever rows come before
and between them; and if the grouping columns hold texts, exactly if they hold the same ones. -/
theorem groupBy_separates (names exprs : List String) (a b : Row) (ha : a.Separable names)
    (hb : b.Separable names) :
    (a.groupKey names = b.groupKey names ↔
        ∀ name ∈ names, (a.cell name).keyFragment = (b.cell name).keyFragment) ∧
      (∀ before after : Table,
        ((before ++ a :: after).groupBy names exprs)[place names exprs before a]? =
          some (groupRow names exprs
            ((before ++ a :: after).filter (·.groupKey names = a.groupKey names)))) ∧
      ∀ before between : Table,
        (place names exprs before a = place names exprs (before ++ a :: between) b ↔
          ∀ name ∈ names, (a.cell name).keyFragment = (b.cell name).keyFragment) ∧
        (a.HoldsTexts names → b.HoldsTexts names →
          (place names exprs before a = place names exprs (before ++ a :: between) b ↔
            ∀ name ∈ names, a.cell name = b.cell name)) := by
  have hkey : a.groupKey names = b.groupKey names ↔
      ∀ name ∈ names, (a.cell name).keyFragment = (b.cell name).keyFragment :=
    (Row.groupKey_eq_iff ha hb).trans Row.fragments_eq_iff
  refine ⟨hkey, fun before after => getElem?_groupBy_place names exprs before after a,
    fun before between => ⟨?_, fun hta htb => ?_⟩⟩
  · rw [place_eq_place_iff, hkey]
  · rw [place_eq_place_iff, hkey]
    exact forall₂_congr fun name hn => (Row.cell_eq_iff_of_text (hta name hn) (htb name hn)).symm

/-- Three rows of texts. The first and the last share a team and a city, the empty one, and the one
between them has the two texts the other way round. -/
theorem groupBy_swappedTexts :
    let names := ["team", "city"]
    let first := Row.ofList [("team", .text "a"), ("city", .text "")]
    let swapped := Row.ofList [("team", .text ""), ("city", .text "a")]
    let last := Row.ofList [("age", .text "7"), ("city", .text ""), ("team", .text "a")]
    first.Separable names ∧ swapped.Separable names ∧ last.Separable names ∧
      place names ["SUM(age)"] [] first = place names ["SUM(age)"] [first, swapped] last ∧
      place names ["SUM(age)"] [] first ≠ place names ["SUM(age)"] [first] swapped := by
  intro names first swapped last
  have hfirst : first.Separable names := by decide
  have hswapped : swapped.Separable names := by decide
  have hlast : last.Separable names := by decide
  have htexts : first.HoldsTexts names ∧ swapped.HoldsTexts names ∧ last.HoldsTexts names := by
    decide
  obtain ⟨-, -, hsame⟩ := groupBy_separates names ["SUM(age)"] first last hfirst hlast
  obtain ⟨-, -, hother⟩ := groupBy_separates names ["SUM(age)"] first swapped hfirst hswapped
  refine ⟨hfirst, hswapped, hlast, ((hsame [] [swapped]).2 htexts.1 htexts.2.2).2 (by decide),
    fun h => ?_⟩
  exact absurd (((hother [] []).2 htexts.1 htexts.2.1).1 h) (by decide)

/-- Two pairs of texts that the separator runs together. -/
example :
    let names := ["team", "city"]
    (Row.ofList [("team", .text "a-b"), ("city", .text "c")]).groupKey names =
      (Row.ofList [("team", .text "a"), ("city", .text "b-c")]).groupKey names := by
  decide

end Table

end Tabular
