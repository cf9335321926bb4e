import Tabular.Proofs.Extremes
/-!
# Grouping rows in another order

The rows of a table in another order make the same groups, and the rows of a group in another order
have the same count, least and greatest numbers. Columns that come from the first row of a group may
change, and so may sums, which are rounded on the way.
-/

namespace Tabular

namespace Grouping

section Reordered
variable {rows other : Table} (hperm : rows.Perm other) (key : Row → String)
include hperm

theorem keys_perm : (keys key rows).Perm (keys key other) := by
  refine (List.perm_ext_iff_of_nodup (keys_nodup key _) (keys_nodup key _)).2 fun k => ?_
  simp only [mem_keys, hperm.mem_iff]

theorem members_perm (k : String) : (members key rows k).Perm (members key other k) :=
  hperm.filter _

/-- The numbers that an aggregate sees are the same, so it picks the same one. -/
theorem outputCell_perm {exprs : List String} (hraw : Raw exprs rows) {expr : String} {a : Aggregate}
    (ha : Aggregate.read? expr = some a) (hf : a.function ∈ [.count, .min, .max]) :
    (outputCell exprs rows expr).Like (outputCell exprs other expr) := by
  have hne : a.function ≠ .sum ∧ a.function ≠ .avg := by
    cases h : a.function <;> simp [h] at hf ⊢
  rcases Output.kinds expr with hcol | hc | ⟨combine, argument, hcomb⟩
  · rw [Output.ofExpr, ha, Option.filter_some, if_pos (by simpa using hne.2)] at hcol
    cases hcol
  · have hother : Raw exprs other := fun row hr => hraw row (hperm.mem_iff.2 hr)
    rw [outputCell_count hc, outputCell_count hc, count_eq_ones hraw, count_eq_ones hother,
      hperm.length_eq]
    exact .refl _
  · have hsum : ∀ b, Aggregate.read? expr = some b → b.function ≠ .sum := fun b hb => by
      cases ha.symm.trans hb
      exact hne.1
    obtain ⟨place, hpicks⟩ := Output.exists_picks hsum hcomb
    rw [outputCell_combined hcomb, outputCell_combined hcomb]
    exact Table.reduce_like_of_mem hpicks fun x => (hperm.map _).mem_iff

end Reordered

end Grouping

namespace Table
open Grouping

/-- Reordering a table keeps the keys of its groups, and the count, the least and the greatest number
of each. -/
theorem groupBy_reordered (rows other : Table) (names exprs : List String)
    (hperm : rows.Perm other)
    (hraw : ∀ row ∈ rows, ∀ expr ∈ exprs, ∀ x, row.get? expr ≠ some (.number x)) :
    ((rows.groupBy names exprs).map (·.groupKey names)).Perm
        ((other.groupBy names exprs).map (·.groupKey names)) ∧
      ∀ row ∈ rows.groupBy names exprs, ∀ row' ∈ other.groupBy names exprs,
        row.groupKey names = row'.groupKey names →
          ∀ expr ∈ exprs, expr ∉ names → ∀ a, Aggregate.read? expr = some a →
            a.function ∈ [.count, .min, .max] →
              ∃ cell cell', row.get? expr = some cell ∧ row'.get? expr = some cell' ∧
                cell.Like cell' := by
  refine ⟨?_, fun row hrow row' hrow' hkey expr he hn a ha hf => ?_⟩
  · rw [map_groupKey_groupBy, map_groupKey_groupBy]
    exact keys_perm hperm _
  · rw [groupBy_eq] at hrow hrow'
    obtain ⟨k, hk, rfl⟩ := List.mem_map.1 hrow
    obtain ⟨k', hk', rfl⟩ := List.mem_map.1 hrow'
    rw [groupKey_groupRow names exprs hk, groupKey_groupRow names exprs hk'] at hkey
    subst hkey
    refine ⟨_, _, get?_output he hn _, get?_output he hn _, ?_⟩
    exact outputCell_perm (members_perm hperm _ k)
      (fun row hr => hraw row (List.mem_filter.1 hr).1) ha hf

/-- Two accounts: one holds both zeros, the other something that is no number. -/
def balances : Table :=
  [("a", "0"), ("b", "n/a"), ("a", "-0"), ("b", "7")].map fun (account, amount) =>
    Row.ofList [("account", .text account), ("amount", .text amount)]

theorem groupBy_reversedBalances :
    let exprs := ["MIN(amount)", "COUNT(*)", "amount"]
    let reversed : Table := balances.reverse
    ((balances.groupBy ["account"] exprs).map (·.groupKey ["account"])).Perm
        ((reversed.groupBy ["account"] exprs).map (·.groupKey ["account"])) ∧
      ∀ row ∈ balances.groupBy ["account"] exprs,
        ∀ row' ∈ reversed.groupBy ["account"] exprs,
          row.groupKey ["account"] = row'.groupKey ["account"] →
            ∃ cell cell', row.get? "MIN(amount)" = some cell ∧
              row'.get? "MIN(amount)" = some cell' ∧ cell.Like cell' := by
  intro exprs reversed
  have hraw : ∀ row ∈ balances, ∀ expr ∈ exprs, ∀ x, row.get? expr ≠ some (.number x) :=
    raw_of_cells (by decide)
  obtain ⟨hkeys, hcells⟩ := groupBy_reordered balances reversed ["account"] exprs
    (List.reverse_perm _).symm hraw
  refine ⟨hkeys, fun row hrow row' hrow' hkey => ?_⟩
  have hread : Aggregate.read? "MIN(amount)" = some ⟨.min, .column "amount"⟩ := by decide
  exact hcells row hrow row' hrow' hkey "MIN(amount)" (by decide) (by decide) _ hread (by decide)

end Table

end Tabular
