import Mathlib.Data.Int.ConditionallyCompleteOrder
import Mathlib.Order.WithBot
import Tabular.Proofs.GroupSummaries
/-!
# Least and greatest numbers

MIN and MAX pick one of the numbers they see: the first in an order that begins with `nan`. What they
pick does not depend on how the numbers are listed or put together, except that it may be either
zero.
-/

namespace Tabular

namespace Binary64

/-! ## Places -/

/-- Where a number stands: `nan` before all others, and these upwards or downwards, as `direction`
has it. -/
def place (direction : Int → Int) (x : Binary64) : WithBot Int :=
  x.rank?.elim ⊥ fun rank => (direction rank : Int)

/-- `combine` takes the one of two numbers that has the first place. -/
structure Picks (combine : Binary64 → Binary64 → Binary64) (place : Binary64 → WithBot Int) :
    Prop where
  like : ∀ {x y}, place x = place y → x.Like y
  eq : ∀ x y, combine x y = if place x ≤ place y then x else y

theorem like_of_place_eq {direction : Int → Int} (h : Function.Injective direction)
    {x y : Binary64} (hp : place direction x = place direction y) : x.Like y := by
  unfold place at hp
  cases hx : x.rank? with
  | none =>
    cases hy : y.rank? with
    | none => exact .inr ⟨rank?_eq_none.1 hx, rank?_eq_none.1 hy⟩
    | some b => simp [hx, hy] at hp
  | some a =>
    cases hy : y.rank? with
    | none => simp [hx, hy] at hp
    | some b =>
      have hab : a = b := h (by simpa [hx, hy] using hp)
      exact .inl ((same_iff x y).2 ⟨a, hx, hab ▸ hy⟩)

theorem picks_min : Picks min (place id) where
  like := like_of_place_eq Function.injective_id
  eq x y := by
    unfold min compare? place
    cases hx : x.rank? with
    | none => simp [rank?_eq_none.1 hx]
    | some a =>
      cases hy : y.rank? with
      | none => simp [rank?_eq_none.1 hy]
      | some b =>
        rcases lt_trichotomy a b with h | rfl | h
        · simp [compare_lt_iff_lt.2 h, h.le]
        · simp
        · simp [compare_gt_iff_gt.2 h, h]

theorem picks_max : Picks max (place Neg.neg) where
  like := like_of_place_eq neg_injective
  eq x y := by
    unfold max compare? place
    cases hx : x.rank? with
    | none => simp [rank?_eq_none.1 hx]
    | some a =>
      cases hy : y.rank? with
      | none => simp [rank?_eq_none.1 hy]
      | some b =>
        rcases lt_trichotomy a b with h | rfl | h
        · simp [compare_lt_iff_lt.2 h, h]
        · simp
        · simp [compare_gt_iff_gt.2 h, h.le]

section Picks
variable {combine : Binary64 → Binary64 → Binary64} {place : Binary64 → WithBot Int}

theorem Picks.pick (h : Picks combine place) (x y : Binary64) :
    combine x y = x ∨ combine x y = y := by
  rw [h.eq]
  split
  · exact .inl rfl
  · exact .inr rfl

theorem Picks.le_left (h : Picks combine place) (x y : Binary64) :
    place (combine x y) ≤ place x := by
  rw [h.eq]
  split
  · exact le_rfl
  · exact (not_le.1 ‹_›).le

theorem Picks.le_right (h : Picks combine place) (x y : Binary64) :
    place (combine x y) ≤ place y := by
  rw [h.eq]
  split
  · assumption
  · exact le_rfl

end Picks

/-! ## The first of many -/

/-- One of the numbers, and none of them comes before it. -/
structure First (place : Binary64 → WithBot Int) (numbers : List Binary64) (x : Binary64) :
    Prop where
  mem : x ∈ numbers
  le : ∀ y ∈ numbers, place x ≤ place y

section First
variable {combine : Binary64 → Binary64 → Binary64} {place : Binary64 → WithBot Int}

theorem Picks.first_foldl (h : Picks combine place) (numbers : List Binary64) (x : Binary64) :
    First place (x :: numbers) (numbers.foldl combine x) := by
  induction numbers generalizing x with
  | nil => exact ⟨List.mem_singleton_self x, by simp⟩
  | cons y numbers ih =>
    -- The one that is picked of the first two stands for both.
    obtain ⟨hmem, hle⟩ := ih (combine x y)
    have hfirst := hle _ List.mem_cons_self
    refine ⟨?_, fun z hz => ?_⟩
    · rw [List.foldl_cons]
      rcases List.mem_cons.1 hmem with hpicked | hmem
      · rw [hpicked]
        rcases h.pick x y with he | he <;> simp [he]
      · simp [hmem]
    · rcases List.mem_cons.1 hz with rfl | hz
      · exact hfirst.trans (h.le_left z y)
      · rcases List.mem_cons.1 hz with rfl | hz
        · exact hfirst.trans (h.le_right x z)
        · exact hle z (List.mem_cons_of_mem _ hz)

/-- The sign of zero apart there is only one. -/
theorem First.like {numbers : List Binary64} {x y : Binary64} (h : Picks combine place)
    (hx : First place numbers x) (hy : First place numbers y) : x.Like y :=
  h.like (le_antisymm (hx.le y hy.mem) (hy.le x hx.mem))

theorem First.congr {numbers others : List Binary64} {x : Binary64}
    (h : ∀ y, y ∈ numbers ↔ y ∈ others) (hx : First place numbers x) : First place others x :=
  ⟨(h x).1 hx.mem, fun y hy => hx.le y ((h y).2 hy)⟩

/-- The first of the first numbers of some lists is the first number of them all. -/
theorem First.of_parts {ι : Type} {parts : List ι} {numbers : ι → List Binary64}
    {first : ι → Binary64} {x : Binary64}
    (hparts : ∀ i ∈ parts, First place (numbers i) (first i))
    (hx : First place (parts.map first) x) : First place (parts.flatMap numbers) x := by
  refine ⟨?_, fun y hy => ?_⟩
  · obtain ⟨i, hi, rfl⟩ := List.mem_map.1 hx.mem
    exact List.mem_flatMap.2 ⟨i, hi, (hparts i hi).mem⟩
  · obtain ⟨i, hi, hy⟩ := List.mem_flatMap.1 hy
    exact (hx.le (first i) (List.mem_map_of_mem hi)).trans ((hparts i hi).le y hy)

end First

end Binary64

/-! ## Aggregates that pick -/

namespace Table
variable {combine : Binary64 → Binary64 → Binary64} {place : Binary64 → WithBot Int}

theorem reduce_first (h : Binary64.Picks combine place) {numbers : List Binary64}
    (hn : numbers ≠ []) :
    ∃ x, reduce combine numbers = .number x ∧ Binary64.First place numbers x := by
  obtain ⟨y, rest, rfl⟩ := List.exists_cons_of_ne_nil hn
  exact ⟨_, rfl, h.first_foldl rest y⟩

/-- How the numbers are listed does not matter, nor how often. -/
theorem reduce_like_of_mem (h : Binary64.Picks combine place) {numbers others : List Binary64}
    (hsame : ∀ y, y ∈ numbers ↔ y ∈ others) :
    (reduce combine numbers).Like (reduce combine others) := by
  by_cases hn : numbers = []
  · have ho : others = [] :=
      List.eq_nil_iff_forall_not_mem.2 fun y hy => by simpa [hn] using (hsame y).2 hy
    rw [hn, ho]
    exact .refl _
  · have ho : others ≠ [] := by
      obtain ⟨y, hy⟩ := List.exists_mem_of_ne_nil _ hn
      exact List.ne_nil_of_mem ((hsame y).1 hy)
    obtain ⟨x, hx, hfirst⟩ := reduce_first h hn
    obtain ⟨y, hy, hother⟩ := reduce_first h ho
    rw [hx, hy]
    exact Cell.like_number ((hfirst.congr hsame).like h hother)

/-- Numbers can be reduced part by part. -/
theorem reduce_parts_like (h : Binary64.Picks combine place) {ι : Type} {parts : List ι}
    (part : ι → List Binary64) {first : ι → Binary64} {numbers : List Binary64}
    (hnumbers : ∀ y, y ∈ parts.flatMap part ↔ y ∈ numbers) (hn : numbers ≠ [])
    (hparts : ∀ i ∈ parts, part i ≠ [] ∧ reduce combine (part i) = .number (first i)) :
    (reduce combine (parts.map first)).Like (reduce combine numbers) := by
  have hfirst (i : ι) (hi : i ∈ parts) : Binary64.First place (part i) (first i) := by
    obtain ⟨hne, hreduce⟩ := hparts i hi
    obtain ⟨x, hx, hfirst⟩ := reduce_first h hne
    cases hreduce.symm.trans hx
    exact hfirst
  have hne : parts.map first ≠ [] := by
    obtain ⟨y, hy⟩ := List.exists_mem_of_ne_nil _ hn
    obtain ⟨i, hi, -⟩ := List.mem_flatMap.1 ((hnumbers y).2 hy)
    exact List.ne_nil_of_mem (List.mem_map_of_mem hi)
  obtain ⟨x, hx, hpart⟩ := reduce_first h hne
  obtain ⟨y, hy, hall⟩ := reduce_first h hn
  rw [hx, hy]
  exact Cell.like_number (((Binary64.First.of_parts hfirst hpart).congr hnumbers).like h hall)

end Table

namespace Grouping

/-- MIN and MAX are the aggregates that are neither sums nor averages, nor counted. -/
theorem Output.exists_picks {expr : String} {combine : Binary64 → Binary64 → Binary64}
    {argument : Aggregate.Argument}
    (hsum : ∀ a, Aggregate.read? expr = some a → a.function ≠ .sum)
    (h : (Output.ofExpr expr).combined? = some (combine, argument)) :
    ∃ place, Binary64.Picks combine place := by
  obtain ⟨a, ha, hcombined⟩ := Option.bind_eq_some_iff.1 h
  have hread : Aggregate.read? expr = some a := (Option.filter_eq_some_iff.1 ha).1
  cases hf : a.function with
  | sum => exact absurd hf (hsum a hread)
  | count | avg => rw [hf] at hcombined; cases hcombined
  | min =>
    rw [hf] at hcombined
    cases hcombined
    exact ⟨_, Binary64.picks_min⟩
  | max =>
    rw [hf] at hcombined
    cases hcombined
    exact ⟨_, Binary64.picks_max⟩

end Grouping

end Tabular
