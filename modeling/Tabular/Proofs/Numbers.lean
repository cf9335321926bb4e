import Mathlib.Data.List.Induction
import Mathlib.Tactic.Linarith
import Mathlib.Tactic.Ring
import Tabular.Cell
/-!
# Sums of binary64 numbers

What aggregates need of the arithmetic: a number that fits is not rounded, a sum that starts at zero
keeps its first number and is never negative zero, `nan` absorbs all other numbers, and whole numbers
up to 2^53 are added exactly.
Two numbers are `Like` when they are the same number, with one `nan` and one zero.
-/

namespace Tabular

namespace Binary64

/-! ## Rounding -/

theorem step_pos (units : Nat) : 0 < step units := Nat.two_pow_pos _

theorem step_le {units : Nat} (h : units ≠ 0) : step units ≤ units :=
  (Nat.pow_le_pow_right (by omega) (Nat.sub_le _ _)).trans (Nat.log2_self_le h)

/-- A number with at most 53 significant bits is not changed by rounding. -/
theorem roundUnits_of_fits {units : Nat} (h : Fits units) : roundUnits units 1 = units := by
  have hs := step_pos units
  simp only [roundUnits, nearest, Nat.div_one, one_mul, h.1]
  rw [if_pos (.inl (by omega))]
  exact Nat.div_mul_cancel (Nat.dvd_of_mod_eq_zero h.1)

theorem ofUnits_of_fits (negative : Bool) {units : Nat} (h : Fits units) :
    ofUnits negative units 1 = .finite negative ⟨units, h⟩ := by
  have hf : Fits (roundUnits units 1) := (roundUnits_of_fits h).symm ▸ h
  rw [ofUnits, dif_pos hf]
  simp only [roundUnits_of_fits h]

theorem roundUnits_ne_zero {units : Nat} (h : units ≠ 0) : roundUnits units 1 ≠ 0 := by
  have hs := step_pos units
  have hd : 0 < units / step units := Nat.div_pos (step_le h) hs
  simp only [roundUnits, nearest, Nat.div_one, one_mul]
  split <;> exact Nat.mul_ne_zero (by omega) (by omega)

theorem ofUnits_ne_zero (negative sign : Bool) {units : Nat} (h : units ≠ 0) :
    ofUnits negative units 1 ≠ zero sign := by
  rw [ofUnits]
  split
  · intro he
    injection he with _ he
    injection he with he
    exact roundUnits_ne_zero h he
  · simp [zero]

theorem units_eq_zero {negative : Bool} {size : Magnitude} (h : size.units = 0) :
    Binary64.finite negative size = zero negative := by
  cases size
  cases h
  rfl

/-! ## The same number -/

/-- Numerically equal, or both `nan`. -/
def Like (x y : Binary64) : Prop := x.same y = true ∨ (x = .nan ∧ y = .nan)

theorem same_iff (x y : Binary64) : x.same y = true ↔ ∃ n, x.rank? = some n ∧ y.rank? = some n := by
  rw [same, compare?]
  cases x.rank? with
  | none => simp
  | some a =>
    cases y.rank? with
    | none => simp
    | some b =>
      simp only [beq_iff_eq, Option.some.injEq, compare_eq_iff_eq, exists_eq_left']
      exact eq_comm

theorem rank?_eq_none {x : Binary64} : x.rank? = none ↔ x = .nan := by
  cases x with
  | nan => exact iff_of_true rfl rfl
  | infinite s => exact iff_of_false nofun nofun
  | finite s a => exact iff_of_false nofun nofun

/-- Only the two zeros share a place in the order. -/
theorem rank?_infinite {s : Bool} {n : Int} (h : (infinite s).rank? = some n) :
    n = if s then -(limit : Int) else limit := (Option.some.inj h).symm

theorem rank?_finite {s : Bool} {a : Magnitude} {n : Int} (h : (finite s a).rank? = some n) :
    n = if s then -(a.units : Int) else a.units := (Option.some.inj h).symm

theorem eq_or_zeros {x y : Binary64} {n : Int} (hx : x.rank? = some n) (hy : y.rank? = some n) :
    x = y ∨ ∃ s t, x = zero s ∧ y = zero t := by
  have hl := limit_pos
  cases x with
  | nan => cases hx
  | infinite s =>
    have hx := rank?_infinite hx
    cases y with
    | nan => cases hy
    | infinite t =>
      have hy := rank?_infinite hy
      refine .inl (congrArg infinite ?_)
      cases s <;> cases t <;> first
        | rfl
        | (simp only [if_true, if_false, Bool.false_eq_true] at hx hy; omega)
    | finite t b =>
      -- No finite number is as far out as an infinite one.
      have hb := b.fits.2
      have hy := rank?_finite hy
      cases s <;> cases t <;> simp only [if_true, if_false, Bool.false_eq_true] at hx hy <;> omega
  | finite s a =>
    have hx := rank?_finite hx
    cases y with
    | nan => cases hy
    | infinite t =>
      have ha := a.fits.2
      have hy := rank?_infinite hy
      cases s <;> cases t <;> simp only [if_true, if_false, Bool.false_eq_true] at hx hy <;> omega
    | finite t b =>
      have hy := rank?_finite hy
      by_cases h0 : a.units = 0 ∧ b.units = 0
      · exact .inr ⟨s, t, units_eq_zero h0.1, units_eq_zero h0.2⟩
      · have he : s = t ∧ a.units = b.units := by
          cases s <;> cases t <;> simp only [if_true, if_false, Bool.false_eq_true] at hx hy <;>
            first | exact ⟨rfl, by omega⟩ | (exfalso; omega)
        obtain ⟨rfl, he⟩ := he
        cases a; cases b; cases he
        exact .inl rfl

theorem like_iff (x y : Binary64) : Like x y ↔ x = y ∨ ∃ s t, x = zero s ∧ y = zero t := by
  constructor
  · rintro (h | ⟨rfl, rfl⟩)
    · obtain ⟨n, hx, hy⟩ := (same_iff x y).1 h
      exact eq_or_zeros hx hy
    · exact .inl rfl
  · rintro (rfl | ⟨s, t, rfl, rfl⟩)
    · cases hx : x.rank? with
      | none =>
        cases x with
        | nan => exact .inr ⟨rfl, rfl⟩
        | infinite s => cases hx
        | finite s a => cases hx
      | some n => exact .inl ((same_iff x x).2 ⟨n, hx, hx⟩)
    · exact .inl ((same_iff _ _).2 ⟨0, by cases s <;> rfl, by cases t <;> rfl⟩)

theorem Like.refl (x : Binary64) : Like x x := (like_iff x x).2 (.inl rfl)

theorem Like.symm {x y : Binary64} (h : Like x y) : Like y x := by
  rw [like_iff] at h ⊢
  rcases h with rfl | ⟨s, t, rfl, rfl⟩
  · exact .inl rfl
  · exact .inr ⟨t, s, rfl, rfl⟩

theorem zero_inj {s t : Bool} (h : zero s = zero t) : s = t := by
  injection h

theorem Like.trans {x y z : Binary64} (hxy : Like x y) (hyz : Like y z) : Like x z := by
  rw [like_iff] at *
  rcases hxy with rfl | ⟨s, t, rfl, rfl⟩
  · exact hyz
  · rcases hyz with rfl | ⟨t', u, -, rfl⟩
    · exact .inr ⟨s, t, rfl, rfl⟩
    · exact .inr ⟨s, u, rfl, rfl⟩

/-! ## Adding to zero -/

/-- Zero plus a number is that number, but for the sign of zero. -/
theorem zero_add (sign : Bool) (x : Binary64) :
    (zero sign).add x = x ∨ ((zero sign).add x = zero false ∧ ∃ s, x = zero s) := by
  cases x with
  | nan => exact .inl rfl
  | infinite s => exact .inl rfl
  | finite s b =>
    obtain ⟨units, fits⟩ := b
    simp only [zero, add]
    by_cases hs : sign = s
    · subst hs
      rw [if_pos rfl, Nat.zero_add, ofUnits_of_fits sign fits]
      exact .inl rfl
    · rw [if_neg hs, if_neg (by omega), Nat.sub_zero]
      by_cases h0 : units = 0
      · subst h0
        exact .inr ⟨rfl, s, rfl⟩
      · rw [if_pos (by omega), ofUnits_of_fits s fits]
        exact .inl rfl

theorem zero_add_like (sign : Bool) (x : Binary64) : Like ((zero sign).add x) x := by
  rw [like_iff]
  rcases zero_add sign x with h | ⟨h, s, rfl⟩
  · exact .inl h
  · exact .inr ⟨false, s, h, rfl⟩

/-- Positive zero plus anything but negative zero is exact. -/
theorem positive_zero_add {x : Binary64} (h : x ≠ zero true) : (zero false).add x = x := by
  rcases zero_add false x with he | ⟨he, s, rfl⟩
  · exact he
  · cases s with
    | false => exact he
    | true => exact absurd rfl h

theorem Like.add_right {x y : Binary64} (h : Like x y) (z : Binary64) :
    Like (x.add z) (y.add z) := by
  rcases (like_iff x y).1 h with rfl | ⟨s, t, rfl, rfl⟩
  · exact .refl _
  · exact (zero_add_like s z).trans (zero_add_like t z).symm

/-- A sum is negative zero only if both sides are. -/
theorem add_ne_negative_zero {x : Binary64} (hx : x ≠ zero true) (y : Binary64) :
    x.add y ≠ zero true := by
  cases x with
  | nan => simp [add, zero]
  | infinite s =>
    cases y <;> simp only [add]
    · simp [zero]
    · split <;> simp [zero]
    · simp [zero]
  | finite s a =>
    cases y with
    | nan => simp [add, zero]
    | infinite t => simp [add, zero]
    | finite t b =>
      simp only [add]
      split_ifs with hs hb ha
      · cases s with
        | false => rw [ofUnits]; split <;> simp [zero]
        | true =>
          have ha : a.units ≠ 0 := fun h0 => hx (units_eq_zero h0)
          exact ofUnits_ne_zero _ _ (by omega)
      · exact ofUnits_ne_zero _ _ (by omega)
      · exact ofUnits_ne_zero _ _ (by omega)
      · exact fun h => Bool.noConfusion (zero_inj h)

/-- A sum that starts at positive zero is never negative zero. -/
theorem foldl_add_ne_negative_zero {α : Type} (f : α → Binary64) (items : List α) {start : Binary64}
    (h : start ≠ zero true) : items.foldl (fun sum item => sum.add (f item)) start ≠ zero true := by
  induction items generalizing start with
  | nil => exact h
  | cons item items ih => exact ih (add_ne_negative_zero h _)

theorem foldl_add_like (numbers : List Binary64) {x y : Binary64} (h : Like x y) :
    Like (numbers.foldl add x) (numbers.foldl add y) := by
  induction numbers generalizing x y with
  | nil => exact h
  | cons z numbers ih => exact ih (h.add_right z)

/-! ## Numbers that are not there -/

/-- A combination with `nan` is `nan`. -/
def Absorbs (combine : Binary64 → Binary64 → Binary64) : Prop :=
  ∀ x, combine .nan x = .nan ∧ combine x .nan = .nan

theorem absorbs_add : Absorbs add := fun x => ⟨rfl, by cases x <;> rfl⟩

theorem absorbs_min : Absorbs min := fun x => ⟨rfl, by cases x <;> rfl⟩

theorem absorbs_max : Absorbs max := fun x => ⟨rfl, by cases x <;> rfl⟩

/-- One `nan` among the numbers is enough, wherever it stands. -/
theorem Absorbs.foldl {combine : Binary64 → Binary64 → Binary64} (h : Absorbs combine)
    {numbers : List Binary64} {start : Binary64} (hn : start = .nan ∨ .nan ∈ numbers) :
    numbers.foldl combine start = .nan := by
  induction numbers generalizing start with
  | nil => exact hn.resolve_right List.not_mem_nil
  | cons x numbers ih =>
    apply ih
    rcases hn with rfl | hn
    · exact .inl (h x).1
    · rcases List.mem_cons.1 hn with rfl | hn
      · exact .inl (h start).2
      · exact .inr hn

/-! ## Whole numbers -/

theorem log2_mul_two_pow {n : Nat} (h : n ≠ 0) (k : Nat) : (n * 2 ^ k).log2 = n.log2 + k := by
  have hk : 0 < 2 ^ k := Nat.two_pow_pos k
  rw [Nat.log2_eq_iff (Nat.mul_ne_zero h (by omega)), Nat.pow_add, Nat.add_right_comm,
    Nat.pow_add _ _ k]
  exact ⟨Nat.mul_le_mul_right _ (Nat.log2_self_le h),
    Nat.mul_lt_mul_of_pos_right Nat.lt_log2_self hk⟩

/-- Up to 2^53 a whole number has no more than 53 significant bits, at any scale. -/
theorem step_dvd {n k : Nat} (h0 : n ≠ 0) (h : n ≤ 2 ^ 53) :
    step (n * 2 ^ (52 + k)) ∣ n * 2 ^ (52 + k) := by
  have hd : 2 ^ n.log2 ∣ n * 2 ^ 52 := by
    by_cases hn : n = 2 ^ 53
    · -- 2^53 has 54 bits, but only the first is significant.
      rw [hn, Nat.log2_two_pow]
      exact Dvd.intro _ rfl
    · exact (Nat.pow_dvd_pow 2 (Nat.lt_succ_iff.1 ((Nat.log2_lt h0).2 (by omega)))).mul_left _
  have hs : n.log2 + (52 + k) - 52 = n.log2 + k := by omega
  rw [step, Nat.pow_eq, log2_mul_two_pow h0, hs, Nat.pow_add, Nat.pow_add, ← Nat.mul_assoc]
  exact Nat.mul_dvd_mul_right hd _

theorem one_eq : one = 2 ^ (52 + 1022) := by
  have h : 1074 = 52 + 1022 := rfl
  rw [one, Nat.pow_eq, h]

theorem one_pos : 0 < one := one_eq ▸ Nat.two_pow_pos (52 + 1022)

theorem limit_eq : limit = 2 ^ 1024 * one := by
  have h : 2098 = 1024 + 1074 := rfl
  rw [limit, one, Nat.pow_eq, Nat.pow_eq, h, Nat.pow_add]

theorem fits_whole {n : Nat} (h : n ≤ 2 ^ 53) : Fits (n * one) := by
  by_cases h0 : n = 0
  · subst h0
    rw [Nat.zero_mul]
    exact fits_zero
  · refine ⟨Nat.mod_eq_zero_of_dvd (one_eq ▸ step_dvd h0 h), ?_⟩
    rw [limit_eq]
    exact Nat.mul_lt_mul_of_pos_right (h.trans_lt (Nat.pow_lt_pow_right (by omega) (by omega)))
      (Nat.two_pow_pos _)

theorem ofNat_of_le {n : Nat} (h : n ≤ 2 ^ 53) : ofNat n = .finite false ⟨n * one, fits_whole h⟩ :=
  ofUnits_of_fits false (fits_whole h)

theorem ofNat_add {n m : Nat} (h : n + m ≤ 2 ^ 53) : (ofNat n).add (ofNat m) = ofNat (n + m) := by
  rw [ofNat_of_le (Nat.le_of_add_right_le h), ofNat_of_le (Nat.le_of_add_left_le h), ofNat]
  simp only [add, if_true, Nat.add_mul]

theorem ofNat_zero : ofNat 0 = zero false := by
  rw [ofNat_of_le (Nat.zero_le _)]
  exact units_eq_zero (Nat.zero_mul one)

/-- Whole numbers are added to zero without rounding, up to 2^53. -/
theorem foldl_add_ofNat {numbers : List Nat} (h : numbers.sum ≤ 2 ^ 53) :
    (numbers.map ofNat).foldl add (zero false) = ofNat numbers.sum := by
  induction numbers using List.reverseRecOn with
  | nil => rw [List.map_nil, List.foldl_nil, List.sum_nil, ofNat_zero]
  | append_singleton numbers n ih =>
    rw [List.sum_append, List.sum_singleton] at h ⊢
    rw [List.map_append, List.foldl_append, ih (Nat.le_of_add_right_le h), List.map_singleton,
      List.foldl_cons, List.foldl_nil, ofNat_add h]

/-- One added `n` times to zero is `n`, up to 2^53. -/
theorem ones_eq_ofNat {n : Nat} (h : n ≤ 2 ^ 53) :
    (List.replicate n (ofNat 1)).foldl add (zero false) = ofNat n := by
  have hsum : (List.replicate n 1).sum = n := by simp
  rw [← List.map_replicate, foldl_add_ofNat (hsum.trans_le h), hsum]

/-- The cast to a whole number is exact up to 2^53. -/
theorem toInt?_of_whole (negative : Bool) {size : Magnitude} {n : Nat} (hn : n ≤ 2 ^ 53)
    (hsize : size.units = n * one) :
    (finite negative size).toInt? = some (if negative then -(n : Int) else n) := by
  have hmod : size.units % one = 0 := by rw [hsize, Nat.mul_mod_left]
  have hle : size.units ≤ Nat.pow 2 53 * one := by
    rw [hsize, Nat.pow_eq]
    exact Nat.mul_le_mul_right one hn
  have hdiv : size.units / one = n := by rw [hsize, Nat.mul_div_cancel n one_pos]
  rw [toInt?, if_pos ⟨hmod, hle⟩]
  simp only [← Int.natCast_ediv, hdiv]

theorem toInt?_zero (sign : Bool) : (zero sign).toInt? = some 0 := by
  have hzero : (⟨0, fits_zero⟩ : Magnitude).units = 0 * one := (Nat.zero_mul one).symm
  have hint := toInt?_of_whole sign (Nat.zero_le _) hzero
  rwa [Nat.cast_zero, Int.neg_zero, ite_self] at hint

theorem rank?_of_toInt? {x : Binary64} {n : Int} (h : x.toInt? = some n) :
    x.rank? = some (n * one) := by
  cases x with
  | nan | infinite _ => cases h
  | finite negative size =>
    rw [toInt?] at h
    split at h
    · rename_i hwhole
      have hunits : (size.units / one : Int) * one = size.units :=
        Int.ediv_mul_cancel (Int.natCast_dvd_natCast.2 (Nat.dvd_of_mod_eq_zero hwhole.1))
      obtain rfl := Option.some.inj h
      cases negative with
      | false => exact congrArg some hunits.symm
      | true =>
        rw [if_pos rfl, Int.neg_mul, hunits]
        rfl
    · cases h

end Binary64

/-! ## Cells -/

namespace Cell

/-- The same value, with one `nan` and one zero. -/
def Like (a b : Cell) : Prop := a.same b = true ∨ (a = .number .nan ∧ b = .number .nan)

theorem like_number {x y : Binary64} (h : x.Like y) : (Cell.number x).Like (.number y) := by
  rcases h with h | ⟨rfl, rfl⟩
  · exact .inl h
  · exact .inr ⟨rfl, rfl⟩

theorem Like.refl (a : Cell) : a.Like a := by
  cases a with
  | null => exact .inl rfl
  | text content => exact .inl (beq_self_eq_true content)
  | number value => exact like_number (.refl value)

/-- `nan` is like itself only. -/
theorem like_nan {a : Cell} : (Cell.number .nan).Like a ↔ a = .number .nan := by
  have hsame : (Cell.number .nan).same a = false := by cases a <;> rfl
  simp [Like, hsame]

end Cell

end Tabular
