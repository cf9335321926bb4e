import Tabular.Json.Reader
import Tabular.Proofs.Numbers
/-!
# Numerals

The numbers that JSON allows, as a grammar. The reader takes every numeral whole, and every number
that the writer is given is written as one, however its digits are set out.
-/

namespace Tabular.Json

/-! ## The grammar -/

def IsDigits (cs : List Char) : Prop := cs ≠ [] ∧ ∀ c ∈ cs, c.isDigit = true

instance (cs : List Char) : Decidable (IsDigits cs) := inferInstanceAs (Decidable (_ ∧ _))

/-- Digits of which the first is not zero. -/
def IsSignificant (cs : List Char) : Prop := IsDigits cs ∧ cs.head? ≠ some '0'

inductive IsWhole : List Char → Prop
  | zero : IsWhole ['0']
  | significant {cs : List Char} (hdigits : IsSignificant cs) : IsWhole cs

inductive IsFraction : List Char → Prop
  | none : IsFraction []
  | digits {cs : List Char} (hdigits : IsDigits cs) : IsFraction ('.' :: cs)

inductive IsExponent : List Char → Prop
  | none : IsExponent []
  | digits {sign : Char} {cs : List Char} (hsign : sign = '+' ∨ sign = '-')
    (hdigits : IsDigits cs) : IsExponent ('e' :: sign :: cs)

inductive IsUnsigned : List Char → Prop
  | intro {whole fraction exponent : List Char} (hwhole : IsWhole whole)
    (hfraction : IsFraction fraction) (hexponent : IsExponent exponent) :
    IsUnsigned (whole ++ (fraction ++ exponent))

inductive IsNumeral : List Char → Prop
  | intro (negative : Bool) {cs : List Char} (hunsigned : IsUnsigned cs) :
    IsNumeral ((if negative then ['-'] else []) ++ cs)

/-- What may follow a value: nothing, or what ends an item or a list of them. -/
def Ends (rest : List Char) : Prop := ∀ c ∈ rest.head?, c = ',' ∨ c = ']' ∨ c = '\x7d'

/-! ## Reading numerals -/

section Reading
variable {cs rest : List Char}

theorem ends_nil : Ends [] := nofun

theorem ends_comma (rest : List Char) : Ends (',' :: rest) := fun _ hc =>
  .inl (Option.mem_some_iff.1 hc).symm

theorem ends_bracket (rest : List Char) : Ends (']' :: rest) := fun _ hc =>
  .inr (.inl (Option.mem_some_iff.1 hc).symm)

theorem ends_brace (rest : List Char) : Ends ('\x7d' :: rest) := fun _ hc =>
  .inr (.inr (Option.mem_some_iff.1 hc).symm)

/-- The rest does not go on with a digit. -/
def NoDigit (rest : List Char) : Prop := ∀ c ∈ rest.head?, c.isDigit = false

theorem noDigit_cons {c : Char} (h : c.isDigit = false) : NoDigit (c :: rest) := by
  intro d hd
  rwa [← Option.mem_some_iff.1 hd]

theorem takeWhile_digits (h : ∀ c ∈ cs, c.isDigit = true) (hr : NoDigit rest) :
    (cs ++ rest).takeWhile Char.isDigit = cs := by
  rw [List.takeWhile_append_of_pos h]
  cases rest with
  | nil => simp
  | cons c rest => simp [hr c rfl]

theorem dropWhile_digits (h : ∀ c ∈ cs, c.isDigit = true) (hr : NoDigit rest) :
    (cs ++ rest).dropWhile Char.isDigit = rest := by
  rw [List.dropWhile_append_of_pos h]
  cases rest with
  | nil => rfl
  | cons c rest => simp [hr c rfl]

theorem Ends.noDigit (h : Ends rest) : NoDigit rest := by
  intro c hc
  rcases h c hc with rfl | rfl | rfl <;> rfl

theorem afterDigits?_append (h : IsDigits cs) (hr : NoDigit rest) :
    afterDigits? (cs ++ rest) = some rest := by
  have hdrop := dropWhile_digits h.2 hr
  obtain ⟨c, digits, rfl⟩ := List.exists_cons_of_ne_nil h.1
  change (if c.isDigit then some ((c :: digits ++ rest).dropWhile Char.isDigit) else none) = some rest
  rw [if_pos (h.2 c List.mem_cons_self), hdrop]

theorem afterExponent?_append (h : IsExponent cs) (hr : Ends rest) :
    afterExponent? (cs ++ rest) = some rest := by
  cases h with
  | none =>
    cases rest with
    | nil => rfl
    | cons c rest => rcases hr c rfl with rfl | rfl | rfl <;> rfl
  | digits hsign hdigits =>
    rcases hsign with rfl | rfl <;> exact afterDigits?_append hdigits hr.noDigit

theorem IsExponent.noDigit (h : IsExponent cs) (hr : Ends rest) : NoDigit (cs ++ rest) := by
  cases h with
  | none => exact hr.noDigit
  | digits _ _ => exact noDigit_cons rfl

theorem afterFraction?_append {exponent : List Char} (h : IsFraction cs)
    (he : IsExponent exponent) (hr : Ends rest) :
    afterFraction? (cs ++ (exponent ++ rest)) = some (exponent ++ rest) := by
  cases h with
  | none =>
    cases he with
    | none =>
      cases rest with
      | nil => rfl
      | cons c rest => rcases hr c rfl with rfl | rfl | rfl <;> rfl
    | digits _ _ => rfl
  | digits hdigits => exact afterDigits?_append hdigits (he.noDigit hr)

theorem IsFraction.noDigit (h : IsFraction cs) (hr : NoDigit rest) : NoDigit (cs ++ rest) := by
  cases h with
  | none => exact hr
  | digits _ => exact noDigit_cons rfl

theorem IsDigits.not_mem {mark : Char} (h : IsDigits cs) (hmark : mark.isDigit = false) :
    mark ∉ cs := fun hm => Bool.false_ne_true (hmark.symm.trans (h.2 mark hm))

/-- What is known of significant digits, in one piece. -/
theorem IsSignificant.exists_cons (h : IsSignificant cs) : ∃ c rest, cs = c :: rest ∧
    c.isDigit = true ∧ c ≠ '0' ∧ ∀ c ∈ rest, c.isDigit = true := by
  obtain ⟨c, rest, rfl⟩ := List.exists_cons_of_ne_nil h.1.1
  exact ⟨c, rest, rfl, h.1.2 c List.mem_cons_self, fun he => h.2 (congrArg some he),
    fun d hd => h.1.2 d (List.mem_cons_of_mem c hd)⟩

/-- The reader gets past the sign and the whole part. -/
theorem afterNumber?_whole (negative : Bool) (h : IsWhole cs) (hr : NoDigit rest) :
    afterNumber? ((if negative then ['-'] else []) ++ (cs ++ rest)) =
      (afterFraction? rest).bind afterExponent? := by
  cases h with
  | zero => cases negative <;> rfl
  | significant hdigits =>
    have hafter := afterDigits?_append hdigits.1 hr
    obtain ⟨c, digits, rfl, -, hzero, -⟩ := hdigits.exists_cons
    have hsign : c ≠ '-' := (List.ne_of_not_mem_cons (hdigits.1.not_mem rfl)).symm
    rw [List.cons_append] at hafter ⊢
    cases negative with
    | false => simp [afterNumber?, hsign, hzero, hafter]
    | true => simp [afterNumber?, hzero, hafter]

theorem IsWhole.exists_digit (h : IsWhole cs) : ∃ c rest, cs = c :: rest ∧ c.isDigit = true := by
  cases h with
  | zero => exact ⟨'0', [], rfl, rfl⟩
  | significant hdigits =>
    obtain ⟨c, rest, rfl, hc, -, -⟩ := hdigits.exists_cons
    exact ⟨c, rest, rfl, hc⟩

/-- A numeral is read whole. -/
theorem afterNumber?_append (h : IsNumeral cs) (hr : Ends rest) :
    afterNumber? (cs ++ rest) = some rest := by
  obtain ⟨negative, hunsigned⟩ := h
  cases hunsigned with
  | @intro whole fraction exponent hwhole hfraction hexponent =>
    have hnext : NoDigit (fraction ++ (exponent ++ rest)) := hfraction.noDigit (hexponent.noDigit hr)
    calc afterNumber? ((if negative then ['-'] else []) ++ (whole ++ (fraction ++ exponent)) ++ rest)
        = (afterFraction? (fraction ++ (exponent ++ rest))).bind afterExponent? := by
          rw [List.append_assoc, List.append_assoc, List.append_assoc,
            afterNumber?_whole negative hwhole hnext]
      _ = some rest := by
          rw [afterFraction?_append hfraction hexponent hr, Option.bind_some,
            afterExponent?_append hexponent hr]

theorem IsUnsigned.exists_digit (h : IsUnsigned cs) :
    ∃ c rest, cs = c :: rest ∧ c.isDigit = true := by
  obtain ⟨hwhole, -, -⟩ := h
  obtain ⟨c, rest, rfl, hc⟩ := hwhole.exists_digit
  exact ⟨c, _, rfl, hc⟩

def StartsNumeral (c : Char) : Prop := c.isDigit = true ∨ c = '-'

theorem IsNumeral.starts (h : IsNumeral cs) : ∃ c rest, cs = c :: rest ∧ StartsNumeral c := by
  obtain ⟨negative, hunsigned⟩ := h
  cases negative with
  | true => exact ⟨'-', _, rfl, .inr rfl⟩
  | false =>
    obtain ⟨c, rest, rfl, hc⟩ := hunsigned.exists_digit
    exact ⟨c, rest, rfl, .inl hc⟩

/-- A numeral stands on one line. -/
theorem IsNumeral.newline_not_mem (h : IsNumeral cs) : '\n' ∉ cs := by
  obtain ⟨negative, hwhole, hfraction, hexponent⟩ := h
  have hsign : '\n' ∉ (if negative then ['-'] else []) := by cases negative <;> decide
  simp only [List.mem_append, hsign, false_or, not_or]
  refine ⟨?_, ?_, ?_⟩
  · cases hwhole with
    | zero => decide
    | significant hdigits => exact hdigits.1.not_mem rfl
  · cases hfraction with
    | none => exact List.not_mem_nil
    | digits hdigits => simpa using hdigits.not_mem rfl
  · cases hexponent with
    | none => exact List.not_mem_nil
    | digits hsign hdigits => rcases hsign with rfl | rfl <;> simpa using hdigits.not_mem rfl

end Reading

/-! ## Written digits -/

section Written
variable {cs : List Char}

theorem isDigit_zeros (n : Nat) : ∀ c ∈ Binary64.zeros n, c.isDigit = true := fun _ hc =>
  (List.mem_replicate.1 hc).2 ▸ rfl

theorem isSignificant_cons {c : Char} (hc : c.isDigit = true) (hzero : c ≠ '0')
    (h : ∀ c ∈ cs, c.isDigit = true) : IsSignificant (c :: cs) :=
  ⟨⟨List.cons_ne_nil c cs, List.forall_mem_cons.2 ⟨hc, h⟩⟩, fun he => hzero (Option.some.inj he)⟩

theorem isDigits_toDigits (n : Nat) : IsDigits (Nat.toDigits 10 n) :=
  ⟨Nat.toDigits_ne_nil, fun _ => Nat.isDigit_of_mem_toDigits (by omega) (by omega)⟩

theorem isSignificant_toDigits {n : Nat} (h : n ≠ 0) : IsSignificant (Nat.toDigits 10 n) := by
  induction n using Nat.strong_induction_on with
  | _ n ih =>
    by_cases hn : n < 10
    · have hdigit : ∀ d < 10, d ≠ 0 → (Nat.digitChar d).isDigit = true ∧ Nat.digitChar d ≠ '0' := by
        decide
      rw [Nat.toDigits_of_lt_base hn]
      exact isSignificant_cons (hdigit n hn h).1 (hdigit n hn h).2 nofun
    · obtain ⟨c, rest, he, -, hzero, -⟩ := (ih (n / 10) (by omega) (by omega)).exists_cons
      refine ⟨isDigits_toDigits n, ?_⟩
      rw [Nat.toDigits_of_base_le (by omega) (by omega), he]
      exact fun h => hzero (Option.some.inj h)

theorem isWhole_toDigits (n : Nat) : IsWhole (Nat.toDigits 10 n) := by
  by_cases h : n = 0
  · subst h
    exact .zero
  · exact .significant (isSignificant_toDigits h)

theorem isUnsigned_plain {whole fraction : List Char} (hwhole : IsWhole whole)
    (hfraction : IsFraction fraction) : IsUnsigned (whole ++ fraction) := by
  have h := IsUnsigned.intro hwhole hfraction .none
  rwa [List.append_nil] at h

/-- Whole numbers are written as numerals. -/
theorem isNumeral_integer (n : Int) : IsNumeral (integer n).toList := by
  have hunsigned := isUnsigned_plain (isWhole_toDigits n.natAbs) .none
  rw [List.append_nil] at hunsigned
  have hnumeral := IsNumeral.intro (decide (n < 0)) hunsigned
  simp only [decide_eq_true_eq] at hnumeral
  rw [integer, String.toList_ofList]
  exact hnumeral

/-- Zeros at the end can be left off. -/
theorem IsSignificant.strip (h : IsSignificant cs) :
    IsSignificant (cs.reverse.dropWhile (· == '0')).reverse := by
  obtain ⟨c, rest, rfl, hc, hzero, hrest⟩ := h.exists_cons
  have hstrip : ((c :: rest).reverse.dropWhile (· == '0')).reverse =
      c :: (rest.reverse.dropWhile (· == '0')).reverse := by
    rw [List.reverse_cons, List.dropWhile_append]
    split
    · rename_i hempty
      rw [List.isEmpty_iff.1 hempty, List.dropWhile_cons_of_neg (by simpa using hzero)]
      rfl
    · rw [List.reverse_append, List.reverse_singleton, List.singleton_append]
  rw [hstrip]
  refine isSignificant_cons hc hzero fun d hd => hrest d ?_
  exact List.mem_reverse.1 ((List.dropWhile_sublist _).subset (List.mem_reverse.1 hd))

/-! ## Written numbers -/

theorem isUnsigned_scientific (h : IsSignificant cs) (exponent : Int) :
    IsUnsigned (Binary64.scientific cs exponent) := by
  obtain ⟨c, rest, rfl, hc, hzero, hrest⟩ := h.exists_cons
  have hwhole : IsWhole [c] := .significant (isSignificant_cons hc hzero nofun)
  have hexponent : IsExponent ('e' :: (if exponent < 0 then '-' else '+') ::
      Nat.toDigits 10 exponent.natAbs) := by
    refine .digits ?_ (isDigits_toDigits _)
    split
    · exact .inr rfl
    · exact .inl rfl
  cases rest with
  | nil => exact .intro hwhole .none hexponent
  | cons d rest =>
    exact .intro hwhole (.digits ⟨List.cons_ne_nil d rest, hrest⟩) hexponent

theorem isFraction_zero : IsFraction ['.', '0'] := .digits ⟨List.cons_ne_nil _ _, by simp⟩

theorem isUnsigned_positional (h : IsSignificant cs) (point : Int) :
    IsUnsigned (layout.positional cs point) := by
  rw [Binary64.Layout.positional]
  split
  · -- Only zeros stand before the digits.
    have hfraction : IsFraction ('.' :: (Binary64.zeros (-point).toNat ++ cs)) :=
      .digits ⟨List.append_ne_nil_of_right_ne_nil _ h.1.1, fun c hc =>
        (List.mem_append.1 hc).elim (isDigit_zeros _ c) (h.1.2 c)⟩
    have hunsigned := isUnsigned_plain .zero hfraction
    exact hunsigned
  · rename_i hpoint
    split
    · have hwhole : IsWhole (cs ++ Binary64.zeros (point.toNat - cs.length)) := by
        obtain ⟨c, rest, rfl, hc, hzero, hrest⟩ := h.exists_cons
        exact .significant (isSignificant_cons hc hzero fun d hd =>
          (List.mem_append.1 hd).elim (hrest d) (isDigit_zeros _ d))
      exact isUnsigned_plain hwhole isFraction_zero
    · rename_i hlength
      obtain ⟨c, rest, rfl, hc, hzero, hrest⟩ := h.exists_cons
      obtain ⟨k, hk⟩ : ∃ k, point.toNat = k + 1 := ⟨point.toNat - 1, by omega⟩
      rw [hk, List.length_cons] at hlength
      have hwhole : IsWhole (c :: rest.take k) :=
        .significant (isSignificant_cons hc hzero fun d hd => hrest d (List.mem_of_mem_take hd))
      have hfraction : IsFraction ('.' :: rest.drop k) :=
        .digits ⟨List.drop_eq_nil_iff.not.2 (by omega), fun d hd => hrest d (List.mem_of_mem_drop hd)⟩
      rw [hk]
      exact isUnsigned_plain hwhole hfraction

/-- A decimal on the grid that reads back to a number other than zero is not zero. -/
theorem onGrid?_ne_zero {tie : Binary64.Tie} {units : Nat} {exponent : Int} {n : Nat}
    (hunits : units ≠ 0) (h : Binary64.onGrid? tie units exponent = some n) : n ≠ 0 := by
  have hstep : Binary64.step units ≤ units := Binary64.step_le hunits
  have hscale : 0 < Nat.pow 10 (-exponent).toNat := Nat.pow_pos (by omega)
  unfold Binary64.onGrid? at h
  extract_lets scale grid s narrow low high closed value floor rest below above nearer at h
  have hlow : 0 < low := Nat.mul_pos (by simp only [s]; split <;> omega) hscale
  split_ifs at h with hbelow habove
  · -- The decimal is not below the numbers that read back.
    rintro rfl
    have hle : low ≤ floor * grid := hbelow.1.elim Nat.le_of_lt fun he => he.2.le
    rw [Option.some.inj h, Nat.zero_mul] at hle
    omega
  · rw [← Option.some.inj h]
    exact Nat.succ_ne_zero floor

theorem shortest_ne_zero (tie : Binary64.Tie) {units : Nat} (h : units ≠ 0) :
    (Binary64.shortest tie units).digits ≠ 0 := by
  unfold Binary64.shortest
  extract_lets power found
  cases hfound : found with
  | none =>
    have hpow (k : Nat) : Nat.pow 5 k ≠ 0 := (Nat.pow_pos (by omega)).ne'
    apply Nat.mul_ne_zero h
    apply hpow
  | some decimal =>
    obtain ⟨places, -, hplaces⟩ := List.exists_of_findSome?_eq_some hfound
    obtain ⟨n, hn, rfl⟩ := Option.map_eq_some_iff.1 hplaces
    exact onGrid?_ne_zero h hn

theorem isUnsigned_magnitude (units : Nat) : IsUnsigned (layout.magnitude units) := by
  rw [Binary64.Layout.magnitude]
  split
  · exact isUnsigned_plain .zero isFraction_zero
  · rename_i hunits
    have hdigits := (isSignificant_toDigits (shortest_ne_zero layout.tie hunits)).strip
    simp only
    split
    · exact isUnsigned_positional hdigits _
    · exact isUnsigned_scientific hdigits _

/-- Finite numbers are written as numerals. -/
theorem isNumeral_number {x : Binary64} (h : x.isFinite = true) : IsNumeral (number x).toList := by
  cases x with
  | nan | infinite _ => cases h
  | finite negative size =>
    rw [number, String.toList_ofList]
    exact .intro negative (isUnsigned_magnitude size.units)

end Written

end Tabular.Json
