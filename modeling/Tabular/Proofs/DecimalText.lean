import Tabular.Proofs.Cuts
import Tabular.Proofs.Numerals
/-!
# Texts that are numbers

The numerals as a grammar: a sign, and then a word for `nan` or for an infinity, or digits with a
point and a power of ten. Reading takes exactly these, and gives the number nearest to the decimal
value. The bounds past which the reader does not compute the power are where the nearest number is
zero or infinite anyway.
-/

namespace Tabular

namespace Binary64
open Json (IsDigits NoDigit noDigit_cons takeWhile_digits dropWhile_digits)
open Text (isBlank)
open Written (isNameChar)

/-! ## The grammar -/

/-- Nothing or a sign, and whether it is negative. -/
inductive IsSign : List Char → Bool → Prop
  | none : IsSign [] false
  | plus : IsSign ['+'] false
  | minus : IsSign ['-'] true

/-- Nothing, or a point and the digits behind it. -/
inductive IsFraction : List Char → List Char → Prop
  | none : IsFraction [] []
  | point {digits : List Char} (hdigits : ∀ c ∈ digits, c.isDigit = true) :
    IsFraction ('.' :: digits) digits

/-- Nothing, or the power of ten behind a letter. -/
inductive IsExponent : List Char → Int → Prop
  | none : IsExponent [] 0
  | power {letter : Char} {sign digits : List Char} {negative : Bool}
    (hletter : letter = 'e' ∨ letter = 'E') (hsign : IsSign sign negative)
    (hdigits : IsDigits digits) :
    IsExponent (letter :: (sign ++ digits))
      (if negative then -(Nat.ofDigitChars 10 digits 0 : Int) else Nat.ofDigitChars 10 digits 0)

/-- The number nearest to `coefficient * 10 ^ exponent`. -/
def nearestTo (negative : Bool) (coefficient : Nat) (exponent : Int) : Binary64 :=
  ofUnits negative (coefficient * 10 ^ exponent.toNat * one) (10 ^ (-exponent).toNat)

/-- Digits with a point somewhere, and the number nearest to their value. -/
inductive IsDecimal (negative : Bool) : List Char → Binary64 → Prop
  | intro {whole point fraction power : List Char} {exponent : Int}
    (hwhole : ∀ c ∈ whole, c.isDigit = true) (hfraction : IsFraction point fraction)
    (hdigits : whole ++ fraction ≠ []) (hexponent : IsExponent power exponent) :
    IsDecimal negative (whole ++ (point ++ power))
      (nearestTo negative (Nat.ofDigitChars 10 (whole ++ fraction) 0) (exponent - fraction.length))

def infinityWords : List (List Char) :=
  [['i', 'n', 'f'], ['i', 'n', 'f', 'i', 'n', 'i', 't', 'y']]

/-- The texts that are numbers, and the number each one is. -/
inductive IsNumeral : List Char → Binary64 → Prop
  | nan {sign word : List Char} {negative : Bool} (hsign : IsSign sign negative)
    (hword : word.map Char.toLower = ['n', 'a', 'n']) : IsNumeral (sign ++ word) .nan
  | infinite {sign word : List Char} {negative : Bool} (hsign : IsSign sign negative)
    (hword : word.map Char.toLower ∈ infinityWords) : IsNumeral (sign ++ word) (.infinite negative)
  | decimal {sign digits : List Char} {negative : Bool} {x : Binary64}
    (hsign : IsSign sign negative) (hdecimal : IsDecimal negative digits x) :
    IsNumeral (sign ++ digits) x

/-! ## The nearest number -/

section Nearest
variable {num den : Nat}

theorem le_nearest (num den : Nat) : num / den ≤ nearest num den := by
  simp only [nearest]
  split
  · exact le_rfl
  · exact Nat.le_succ _

/-- Rounding does not go below a power of two. -/
theorem two_pow_le_roundUnits {k : Nat} (h : 2 ^ k ≤ num / den) : 2 ^ k ≤ roundUnits num den := by
  generalize hq : num / den = q at h
  have hpos : q ≠ 0 := ((Nat.two_pow_pos k).trans_le h).ne'
  have hstep : step q ∣ 2 ^ q.log2 := Nat.pow_dvd_pow 2 (Nat.sub_le _ _)
  calc 2 ^ k ≤ 2 ^ q.log2 := Nat.pow_le_pow_right (by omega) ((Nat.le_log2 hpos).2 h)
    _ = 2 ^ q.log2 / step q * step q := (Nat.div_mul_cancel hstep).symm
    _ ≤ q / step q * step q :=
      Nat.mul_le_mul_right _ (Nat.div_le_div_right (Nat.log2_self_le hpos))
    _ = num / (den * step q) * step q := by rw [← hq, Nat.div_div_eq_div_mul]
    _ ≤ roundUnits num den := by
      rw [roundUnits, hq]
      exact Nat.mul_le_mul_right _ (le_nearest num _)

theorem ofUnits_of_large (negative : Bool) (h : limit ≤ num / den) :
    ofUnits negative num den = .infinite negative := by
  obtain ⟨k, hk⟩ : ∃ k, limit = 2 ^ k := ⟨2098, by rw [limit, Nat.pow_eq]⟩
  rw [ofUnits, dif_neg]
  intro hfits
  rw [hk] at h
  exact absurd (hk ▸ hfits.2) (Nat.not_lt.2 (two_pow_le_roundUnits h))

theorem ofUnits_of_small (negative : Bool) (h : 2 * num < den) :
    ofUnits negative num den = zero negative := by
  have hdiv : num / den = 0 := Nat.div_eq_of_lt (by omega)
  have hround : roundUnits num den = 0 := by
    have hstep : step 0 = 1 := rfl
    have hmod : num % den = num := Nat.mod_eq_of_lt (by omega)
    simp only [roundUnits, nearest, hdiv, hstep, Nat.mul_one, hmod]
    rw [if_pos (.inl h)]
  rw [ofUnits, dif_pos (hround ▸ fits_zero)]
  exact units_eq_zero hround

end Nearest

/-! ## Digits -/

section Digits
variable {cs rest : List Char}

theorem ofDigitChars_cons_zero (c : Char) (cs : List Char) :
    Nat.ofDigitChars 10 (c :: cs) 0 =
      10 ^ cs.length * (c.toNat - '0'.toNat) + Nat.ofDigitChars 10 cs 0 := by
  rw [Nat.ofDigitChars_cons, Nat.ofDigitChars_eq_ofDigitChars_zero, Nat.mul_zero, Nat.zero_add]

theorem ofDigitChars_lt (h : ∀ c ∈ cs, c.isDigit = true) :
    Nat.ofDigitChars 10 cs 0 < 10 ^ cs.length := by
  induction cs with
  | nil => exact Nat.one_pos
  | cons c cs ih =>
    have hc : c.toNat - '0'.toNat ≤ 9 := by
      have hdigit := (Char.isDigit_iff_toNat.1 (h c List.mem_cons_self)).2
      exact Nat.sub_le_of_le_add hdigit
    have hrest := ih fun d hd => h d (List.mem_cons_of_mem c hd)
    have hlead := Nat.mul_le_mul_left (10 ^ cs.length) hc
    rw [ofDigitChars_cons_zero, List.length_cons, Nat.pow_succ]
    omega

theorem digit_ne_zero {c : Char} (hdigit : c.isDigit = true) (h : c ≠ '0') :
    c.toNat - '0'.toNat ≠ 0 := by
  intro hzero
  have hle : c.toNat ≤ '0'.toNat := Nat.sub_eq_zero_iff_le.1 hzero
  have hge := (Char.isDigit_iff_toNat.1 hdigit).1
  exact h (Char.ext (UInt32.toNat_inj.1 (Nat.le_antisymm hle hge)))

/-- Zeros in front count for nothing, and the first other digit for a power of ten. -/
theorem ofDigitChars_dropWhile (h : ∀ c ∈ cs, c.isDigit = true) :
    Nat.ofDigitChars 10 cs 0 = 0 ∨
      10 ^ ((cs.dropWhile (· == '0')).length - 1) ≤ Nat.ofDigitChars 10 cs 0 ∧
        Nat.ofDigitChars 10 cs 0 < 10 ^ (cs.dropWhile (· == '0')).length := by
  induction cs with
  | nil => exact .inl rfl
  | cons c cs ih =>
    have hrest : ∀ d ∈ cs, d.isDigit = true := fun d hd => h d (List.mem_cons_of_mem c hd)
    by_cases hc : c = '0'
    · subst hc
      have hdrop : ('0' :: cs).dropWhile (· == '0') = cs.dropWhile (· == '0') := rfl
      rw [hdrop]
      exact ih hrest
    · have hpos := Nat.one_le_iff_ne_zero.2 (digit_ne_zero (h c List.mem_cons_self) hc)
      rw [List.dropWhile_cons_of_neg (by simpa using hc)]
      refine .inr ⟨?_, ofDigitChars_lt h⟩
      rw [ofDigitChars_cons_zero, List.length_cons, Nat.add_sub_cancel]
      exact le_add_right (Nat.le_mul_of_pos_right _ hpos)

section Shortcuts
variable {coefficient width : Nat} {exponent : Int}

theorem nearestTo_zero (negative : Bool) (exponent : Int) :
    nearestTo negative 0 exponent = zero negative := by
  have hpos : 0 < 10 ^ (-exponent).toNat := Nat.pow_pos (by omega)
  apply ofUnits_of_small
  rwa [Nat.zero_mul, Nat.zero_mul]

theorem nearestTo_of_large (negative : Bool) (h : 10 ^ (width - 1) ≤ coefficient)
    (hwidth : exponent + width > 310) :
    nearestTo negative coefficient exponent = .infinite negative := by
  have hpos : 0 < 10 ^ (-exponent).toNat := Nat.pow_pos (by omega)
  have hpow : 2 ^ 1024 * 10 ^ (-exponent).toNat ≤ coefficient * 10 ^ exponent.toNat :=
    calc 2 ^ 1024 * 10 ^ (-exponent).toNat ≤ 10 ^ 310 * 10 ^ (-exponent).toNat :=
          Nat.mul_le_mul_right _ (by decide +kernel)
      _ = 10 ^ (310 + (-exponent).toNat) := (Nat.pow_add 10 _ _).symm
      _ ≤ 10 ^ (width - 1 + exponent.toNat) := Nat.pow_le_pow_right (by omega) (by omega)
      _ = 10 ^ (width - 1) * 10 ^ exponent.toNat := Nat.pow_add 10 _ _
      _ ≤ coefficient * 10 ^ exponent.toNat := Nat.mul_le_mul_right _ h
  apply ofUnits_of_large
  rw [Nat.le_div_iff_mul_le hpos, limit_eq, Nat.mul_right_comm]
  exact Nat.mul_le_mul_right one hpow

theorem nearestTo_of_small (negative : Bool) (h : coefficient < 10 ^ width)
    (hwidth : exponent + width < -330) :
    nearestTo negative coefficient exponent = zero negative := by
  have hwhole : exponent.toNat = 0 := by omega
  apply ofUnits_of_small
  rw [hwhole, Nat.pow_zero, Nat.mul_one]
  calc 2 * (coefficient * one) = coefficient * (2 * one) := Nat.mul_left_comm 2 coefficient one
    _ ≤ coefficient * 10 ^ 330 := Nat.mul_le_mul_left _ (by decide +kernel)
    _ < 10 ^ width * 10 ^ 330 := Nat.mul_lt_mul_of_pos_right h (Nat.pow_pos (by omega))
    _ = 10 ^ (width + 330) := (Nat.pow_add 10 _ _).symm
    _ ≤ 10 ^ (-exponent).toNat := Nat.pow_le_pow_right (by omega) (by omega)

theorem digitsValue_eq (cs : List Char) : digitsValue cs = Nat.ofDigitChars 10 cs 0 := rfl

/-- The reader's shortcuts give the nearest number too. -/
theorem ofDecimal_eq (negative : Bool) (h : ∀ c ∈ cs, c.isDigit = true) (exponent : Int) :
    ofDecimal negative (digitsValue cs) (cs.dropWhile (· == '0')).length exponent =
      nearestTo negative (Nat.ofDigitChars 10 cs 0) exponent := by
  rw [ofDecimal, digitsValue_eq]
  rcases ofDigitChars_dropWhile h with hzero | ⟨hlow, hhigh⟩
  · rw [if_pos hzero, hzero, nearestTo_zero]
  · split_ifs with hzero hlarge hsmall
    · rw [hzero, nearestTo_zero]
    · exact (nearestTo_of_large negative hlow hlarge).symm
    · exact (nearestTo_of_small negative hhigh hsmall).symm
    · rfl

end Shortcuts

end Digits

/-! ## Reading -/

section Reading
variable {cs rest sign digits power : List Char} {negative : Bool} {exponent : Int} {x : Binary64}

/-- The rest does not start with a sign. -/
def Unsigned (rest : List Char) : Prop := ∀ c ∈ rest.head?, c ≠ '+' ∧ c ≠ '-'

theorem splitSign_append (hsign : IsSign sign negative) (h : Unsigned rest) :
    splitSign (sign ++ rest) = (negative, rest) := by
  cases hsign with
  | plus | minus => rfl
  | none =>
    cases rest with
    | nil => rfl
    | cons c rest =>
      obtain ⟨hplus, hminus⟩ := h c rfl
      rw [List.nil_append, splitSign.eq_def]
      split
      · rename_i heq
        exact absurd (List.cons.inj heq).1 hminus
      · rename_i heq
        exact absurd (List.cons.inj heq).1 hplus
      · rfl

theorem exists_isSign (cs : List Char) :
    ∃ sign, IsSign sign (splitSign cs).1 ∧ cs = sign ++ (splitSign cs).2 := by
  rw [splitSign.eq_def]
  split
  · exact ⟨_, .minus, rfl⟩
  · exact ⟨_, .plus, rfl⟩
  · exact ⟨_, .none, rfl⟩

theorem unsigned_cons {c : Char} (h : isNameChar c = true) : Unsigned (c :: rest) := by
  intro d hd
  rw [← Option.mem_some_iff.1 hd]
  constructor
  · rintro rfl
    cases h
  · rintro rfl
    cases h

theorem unsigned_digits (h : IsDigits cs) : Unsigned cs := by
  obtain ⟨c, rest, rfl⟩ := List.exists_cons_of_ne_nil h.1
  exact unsigned_cons (Text.isNameChar_of_isDigit (h.2 c List.mem_cons_self))

theorem not_isDigits_iff (cs : List Char) :
    (cs.isEmpty || !cs.all Char.isDigit) = true ↔ ¬ IsDigits cs := by
  simp [IsDigits, or_iff_not_imp_left]

theorem readExponent?_cons (letter : Char) (cs : List Char) :
    readExponent? (letter :: cs) =
      if (letter = 'e' ∨ letter = 'E') ∧ IsDigits (splitSign cs).2 then
        some (if (splitSign cs).1 then -(Nat.ofDigitChars 10 (splitSign cs).2 0 : Int)
          else Nat.ofDigitChars 10 (splitSign cs).2 0)
      else none := by
  have hmark : (letter == 'e' || letter == 'E') = true ↔ letter = 'e' ∨ letter = 'E' := by simp
  simp only [readExponent?, hmark, not_isDigits_iff, digitsValue_eq]
  by_cases hletter : letter = 'e' ∨ letter = 'E' <;>
    by_cases hdigits : IsDigits (splitSign cs).2 <;>
    simp [hletter, hdigits, apply_ite some]

theorem readExponent?_iff : readExponent? cs = some exponent ↔ IsExponent cs exponent := by
  constructor
  · intro h
    cases cs with
    | nil =>
      cases h
      exact .none
    | cons letter rest =>
      obtain ⟨sign, hsign, hrest⟩ := exists_isSign rest
      rw [readExponent?_cons] at h
      obtain ⟨⟨hletter, hdigits⟩, hvalue⟩ := Option.ite_none_right_eq_some.1 h
      cases hvalue
      conv_lhs => rw [hrest]
      exact .power hletter hsign hdigits
  · intro h
    cases h with
    | none => rfl
    | power hletter hsign hdigits =>
      rw [readExponent?_cons, splitSign_append hsign (unsigned_digits hdigits),
        if_pos ⟨hletter, hdigits⟩]

/-- A text taken apart behind its digits and the point. What is left must be the power of ten; a point
is left only if there was one before. -/
structure Parts (cs whole point fraction power : List Char) : Prop where
  text : cs = whole ++ (point ++ power)
  whole : ∀ c ∈ whole, c.isDigit = true
  fraction : IsFraction point fraction
  noDigit : NoDigit power
  noPoint : point = [] → power.head? ≠ some '.'

theorem IsFraction.isDigit {point fraction : List Char} (h : IsFraction point fraction) :
    ∀ c ∈ fraction, c.isDigit = true := by
  cases h with
  | none => nofun
  | point hdigits => exact hdigits

theorem IsFraction.noDigit {point fraction : List Char} (h : IsFraction point fraction)
    (hrest : NoDigit rest) : NoDigit (point ++ rest) := by
  cases h with
  | none => exact hrest
  | point _ => exact noDigit_cons rfl

theorem exists_parts (cs : List Char) :
    ∃ whole point fraction power, Parts cs whole point fraction power := by
  have hdigits (cs : List Char) : ∀ c ∈ cs.takeWhile Char.isDigit, c.isDigit = true :=
    fun c hc => List.mem_takeWhile_imp hc
  have hrest (cs : List Char) : NoDigit (cs.dropWhile Char.isDigit) := by
    intro c hc
    have hhead := List.head?_dropWhile_not Char.isDigit cs
    rw [hc] at hhead
    simpa using hhead
  have hcut (cs : List Char) : cs = cs.takeWhile Char.isDigit ++ cs.dropWhile Char.isDigit :=
    List.takeWhile_append_dropWhile.symm
  by_cases hpoint : (cs.dropWhile Char.isDigit).head? = some '.'
  · obtain ⟨more, hmore⟩ := List.head?_eq_some_iff.1 hpoint
    refine ⟨_, _, _, _, ?_, hdigits cs, .point (hdigits more), hrest more, nofun⟩
    rw [List.cons_append, ← hcut more, ← hmore, ← hcut cs]
  · exact ⟨_, _, _, _, hcut cs, hdigits cs, .none, hrest cs, fun _ => hpoint⟩

theorem splitFraction_append {point fraction : List Char} (h : IsFraction point fraction)
    (hpower : NoDigit power) (hpoint : point = [] → power.head? ≠ some '.') :
    splitFraction (point ++ power) = (fraction, power) := by
  cases h with
  | none =>
    have hhead := hpoint rfl
    rw [List.nil_append, splitFraction.eq_def]
    split
    · exact absurd rfl hhead
    · rfl
  | point hdigits =>
    exact Prod.ext (takeWhile_digits hdigits hpower) (dropWhile_digits hdigits hpower)

theorem Parts.readNumeral?_eq {whole point fraction : List Char}
    (h : Parts cs whole point fraction power) (negative : Bool) :
    readNumeral? negative cs =
      if whole ++ fraction = [] then none
      else (readExponent? power).map fun exponent =>
        nearestTo negative (Nat.ofDigitChars 10 (whole ++ fraction) 0)
          (exponent - fraction.length) := by
  have hall : ∀ c ∈ whole ++ fraction, c.isDigit = true := fun c hc =>
    (List.mem_append.1 hc).elim (h.whole c) (h.fraction.isDigit c)
  have hstop := h.fraction.noDigit h.noDigit
  simp only [readNumeral?, h.text, takeWhile_digits h.whole hstop, dropWhile_digits h.whole hstop,
    splitFraction_append h.fraction h.noDigit h.noPoint, ofDecimal_eq negative hall,
    List.isEmpty_iff]

theorem IsExponent.ends (h : IsExponent power exponent) :
    NoDigit power ∧ power.head? ≠ some '.' := by
  cases h with
  | none => exact ⟨nofun, nofun⟩
  | power hletter _ _ =>
    rcases hletter with rfl | rfl <;> exact ⟨noDigit_cons rfl, by simp⟩

theorem readNumeral?_iff : readNumeral? negative cs = some x ↔ IsDecimal negative cs x := by
  constructor
  · intro h
    obtain ⟨whole, point, fraction, power, hparts⟩ := exists_parts cs
    rw [hparts.readNumeral?_eq, Option.ite_none_left_eq_some, Option.map_eq_some_iff] at h
    obtain ⟨hdigits, exponent, hexponent, rfl⟩ := h
    rw [hparts.text]
    exact .intro hparts.whole hparts.fraction hdigits (readExponent?_iff.1 hexponent)
  · intro h
    cases h with
    | @intro whole point fraction power exponent hwhole hfraction hdigits hexponent =>
      have hparts : Parts (whole ++ (point ++ power)) whole point fraction power :=
        ⟨rfl, hwhole, hfraction, hexponent.ends.1, fun _ => hexponent.ends.2⟩
      rw [hparts.readNumeral?_eq, if_neg hdigits, readExponent?_iff.2 hexponent]
      rfl

/-- A decimal starts with a digit or the point. -/
theorem IsDecimal.exists_cons (h : IsDecimal negative cs x) :
    ∃ c rest, cs = c :: rest ∧ isNameChar c = true ∧ c.isAlpha = false := by
  cases h with
  | @intro whole _ _ _ _ hwhole hfraction hdigits _ =>
    cases whole with
    | cons c whole =>
      have hc := hwhole c List.mem_cons_self
      exact ⟨c, _, rfl, Text.isNameChar_of_isDigit hc, Text.not_isAlpha_of_isDigit hc⟩
    | nil =>
      cases hfraction with
      | none => exact absurd rfl hdigits
      | point _ => exact ⟨'.', _, rfl, rfl, rfl⟩

/-- The letters of a word, in any case. -/
theorem isAlpha_of_map {word lower : List Char} (hword : word.map Char.toLower = lower)
    (hlower : lower.all Char.isLower = true) : ∀ c ∈ word, c.isAlpha = true := by
  intro c hc
  rw [← hword, List.all_map, List.all_eq_true] at hlower
  exact Text.isAlpha_of_isLower_toLower (hlower c hc)

theorem unsigned_word {word lower : List Char} (hword : word.map Char.toLower = lower)
    (hlower : lower.all Char.isLower = true) : Unsigned word := by
  cases word with
  | nil => nofun
  | cons c word =>
    have halpha := isAlpha_of_map hword hlower c List.mem_cons_self
    exact unsigned_cons (Text.isNameChar_of_isAlpha halpha)

theorem letters_of_infinity {word : List Char} (h : word ∈ infinityWords) :
    word ≠ [] ∧ word.all Char.isLower = true := by
  simp only [infinityWords, List.mem_cons, List.not_mem_nil, or_false] at h
  rcases h with rfl | rfl <;> exact ⟨List.cons_ne_nil _ _, rfl⟩

/-- Reading takes the numerals and nothing else, and gives the number that each one is. -/
theorem read?_iff : read? cs = some x ↔ IsNumeral cs x := by
  constructor
  · intro h
    obtain ⟨sign, hsign, hcs⟩ := exists_isSign cs
    rw [read?] at h
    rw [hcs]
    generalize splitSign cs = split at h hsign
    obtain ⟨negative, rest⟩ := split
    simp only at h hsign
    split_ifs at h with hnan hinf
    · cases h
      exact .nan hsign hnan
    · cases h
      exact .infinite hsign (by simpa [infinityWords] using hinf)
    · exact .decimal hsign (readNumeral?_iff.1 h)
  · intro h
    cases h with
    | nan hsign hword =>
      have hsplit := splitSign_append hsign (unsigned_word hword rfl)
      simp only [read?, hsplit, hword, if_true]
    | infinite hsign hword =>
      have hsplit := splitSign_append hsign (unsigned_word rfl (letters_of_infinity hword).2)
      simp only [infinityWords, List.mem_cons, List.not_mem_nil, or_false] at hword
      rcases hword with hword | hword <;> simp [read?, hsplit, hword]
    | decimal hsign hdecimal =>
      obtain ⟨c, rest, hdigits, hname, halpha⟩ := hdecimal.exists_cons
      subst hdigits
      have hword (lower : List Char) (hlower : lower.all Char.isLower = true) :
          (c :: rest).map Char.toLower ≠ lower := by
        intro hmap
        rw [isAlpha_of_map hmap hlower c List.mem_cons_self] at halpha
        cases halpha
      have hnan := hword ['n', 'a', 'n'] rfl
      have hinf := hword ['i', 'n', 'f'] rfl
      have hinfinity := hword ['i', 'n', 'f', 'i', 'n', 'i', 't', 'y'] rfl
      rw [read?, splitSign_append hsign (unsigned_cons hname)]
      simp only [hnan, hinf, hinfinity, if_false, decide_false, Bool.or_self]
      exact readNumeral?_iff.2 hdecimal

/-! ## Blanks around a numeral -/

theorem IsSign.isBlank (h : IsSign sign negative) : ∀ c ∈ sign, isBlank c = false := by
  cases h with
  | none => nofun
  | plus | minus => exact List.forall_mem_singleton.2 rfl

theorem IsExponent.isBlank (h : IsExponent power exponent) : ∀ c ∈ power, isBlank c = false := by
  cases h with
  | none => nofun
  | power hletter hsign hdigits =>
    rintro c (_ | ⟨_, hc⟩)
    · rcases hletter with rfl | rfl <;> rfl
    · rcases List.mem_append.1 hc with hc | hc
      · exact hsign.isBlank c hc
      · exact Text.isBlank_of_isDigit (hdigits.2 c hc)

theorem IsDecimal.solid (h : IsDecimal negative cs x) : Text.Solid cs := by
  obtain ⟨c, rest, hcs, -⟩ := h.exists_cons
  refine ⟨hcs ▸ List.cons_ne_nil c rest, ?_⟩
  obtain ⟨hwhole, hfraction, -, hexponent⟩ := h
  intro c hc
  rcases List.mem_append.1 hc with hc | hc
  · exact Text.isBlank_of_isDigit (hwhole c hc)
  · rcases List.mem_append.1 hc with hc | hc
    · cases hfraction with
      | none => cases hc
      | point hdigits =>
        rcases List.mem_cons.1 hc with rfl | hc
        · rfl
        · exact Text.isBlank_of_isDigit (hdigits c hc)
    · exact hexponent.isBlank c hc

theorem solid_word {word lower : List Char} (hword : word.map Char.toLower = lower)
    (hne : lower ≠ []) (hlower : lower.all Char.isLower = true) : Text.Solid word := by
  constructor
  · rintro rfl
    exact hne hword.symm
  · intro c hc
    have halpha := isAlpha_of_map hword hlower c hc
    exact Text.isBlank_of_isNameChar (Text.isNameChar_of_isAlpha halpha)

theorem IsSign.solid_append (hsign : IsSign sign negative) (h : Text.Solid cs) :
    Text.Solid (sign ++ cs) where
  nonempty := List.append_ne_nil_of_right_ne_nil sign h.nonempty
  unbroken c hc := (List.mem_append.1 hc).elim (hsign.isBlank c) (h.unbroken c)

theorem IsNumeral.solid (h : IsNumeral cs x) : Text.Solid cs := by
  cases h with
  | nan hsign hword =>
    exact hsign.solid_append (solid_word hword (List.cons_ne_nil _ _) rfl)
  | infinite hsign hword =>
    obtain ⟨hne, hletters⟩ := letters_of_infinity hword
    exact hsign.solid_append (solid_word rfl hne hletters)
  | decimal hsign hdecimal => exact hsign.solid_append hdecimal.solid

end Reading

end Binary64

namespace Cell

/-- The text is a numeral with any blanks around it. -/
def IsNumeral (content : String) (x : Binary64) : Prop :=
  ∃ (before after : Written.Blanks) (numeral : List Char),
    content.toList = before.text ++ (numeral ++ after.text) ∧ Binary64.IsNumeral numeral x

theorem numeral?_iff {content : String} {x : Binary64} :
    numeral? content = some x ↔ IsNumeral content x := by
  rw [numeral?, Binary64.read?_iff]
  constructor
  · intro h
    obtain ⟨before, after, hcontent⟩ := Text.exists_trim content.toList
    exact ⟨before, after, _, hcontent, h⟩
  · rintro ⟨before, after, numeral, hcontent, h⟩
    rwa [hcontent, Text.trim_blanks before after h.solid.trimmed]

end Cell

end Tabular
