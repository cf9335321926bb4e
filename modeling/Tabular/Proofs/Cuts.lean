import Mathlib.Data.List.Infix
import Mathlib.Data.List.TakeWhile
import Tabular.Proofs.Written
import Tabular.Query.Reader
/-!
# Where texts are cut

Trimming, words and clauses of a text that is put together from parts. A cut falls between two
parts if no end of the parts before it opens the clause.
-/

namespace Tabular.Text

open Written (Blanks Gap Keyword Name isNameChar)

/-! ## Characters -/

section Characters
variable {c : Char}

theorem toNat_of_isNameChar (h : isNameChar c = true) :
    (48 ≤ c.toNat ∧ c.toNat ≤ 57) ∨ (65 ≤ c.toNat ∧ c.toNat ≤ 90) ∨ (97 ≤ c.toNat ∧ c.toNat ≤ 122) ∨
      c.toNat = 95 ∨ c.toNat = 46 := by
  rw [isNameChar, Bool.or_eq_true, Bool.or_eq_true, beq_iff_eq, beq_iff_eq] at h
  rcases h with (h | rfl) | rfl
  · rcases Bool.or_eq_true_iff.1 h with h | h
    · rcases Bool.or_eq_true_iff.1 h with h | h
      · exact .inr (.inl (of_decide_eq_true h))
      · exact
          .inr (.inr (.inl ((Bool.and_eq_true_iff.1 h).imp of_decide_eq_true of_decide_eq_true)))
    · exact .inl ((Bool.and_eq_true_iff.1 h).imp of_decide_eq_true of_decide_eq_true)
  · decide
  · decide

theorem isBlank_of_isNameChar (h : isNameChar c = true) : isBlank c = false := by
  have hn := toNat_of_isNameChar h
  simp only [isBlank, Bool.or_eq_false_iff, Bool.and_eq_false_iff, decide_eq_false_iff_not,
    beq_eq_false_iff_ne]
  omega

theorem isNameChar_of_isAlpha (h : c.isAlpha = true) : isNameChar c = true := by
  simp [isNameChar, Char.isAlphanum, h]

theorem toNat_lt_of_isAlpha (h : c.isAlpha = true) : c.toNat < 128 := by
  have hn := toNat_of_isNameChar (isNameChar_of_isAlpha h)
  omega

theorem forall_ascii {P : Char → Prop} (h : ∀ n < 128, P (Char.ofNat n)) (hc : c.toNat < 128) :
    P c := by
  rw [← Char.ofNat_toNat c]
  exact h c.toNat hc

theorem isNameChar_of_isDigit (h : c.isDigit = true) : isNameChar c = true := by
  simp [isNameChar, Char.isAlphanum, h]

theorem isBlank_of_isDigit (h : c.isDigit = true) : isBlank c = false :=
  isBlank_of_isNameChar (isNameChar_of_isDigit h)

theorem not_isAlpha_of_isDigit (h : c.isDigit = true) : c.isAlpha = false := by
  have hascii : c.toNat < 128 := by
    have hle := (Char.isDigit_iff_toNat.1 h).2
    exact Nat.lt_of_le_of_lt hle (by decide)
  revert h
  exact forall_ascii (P := fun c => c.isDigit = true → c.isAlpha = false) (by decide) hascii

theorem foldCase_of_isNameChar (h : isNameChar c = true) : foldCase c = c.toLower := by
  unfold foldCase
  split
  · rename_i hc
    rw [beq_iff_eq.1 hc] at h
    exact absurd h (by decide)
  · split
    · rename_i hc
      rw [beq_iff_eq.1 hc] at h
      exact absurd h (by decide)
    · rfl

theorem map_foldCase {cs : List Char} (h : ∀ c ∈ cs, isNameChar c = true) :
    cs.map foldCase = cs.map Char.toLower := by
  apply List.map_congr_left
  intro c hc
  exact foldCase_of_isNameChar (h c hc)

theorem toLower_of_not_isAlpha (h : c.isAlpha = false) : c.toLower = c := by
  obtain ⟨hupper, -⟩ := Bool.or_eq_false_iff.1 h
  exact dif_neg (of_decide_eq_false hupper)

theorem toUpper_of_not_isAlpha (h : c.isAlpha = false) : c.toUpper = c := by
  obtain ⟨-, hlower⟩ := Bool.or_eq_false_iff.1 h
  refine dif_neg fun hc => ?_
  have htrue : c.isLower = true := Bool.and_eq_true_iff.2 (hc.imp decide_eq_true decide_eq_true)
  exact Bool.false_ne_true (hlower.symm.trans htrue)

theorem toUpper_toLower (c : Char) : c.toLower.toUpper = c.toUpper := by
  by_cases hc : c.isAlpha = true
  · refine forall_ascii (P := fun c => c.toLower.toUpper = c.toUpper) ?_ (toNat_lt_of_isAlpha hc)
    decide +kernel
  · rw [toLower_of_not_isAlpha (by simpa using hc)]

theorem toLower_toUpper (c : Char) : c.toUpper.toLower = c.toLower := by
  by_cases hc : c.isAlpha = true
  · refine forall_ascii (P := fun c => c.toUpper.toLower = c.toLower) ?_ (toNat_lt_of_isAlpha hc)
    decide +kernel
  · rw [toUpper_of_not_isAlpha (by simpa using hc)]

/-- Comparing in upper case is comparing in lower case. -/
theorem map_toUpper_eq_iff {cs lower upper : List Char} (hu : lower.map Char.toUpper = upper)
    (hl : upper.map Char.toLower = lower) :
    cs.map Char.toUpper = upper ↔ cs.map Char.toLower = lower := by
  constructor
  · rintro rfl
    rw [← hl, List.map_map]
    exact List.map_congr_left fun c _ => (toLower_toUpper c).symm
  · rintro rfl
    rw [← hu, List.map_map]
    exact List.map_congr_left fun c _ => (toUpper_toLower c).symm

theorem isAlpha_of_isLower_toLower (h : c.toLower.isLower = true) : c.isAlpha = true := by
  by_contra hc
  rw [toLower_of_not_isAlpha (by simpa using hc)] at h
  exact hc (Bool.or_eq_true_iff.2 (.inr h))

/-- A blank is no letter, and does not fold to one. -/
theorem isLower_foldCase_of_isBlank (h : isBlank c = true) : (foldCase c).isLower = false := by
  have hc : c.isAlpha = false := by
    by_contra hc
    rw [isBlank_of_isNameChar (isNameChar_of_isAlpha (by simpa using hc))] at h
    exact absurd h (by decide)
  have hfold : foldCase c = c := by
    unfold foldCase
    split
    · rename_i hs
      rw [beq_iff_eq.1 hs] at h
      exact absurd h (by decide)
    · split
      · rename_i hk
        rw [beq_iff_eq.1 hk] at h
        exact absurd h (by decide)
      · exact toLower_of_not_isAlpha hc
  rw [hfold]
  exact (Bool.or_eq_false_iff.1 hc).2

end Characters

/-! ## Ends of a text -/

/-- The text does not start with a blank. -/
def StartsBare (cs : List Char) : Prop := ∀ c ∈ cs.head?, isBlank c = false

/-- The text does not end with a blank. -/
def EndsBare (cs : List Char) : Prop := ∀ c ∈ cs.getLast?, isBlank c = false

/-- The text ends with a blank, unless it is empty. -/
def EndsBlank (cs : List Char) : Prop := ∀ c ∈ cs.getLast?, isBlank c = true

/-- The text is over or goes on with a blank. -/
def Breaks (cs : List Char) : Prop := ∀ c ∈ cs.head?, isBlank c = true

/-- The text does not go on with a letter. -/
def Unlettered (cs : List Char) : Prop := ∀ c ∈ cs.head?, (foldCase c).isLower = false

/-- Characters without a blank between them. -/
structure Solid (cs : List Char) : Prop where
  nonempty : cs ≠ []
  unbroken : ∀ c ∈ cs, isBlank c = false

/-- A text without blanks at its ends. -/
structure Trimmed (cs : List Char) : Prop where
  nonempty : cs ≠ []
  startsBare : StartsBare cs
  endsBare : EndsBare cs

section Ends
variable {c : Char} {x y w : List Char} (b b' : Blanks) (g : Gap)

theorem startsBare_cons (h : isBlank c = false) : StartsBare (c :: x) := by
  intro d hd
  cases hd
  exact h

theorem unlettered_cons (h : (foldCase c).isLower = false) : Unlettered (c :: x) := by
  intro d hd
  cases hd
  exact h

theorem solid_singleton (h : isBlank c = false) : Solid [c] :=
  ⟨List.cons_ne_nil c [], List.forall_mem_singleton.2 h⟩

theorem solid_name (hne : w ≠ []) (h : ∀ c ∈ w, isNameChar c = true) : Solid w := by
  constructor
  · exact hne
  · intro c hc
    exact isBlank_of_isNameChar (h c hc)

theorem Solid.startsBare (h : Solid w) : StartsBare w := by
  intro c hc
  exact h.unbroken c (List.mem_of_head? hc)

theorem Solid.endsBare (h : Solid w) : EndsBare w := by
  intro c hc
  exact h.unbroken c (List.mem_of_getLast? hc)

theorem Solid.trimmed (h : Solid w) : Trimmed w := ⟨h.nonempty, h.startsBare, h.endsBare⟩

theorem Solid.exists_bare (h : Solid w) : ∃ c ∈ w, isBlank c = false := by
  obtain ⟨c, hc⟩ := List.exists_mem_of_ne_nil w h.nonempty
  exact ⟨c, hc, h.unbroken c hc⟩

theorem Solid.append (hx : Solid x) (hy : Solid y) : Solid (x ++ y) where
  nonempty := List.append_ne_nil_of_left_ne_nil hx.nonempty y
  unbroken c hc := (List.mem_append.1 hc).elim (hx.unbroken c) (hy.unbroken c)

theorem StartsBare.append (h : StartsBare x) (hne : x ≠ []) : StartsBare (x ++ y) := by
  cases x with
  | nil => exact absurd rfl hne
  | cons c x => exact h

theorem StartsBare.of_append (h : StartsBare (x ++ y)) : StartsBare x := by
  intro c hc
  exact h c (List.mem_head?_append_of_mem_head? hc)

theorem Breaks.of_append (h : Breaks (x ++ y)) : Breaks x := by
  intro c hc
  exact h c (List.mem_head?_append_of_mem_head? hc)

theorem EndsBare.of_suffix (h : EndsBare x) (hy : y <:+ x) : EndsBare y := by
  obtain ⟨p, rfl⟩ := hy
  intro c hc
  exact h c (List.mem_getLast?_append_of_mem_getLast? hc)

theorem EndsBare.append (h : EndsBare y) (hne : y ≠ []) : EndsBare (x ++ y) := by
  intro c hc
  rw [List.getLast?_append, List.getLast?_eq_getLast_of_ne_nil hne, Option.some_or] at hc
  exact h c (by rwa [List.getLast?_eq_getLast_of_ne_nil hne])

/-- Only the first and the last of several parts matter. -/
theorem Trimmed.append (hx : Trimmed x) (z : List Char) (hy : Trimmed y) :
    Trimmed (x ++ (z ++ y)) where
  nonempty := List.append_ne_nil_of_left_ne_nil hx.nonempty _
  startsBare := hx.startsBare.append hx.nonempty
  endsBare := by
    rw [← List.append_assoc]
    exact hy.endsBare.append hy.nonempty

theorem endsBlank_gap : EndsBlank (x ++ g.text) := by
  intro c hc
  rw [List.getLast?_append, List.getLast?_eq_getLast_of_ne_nil g.nonempty, Option.some_or] at hc
  exact g.blank c (List.mem_of_getLast? (by rwa [List.getLast?_eq_getLast_of_ne_nil g.nonempty]))

theorem EndsBlank.of_suffix (h : EndsBlank x) (hy : y <:+ x) : EndsBlank y := by
  obtain ⟨p, rfl⟩ := hy
  intro c hc
  exact h c (List.mem_getLast?_append_of_mem_getLast? hc)

/-- A text with a blank at its end does not end with a word. -/
theorem EndsBlank.ne_append (h : EndsBlank x) (hw : Solid w) : x ≠ y ++ w := by
  rintro rfl
  have hblank := h _ (List.mem_getLast?_append_of_mem_getLast?
    (List.getLast?_eq_getLast_of_ne_nil hw.nonempty))
  rw [hw.unbroken _ (List.getLast_mem hw.nonempty)] at hblank
  cases hblank

theorem unlettered_blanks (h : Unlettered x) : Unlettered (b.text ++ x) := by
  obtain ⟨text, blank⟩ := b
  cases text with
  | nil => exact h
  | cons c cs =>
    intro d hd
    cases hd
    exact isLower_foldCase_of_isBlank (blank c List.mem_cons_self)

theorem Breaks.unlettered (h : Breaks x) : Unlettered x := by
  intro c hc
  exact isLower_foldCase_of_isBlank (h c hc)

theorem breaks_nil : Breaks [] := by
  intro c hc
  cases hc

theorem breaks_gap : Breaks (g.text ++ x) := by
  obtain ⟨⟨text, blank⟩, nonempty⟩ := g
  cases text with
  | nil => exact absurd rfl nonempty
  | cons c cs =>
    intro d hd
    cases hd
    exact blank c List.mem_cons_self

theorem trimLeft_blanks (h : StartsBare x) : trimLeft (b.text ++ x) = x := by
  rw [trimLeft, List.dropWhile_append_of_pos b.blank]
  cases x with
  | nil => rfl
  | cons c x => rw [List.dropWhile_cons_of_neg (by simp [h c rfl])]

theorem StartsBare.trimLeft (h : StartsBare x) : trimLeft x = x := trimLeft_blanks .empty h

theorem trimLeft_append_bare (h : StartsBare x) (y : List Char) :
    trimLeft (y ++ x) = trimLeft y ++ x := by
  rw [trimLeft, List.dropWhile_append]
  split
  · rename_i hblank
    rw [← trimLeft, h.trimLeft, trimLeft, List.isEmpty_iff.1 hblank, List.nil_append]
  · rfl

theorem trimRight_bare_append (h : EndsBare x) (y : List Char) :
    trimRight (x ++ y) = x ++ trimRight y := by
  -- The end of a text is the start of the text read backwards.
  have hx : StartsBare x.reverse := by
    intro c hc
    rw [List.head?_reverse] at hc
    exact h c hc
  have hleft := trimLeft_append_bare hx y.reverse
  rw [trimLeft, trimLeft] at hleft
  rw [trimRight, trimRight, List.reverse_append, hleft, List.reverse_append, List.reverse_reverse]

theorem trimRight_blanks (h : EndsBare x) : trimRight (x ++ b.text) = x := by
  have hblank : trimRight b.text = [] := by
    rw [trimRight, List.reverse_eq_nil_iff, List.dropWhile_eq_nil_iff]
    intro c hc
    exact b.blank c (List.mem_reverse.1 hc)
  rw [trimRight_bare_append h, hblank, List.append_nil]

theorem trim_blanks (h : Trimmed x) : trim (b.text ++ (x ++ b'.text)) = x := by
  rw [trim, trimLeft_blanks b (h.startsBare.append h.nonempty), trimRight_blanks b' h.endsBare]

/-- Behind a text without blanks at its ends only the end of the rest is trimmed. -/
theorem trim_append (h : Trimmed x) (y : List Char) : trim (x ++ y) = x ++ trimRight y := by
  rw [trim, (h.startsBare.append h.nonempty).trimLeft, trimRight_bare_append h.endsBare]

/-- Trimming takes nothing off a part without blanks at its ends. -/
theorem Trimmed.infix_trim (h : Trimmed x) (hin : x <:+: y) : x <:+: trim y := by
  obtain ⟨left, right, rfl⟩ := hin
  have hends : EndsBare (trimLeft left ++ x) := h.endsBare.append h.nonempty
  have htrim : trim (left ++ x ++ right) = trimLeft left ++ x ++ trimRight right := by
    rw [trim, List.append_assoc, trimLeft_append_bare (h.startsBare.append h.nonempty),
      ← List.append_assoc, trimRight_bare_append hends]
  rw [htrim]
  exact List.infix_append _ _ _

theorem trim_leading (h : Trimmed x) : trim (b.text ++ x) = x := by
  have htrim := trim_blanks b .empty h
  rwa [Blanks.text_empty, List.append_nil] at htrim

theorem Trimmed.trim (h : Trimmed x) : trim x = x := by
  have htrim := trim_leading .empty h
  rwa [Blanks.text_empty, List.nil_append] at htrim

theorem isBlank_of_trim_eq_nil (h : trim x = []) : ∀ c ∈ x, isBlank c = true := by
  rw [trim, trimRight, List.reverse_eq_nil_iff, List.dropWhile_eq_nil_iff] at h
  have hsplit : x.takeWhile isBlank ++ x.dropWhile isBlank = x := List.takeWhile_append_dropWhile
  intro c hc
  rw [← hsplit] at hc
  rcases List.mem_append.1 hc with hc | hc
  · exact List.mem_takeWhile_imp hc
  · exact h c (List.mem_reverse.2 hc)

/-- A text with a word in it is not blank. -/
theorem Solid.trim_ne_nil (hw : Solid w) (h : w ⊆ x) : trim x ≠ [] := by
  intro hnil
  obtain ⟨c, hc, hbare⟩ := hw.exists_bare
  rw [isBlank_of_trim_eq_nil hnil c (h hc)] at hbare
  cases hbare

theorem startsBare_trimLeft (x : List Char) : StartsBare (trimLeft x) := by
  intro c hc
  have hhead := List.head?_dropWhile_not isBlank x
  rw [← trimLeft, hc] at hhead
  simpa using hhead

theorem trim_blank : trim b.text = [] := by
  have hleft : trimLeft b.text = [] := List.dropWhile_eq_nil_iff.2 b.blank
  rw [trim, hleft]
  rfl

theorem exists_trimLeft (x : List Char) : ∃ b : Blanks, x = b.text ++ trimLeft x :=
  ⟨⟨x.takeWhile isBlank, fun _ hc => List.mem_takeWhile_imp hc⟩,
    List.takeWhile_append_dropWhile.symm⟩

theorem exists_trimRight (x : List Char) : ∃ b : Blanks, x = trimRight x ++ b.text := by
  obtain ⟨⟨text, blank⟩, h⟩ := exists_trimLeft x.reverse
  refine ⟨⟨text.reverse, fun c hc => blank c (List.mem_reverse.1 hc)⟩, ?_⟩
  rw [trimRight, ← List.reverse_append, ← trimLeft, ← h, List.reverse_reverse]

/-- Trimming drops blanks, and nothing else. -/
theorem exists_trim (x : List Char) : ∃ b b' : Blanks, x = b.text ++ (trim x ++ b'.text) := by
  obtain ⟨b, hb⟩ := exists_trimLeft x
  obtain ⟨b', hb'⟩ := exists_trimRight (trimLeft x)
  exact ⟨b, b', by rwa [trim, ← hb']⟩

theorem endsBare_trimRight (x : List Char) : EndsBare (trimRight x) := by
  intro c hc
  rw [trimRight, List.getLast?_reverse] at hc
  exact startsBare_trimLeft x.reverse c hc

/-- What is left of a text that is not blank has no blanks at its ends. -/
theorem trimmed_trim (h : trim x ≠ []) : Trimmed (trim x) where
  nonempty := h
  startsBare := by
    obtain ⟨b, hb⟩ := exists_trimRight (trimLeft x)
    have hstarts := startsBare_trimLeft x
    rw [hb] at hstarts
    exact hstarts.of_append
  endsBare := endsBare_trimRight (trimLeft x)

theorem separated_trimmed {σ α : Type} {separator : σ → List Char} {item : α → List Char}
    (h : ∀ a, Trimmed (item a)) (l : Written.Separated σ α) : Trimmed (l.text separator item) := by
  obtain ⟨first, rest⟩ := l
  induction rest generalizing first with
  | nil =>
    rw [Written.Separated.text, List.flatMap_nil, List.append_nil]
    exact h first
  | cons p rest ih =>
    rw [Written.Separated.text_cons]
    exact (h first).append _ (ih p.2)

/-- A place between a blank and something else lies right behind the first gap, or behind the word
that follows it. -/
theorem gap_boundary {t : List Char} (hw : Solid w) (hx : EndsBlank x) (hne : x ≠ [])
    (ht : StartsBare t) (h : g.text ++ (w ++ y) = x ++ t) :
    (x = g.text ∧ t = w ++ y) ∨
      ∃ z, z ≠ [] ∧ EndsBlank z ∧ x = g.text ++ (w ++ z) ∧ y = z ++ t := by
  rcases List.append_eq_append_iff.1 h with ⟨a, rfl, ha⟩ | ⟨a, hg, rfl⟩
  · rcases List.append_eq_append_iff.1 ha with ⟨z, rfl, rfl⟩ | ⟨b, rfl, rfl⟩
    · have hz : z ≠ [] := by
        rintro rfl
        rw [List.append_nil] at hx
        exact hx.ne_append hw rfl
      refine .inr ⟨z, hz, hx.of_suffix ?_, rfl, rfl⟩
      rw [← List.append_assoc]
      exact List.suffix_append _ z
    · -- The place would be in the word.
      have ha : a = [] := by
        by_contra hane
        exact hx.ne_append ⟨hane, fun c hc => hw.unbroken c (List.mem_append_left b hc)⟩ rfl
      subst ha
      exact .inl ⟨List.append_nil _, by rw [List.nil_append]⟩
  · have ha : a = [] := by
      cases a with
      | nil => rfl
      | cons c a =>
        have hc := g.blank c (by rw [hg]; simp)
        rw [ht c rfl] at hc
        cases hc
    subst ha
    rw [List.append_nil] at hg
    exact .inl ⟨hg.symm, rfl⟩

/-- A place in front of a blank is not in a word. -/
theorem word_boundary {t : List Char} (hw : Solid w) (ht : Breaks t) (h : w ++ y = x ++ t) :
    ∃ z, x = w ++ z ∧ y = z ++ t := by
  rcases List.append_eq_append_iff.1 h with ⟨z, rfl, rfl⟩ | ⟨a, rfl, rfl⟩
  · exact ⟨z, rfl, rfl⟩
  · cases a with
    | nil => exact ⟨[], by simp, rfl⟩
    | cons c a =>
      have hc := ht c rfl
      rw [hw.unbroken c (by simp)] at hc
      cases hc

/-- A place between something else and a blank is not in the gap before the word either. -/
theorem gap_word_boundary {t : List Char} (hw : Solid w) (hx : EndsBare x) (hne : x ≠ [])
    (ht : Breaks t) (h : g.text ++ (w ++ y) = x ++ t) :
    ∃ z, x = g.text ++ (w ++ z) ∧ y = z ++ t := by
  rcases List.append_eq_append_iff.1 h with ⟨a, rfl, ha⟩ | ⟨a, hg, -⟩
  · obtain ⟨z, rfl, hz⟩ := word_boundary hw ht ha
    exact ⟨z, rfl, hz⟩
  · -- The text in front of the place would end in the gap.
    have hbare := hx _ (List.getLast?_eq_getLast_of_ne_nil hne)
    rw [g.blank _ (by rw [hg]; exact List.mem_append_left a (List.getLast_mem hne))] at hbare
    cases hbare

end Ends

/-! ## Words -/

section Words
variable {x w : List Char} (b : Blanks) (g : Gap)

theorem afterBlanks?_append (x : List Char) : afterBlanks? (g.text ++ x) = some (trimLeft x) := by
  obtain ⟨⟨text, blank⟩, nonempty⟩ := g
  cases text with
  | nil => exact absurd rfl nonempty
  | cons c cs =>
    rw [List.cons_append, afterBlanks?, if_pos (blank c List.mem_cons_self), trimLeft,
      List.dropWhile_append_of_pos fun d hd => blank d (List.mem_cons_of_mem c hd), ← trimLeft]

theorem afterBlanks?_gap (h : StartsBare x) : afterBlanks? (g.text ++ x) = some x := by
  rw [afterBlanks?_append, h.trimLeft]

theorem afterBlanks?_bare (h : StartsBare x) : afterBlanks? x = none := by
  cases x with
  | nil => rfl
  | cons c x => rw [afterBlanks?, if_neg (by simp [h c rfl])]

theorem takeWhile_solid (hw : Solid w) (hx : Breaks x) : (w ++ x).takeWhile (!isBlank ·) = w := by
  rw [List.takeWhile_append_of_pos fun c hc => by simp [hw.unbroken c hc]]
  cases x with
  | nil => rw [List.takeWhile_nil, List.append_nil]
  | cons c x => rw [List.takeWhile_cons_of_neg (by simp [hx c rfl]), List.append_nil]

theorem dropWhile_solid (hw : Solid w) (hx : Breaks x) : (w ++ x).dropWhile (!isBlank ·) = x := by
  rw [List.dropWhile_append_of_pos fun c hc => by simp [hw.unbroken c hc]]
  cases x with
  | nil => rfl
  | cons c x => rw [List.dropWhile_cons_of_neg (by simp [hx c rfl])]

/-- Two texts that are the same start with the same word. -/
theorem eq_of_solid {v y : List Char} (hw : Solid w) (hv : Solid v) (hx : Breaks x) (hy : Breaks y)
    (h : w ++ x = v ++ y) : w = v := by
  rw [← takeWhile_solid hw hx, h, takeWhile_solid hv hy]

theorem firstWord?_solid (hw : Solid w) (h : StartsBare x) :
    firstWord? (w ++ (g.text ++ x)) = some (w, x) := by
  rw [firstWord?, takeWhile_solid hw (breaks_gap g), dropWhile_solid hw (breaks_gap g),
    afterBlanks?_gap g h, if_neg (by simpa using hw.nonempty), Option.map_some]

theorem words_blanks : words (b.text ++ x) = words x := by
  obtain ⟨text, blank⟩ := b
  induction text with
  | nil => rfl
  | cons c cs ih =>
    have hc : isBlank c = true := blank c List.mem_cons_self
    have ih := ih fun d hd => blank d (List.mem_cons_of_mem c hd)
    simp only [words] at ih ⊢
    rw [List.cons_append, List.splitOnP_cons_eq_if_modifyHead, if_pos hc,
      List.filter_cons_of_neg (by simp), ih]

theorem words_solid (hw : Solid w) : words w = [w] := by
  rw [words, List.splitOnP_eq_singleton hw.unbroken,
    List.filter_cons_of_pos (by simpa using hw.nonempty), List.filter_nil]

theorem words_append (hw : Solid w) : words (w ++ (g.text ++ x)) = w :: words x := by
  obtain ⟨⟨text, blank⟩, nonempty⟩ := g
  cases text with
  | nil => exact absurd rfl nonempty
  | cons c cs =>
    -- The first blank ends the word. The others stand before the next one.
    have hrest : words (cs ++ x) = words x :=
      words_blanks ⟨cs, fun d hd => blank d (List.mem_cons_of_mem c hd)⟩
    have hc : isBlank c = true := blank c List.mem_cons_self
    rw [← hrest, words, words, List.cons_append,
      List.splitOnP_append_cons_of_forall_mem hw.unbroken c hc,
      List.filter_cons_of_pos (by simpa using hw.nonempty)]

/-- A word that ends where it should is the first one. -/
theorem words_breaks (hw : Solid w) (hx : Breaks x) : words (w ++ x) = w :: words x := by
  cases x with
  | nil =>
    rw [List.append_nil, words_solid hw]
    rfl
  | cons c x =>
    have hc : isBlank c = true := hx c rfl
    have hblank : words (c :: x) = words x :=
      words_blanks ⟨[c], List.forall_mem_singleton.2 hc⟩
    rw [hblank]
    exact words_append (.single c hc) hw

end Words

/-! ## Keywords -/

/-- The letters of a keyword in lower case. -/
class Lowercase (letters : String) : Prop where
  lower : letters.toList.all Char.isLower = true
  nonempty : letters.toList ≠ []

instance : Lowercase "select" := ⟨by decide, by decide⟩

instance : Lowercase "from" := ⟨by decide, by decide⟩

instance : Lowercase "where" := ⟨by decide, by decide⟩

instance : Lowercase "group" := ⟨by decide, by decide⟩

instance : Lowercase "by" := ⟨by decide, by decide⟩

instance : Lowercase "join" := ⟨by decide, by decide⟩

instance : Lowercase "on" := ⟨by decide, by decide⟩

instance : Lowercase "and" := ⟨by decide, by decide⟩

instance (kind : JoinKind) : Lowercase (Written.kindLetters kind) where
  lower := by cases kind <;> decide
  nonempty := by cases kind <;> decide

section Keywords
variable {letters : String} [Lowercase letters] (k : Keyword letters) {keyword w x : List Char}

theorem keyword_isAlpha : ∀ c ∈ k.text, c.isAlpha = true := by
  intro c hc
  have hmem : c.toLower ∈ letters.toList := by
    rw [← k.spells]
    exact List.mem_map_of_mem hc
  exact isAlpha_of_isLower_toLower (List.all_eq_true.1 Lowercase.lower _ hmem)

theorem keyword_isNameChar : ∀ c ∈ k.text, isNameChar c = true := by
  intro c hc
  exact isNameChar_of_isAlpha (keyword_isAlpha k c hc)

theorem keyword_solid : Solid k.text := by
  have hne : letters.toList ≠ [] := Lowercase.nonempty
  apply solid_name
  · intro hk
    apply hne
    rw [← k.spells, hk, List.map_nil]
  · exact keyword_isNameChar k

theorem keyword_foldCase : k.text.map foldCase = letters.toList := by
  rw [map_foldCase (keyword_isNameChar k), k.spells]

end Keywords

/-- A word that folds to letters holds no blank. -/
theorem solid_of_foldCase {w letters : List Char} (h : w.map foldCase = letters)
    (hlower : letters.all Char.isLower = true) (hne : letters ≠ []) : Solid w where
  nonempty := by
    rintro rfl
    exact hne h.symm
  unbroken c hc := by
    by_contra hblank
    have hc' : (foldCase c).isLower = true :=
      List.all_eq_true.1 hlower _ (h ▸ List.mem_map_of_mem hc)
    rw [isLower_foldCase_of_isBlank (by simpa using hblank)] at hc'
    cases hc'

section AfterKeyword
variable {keyword w x : List Char}

theorem afterKeyword?_append (h : w.map foldCase = keyword) :
    afterKeyword? keyword (w ++ x) = some x := by
  have hlength : keyword.length = w.length := by rw [← h, List.length_map]
  rw [afterKeyword?, hlength, List.take_left, List.drop_left, h, if_pos (beq_self_eq_true _)]

/-- After a word that is not the keyword, no keyword ends where a word ends. -/
theorem startsBare_of_afterKeyword? (hk : keyword.all Char.isLower = true)
    (hw : ∀ c ∈ w, isBlank c = false)
    (hx : Unlettered x) (hne : w.map foldCase ≠ keyword) {rest : List Char}
    (h : afterKeyword? keyword (w ++ x) = some rest) : rest ≠ [] ∧ StartsBare rest := by
  unfold afterKeyword? at h
  split at h
  · rename_i heq
    rw [beq_iff_eq] at heq
    obtain rfl := Option.some.inj h
    rcases Nat.lt_trichotomy keyword.length w.length with hlt | hlen | hlt
    · -- The keyword ends inside the word.
      have hrest : w.drop keyword.length ≠ [] := by simpa using hlt
      rw [List.drop_append_of_le_length hlt.le]
      have hbare : StartsBare (w.drop keyword.length) := fun c hc =>
        hw c (List.mem_of_mem_drop (List.mem_of_head? hc))
      exact ⟨List.append_ne_nil_of_left_ne_nil hrest x, hbare.append hrest⟩
    · rw [hlen, List.take_left] at heq
      exact absurd heq hne
    · -- The keyword would have to go on with the character after the word.
      exfalso
      rw [List.take_append, List.take_of_length_le hlt.le, List.map_append] at heq
      cases x with
      | nil =>
        rw [List.take_nil, List.map_nil, List.append_nil] at heq
        exact hne heq
      | cons c x =>
        obtain ⟨n, hn⟩ : ∃ n, keyword.length - w.length = n + 1 :=
          ⟨_, (Nat.succ_pred (by omega)).symm⟩
        rw [hn, List.take_succ_cons, List.map_cons] at heq
        have hc : (foldCase c).isLower = true := List.all_eq_true.1 hk _ (by rw [← heq]; simp)
        rw [hx c rfl] at hc
        exact absurd hc (by decide)
  · exact absurd h (by simp)

end AfterKeyword

/-! ## Clauses -/

section Clauses
variable {keyword w x : List Char} {keywords : List (List Char)} (g : Gap)

theorem afterClause?_bare (h : StartsBare x) (hne : x ≠ []) : afterClause? keywords x = none := by
  cases keywords with
  | nil =>
    cases x with
    | nil => exact absurd rfl hne
    | cons c x => exact afterBlanks?_bare h
  | cons keyword keywords => rw [afterClause?, afterBlanks?_bare h, Option.bind_none]

theorem afterClause?_blanks (x : List Char) :
    afterClause? [] (g.text ++ x) = some (trimLeft x) := by
  have hblanks := afterBlanks?_append g x
  cases hg : g.text ++ x with
  | nil => exact absurd (List.append_eq_nil_iff.1 hg).1 g.nonempty
  | cons c cs => rwa [hg] at hblanks

theorem afterClause?_gap (h : StartsBare x) : afterClause? [] (g.text ++ x) = some x := by
  rw [afterClause?_blanks, ← afterBlanks?_append g, afterBlanks?_gap g h]

theorem afterClause?_append (hw : Solid w) (h : w.map foldCase = keyword) :
    afterClause? (keyword :: keywords) (g.text ++ (w ++ x)) = afterClause? keywords x := by
  rw [afterClause?, afterBlanks?_gap g (hw.startsBare.append hw.nonempty), Option.bind_some,
    afterKeyword?_append h, Option.bind_some]

theorem afterClause?_word (hk : keyword.all Char.isLower = true) (hw : Solid w) (hx : Unlettered x)
    (hne : w.map foldCase ≠ keyword) :
    afterClause? (keyword :: keywords) (g.text ++ (w ++ x)) = none := by
  rw [afterClause?, afterBlanks?_gap g (hw.startsBare.append hw.nonempty), Option.bind_some]
  cases h : afterKeyword? keyword (w ++ x) with
  | none => rfl
  | some rest =>
    obtain ⟨hrest, hbare⟩ := startsBare_of_afterKeyword? hk hw.unbroken hx hne h
    exact afterClause?_bare hbare hrest

theorem afterKeyword?_unlettered (hk : keyword.all Char.isLower = true) (hne : keyword ≠ [])
    (hx : Unlettered x) :
    afterKeyword? keyword x = none := by
  cases x with
  | nil => rw [afterKeyword?, List.take_nil, if_neg (by simpa using hne.symm)]
  | cons c x =>
    cases keyword with
    | nil => exact absurd rfl hne
    | cons d keyword =>
      refine if_neg fun h => ?_
      rw [beq_iff_eq, List.length_cons, List.take_succ_cons, List.map_cons] at h
      have hd : d.isLower = true := List.all_eq_true.1 hk d List.mem_cons_self
      rw [← (List.cons.inj h).1, hx c rfl] at hd
      exact absurd hd (by decide)

theorem afterClause?_unlettered (hk : keyword.all Char.isLower = true) (hne : keyword ≠ [])
    (hs : StartsBare x)
    (hx : Unlettered x) : afterClause? (keyword :: keywords) (g.text ++ x) = none := by
  rw [afterClause?, afterBlanks?_gap g hs, Option.bind_some, afterKeyword?_unlettered hk hne hx,
    Option.bind_none]

theorem afterFrom?_bare (h : StartsBare x) : Query.afterFrom? x = none := by
  rw [Query.afterFrom?, afterBlanks?_bare h]
  rfl

theorem afterFrom?_word (hw : Solid w) (hx : Unlettered x)
    (hne : w.map foldCase ≠ ['f', 'r', 'o', 'm']) :
    Query.afterFrom? (g.text ++ (w ++ x)) = none := by
  rw [Query.afterFrom?, afterBlanks?_gap g (hw.startsBare.append hw.nonempty)]
  cases h : afterKeyword? ['f', 'r', 'o', 'm'] (w ++ x) with
  | none => simp [h]
  | some rest =>
    obtain ⟨-, hbare⟩ := startsBare_of_afterKeyword? (by decide) hw.unbroken hx hne h
    simp [h, afterBlanks?_bare hbare]

theorem afterFrom?_unlettered (hs : StartsBare x) (hx : Unlettered x) :
    Query.afterFrom? (g.text ++ x) = none := by
  have hnone : afterKeyword? ['f', 'r', 'o', 'm'] x = none :=
    afterKeyword?_unlettered (by decide) (by decide) hx
  rw [Query.afterFrom?, afterBlanks?_gap g hs]
  simp [hnone]

end Clauses

/-! ## Cuts -/

/-- No clause opens in `before`, with `after` behind it. -/
def Unopened (opening? : List Char → Option (List Char)) (before after : List Char) : Prop :=
  ∀ cs, cs ≠ [] → cs <:+ before → opening? (cs ++ after) = none

section Cuts
variable {opening? : List Char → Option (List Char)} {x y rest : List Char}

theorem unopened_nil : Unopened opening? [] y := by
  intro cs hne hcs
  exact absurd (List.suffix_nil.1 hcs) hne

theorem Unopened.cons {c : Char} (hc : opening? (c :: (x ++ y)) = none)
    (h : Unopened opening? x y) : Unopened opening? (c :: x) y := by
  intro cs hne hcs
  rcases List.suffix_cons_iff.1 hcs with rfl | hcs
  · exact hc
  · exact h cs hne hcs

theorem Unopened.tail {c : Char} (h : Unopened opening? (c :: x) y) : Unopened opening? x y := by
  intro cs hne hcs
  exact h cs hne (hcs.trans (List.suffix_cons c x))

theorem cutAt?_append (h : Unopened opening? x y) :
    cutAt? opening? (x ++ y) = (cutAt? opening? y).map fun (before, after) =>
      (x ++ before, after) := by
  induction x with
  | nil => rw [List.nil_append]; cases cutAt? opening? y <;> rfl
  | cons c x ih =>
    have hc : opening? (c :: (x ++ y)) = none := h (c :: x) (by simp) List.suffix_rfl
    rw [List.cons_append, cutAt?, hc, ih h.tail, Option.map_map]
    rfl

/-- The cut falls where the first clause opens. -/
theorem cutAt?_opening (h : Unopened opening? x y) (hy : opening? y = some rest) :
    cutAt? opening? (x ++ y) = some (x, rest) := by
  have hcut : cutAt? opening? y = some ([], rest) := by
    cases y with
    | nil => rw [cutAt?, hy, Option.map_some]
    | cons c y => rw [cutAt?, hy]
  rw [cutAt?_append h, hcut]
  simp only [Option.map_some, List.append_nil]

/-- A cut falls where a clause opens, and no clause opens before it. -/
theorem exists_opening_of_cutAt? (h : cutAt? opening? x = some (y, rest)) :
    ∃ z, x = y ++ z ∧ opening? z = some rest ∧ Unopened opening? y z := by
  induction x generalizing y with
  | nil =>
    obtain ⟨after, hafter, hpair⟩ := Option.map_eq_some_iff.1 h
    cases hpair
    exact ⟨[], rfl, hafter, unopened_nil⟩
  | cons c cs ih =>
    rw [cutAt?] at h
    cases hopen : opening? (c :: cs) with
    | some after =>
      rw [hopen] at h
      cases h
      exact ⟨c :: cs, rfl, hopen, unopened_nil⟩
    | none =>
      rw [hopen] at h
      obtain ⟨⟨before, after⟩, hcut, hpair⟩ := Option.map_eq_some_iff.1 h
      cases hpair
      obtain ⟨z, rfl, hz, hbefore⟩ := ih hcut
      exact ⟨z, rfl, hz, .cons hopen hbefore⟩

/-- There is no cut if no clause opens. -/
theorem cutAt?_eq_none_iff : cutAt? opening? x = none ↔ ∀ y, y <:+ x → opening? y = none := by
  induction x with
  | nil => simp [cutAt?]
  | cons c cs ih =>
    simp only [List.suffix_cons_iff, forall_eq_or_imp, ← ih, cutAt?]
    cases opening? (c :: cs) <;> simp

theorem cutAt?_unopened (h : Unopened opening? x []) (hend : opening? [] = none) :
    cutAt? opening? x = none := by
  have hcut := cutAt?_append h
  rwa [List.append_nil, cutAt?, hend, Option.map_none, Option.map_none] at hcut

theorem Unopened.append (hx : Unopened opening? x (y ++ rest)) (hy : Unopened opening? y rest) :
    Unopened opening? (x ++ y) rest := by
  rintro cs hne ⟨p, hp⟩
  rcases List.append_eq_append_iff.1 hp with ⟨t, rfl, rfl⟩ | ⟨t, rfl, rfl⟩
  · -- The rest starts in `x`, or with `y`.
    rcases eq_or_ne t [] with rfl | ht
    · exact hy y hne List.suffix_rfl
    · rw [List.append_assoc]
      exact hx t ht (List.suffix_append p t)
  · exact hy cs hne (List.suffix_append t cs)

/-- A clause opens in blanks if it opens behind one of them. -/
theorem unopened_blanks (b : Blanks) (h : ∀ g : Gap, opening? (g.text ++ y) = none) :
    Unopened opening? b.text y := by
  intro cs hne hcs
  have hblank : ∀ c ∈ cs, isBlank c = true := by
    intro c hc
    exact b.blank c (hcs.subset hc)
  exact h ⟨⟨cs, hblank⟩, hne⟩

/-- A clause opens in no item and no separator of a list, so not in the list. `P` is what the items
need of the text behind them. -/
theorem unopened_separated {σ α : Type} {separator : σ → List Char} {item : α → List Char}
    {P : List Char → Prop} (hitem : ∀ a x, P x → Unopened opening? (item a) x)
    (hseparator : ∀ s a x, P x → Unopened opening? (separator s) (item a ++ x))
    (hP : ∀ s a x, P x → P (separator s ++ (item a ++ x))) (l : Written.Separated σ α) (hx : P x) :
    Unopened opening? (l.text separator item) x := by
  have hrest : ∀ rest : List (σ × α),
      P ((rest.flatMap fun p => separator p.1 ++ item p.2) ++ x) ∧
        Unopened opening? (rest.flatMap fun p => separator p.1 ++ item p.2) x := by
    intro rest
    induction rest with
    | nil => exact ⟨hx, unopened_nil⟩
    | cons p rest ih =>
      rw [List.flatMap_cons, List.append_assoc, List.append_assoc]
      have hpair := (hseparator p.1 p.2 _ ih.1).append (hitem p.2 _ ih.1)
      exact ⟨hP p.1 p.2 _ ih.1, hpair.append ih.2⟩
  exact (hitem l.first _ (hrest l.rest).1).append (hrest l.rest).2

end Cuts

/-! ## Openings -/

/-- A clause that opens with blanks and `keyword`. -/
structure Opens (keyword : List Char) (opening? : List Char → Option (List Char)) : Prop where
  bare : ∀ {x}, x ≠ [] → StartsBare x → opening? x = none
  word : ∀ (g : Gap) {w x}, Solid w → Unlettered x → w.map foldCase ≠ keyword →
    opening? (g.text ++ (w ++ x)) = none
  other : ∀ (g : Gap) {x}, StartsBare x → Unlettered x → opening? (g.text ++ x) = none

theorem opens_from : Opens ['f', 'r', 'o', 'm'] Query.afterFrom? where
  bare _ h := afterFrom?_bare h
  word g := afterFrom?_word g
  other g := afterFrom?_unlettered g

theorem opens_clause {keyword : List Char} {keywords : List (List Char)}
    (hk : keyword.all Char.isLower = true)
    (hne : keyword ≠ []) : Opens keyword (afterClause? (keyword :: keywords)) where
  bare hx h := afterClause?_bare h hx
  word g := afterClause?_word g hk
  other g := afterClause?_unlettered g hk hne

section Openings
variable {keyword w x : List Char} {opening? : List Char → Option (List Char)}
    (h : Opens keyword opening?)
include h

/-- No clause opens in a word. -/
theorem Opens.inWord (hw : ∀ c ∈ w, isBlank c = false) : Unopened opening? w x := by
  intro cs hne hcs
  have hbare : StartsBare cs := by
    intro c hc
    exact hw c (hcs.subset (List.mem_of_head? hc))
  exact h.bare (List.append_ne_nil_of_left_ne_nil hne x) (hbare.append hne)

theorem Opens.inChar {c : Char} (hc : isBlank c = false) : Unopened opening? [c] x :=
  h.inWord (List.forall_mem_singleton.2 hc)

/-- Blanks do not open a clause if the word behind them is another one. -/
theorem Opens.beforeWord (b : Blanks) (hw : Solid w) (hx : Unlettered x)
    (hne : w.map foldCase ≠ keyword) :
    Unopened opening? b.text (w ++ x) := by
  apply unopened_blanks
  intro g
  exact h.word g hw hx hne

theorem Opens.beforeOther (b : Blanks) {c : Char} (hblank : isBlank c = false)
    (hc : (foldCase c).isLower = false) :
    Unopened opening? b.text (c :: x) := by
  apply unopened_blanks
  intro g
  exact h.other g (startsBare_cons hblank) (unlettered_cons hc)

end Openings

end Tabular.Text
