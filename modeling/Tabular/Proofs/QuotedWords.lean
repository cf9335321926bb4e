import Mathlib.Data.List.Infix
import Tabular.Proofs.ReadingConditions
/-!
# The cuts at AND

The conditions of a text are what stands between its words AND. Words end at the blanks outside
quotes, so a quoted AND is no word. The splitter reads one character at a time and keeps the word
so far; here the words are said at once, by the quote that is open in front of each character.
-/

namespace Tabular.Query

open Text (Breaks)

/-! ## Words outside quotes -/

/-- The quote that is open behind a character. A quote is closed by the same character only. -/
def quoteBehind (quote : Option Char) (c : Char) : Option Char :=
  match quote with
  | some q => if c = q then none else some q
  | none => if isQuote c then some c else none

/-- The quote that is left open at the end of a text. -/
def openQuote (cs : List Char) : Option Char := cs.foldl quoteBehind none

/-- A blank outside quotes, given with the quote that is open in front of it. -/
def separates (place : Char × Option Char) : Bool := Text.isBlank place.1 && place.2.isNone

/-- What stands between the blanks outside quotes, if `quote` is open in front of the text. -/
def pieces (quote : Option Char) (cs : List Char) : List (List Char) :=
  ((cs.zip (cs.scanl quoteBehind quote)).splitOnP separates).map (·.map Prod.fst)

/-- The maximal runs without a blank outside quotes. -/
def words (cs : List Char) : List (List Char) := (pieces none cs).filter (!·.isEmpty)

/-- One of the words of a text is `keyword`, in any case. -/
def HoldsWord (keyword : List Char) (cs : List Char) : Prop :=
  ∃ word ∈ words cs, Text.sameLetters word keyword = true

instance (keyword cs : List Char) : Decidable (HoldsWord keyword cs) :=
  inferInstanceAs (Decidable (∃ word ∈ words cs, _))

/-- The words of a text that are AND, as they are written. -/
def conjunctions (cs : List Char) : List (List Char) :=
  (words cs).filter (Text.sameLetters · ['a', 'n', 'd'])

/-- Parts with one word between each two of them. -/
def interleave : List (List Char) → List (List Char) → List Char
  | part :: parts, word :: words => part ++ (word ++ interleave parts words)
  | parts, [] => parts.flatten
  | [], words => words.flatten

section Reading
variable (quote : Option Char) (word : List Char) (c : Char) (cs : List Char)

theorem pieces_cons : pieces quote (c :: cs) =
    if separates (c, quote) then [] :: pieces (quoteBehind quote c) cs
    else (pieces (quoteBehind quote c) cs).modifyHead (c :: ·) := by
  rw [pieces, List.scanl_cons, List.zip_cons_cons, List.splitOnP_cons_eq_if_modifyHead]
  split
  · rfl
  · rw [pieces]
    cases (cs.zip (cs.scanl quoteBehind (quoteBehind quote c))).splitOnP separates <;> rfl

theorem quoteBehind_of_separates {quote : Option Char} {c : Char}
    (h : separates (c, quote) = true) : quote = none ∧ quoteBehind quote c = none := by
  obtain ⟨hblank, hnone⟩ := Bool.and_eq_true_iff.1 h
  cases quote with
  | some q => cases hnone
  | none => exact ⟨rfl, by rw [quoteBehind, Written.isQuote_of_isBlank hblank]; rfl⟩

/-- A blank outside quotes ends the word, and everything else goes on with it. -/
theorem runsFrom_cons : runsFrom quote word (c :: cs) =
    if separates (c, quote) then
      (closeWord word (.blank c :: (runsFrom none [] cs).1), (runsFrom none [] cs).2)
    else runsFrom (quoteBehind quote c) (c :: word) cs := by
  cases quote with
  | some q => simp [runsFrom, separates, quoteBehind]
  | none =>
    cases hquote : isQuote c with
    | true => simp [runsFrom, separates, quoteBehind, hquote, Written.isBlank_of_isQuote hquote]
    | false => simp [runsFrom, separates, quoteBehind, hquote]

theorem isOpen_runsFrom : (runsFrom quote word cs).2 = (cs.foldl quoteBehind quote).isSome := by
  induction cs generalizing quote word with
  | nil => rfl
  | cons c cs ih =>
    rw [runsFrom_cons, List.foldl_cons]
    split
    · rename_i h
      rw [(quoteBehind_of_separates h).2]
      exact ih none []
    · exact ih _ _

theorem flatMap_closeWord (runs : List Run) :
    (closeWord word runs).flatMap Run.text = word.reverse ++ runs.flatMap Run.text := by
  rw [closeWord]
  split
  · rename_i h
    rw [List.isEmpty_iff.1 h]
    rfl
  · rfl

/-- No character is lost. -/
theorem flatMap_runsFrom : (runsFrom quote word cs).1.flatMap Run.text = word.reverse ++ cs := by
  induction cs generalizing quote word with
  | nil => rw [runsFrom, flatMap_closeWord]; rfl
  | cons c cs ih =>
    rw [runsFrom_cons]
    split
    · rw [flatMap_closeWord, List.flatMap_cons, ih]
      rfl
    · rw [ih, List.reverse_cons, List.append_assoc]
      rfl

def Run.word? : Run → Option (List Char)
  | .blank _ => none
  | .word cs => some cs

theorem words_closeWord (runs : List Run) :
    (closeWord word runs).filterMap Run.word? =
      [word.reverse].filter (!·.isEmpty) ++ runs.filterMap Run.word? := by
  cases word with
  | nil => rfl
  | cons c word => simp [closeWord, Run.word?]

/-- The runs hold the words. The first of them goes on from the word read so far. -/
theorem words_runsFrom : (runsFrom quote word cs).1.filterMap Run.word? =
    ((pieces quote cs).modifyHead (word.reverse ++ ·)).filter (!·.isEmpty) := by
  induction cs generalizing quote word with
  | nil =>
    rw [runsFrom, words_closeWord, List.filterMap_nil, List.append_nil]
    exact congrArg (fun piece => List.filter _ [piece]) (List.append_nil _).symm
  | cons c cs ih =>
    rw [runsFrom_cons, pieces_cons]
    split
    · -- The word ends here, and the next one starts from nothing.
      rename_i h
      have hfresh : (pieces none cs).modifyHead (([] : List Char) ++ ·) = pieces none cs := by
        cases pieces none cs <;> rfl
      rw [words_closeWord, List.filterMap_cons, Run.word?, ih none [], (quoteBehind_of_separates h).2,
        List.reverse_nil, hfresh, List.modifyHead_cons, List.append_nil, ← List.filter_append]
      rfl
    · rw [ih]
      cases pieces (quoteBehind quote c) cs with
      | nil => rfl
      | cons piece rest => simp

/-- The words of a text are those of its runs. -/
theorem words_eq : words cs = (runsFrom none [] cs).1.filterMap Run.word? := by
  rw [words_runsFrom, words]
  cases pieces none cs <;> rfl

end Reading

/-! ## Runs that can be read again -/

/-- Blanks, and words that blanks keep apart. -/
inductive Tidy : List Run → Prop
  | nil : Tidy []
  | blank {c : Char} {runs : List Run} (hc : Text.isBlank c = true) (h : Tidy runs) :
    Tidy (.blank c :: runs)
  | word {cs : List Char} {runs : List Run} (hne : cs ≠ []) (hcs : Closed cs)
    (hbehind : Breaks (runs.flatMap Run.text)) (h : Tidy runs) : Tidy (.word cs :: runs)

section Tidiness
variable {quote : Option Char} {word : List Char} {runs before inside after : List Run}

/-- The word read so far, last character first, leaves `quote` open. -/
def Leaves (word : List Char) (quote : Option Char) : Prop :=
  ∀ start rest, runsFrom none start (word.reverse ++ rest) = runsFrom quote (word ++ start) rest

theorem leaves_nil : Leaves [] none := fun _ _ => rfl

theorem Leaves.cons {c : Char} (h : Leaves word quote) (hc : separates (c, quote) = false) :
    Leaves (c :: word) (quoteBehind quote c) := by
  intro start rest
  rw [List.reverse_cons, List.append_assoc, List.singleton_append, h, runsFrom_cons, hc]
  rfl

theorem Leaves.closed (h : Leaves word none) : Closed word.reverse := by
  intro start rest
  rw [h, List.reverse_reverse]

theorem tidy_closeWord (hword : Leaves word none) (hruns : Tidy runs)
    (hbehind : Breaks (runs.flatMap Run.text)) : Tidy (closeWord word runs) := by
  rw [closeWord]
  split
  · exact hruns
  · rename_i hne
    exact .word (by simpa using hne) hword.closed hbehind hruns

theorem tidy_runsFrom {cs : List Char} (hword : Leaves word quote)
    (hopen : (runsFrom quote word cs).2 = false) : Tidy (runsFrom quote word cs).1 := by
  induction cs generalizing quote word with
  | nil =>
    cases quote with
    | some q => cases hopen
    | none => exact tidy_closeWord hword .nil Text.breaks_nil
  | cons c cs ih =>
    rw [runsFrom_cons] at hopen ⊢
    cases hc : separates (c, quote) with
    | true =>
      -- The word is closed, and the blank keeps it apart from what follows.
      rw [hc, if_pos rfl] at hopen
      rw [if_pos rfl]
      have hblank : Text.isBlank c = true := (Bool.and_eq_true_iff.1 hc).1
      have hnone : quote = none := (quoteBehind_of_separates hc).1
      subst hnone
      refine tidy_closeWord hword (.blank hblank (ih leaves_nil hopen)) fun d hd => ?_
      rwa [← Option.mem_some_iff.1 hd]
    | false =>
      rw [hc] at hopen
      exact ih (hword.cons hc) hopen

theorem Tidy.of_append_right (h : Tidy (before ++ inside)) : Tidy inside := by
  induction before with
  | nil => exact h
  | cons run before ih => cases h <;> exact ih ‹_›

theorem Tidy.of_append_left (h : Tidy (inside ++ after)) : Tidy inside := by
  induction inside with
  | nil => exact .nil
  | cons run inside ih =>
    cases h with
    | blank hc h => exact .blank hc (ih h)
    | word hne hcs hbehind h =>
      have hbehind : Breaks ((inside ++ after).flatMap Run.text) := hbehind
      rw [List.flatMap_append] at hbehind
      exact .word hne hcs hbehind.of_append (ih h)

theorem Tidy.within (hruns : Tidy runs) (h : inside <:+: runs) : Tidy inside := by
  obtain ⟨before, after, rfl⟩ := h
  exact hruns.of_append_left.of_append_right

/-- Tidy runs are what is read from their text. -/
theorem runsFrom_tidy (h : Tidy runs) : runsFrom none [] (runs.flatMap Run.text) = (runs, false) := by
  induction h with
  | nil => rfl
  | blank hc h ih =>
    rename_i c runs
    have hseparates : separates (c, none) = true := by rw [separates, hc]; rfl
    rw [List.flatMap_cons, Run.text, List.singleton_append, runsFrom_cons, hseparates, ih]
    rfl
  | word hne hcs hbehind h ih =>
    rw [List.flatMap_cons, Run.text, runsFrom_word hne hcs hbehind, ih]

end Tidiness

/-! ## Parts -/

section Parts
variable {part runs : List Run}

/-- The words AND among runs, as they are written. -/
def ands (runs : List Run) : List (List Char) :=
  (runs.filterMap Run.word?).filter (Text.sameLetters · ['a', 'n', 'd'])

theorem ands_cons (run : Run) (runs : List Run) : ands (run :: runs) =
    if run.isWord ['a', 'n', 'd'] then run.text :: ands runs else ands runs := by
  cases run with
  | blank c => rfl
  | word cs => exact List.filter_cons

theorem length_partsFrom (part runs : List Run) :
    (partsFrom part runs).length = (ands runs).length + 1 := by
  induction runs generalizing part with
  | nil => rfl
  | cons run runs ih =>
    rw [partsFrom, ands_cons]
    split
    · rw [List.length_cons, List.length_cons, ih]
    · exact ih _

theorem interleave_partsFrom (part runs : List Run) :
    interleave (partsFrom part runs) (ands runs) = (part.reverse ++ runs).flatMap Run.text := by
  induction runs generalizing part with
  | nil => simp [partsFrom, ands, interleave]
  | cons run runs ih =>
    rw [partsFrom, ands_cons]
    split
    · rw [interleave, ih, List.reverse_nil, List.nil_append, List.flatMap_append, List.flatMap_cons]
    · rw [ih, List.reverse_cons, List.append_assoc]
      rfl

/-- A part is the text of consecutive runs of which none is AND. -/
theorem exists_infix_of_mem_partsFrom {cs : List Char}
    (hpart : ∀ run ∈ part, run.isWord ['a', 'n', 'd'] = false) (h : cs ∈ partsFrom part runs) :
    ∃ inside, inside <:+: part.reverse ++ runs ∧
      (∀ run ∈ inside, run.isWord ['a', 'n', 'd'] = false) ∧ inside.flatMap Run.text = cs := by
  induction runs generalizing part with
  | nil =>
    rw [partsFrom, List.mem_singleton] at h
    exact ⟨part.reverse, (List.prefix_append _ _).isInfix,
      fun run hrun => hpart run (List.mem_reverse.1 hrun), h.symm⟩
  | cons run runs ih =>
    rw [partsFrom] at h
    split at h
    · rcases List.mem_cons.1 h with rfl | h
      · exact ⟨part.reverse, (List.prefix_append _ _).isInfix,
          fun run hrun => hpart run (List.mem_reverse.1 hrun), rfl⟩
      · obtain ⟨inside, hwithin, hfree, htext⟩ := ih (List.forall_mem_nil _) h
        have hsuffix : runs <:+ part.reverse ++ run :: runs :=
          (List.suffix_cons run runs).trans (List.suffix_append _ _)
        exact ⟨inside, hwithin.trans hsuffix.isInfix, hfree, htext⟩
    · rename_i hrun
      have hlonger : ∀ run' ∈ run :: part, run'.isWord ['a', 'n', 'd'] = false :=
        List.forall_mem_cons.2 ⟨Bool.eq_false_iff.2 hrun, hpart⟩
      obtain ⟨inside, hwithin, hfree, htext⟩ := ih hlonger h
      rw [List.reverse_cons, List.append_assoc] at hwithin
      exact ⟨inside, hwithin, hfree, htext⟩

end Parts

/-! ## The splitter -/

theorem holdsWord_iff {keyword cs : List Char} :
    HoldsWord keyword cs ↔ (runsFrom none [] cs).1.any (Run.isWord keyword) = true := by
  rw [HoldsWord, words_eq, List.any_eq_true]
  constructor
  · rintro ⟨word, hword, hsame⟩
    obtain ⟨run, hrun, he⟩ := List.mem_filterMap.1 hword
    cases run with
    | blank c => cases he
    | word cs =>
      cases he
      exact ⟨_, hrun, hsame⟩
  · rintro ⟨run, hrun, hsame⟩
    cases run with
    | blank c => cases hsame
    | word cs => exact ⟨cs, List.mem_filterMap.2 ⟨_, hrun, rfl⟩, hsame⟩

/-- A part holds neither AND nor OR, since its runs are runs of the whole text. -/
theorem not_holdsWord_of_mem_partsFrom {cs part : List Char} {runs : List Run}
    (hruns : runsFrom none [] cs = (runs, false))
    (hor : runs.any (Run.isWord ['o', 'r']) = false) (h : part ∈ partsFrom [] runs) :
    ¬ HoldsWord ['a', 'n', 'd'] part ∧ ¬ HoldsWord ['o', 'r'] part := by
  have htidy : Tidy runs := by
    have htidy := tidy_runsFrom leaves_nil (congrArg Prod.snd hruns)
    rwa [hruns] at htidy
  obtain ⟨inside, hwithin, hfree, rfl⟩ := exists_infix_of_mem_partsFrom (List.forall_mem_nil _) h
  rw [holdsWord_iff, holdsWord_iff, runsFrom_tidy (htidy.within hwithin), Bool.not_eq_true,
    Bool.not_eq_true, List.any_eq_false, List.any_eq_false]
  refine ⟨fun run hrun => Bool.eq_false_iff.1 (hfree run hrun), fun run hrun => ?_⟩
  exact List.any_eq_false.1 hor run (hwithin.subset hrun)

end Tabular.Query
