import Tabular.Proofs.ReadingLists
/-!
# Reading the conditions of a written query

The words AND that were written are the ones that cut: what stands in quotes is part of a word. Each
condition is read as the field, the operator and the value that were written.
-/

namespace Tabular.Written

open Text (Solid StartsBare EndsBare Trimmed)

/-! ## Characters of fields and values -/

section Characters
variable {c : Char} {cs : List Char}

theorem Field.chars (f : Field) (h : c ∈ f.text) :
    isNameChar c = true ∨ Text.isBlank c = true ∨ c ∈ ['(', ')', '*'] := by
  cases f with
  | plain n => exact .inl (n.plain c h)
  | call call =>
    rw [text, Call.text_eq] at h
    simp only [List.mem_append, List.mem_cons, List.not_mem_nil, or_false] at h
    rcases h with h | h | rfl | h | h | h | rfl
    · exact .inl (call.function.plain c h)
    · exact .inr (.inl (call.before.blank c h))
    · decide
    · exact .inr (.inl (call.inside.blank c h))
    · cases ha : call.argument with
      | all => rw [ha] at h; cases List.mem_singleton.1 h; decide
      | name column => rw [ha] at h; exact .inl (column.plain c h)
    · exact .inr (.inl (call.after.blank c h))
    · decide

theorem isQuote_iff : Query.isQuote c = true ↔ c = '\'' ∨ c = '"' := by simp [Query.isQuote]

theorem isOperatorChar_iff :
    Query.isOperatorChar c = true ↔ ((c = '<' ∨ c = '>') ∨ c = '=') ∨ c = '!' := by
  simp [Query.isOperatorChar]

theorem Field.unquoted (f : Field) : ∀ c ∈ f.text, Query.isQuote c = false := by
  intro c hc
  by_contra h
  rw [Bool.not_eq_false] at h
  have hchars := f.chars hc
  rcases isQuote_iff.1 h with rfl | rfl <;> exact absurd hchars (by decide)

theorem Field.notOperator (f : Field) : ∀ c ∈ f.text, Query.isOperatorChar c = false := by
  intro c hc
  by_contra h
  rw [Bool.not_eq_false] at h
  have hchars := f.chars hc
  rcases isOperatorChar_iff.1 h with ((rfl | rfl) | rfl) | rfl <;> exact absurd hchars (by decide)

theorem isBlank_of_isQuote (h : Query.isQuote c = true) : Text.isBlank c = false := by
  rcases isQuote_iff.1 h with rfl | rfl <;> decide

theorem isAlpha_of_isQuote (h : Query.isQuote c = true) : c.isAlpha = false := by
  rcases isQuote_iff.1 h with rfl | rfl <;> decide

theorem isQuote_of_isBlank (h : Text.isBlank c = true) : Query.isQuote c = false := by
  by_contra hq
  rw [isBlank_of_isQuote (by simpa using hq)] at h
  cases h

theorem isQuote_of_isAlpha (h : c.isAlpha = true) : Query.isQuote c = false := by
  by_contra hq
  rw [isAlpha_of_isQuote (by simpa using hq)] at h
  cases h

theorem isBlank_of_isOperatorChar (h : Query.isOperatorChar c = true) : Text.isBlank c = false := by
  rcases isOperatorChar_iff.1 h with ((rfl | rfl) | rfl) | rfl <;> decide

theorem isQuote_of_isOperatorChar (h : Query.isOperatorChar c = true) :
    Query.isQuote c = false := by
  rcases isOperatorChar_iff.1 h with ((rfl | rfl) | rfl) | rfl <;> decide

theorem isAlpha_of_isOperatorChar (h : Query.isOperatorChar c = true) : c.isAlpha = false := by
  rcases isOperatorChar_iff.1 h with ((rfl | rfl) | rfl) | rfl <;> decide

theorem isOperatorChar_of_isBlank (h : Text.isBlank c = true) : Query.isOperatorChar c = false := by
  by_contra ho
  rw [isBlank_of_isOperatorChar (by simpa using ho)] at h
  cases h

theorem isOperatorChar_of_isAlpha (h : c.isAlpha = true) : Query.isOperatorChar c = false := by
  by_contra ho
  rw [isAlpha_of_isOperatorChar (by simpa using ho)] at h
  cases h

theorem isLower_foldCase_of_isQuote (h : Query.isQuote c = true) :
    (Text.foldCase c).isLower = false := by
  rcases isQuote_iff.1 h with rfl | rfl <;> decide

theorem isLower_foldCase_of_isOperatorChar (h : Query.isOperatorChar c = true) :
    (Text.foldCase c).isLower = false := by
  rcases isOperatorChar_iff.1 h with ((rfl | rfl) | rfl) | rfl <;> decide

/-- A word with another character than letters is neither AND nor OR. -/
theorem not_conjunction (hc : c ∈ cs) (h : c.isAlpha = false) : ¬ IsOneOf ["and", "or"] cs := by
  intro hone
  have hall : ∀ word ∈ (["and", "or"].map String.toList), word.all Char.isLower = true := by decide
  have hlower := List.all_eq_true.1 (hall _ hone) c.toLower (List.mem_map_of_mem hc)
  rw [Text.isAlpha_of_isLower_toLower hlower] at h
  exact absurd h (by decide)

theorem not_conjunction_of_not_reserved (h : ¬ IsOneOf reserved cs) :
    ¬ IsOneOf ["and", "or"] cs := by
  intro hone
  have hsubset : ["and", "or"].map String.toList ⊆ reserved.map String.toList := by decide
  exact h (hsubset hone)

theorem Operand.not_conjunction (o : Operand) : ¬ IsOneOf ["and", "or"] o.text := by
  rw [Operand.text]
  cases h : o.field with
  | plain n => exact not_conjunction_of_not_reserved n.free
  | call c =>
    exact Written.not_conjunction (List.mem_append_right _ (List.mem_singleton_self ')'))
      (by decide)

theorem Operand.solid (o : Operand) : Solid o.text := ⟨o.field.trimmed.nonempty, o.unbroken⟩

theorem Value.trimmed (v : Value) : Trimmed v.text := by
  cases v with
  | bare word => exact Solid.trimmed ⟨word.nonempty, word.unbroken⟩
  | quoted q =>
    have hmark : Trimmed [q.mark] := (Text.solid_singleton (isBlank_of_isQuote q.quote)).trimmed
    exact hmark.append q.content hmark

theorem Value.line (v : Value) : '\n' ∉ v.text := by
  cases v with
  | bare word => exact fun h => absurd (word.unbroken _ h) (by decide)
  | quoted q =>
    have hmark : '\n' ≠ q.mark := fun h => absurd (h ▸ q.quote) (by decide)
    simp [text, hmark, q.line]

theorem Value.not_conjunction (v : Value) : ¬ IsOneOf ["and", "or"] v.text := by
  cases v with
  | bare word => exact word.free
  | quoted q => exact Written.not_conjunction List.mem_cons_self (isAlpha_of_isQuote q.quote)

theorem Symbolic.text_eq (c : Symbolic) :
    c.text = c.field.text ++ (c.before.text ++ (c.symbol ++ (c.after.text ++ c.value.text))) := by
  simp only [text, List.append_assoc]

theorem Worded.text_eq (c : Worded) :
    c.text = c.field.text ++ (c.before.text ++ (c.word ++ (c.after.text ++ c.value.text))) := by
  simp only [text, List.append_assoc]

theorem Symbolic.exists_first (c : Symbolic) :
    ∃ first symbol, c.symbol = first :: symbol ∧ Query.isOperatorChar first = true := by
  obtain ⟨first, symbol, h⟩ := List.exists_cons_of_ne_nil c.nonempty
  exact ⟨first, symbol, h, c.plain first (by rw [h]; exact List.mem_cons_self)⟩

theorem Symbolic.solid (c : Symbolic) : Solid c.symbol := by
  constructor
  · exact c.nonempty
  · intro d hd
    exact isBlank_of_isOperatorChar (c.plain d hd)

theorem Worded.isNameChar (c : Worded) : ∀ d ∈ c.word, isNameChar d = true := by
  intro d hd
  exact Text.isNameChar_of_isAlpha (c.plain d hd)

theorem Worded.solid (c : Worded) : Solid c.word := Text.solid_name c.nonempty c.isNameChar

theorem Predicate.trimmed (c : Predicate) : Trimmed c.text := by
  cases c with
  | symbolic c =>
    have h := c.field.solid.trimmed.append (c.before.text ++ c.symbol ++ c.after.text)
      c.value.trimmed
    simpa only [text, Symbolic.text, List.append_assoc] using h
  | worded c =>
    have h := c.field.solid.trimmed.append (c.before.text ++ c.word ++ c.after.text) c.value.trimmed
    simpa only [text, Worded.text, List.append_assoc] using h

/-- A condition starts with a name that ends there. -/
theorem Predicate.exists_name (c : Predicate) (x : List Char) :
    ∃ (n : Name) (y : List Char), c.text ++ x = n.text ++ y ∧ Text.Unlettered y := by
  cases c with
  | symbolic c =>
    obtain ⟨first, symbol, hsymbol, hfirst⟩ := c.exists_first
    have h :
        Text.Unlettered (c.before.text ++ (c.symbol ++ (c.after.text ++ (c.value.text ++ x)))) := by
      rw [hsymbol]
      exact Text.unlettered_blanks c.before
        (Text.unlettered_cons (isLower_foldCase_of_isOperatorChar hfirst))
    simpa only [text, Symbolic.text_eq, Operand.text, List.append_assoc] using
      c.field.field.exists_name h
  | worded c =>
    have h : Text.Unlettered (c.before.text ++ (c.word ++ (c.after.text ++ (c.value.text ++ x)))) :=
      (Text.breaks_gap c.before).unlettered
    simpa only [text, Worded.text_eq, Operand.text, List.append_assoc] using
      c.field.field.exists_name h

end Characters

end Tabular.Written

namespace Tabular.Query

open Written (Blanks Gap Word Separated Predicate Value Quoted IsOneOf)
open Text (Solid StartsBare Trimmed Breaks)

/-! ## Words with quotes -/

/-- The quotes of a text are closed in it, and its blanks are in quotes. -/
def Closed (cs : List Char) : Prop :=
  ∀ word rest, runsFrom none word (cs ++ rest) = runsFrom none (cs.reverse ++ word) rest

section Runs
variable {cs x y rest : List Char}

theorem Closed.append (hx : Closed x) (hy : Closed y) : Closed (x ++ y) := by
  intro word rest
  rw [List.append_assoc, hx, hy, List.reverse_append, List.append_assoc]

theorem closed_unquoted (hs : ∀ c ∈ cs, Text.isBlank c = false) (hq : ∀ c ∈ cs, isQuote c = false) :
    Closed cs := by
  intro word rest
  induction cs generalizing word with
  | nil => rfl
  | cons c cs ih =>
    have hquote : isQuote c = false := hq c List.mem_cons_self
    have hblank : Text.isBlank c = false := hs c List.mem_cons_self
    have ih := ih (fun d hd => hs d (List.mem_cons_of_mem c hd))
      (fun d hd => hq d (List.mem_cons_of_mem c hd))
    rw [List.cons_append, runsFrom, hquote, hblank, if_neg Bool.false_ne_true,
      if_neg Bool.false_ne_true, ih, List.reverse_cons, List.append_assoc]
    rfl

/-- Inside a quote everything up to its end belongs to the word. -/
theorem runsFrom_inside {mark : Char} (h : mark ∉ cs) (word : List Char) :
    runsFrom (some mark) word (cs ++ rest) = runsFrom (some mark) (cs.reverse ++ word) rest := by
  induction cs generalizing word with
  | nil => rfl
  | cons c cs ih =>
    have hc : c ≠ mark := by
      rintro rfl
      exact h List.mem_cons_self
    have ih := ih (fun hd => h (List.mem_cons_of_mem c hd)) (c :: word)
    rw [List.cons_append, runsFrom, if_neg hc, ih, List.reverse_cons, List.append_assoc]
    rfl

theorem closed_quoted (q : Quoted) : Closed (q.mark :: q.content ++ [q.mark]) := by
  intro word rest
  rw [List.append_assoc, List.cons_append, runsFrom, if_pos q.quote, runsFrom_inside q.closed,
    List.singleton_append, runsFrom, if_pos rfl]
  simp

theorem Value.closed (v : Value) : Closed v.text := by
  cases v with
  | bare word => exact closed_unquoted word.unbroken word.unquoted
  | quoted q => exact closed_quoted q

theorem runsFrom_word (hne : cs ≠ []) (hc : Closed cs) (hrest : Breaks rest) :
    runsFrom none [] (cs ++ rest) =
      (.word cs :: (runsFrom none [] rest).1, (runsFrom none [] rest).2) := by
  rw [hc, List.append_nil]
  cases rest with
  | nil => simp [runsFrom, closeWord, hne]
  | cons c rest =>
    have hblank : Text.isBlank c = true := hrest c rfl
    have hquote : isQuote c = false := Written.isQuote_of_isBlank hblank
    simp [runsFrom, closeWord, hne, hblank, hquote]

theorem runsFrom_blanks (b : Blanks) :
    runsFrom none [] (b.text ++ rest) =
      (b.text.map .blank ++ (runsFrom none [] rest).1, (runsFrom none [] rest).2) := by
  obtain ⟨text, blank⟩ := b
  induction text with
  | nil => rfl
  | cons c cs ih =>
    have hblank : Text.isBlank c = true := blank c List.mem_cons_self
    have hquote : isQuote c = false := Written.isQuote_of_isBlank hblank
    have ih := ih fun d hd => blank d (List.mem_cons_of_mem c hd)
    simp only at ih
    simp [runsFrom, hblank, hquote, ih, closeWord]

end Runs

/-! ## Texts between the words AND -/

/-- A run that is neither the word AND nor the word OR. -/
def Run.IsFree (run : Run) : Prop :=
  run.isWord ['a', 'n', 'd'] = false ∧ run.isWord ['o', 'r'] = false

/-- Whole words, of which none is AND or OR. -/
def Whole (cs : List Char) : Prop :=
  ∃ runs, (∀ run ∈ runs, Run.IsFree run) ∧ runs.flatMap Run.text = cs ∧
    ∀ rest, Breaks rest → runsFrom none [] (cs ++ rest) =
      (runs ++ (runsFrom none [] rest).1, (runsFrom none [] rest).2)

section Wholes
variable {x y : List Char}

theorem isFree_word (h : ¬ IsOneOf ["and", "or"] x) : (Run.word x).IsFree := by
  have hne : ∀ word : List Char, word.map Char.toLower = word →
      word ∈ ["and", "or"].map String.toList → (Run.word x).isWord word = false := by
    intro word hlower hword
    refine Bool.eq_false_iff.2 fun heq => h ?_
    rw [Run.isWord, Text.sameLetters, beq_iff_eq, hlower] at heq
    rw [IsOneOf, heq]
    exact hword
  exact ⟨hne _ (by decide) (by decide), hne _ (by decide) (by decide)⟩

theorem flatMap_blanks (b : Blanks) : (b.text.map Run.blank).flatMap Run.text = b.text := by
  rw [List.flatMap_map]
  exact List.flatMap_singleton' b.text

theorem isFree_blanks (b : Blanks) : ∀ run ∈ b.text.map Run.blank, run.IsFree := by
  simp only [List.forall_mem_map]
  exact fun _ _ => ⟨rfl, rfl⟩

theorem whole_word (hne : x ≠ []) (hc : Closed x) (h : ¬ IsOneOf ["and", "or"] x) : Whole x := by
  refine ⟨[.word x], ?_, ?_, ?_⟩
  · simp only [List.forall_mem_singleton]
    exact isFree_word h
  · simp [Run.text]
  · intro rest hrest
    exact runsFrom_word hne hc hrest

theorem Whole.append (hx : Whole x) (g : Gap) (hy : Whole y) : Whole (x ++ (g.text ++ y)) := by
  obtain ⟨runs, hfree, rfl, hruns⟩ := hx
  obtain ⟨runs', hfree', rfl, hruns'⟩ := hy
  refine ⟨runs ++ (g.text.map .blank ++ runs'), ?_, ?_, fun rest hrest => ?_⟩
  · intro run hrun
    rcases List.mem_append.1 hrun with hrun | hrun
    · exact hfree run hrun
    rcases List.mem_append.1 hrun with hrun | hrun
    · exact isFree_blanks g.toBlanks run hrun
    · exact hfree' run hrun
  · rw [List.flatMap_append, List.flatMap_append, flatMap_blanks g.toBlanks]
  · rw [List.append_assoc, List.append_assoc, hruns _ (Text.breaks_gap g),
      runsFrom_blanks g.toBlanks, hruns' rest hrest]
    simp only [List.append_assoc]

/-- With blanks between them two words stay two, and without blanks they become one. -/
theorem whole_blanks (hx : Closed x) (hxne : x ≠ []) (hy : Closed y) (hyne : y ≠ []) (b : Blanks)
    (hxfree : ¬ IsOneOf ["and", "or"] x) (hyfree : ¬ IsOneOf ["and", "or"] y)
    (hfree : ¬ IsOneOf ["and", "or"] (x ++ y)) : Whole (x ++ (b.text ++ y)) := by
  by_cases hb : b.text = []
  · rw [hb, List.nil_append]
    exact whole_word (List.append_ne_nil_of_left_ne_nil hxne y) (hx.append hy) hfree
  · exact (whole_word hxne hx hxfree).append ⟨b, hb⟩ (whole_word hyne hy hyfree)

theorem closed_letters (h : ∀ c ∈ x, c.isAlpha = true) : Closed x := by
  apply closed_unquoted
  · intro c hc
    exact Text.isBlank_of_isNameChar (Text.isNameChar_of_isAlpha (h c hc))
  · intro c hc
    exact Written.isQuote_of_isAlpha (h c hc)

theorem Operand.closed (o : Written.Operand) : Closed o.text :=
  closed_unquoted o.unbroken o.field.unquoted

theorem Operand.whole (o : Written.Operand) : Whole o.text :=
  whole_word o.solid.nonempty (Operand.closed o) o.not_conjunction

theorem Value.whole (v : Value) : Whole v.text :=
  whole_word v.trimmed.nonempty (Value.closed v) v.not_conjunction

theorem Symbolic.whole (c : Written.Symbolic) : Whole c.text := by
  obtain ⟨first, symbol, hsymbol, hfirst⟩ := c.exists_first
  have hmem : first ∈ c.symbol := by
    rw [hsymbol]
    exact List.mem_cons_self
  -- A word with a character of the symbol in it is no keyword.
  have hfree : ∀ {cs : List Char}, first ∈ cs → ¬ IsOneOf ["and", "or"] cs := by
    intro cs h
    exact Written.not_conjunction h (Written.isAlpha_of_isOperatorChar hfirst)
  have hclosed : Closed c.symbol := by
    apply closed_unquoted c.solid.unbroken
    intro d hd
    exact Written.isQuote_of_isOperatorChar (c.plain d hd)
  rw [c.text_eq]
  by_cases hb : c.before.text = []
  · -- The field and the symbol are one word.
    rw [hb, List.nil_append, ← List.append_assoc]
    exact whole_blanks ((Operand.closed c.field).append hclosed)
      (c.field.solid.append c.solid).nonempty (Value.closed c.value) c.value.trimmed.nonempty
      c.after (hfree (by simp [hmem])) c.value.not_conjunction (hfree (by simp [hmem]))
  · have hright : Whole (c.symbol ++ (c.after.text ++ c.value.text)) :=
      whole_blanks hclosed c.nonempty (Value.closed c.value) c.value.trimmed.nonempty c.after
        (hfree hmem) c.value.not_conjunction (hfree (by simp [hmem]))
    exact (Operand.whole c.field).append ⟨c.before, hb⟩ hright

theorem Worded.whole (c : Written.Worded) : Whole c.text := by
  have hword : Whole c.word :=
    whole_word c.nonempty (closed_letters c.plain) (Written.not_conjunction_of_not_reserved c.free)
  rw [c.text_eq]
  exact (Operand.whole c.field).append c.before (hword.append c.after (Value.whole c.value))

theorem Predicate.whole (c : Predicate) : Whole c.text := by
  cases c with
  | symbolic c => exact Symbolic.whole c
  | worded c => exact Worded.whole c

end Wholes

/-! ## The cuts at AND -/

section Parts

theorem partsFrom_free {runs rest : List Run} (h : ∀ run ∈ runs, Run.IsFree run) (part : List Run) :
    partsFrom part (runs ++ rest) = partsFrom (runs.reverse ++ part) rest := by
  induction runs generalizing part with
  | nil => rfl
  | cons run runs ih =>
    have hrun : run.isWord ['a', 'n', 'd'] = false := (h run List.mem_cons_self).1
    have ih := ih (fun r hr => h r (List.mem_cons_of_mem run hr)) (run :: part)
    rw [List.cons_append, partsFrom, hrun, if_neg Bool.false_ne_true, ih, List.reverse_cons,
      List.append_assoc]
    rfl

/-- The runs of a list of conditions are closed and free of OR, and cut at AND they are the
conditions. -/
theorem runsFrom_list (b : Blanks) (l : Separated (Word "and") Predicate) :
    ∃ runs, runsFrom none [] (b.text ++ l.text Word.text Predicate.text) = (runs, false) ∧
      runs.any (Run.isWord ['o', 'r']) = false ∧
      (partsFrom [] runs).map Text.trim = l.items.map Predicate.text := by
  obtain ⟨first, rest⟩ := l
  -- The blanks behind an AND belong to the conditions that follow it.
  induction rest generalizing first b with
  | nil =>
    obtain ⟨runs, hfree, htext, hruns⟩ := Predicate.whole first
    refine ⟨b.text.map .blank ++ runs, ?_, ?_, ?_⟩
    · have hend := hruns [] Text.breaks_nil
      rw [List.append_nil] at hend
      simp only [Separated.text, List.flatMap_nil, List.append_nil, runsFrom_blanks, hend]
      simp [runsFrom, closeWord]
    · rw [List.any_eq_false]
      intro run hrun
      rcases List.mem_append.1 hrun with hrun | hrun
      · simp [(isFree_blanks b run hrun).2]
      · simp [(hfree run hrun).2]
    · have htrim := Text.trim_leading b first.trimmed
      rw [partsFrom_free (isFree_blanks b), ← List.append_nil runs, partsFrom_free hfree, partsFrom]
      simp [flatMap_blanks, htext, htrim, Separated.items]
  | cons p rest ih =>
    obtain ⟨word, second⟩ := p
    obtain ⟨runs, hfree, htext, hruns⟩ := Predicate.whole first
    obtain ⟨runs', hruns', hor, hparts⟩ := ih word.after.toBlanks second
    have hkeyword : Closed word.keyword.text := closed_letters (Text.keyword_isAlpha word.keyword)
    have hsolid := Text.keyword_solid word.keyword
    have hisAnd : (Run.word word.keyword.text).isWord ['a', 'n', 'd'] = true := by
      rw [Run.isWord, Text.sameLetters, word.keyword.spells]
      decide
    have hisOr : (Run.word word.keyword.text).isWord ['o', 'r'] = false := by
      rw [Run.isWord, Text.sameLetters, word.keyword.spells]
      decide
    let runsBehind := word.before.text.map .blank ++ .word word.keyword.text :: runs'
    refine ⟨b.text.map .blank ++ (runs ++ runsBehind), ?_, ?_, ?_⟩
    · rw [Separated.text_cons, Word.text, List.append_assoc, List.append_assoc, runsFrom_blanks b,
        hruns _ (Text.breaks_gap word.before), runsFrom_blanks word.before.toBlanks,
        runsFrom_word hsolid.nonempty hkeyword (Text.breaks_gap word.after), hruns']
    · rw [List.any_append, List.any_append, List.any_append, List.any_cons, hor, hisOr]
      simp only [Bool.or_false, Bool.or_eq_false_iff, List.any_eq_false, Bool.not_eq_true]
      exact ⟨fun run h => (isFree_blanks b run h).2, fun run h => (hfree run h).2,
        fun run h => (isFree_blanks word.before.toBlanks run h).2⟩
    · have htrim := Text.trim_blanks b word.before.toBlanks first.trimmed
      rw [partsFrom_free (isFree_blanks b), partsFrom_free hfree,
        partsFrom_free (isFree_blanks word.before.toBlanks), partsFrom, if_pos hisAnd,
        List.map_cons, hparts]
      simp [flatMap_blanks, htext, htrim, Separated.items]

theorem splitConditions_list (l : Separated (Word "and") Predicate) :
    ∃ parts, splitConditions (l.text Word.text Predicate.text) = .ok parts ∧
      parts.map Text.trim = l.items.map Predicate.text := by
  obtain ⟨runs, hruns, hor, hparts⟩ := runsFrom_list .empty l
  rw [Blanks.text_empty, List.nil_append] at hruns
  exact ⟨_, by simp [splitConditions, hruns, hor], hparts⟩

end Parts

/-! ## One condition -/

section Predicates

theorem condition?_value {field operator : List Char} (hfield : field ≠ [])
    (hoperator : operator ≠ []) (v : Value) :
    condition? field operator v.text =
      some ⟨String.ofList field, String.ofList operator, String.ofList v.literal⟩ := by
  have hstrip : stripQuotes v.text = v.literal := by
    cases v with
    | bare word =>
      have hne := word.nonempty
      have hquote := word.unquoted
      simp only [Value.text, Value.literal]
      cases htext : word.text with
      | nil => exact absurd htext hne
      | cons c cs =>
        have hc : isQuote c = false := hquote c (by rw [htext]; exact List.mem_cons_self)
        rw [stripQuotes, if_neg (by simp [hc])]
    | quoted q => simp [Value.text, Value.literal, stripQuotes, q.quote]
  rw [condition?, v.trimmed.trim, hstrip, if_neg]
  simp [hfield, hoperator, v.trimmed.nonempty, v.line]

/-- The field ends at the first blank or operator. -/
theorem takeWhile_field (o : Written.Operand) {rest : List Char}
    (hrest : ∀ c ∈ rest.head?, Text.isBlank c = true ∨ isOperatorChar c = true) :
    (o.text ++ rest).takeWhile (fun c => !Text.isBlank c && !isOperatorChar c) = o.text := by
  rw [List.takeWhile_append_of_pos fun c hc => by
    simp [o.unbroken c hc, o.field.notOperator c hc]]
  cases rest with
  | nil => simp
  | cons c rest => rcases hrest c rfl with h | h <;> simp [h]

theorem symbolicCondition?_symbolic (c : Written.Symbolic) :
    symbolicCondition? c.text = some (Predicate.symbolic c).condition := by
  obtain ⟨first, symbol, hsymbol, hfirst⟩ := c.exists_first
  have hfield : c.text.takeWhile (fun d => !Text.isBlank d && !isOperatorChar d) =
      c.field.text := by
    rw [c.text_eq]
    refine takeWhile_field c.field fun d hd => ?_
    cases hb : c.before.text with
    | nil =>
      rw [hb, hsymbol] at hd
      cases hd
      exact .inr hfirst
    | cons e cs =>
      rw [hb] at hd
      cases hd
      exact .inl (c.before.blank d (by rw [hb]; exact List.mem_cons_self))
  have hoperator : (c.symbol ++ (c.after.text ++ c.value.text)).takeWhile isOperatorChar =
      c.symbol := by
    have hstop : ∀ {d cs}, isOperatorChar d = false →
        (c.symbol ++ d :: cs).takeWhile isOperatorChar = c.symbol := by
      intro d cs hd
      rw [List.takeWhile_append_of_pos c.plain, List.takeWhile_cons_of_neg (by simp [hd]),
        List.append_nil]
    cases ha : c.after.text with
    | nil =>
      obtain ⟨d, cs, hvalue⟩ := List.exists_cons_of_ne_nil c.value.trimmed.nonempty
      rw [List.nil_append, hvalue]
      exact hstop (c.apart ha d (by rw [hvalue]; rfl))
    | cons d cs =>
      have hd : Text.isBlank d = true := c.after.blank d (by rw [ha]; exact List.mem_cons_self)
      exact hstop (Written.isOperatorChar_of_isBlank hd)
  rw [symbolicCondition?, hfield, c.text_eq, List.drop_left,
    Text.trimLeft_blanks c.before (c.solid.startsBare.append c.nonempty), hoperator, List.drop_left,
    Text.trimLeft_blanks c.after c.value.trimmed.startsBare,
    if_neg (by simpa using c.value.trimmed.nonempty),
    condition?_value c.field.solid.nonempty c.nonempty]
  rfl

theorem symbolicCondition?_worded (c : Written.Worded) : symbolicCondition? c.text = none := by
  have hfield : c.text.takeWhile (fun d => !Text.isBlank d && !isOperatorChar d) =
      c.field.text := by
    rw [c.text_eq]
    exact takeWhile_field c.field fun d hd => .inl (Text.breaks_gap c.before d hd)
  have hoperator : (c.word ++ (c.after.text ++ c.value.text)).takeWhile isOperatorChar = [] := by
    obtain ⟨first, word, hword⟩ := List.exists_cons_of_ne_nil c.nonempty
    have hfirst := Written.isOperatorChar_of_isAlpha
      (c.plain first (by rw [hword]; exact List.mem_cons_self))
    rw [hword, List.cons_append, List.takeWhile_cons_of_neg (by simp [hfirst])]
  rw [symbolicCondition?, hfield, c.text_eq, List.drop_left,
    Text.trimLeft_blanks c.before.toBlanks (c.solid.startsBare.append c.nonempty), hoperator]
  simp [condition?]

theorem wordCondition?_worded (c : Written.Worded) :
    wordCondition? c.text = some (Predicate.worded c).condition := by
  rw [c.text_eq, wordCondition?,
    Text.firstWord?_solid _ c.field.solid (c.solid.startsBare.append c.nonempty)]
  simp only [Option.bind_eq_bind, Option.bind_some]
  rw [Text.firstWord?_solid _ c.solid c.value.trimmed.startsBare]
  simp only [Option.bind_some]
  rw [if_pos (List.all_eq_true.2 c.plain), condition?_value c.field.solid.nonempty c.nonempty]
  rfl

theorem readCondition_predicate (c : Predicate) {cs : List Char} (h : Text.trim cs = c.text) :
    readCondition cs = .ok c.condition := by
  rw [readCondition, h]
  cases c with
  | symbolic c => simp [Predicate.text, symbolicCondition?_symbolic]
  | worded c => simp [Predicate.text, symbolicCondition?_worded, wordCondition?_worded]

theorem mapM_readCondition {parts : List (List Char)} {items : List Predicate}
    (h : parts.map Text.trim = items.map Predicate.text) :
    parts.mapM readCondition = .ok (items.map Predicate.condition) := by
  induction items generalizing parts with
  | nil =>
    rw [List.map_nil, List.map_eq_nil_iff] at h
    rw [h]
    rfl
  | cons c items ih =>
    cases parts with
    | nil => exact absurd h (by simp)
    | cons part parts =>
      obtain ⟨hpart, hparts⟩ := List.cons.inj h
      rw [List.mapM_cons, readCondition_predicate c hpart, ih hparts]
      rfl

/-- No condition starts with a parenthesis, since a name stands there. -/
theorem head?_name (n : Written.Name) (x : List Char) : (n.text ++ x).head? ≠ some '(' := by
  obtain ⟨c, cs, hname⟩ := List.exists_cons_of_ne_nil n.nonempty
  have hc : Written.isNameChar c = true := n.plain c (by rw [hname]; exact List.mem_cons_self)
  rw [hname]
  rintro ⟨⟩
  exact absurd hc (by decide)

/-- The conditions are read as they were written, in their order. -/
theorem readWhere_list (l : Separated (Word "and") Predicate) :
    readWhere (l.text Word.text Predicate.text) = .ok (l.items.map Predicate.condition) := by
  obtain ⟨parts, hsplit, hparts⟩ := splitConditions_list l
  have htrimmed : Trimmed (l.text Word.text Predicate.text) :=
    Text.separated_trimmed Predicate.trimmed l
  have hhead : (l.text Word.text Predicate.text).head? ≠ some '(' := by
    obtain ⟨n, y, htext, -⟩ := l.first.exists_name (l.rest.flatMap fun p => p.1.text ++ p.2.text)
    rw [Separated.text, htext]
    exact head?_name n y
  rw [readWhere, htrimmed.trim, if_neg (by simpa using htrimmed.nonempty), if_neg hhead, hsplit]
  exact mapM_readCondition hparts

end Predicates

end Tabular.Query
