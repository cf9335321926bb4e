import Tabular.Proofs.Filtering
import Tabular.Proofs.Reading
/-!
# Keywords in quotes

A value in quotes is read as it stands, whatever keywords it holds, except for the words GROUP BY with
blanks around them. These open a clause even in quotes: the condition is then cut off inside its
value, and the open quote makes it an error.
-/

namespace Tabular.Written

open Text (Solid Trimmed Unopened afterClause?)

/-! ## One condition with a value in quotes -/

/-- The parts of `SELECT a FROM table WHERE field operator 'content'`. The content is of one line and
does not hold its quote. -/
structure QuotedFilter where
  table : Name
  field : Name
  operator : String
  supported : operator ∈ Condition.operators
  mark : Char
  quote : Query.isQuote mark = true
  content : List Char
  closed : mark ∉ content
  line : '\n' ∉ content

namespace QuotedFilter
variable (s : QuotedFilter)

def text : List Char :=
  "SELECT a FROM ".toList ++ s.table.text ++ " WHERE ".toList ++ s.field.text ++
    ' ' :: s.operator.toList ++ ' ' :: s.mark :: s.content ++ [s.mark]

/-- The query that the text means. -/
def query : Query :=
  { Query.select (String.ofList s.table.text) ["a"] with
    conditions := [⟨String.ofList s.field.text, s.operator, String.ofList s.content⟩] }

/-- The content holds no GROUP BY. -/
def Ungrouped : Prop := ∀ cs, cs <:+: s.content → ¬ IsGroupBy cs

/-! ## Parts of the text -/

def selectWord : Keyword "select" := ⟨"SELECT".toList, by decide⟩

def fromWord : Word "from" := ⟨space, ⟨"FROM".toList, by decide⟩, space⟩

def whereWord : Word "where" := ⟨space, ⟨"WHERE".toList, by decide⟩, space⟩

/-- The condition up to its first quote. -/
def opening : List Char :=
  s.field.text ++ (space.text ++ (s.operator.toList ++ (space.text ++ [s.mark])))

def body : List Char :=
  s.table.text ++ (whereWord.text ++ (s.opening ++ (s.content ++ [s.mark])))

theorem text_eq : s.text = Blanks.empty.text ++ (selectWord.text ++ (space.text ++ (['a'] ++
    (fromWord.text ++ s.body)))) := by
  have hparts {first second : List Char}
      (hfirst : first = selectWord.text ++ (space.text ++ (['a'] ++ fromWord.text)))
      (hsecond : second = whereWord.text) :
      first ++ s.table.text ++ second ++ s.field.text ++ ' ' :: s.operator.toList ++
        ' ' :: s.mark :: s.content ++ [s.mark] =
      Blanks.empty.text ++ (selectWord.text ++ (space.text ++ (['a'] ++
        (fromWord.text ++ s.body)))) := by
    subst hfirst hsecond
    simp [body, opening, space, Gap.single, Blanks.text_empty]
  exact hparts (by decide) (by decide)

/-- The text before the content, and the rest. -/
theorem body_eq : s.body =
    (s.table.text ++ (whereWord.text ++ s.opening)) ++ (s.content ++ [s.mark]) := by
  simp only [body, List.append_assoc]

theorem operator_spec : s.operator.toList ≠ [] ∧
    ∀ c ∈ s.operator.toList, Query.isOperatorChar c = true := by
  have hall : ∀ operator ∈ Condition.operators,
      operator.toList ≠ [] ∧ operator.toList.all Query.isOperatorChar = true := by decide
  obtain ⟨hne, hplain⟩ := hall s.operator s.supported
  exact ⟨hne, List.all_eq_true.1 hplain⟩

theorem operator_solid : Solid s.operator.toList := by
  obtain ⟨hne, hplain⟩ := s.operator_spec
  exact ⟨hne, fun c hc => isBlank_of_isOperatorChar (hplain c hc)⟩

theorem mark_solid : Solid [s.mark] := Text.solid_singleton (isBlank_of_isQuote s.quote)

theorem opening_trimmed : Trimmed s.opening := by
  have h := s.field.solid.trimmed.append (space.text ++ (s.operator.toList ++ space.text))
    s.mark_solid.trimmed
  simpa only [opening, List.append_assoc] using h

theorem body_trimmed : Trimmed s.body := by
  have h := s.table.solid.trimmed.append (whereWord.text ++ (s.opening ++ s.content))
    s.mark_solid.trimmed
  simpa only [body, List.append_assoc] using h

/-- The field, as a condition has it. -/
def operand : Operand := ⟨.plain s.field, s.field.solid.unbroken⟩

/-! ## GROUP BY in the text -/

section GroupBy
variable {x : List Char}

theorem unopened_opening : Unopened (afterClause? Query.groupByKeywords) s.opening x := by
  obtain ⟨hne, hplain⟩ := s.operator_spec
  obtain ⟨c, cs, hoperator⟩ := List.exists_cons_of_ne_nil hne
  have hc : Query.isOperatorChar c = true := hplain c (by rw [hoperator]; exact List.mem_cons_self)
  rw [opening]
  refine .append (Query.opens_groupBy.inWord s.field.solid.unbroken) (.append ?_
    (.append (Query.opens_groupBy.inWord s.operator_solid.unbroken) (.append ?_
      (Query.opens_groupBy.inWord s.mark_solid.unbroken))))
  · rw [hoperator]
    exact Query.opens_groupBy.beforeOther space.toBlanks (isBlank_of_isOperatorChar hc)
      (isLower_foldCase_of_isOperatorChar hc)
  · exact Query.opens_groupBy.beforeOther space.toBlanks (isBlank_of_isQuote s.quote)
      (isLower_foldCase_of_isQuote s.quote)

/-- GROUP BY does not open before the content. -/
theorem unopened_lead :
    Unopened (afterClause? Query.groupByKeywords)
      (s.table.text ++ (whereWord.text ++ s.opening)) x := by
  refine .append (Query.opens_groupBy.inWord s.table.solid.unbroken)
    (.append ?_ s.unopened_opening)
  rw [opening, List.append_assoc, List.append_assoc]
  exact Query.unopened_word (by decide) whereWord s.field (Text.breaks_gap space).unlettered

/-- GROUP BY in the content cuts the content. -/
theorem exists_cut (h : ¬ s.Ungrouped) :
    ∃ y rest, y <+: s.content ∧
      Query.splitClause Query.groupByKeywords (s.content ++ [s.mark]) = (y, some rest) := by
  simp only [Ungrouped, not_forall, not_not] at h
  obtain ⟨cs, ⟨before, after, hcontent⟩, hcs⟩ := h
  obtain ⟨z, hz, -, hclause⟩ := Query.splitClause_spec Query.groupByKeywords (s.content ++ [s.mark])
  cases hcut : Query.splitClause Query.groupByKeywords (s.content ++ [s.mark]) with
  | mk y clause =>
    rw [hcut] at hz hclause
    cases clause with
    | none =>
      -- The words are followed by the rest of the content and the quote.
      obtain ⟨rest, hrest⟩ := Query.afterClause?_isGroupBy hcs (after ++ [s.mark])
      have hsuffix : cs ++ (after ++ [s.mark]) <:+ s.content ++ [s.mark] :=
        ⟨before, by rw [← hcontent]; simp only [List.append_assoc]⟩
      rw [Query.splitClause_eq_none_iff.1 (congrArg Prod.snd hcut) _ hsuffix] at hrest
      cases hrest
    | some rest =>
      refine ⟨y, rest, ?_, rfl⟩
      rcases List.prefix_concat_iff.1 ⟨z, hz.symm⟩ with rfl | hy
      · -- Nothing opens at the end of the text.
        rw [List.self_eq_append_right.1 hz] at hclause
        cases hclause
      · exact hy

end GroupBy

/-! ## The condition -/

/-- The value, if it holds no GROUP BY. -/
def quoted (h : s.Ungrouped) : Quoted := ⟨s.mark, s.content, s.quote, s.closed, s.line, h⟩

def predicate (h : s.Ungrouped) : Predicate :=
  .symbolic
    { field := s.operand
      before := space.toBlanks
      symbol := s.operator.toList
      nonempty := s.operator_spec.1
      plain := s.operator_spec.2
      after := space.toBlanks
      value := .quoted (s.quoted h)
      apart := fun hspace => absurd hspace space.nonempty }

theorem predicate_text (h : s.Ungrouped) :
    (s.predicate h).text = s.opening ++ (s.content ++ [s.mark]) := by
  simp [predicate, Predicate.text, Symbolic.text_eq, Operand.text, operand, Field.text, Value.text,
    quoted, opening]

theorem predicate_condition (h : s.Ungrouped) : (s.predicate h).condition =
    ⟨String.ofList s.field.text, s.operator, String.ofList s.content⟩ := by
  have hoperator : String.ofList s.operator.toList = s.operator := String.ofList_toList
  rw [predicate, Predicate.condition, hoperator]
  rfl

end QuotedFilter

end Tabular.Written

namespace Tabular.Query

open Written (QuotedFilter)
open Text (Unopened afterClause?)

section Quoted
variable (s : QuotedFilter)

/-- The words of a condition whose quote is not closed. -/
theorem runsFrom_open {cs : List Char} (h : s.mark ∉ cs) :
    ∃ runs, (∀ run ∈ runs, Run.IsFree run) ∧ runsFrom none [] (s.opening ++ cs) = (runs, true) := by
  have hoperator : Whole s.operator.toList := by
    refine whole_word s.operator_spec.1 (closed_unquoted s.operator_solid.unbroken fun c hc => ?_) ?_
    · exact Written.isQuote_of_isOperatorChar (s.operator_spec.2 c hc)
    · obtain ⟨c, hc⟩ := List.exists_mem_of_ne_nil _ s.operator_spec.1
      exact Written.not_conjunction hc
        (Written.isAlpha_of_isOperatorChar (s.operator_spec.2 c hc))
  obtain ⟨runs, hfree, -, hruns⟩ := (Operand.whole s.operand).append Written.space hoperator
  have hinside : runsFrom none [] (s.mark :: cs) = ([.word (s.mark :: cs)], true) := by
    rw [runsFrom, if_pos s.quote, ← List.append_nil cs, runsFrom_inside h]
    simp [runsFrom, closeWord]
  have hbreaks : Text.Breaks (Written.space.text ++ (s.mark :: cs)) :=
    Text.breaks_gap Written.space
  refine ⟨runs ++ ([.blank ' '] ++ [.word (s.mark :: cs)]), ?_, ?_⟩
  · intro run hrun
    rcases List.mem_append.1 hrun with hrun | hrun
    · exact hfree run hrun
    rcases List.mem_append.1 hrun with hrun | hrun
    · rw [List.mem_singleton.1 hrun]
      exact ⟨rfl, rfl⟩
    · rw [List.mem_singleton.1 hrun]
      exact isFree_word
        (Written.not_conjunction List.mem_cons_self (Written.isAlpha_of_isQuote s.quote))
  · have htext : s.opening ++ cs = s.operand.text ++ (Written.space.text ++ s.operator.toList) ++
        (Written.space.text ++ (s.mark :: cs)) := by
      simp [QuotedFilter.opening, QuotedFilter.operand, Written.Operand.text, Written.Field.text]
    rw [htext, hruns _ hbreaks, runsFrom_blanks Written.space.toBlanks, hinside]
    rfl

/-- A condition whose quote is not closed is an error. -/
theorem readWhere_open {cs : List Char} (h : s.mark ∉ cs) :
    readWhere (s.opening ++ cs) =
      .error (.openQuote (String.ofList (s.opening ++ Text.trimRight cs))) := by
  have hcs : s.mark ∉ Text.trimRight cs := by
    intro hmem
    obtain ⟨b, hb⟩ := Text.exists_trimRight cs
    exact h (by rw [hb]; exact List.mem_append_left _ hmem)
  obtain ⟨runs, hfree, hruns⟩ := runsFrom_open s hcs
  have hor : runs.any (Run.isWord ['o', 'r']) = false := by
    rw [List.any_eq_false]
    intro run hrun
    rw [(hfree run hrun).2]
    exact Bool.false_ne_true
  have hhead : (s.opening ++ Text.trimRight cs).head? ≠ some '(' := by
    rw [QuotedFilter.opening, List.append_assoc]
    exact head?_name s.field _
  have hne : s.opening ++ Text.trimRight cs ≠ [] :=
    List.append_ne_nil_of_left_ne_nil s.opening_trimmed.nonempty _
  rw [readWhere, Text.trim_append s.opening_trimmed, if_neg (by simpa using hne), if_neg hhead,
    splitConditions, hruns]
  simp only [hor, Bool.false_eq_true, if_false, if_true]
  rfl

/-! ## The text -/

theorem splitSelect?_quoted : splitSelect? s.text = some (['a'], s.body) := by
  have hunterminated : Unterminated s.body := by
    have hmark : s.mark ≠ ';' := fun h => absurd (h ▸ s.quote) (by decide)
    have hlast : Unterminated [s.mark] := fun h => hmark (Option.some.inj h)
    simp only [QuotedFilter.body, ← List.append_assoc]
    exact hlast.append (List.cons_ne_nil _ _)
  have hdrop := dropTerminator_blanks s.body_trimmed hunterminated .empty
  rw [Written.Blanks.text_empty, List.append_nil] at hdrop
  have hselect := Text.keyword_solid QuotedFilter.selectWord
  have hfold := Text.keyword_foldCase QuotedFilter.selectWord
  rw [s.text_eq, splitSelect?_parts .empty Written.space QuotedFilter.fromWord hselect hfold
    (Text.solid_singleton (by decide)).trimmed (Text.opens_from.inChar (by decide))
    s.body_trimmed.startsBare s.body_trimmed.nonempty, hdrop, s.body_trimmed.trim]

theorem trim_quoted_ne_nil : Text.trim s.text ≠ [] := by
  rw [s.text_eq]
  exact s.table.solid.trim_ne_nil fun c hc => by simp [QuotedFilter.body, hc]

theorem splitClause_where_quoted (x : List Char) :
    splitClause whereKeywords
        (s.table.text ++ (QuotedFilter.whereWord.text ++ (s.opening ++ x))) =
      (s.table.text, some (s.opening ++ x)) := by
  have hunopened : Unopened (afterClause? whereKeywords) s.table.text
      (QuotedFilter.whereWord.text ++ (s.opening ++ x)) :=
    (Text.opens_clause (by decide) (by decide)).inWord s.table.solid.unbroken
  have hopening : Text.StartsBare (s.opening ++ x) :=
    s.opening_trimmed.startsBare.append s.opening_trimmed.nonempty
  rw [splitClause, Text.cutAt?_opening hunopened (afterClause?_where _ hopening)]

theorem splitClause_groupBy_ungrouped (h : s.Ungrouped) :
    splitClause groupByKeywords s.body = (s.body, none) := by
  have hcontent : Unopened (afterClause? groupByKeywords) (s.content ++ [s.mark]) [] :=
    (unopened_quoted (s.quoted h)).append (opens_groupBy.inWord s.mark_solid.unbroken)
  rw [splitClause, s.body_eq, Text.cutAt?_unopened (s.unopened_lead.append hcontent) rfl]

/-- GROUP BY in the content ends the condition. -/
theorem splitClause_groupBy_grouped (h : ¬ s.Ungrouped) :
    ∃ y rest, y <+: s.content ∧ splitClause groupByKeywords s.body =
      (s.table.text ++ (QuotedFilter.whereWord.text ++ (s.opening ++ y)), some rest) := by
  obtain ⟨y, rest, hy, hcut⟩ := s.exists_cut h
  refine ⟨y, rest, hy, ?_⟩
  rw [s.body_eq, splitClause_append s.unopened_lead, hcut]
  simp only [List.append_assoc]

theorem subject_readGroupBy {list : List Char} {error : ParseError}
    (h : readGroupBy list = .error error) : error.subject = .grouping := by
  rw [readGroupBy, checkEntries] at h
  split at h
  · cases h
    rfl
  · cases h

/-- A condition with a value in quotes is read as it was written if the value does not hold the words
GROUP BY with blanks around them, and only then. Otherwise the text is an error in one of the two
clauses, and never another query. -/
theorem read_quoted (s : QuotedFilter) :
    (read (String.ofList s.text) = .ok s.query ↔ s.Ungrouped) ∧
      (¬ s.Ungrouped → ∃ error, read (String.ofList s.text) = .error error ∧
        (error.subject = .grouping ∨ error.subject = .condition)) := by
  have hfields : readFields ['a'] = .ok ["a"] := rfl
  have hok (h : s.Ungrouped) : read (String.ofList s.text) = .ok s.query := by
    have hwhere := readWhere_list ⟨s.predicate h, []⟩
    rw [Written.Separated.text, List.flatMap_nil, List.append_nil, s.predicate_text,
      Written.Separated.items, List.map_nil, List.map_singleton, s.predicate_condition] at hwhere
    rw [read]
    simp only [String.toList_ofList, List.isEmpty_iff, trim_quoted_ne_nil, if_false,
      splitSelect?_quoted, hfields, splitClause_groupBy_ungrouped s h]
    simp only [readClause, QuotedFilter.body, splitClause_where_quoted, hwhere,
      s.table.solid.trimmed.trim, readSource_table]
    rfl
  have herror (h : ¬ s.Ungrouped) : ∃ error, read (String.ofList s.text) = .error error ∧
      (error.subject = .grouping ∨ error.subject = .condition) := by
    obtain ⟨y, rest, hy, hgroup⟩ := splitClause_groupBy_grouped s h
    have hopen := readWhere_open s fun hmem => s.closed (hy.subset hmem)
    rw [read]
    simp only [String.toList_ofList, List.isEmpty_iff, trim_quoted_ne_nil, if_false,
      splitSelect?_quoted, hfields, hgroup, splitClause_where_quoted, readClause, hopen]
    cases hnames : readGroupBy rest with
    | error error => exact ⟨error, rfl, .inl (subject_readGroupBy hnames)⟩
    | ok names => exact ⟨_, rfl, .inr rfl⟩
  refine ⟨⟨fun hread => ?_, hok⟩, herror⟩
  by_contra h
  obtain ⟨error, herr, -⟩ := herror h
  rw [hread] at herr
  cases herr

end Quoted

example : read "SELECT a FROM t WHERE f >= \"it's x AND y; FROM z WHERE (w OR\"" =
    .ok { select "t" ["a"] with
      conditions := [⟨"f", ">=", "it's x AND y; FROM z WHERE (w OR"⟩] } := by
  decide +kernel

/-- A value that holds GROUP BY is cut there. -/
theorem read_cutValue :
    ∃ s : QuotedFilter, String.ofList s.text = "SELECT a FROM t WHERE f = 'x GROUP BY y'" ∧
      read (String.ofList s.text) = .error (.openQuote "f = 'x") ∧
      read (String.ofList s.text) ≠ .ok s.query := by
  let name (c : Char) (h : Written.isNameChar c = true ∧ ¬ Written.IsOneOf Written.reserved [c]) :
      Written.Name := ⟨[c], by simp, List.forall_mem_singleton.2 h.1, h.2⟩
  let s : QuotedFilter := {
    table := name 't' (by decide)
    field := name 'f' (by decide)
    operator := "="
    supported := by decide
    mark := '\''
    quote := by decide
    content := "x GROUP BY y".toList
    closed := by decide
    line := by decide }
  have hread : read (String.ofList s.text) = .error (.openQuote "f = 'x") := by decide +kernel
  exact ⟨s, by decide, hread, by rw [hread]; nofun⟩

end Tabular.Query
