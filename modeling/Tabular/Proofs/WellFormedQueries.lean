import Tabular.Proofs.Outlines
import Tabular.Proofs.OuterCommas
/-!
# Well-formed queries

A query that is read has all its parts: a list of fields, a table, conditions with a field and an
operator, two operands for a join, and names to group by. No part is empty, and none has a blank at
its ends or, where it is one word, anywhere. The summary flag is right in every query that is read or
put together.
-/

namespace Tabular

open Text (Solid Trimmed StartsBare)

/-! ## Well-formed parts -/

/-- Word characters and points, at least one. -/
def IsOperand (operand : String) : Prop :=
  operand.toList ≠ [] ∧ ∀ c ∈ operand.toList, Text.isWord c = true ∨ c = '.'

/-- Comparison characters or ASCII letters, at least one. -/
def IsOperator (operator : String) : Prop :=
  operator.toList ≠ [] ∧
    ((∀ c ∈ operator.toList, c ∈ ['<', '>', '=', '!']) ∨ ∀ c ∈ operator.toList, c.isAlpha = true)

/-- Names with something in them and no blanks at their ends, at least one. -/
def AreNames (names : List String) : Prop := names ≠ [] ∧ ∀ name ∈ names, Trimmed name.toList

structure JoinClause.WellFormed (join : JoinClause) : Prop where
  table : Solid join.table.toList
  left : IsOperand join.condition.left
  right : IsOperand join.condition.right

structure Condition.WellFormed (condition : Condition) : Prop where
  field : Solid condition.field.toList
  operator : IsOperator condition.operator

namespace Query

/-- A query asks for a summary if it selects an aggregate and does not group. -/
def Summarizes (query : Query) : Prop :=
  query.summarized = true ↔
    query.groupBy = none ∧ ∃ field ∈ query.fields, (Aggregate.read? field).isSome = true

structure WellFormed (query : Query) : Prop where
  fields : AreNames query.fields
  table : Solid query.table.toList
  join : ∀ join ∈ query.join, join.WellFormed
  conditions : ∀ condition ∈ query.conditions, condition.WellFormed
  groupBy : ∀ names ∈ query.groupBy, AreNames names
  summarizes : query.Summarizes

/-! ## Queries put together -/

/-- What adding clauses to a query without any gives, in any order and any number. -/
inductive Built : Query → Prop
  | select (table : String) (fields : List String) : Built (select table fields)
  | withCondition {query : Query} (condition : Condition) (h : Built query) :
    Built (query.withCondition condition)
  | withJoin {query : Query} (join : JoinClause) (h : Built query) : Built (query.withJoin join)
  | withGroupBy {query : Query} (names : List String) (h : Built query) :
    Built (query.withGroupBy names)

theorem hasAggregate_eq_true {fields : List String} :
    hasAggregate fields = true ↔ ∃ field ∈ fields, (Aggregate.read? field).isSome = true :=
  List.any_eq_true

theorem Built.summarizes {query : Query} (h : Built query) : query.Summarizes := by
  induction h with
  | select table fields => exact hasAggregate_eq_true.trans (iff_and_self.2 fun _ => rfl)
  | withCondition condition h ih => exact ih
  | withJoin join h ih => exact ih
  | withGroupBy names h ih => exact iff_of_false Bool.false_ne_true (fun h => nomatch h.1)

/-! ## Lists of names -/

section Lists
variable {list : List Char} {names : List String}

/-- Trimmed pieces are names if the check finds none empty. -/
theorem areNames_of_checkEntries {error : String → ParseError} {pieces : List (List Char)}
    (hne : pieces ≠ []) (h : checkEntries error list (pieces.map Text.trim) = .ok names) :
    AreNames names := by
  rw [checkEntries] at h
  split at h
  · cases h
  · rename_i hempty
    cases h
    refine ⟨by simpa using hne, fun name hname => ?_⟩
    obtain ⟨entry, hentry, rfl⟩ := List.mem_map.1 hname
    obtain ⟨piece, -, rfl⟩ := List.mem_map.1 hentry
    rw [String.toList_ofList]
    refine Text.trimmed_trim fun hnil => hempty (List.any_eq_true.2 ⟨_, hentry, ?_⟩)
    rw [hnil]
    rfl

theorem areNames_of_readFields (h : readFields list = .ok names) : AreNames names :=
  areNames_of_checkEntries (piecesFrom_ne_nil 0 [] list) h

theorem areNames_of_readGroupBy (h : readGroupBy list = .ok names) : AreNames names :=
  areNames_of_checkEntries (List.splitOn_ne_nil ',' list) h

end Lists

/-! ## The source -/

section Source
variable {x w rest : List Char}

theorem solid_of_firstWord? (h : Text.firstWord? x = some (w, rest)) : Solid w := by
  rw [Text.firstWord?] at h
  split at h
  · cases h
  · rename_i hne
    obtain ⟨_, -, hpair⟩ := Option.map_eq_some_iff.1 h
    cases hpair
    exact ⟨by simpa using hne, fun c hc => by simpa using List.mem_takeWhile_imp hc⟩

/-- A text without words is blank. -/
theorem isBlank_of_words_eq_nil (h : Text.words x = []) : ∀ c ∈ x, Text.isBlank c = true := by
  by_contra hbare
  have hne : Text.trimLeft x ≠ [] := mt List.dropWhile_eq_nil_iff.1 hbare
  obtain ⟨b, hb⟩ := Text.exists_trimLeft x
  obtain ⟨w, tail, hx, hw, htail⟩ := exists_table (Text.startsBare_trimLeft x) hne
  rw [hb, hx, Text.words_blanks, Text.words_breaks hw htail] at h
  cases h

theorem solid_of_words (hx : Trimmed x) (h : (Text.words x).length = 1) : Solid x := by
  obtain ⟨w, tail, rfl, hw, htail⟩ := exists_table hx.startsBare hx.nonempty
  rw [Text.words_breaks hw htail, List.length_cons, Nat.add_eq_right, List.length_eq_zero_iff] at h
  have hblank := isBlank_of_words_eq_nil h
  -- The blanks would stand at the end of the text.
  have htailnil : tail = [] := by
    by_contra hne
    have hlast := hx.endsBare.of_suffix (List.suffix_append w tail) _
      (List.getLast?_eq_getLast_of_ne_nil hne)
    rw [hblank _ (List.getLast_mem hne)] at hlast
    cases hlast
  rwa [htailnil, List.append_nil]

theorem isOperand_of_all (hne : x ≠ []) (h : ∀ c ∈ x, isOperandChar c = true) :
    IsOperand (String.ofList x) := by
  rw [IsOperand, String.toList_ofList]
  refine ⟨hne, fun c hc => ?_⟩
  simpa [isOperandChar] using h c hc

theorem isOperand_of_joinCondition? {condition : JoinCondition}
    (h : joinCondition? x = some condition) :
    IsOperand condition.left ∧ IsOperand condition.right := by
  simp only [joinCondition?] at h
  split at h
  · split at h
    · cases h
    · rename_i hcheck
      simp only [Bool.or_eq_true, not_or, List.isEmpty_iff, Bool.not_eq_true', Bool.not_eq_false,
        List.all_eq_true] at hcheck
      cases h
      exact ⟨isOperand_of_all hcheck.1.1 fun c hc => List.mem_takeWhile_imp hc,
        isOperand_of_all hcheck.1.2 hcheck.2⟩
  · cases h

theorem solid_of_joinText? {parts : JoinText} (h : joinText? x = some parts) :
    Solid parts.table ∧ Solid parts.joined := by
  simp only [joinText?, Option.bind_eq_bind, Option.bind_eq_some_iff, Prod.exists] at h
  obtain ⟨table, _, htable, kind, _, -, join, _, -, joined, _, hjoined, on, _, -, h⟩ := h
  split at h
  · cases h
    exact ⟨solid_of_firstWord? htable, solid_of_firstWord? hjoined⟩
  · cases h

theorem wellFormed_of_joinText? {parts : JoinText} (hparts : joinText? x = some parts)
    {condition : JoinCondition} (hcondition : joinCondition? w = some condition) (kind : JoinKind) :
    Solid (String.ofList parts.table).toList ∧
      JoinClause.WellFormed ⟨kind, String.ofList parts.joined, condition⟩ := by
  obtain ⟨htable, hjoined⟩ := solid_of_joinText? hparts
  obtain ⟨hleft, hright⟩ := isOperand_of_joinCondition? hcondition
  constructor
  · rwa [String.toList_ofList]
  · refine ⟨?_, hleft, hright⟩
    rwa [String.toList_ofList]

theorem wellFormed_of_readSource {source : String × Option JoinClause}
    (h : readSource (Text.trim x) = .ok source) :
    Solid source.1.toList ∧ ∀ join ∈ source.2, join.WellFormed := by
  simp only [readSource] at h
  split_ifs at h with hempty hjoin hlength
  · -- The word JOIN stands in the source.
    cases hparts : joinText? (Text.trim x) with
    | none => rw [hparts] at h; cases h
    | some parts =>
      cases hkind : JoinKind.ofKeyword? (String.ofList parts.kind) with
      | none => simp only [hparts, hkind] at h; cases h
      | some kind =>
        cases hcondition : joinCondition? (Text.trim parts.condition) with
        | none => simp only [hparts, hkind, hcondition] at h; cases h
        | some condition =>
          simp only [hparts, hkind, hcondition, Except.ok.injEq] at h
          obtain ⟨htable, hwellFormed⟩ := wellFormed_of_joinText? hparts hcondition kind
          subst h
          refine ⟨htable, fun join hjoin => ?_⟩
          rwa [← Option.mem_some_iff.1 hjoin]
  · have htrimmed : Trimmed (Text.trim x) := Text.trimmed_trim (by simpa using hempty)
    cases h
    rw [String.toList_ofList]
    exact ⟨solid_of_words htrimmed hlength, fun join hjoin => absurd hjoin (Option.not_mem_none join)⟩

end Source

/-! ## Conditions -/

section Conditions
variable {x field operator value : List Char} {condition : Condition}

/-- A list of work that succeeds gives the result of some item only. -/
theorem exists_of_mem_mapM {ε α β : Type} {f : α → Except ε β} {items : List α} {results : List β}
    (h : items.mapM f = .ok results) {b : β} (hb : b ∈ results) : ∃ a ∈ items, f a = .ok b := by
  induction items generalizing results with
  | nil =>
    cases h
    cases hb
  | cons a items ih =>
    rw [List.mapM_cons] at h
    obtain ⟨first, hfirst, h⟩ := exists_of_bind h
    obtain ⟨others, hothers, h⟩ := exists_of_bind h
    cases h
    rcases List.mem_cons.1 hb with rfl | hb
    · exact ⟨a, List.mem_cons_self, hfirst⟩
    · obtain ⟨a', ha', hfa'⟩ := ih hothers hb
      exact ⟨a', List.mem_cons_of_mem a ha', hfa'⟩

theorem wellFormed_of_condition? (h : condition? field operator value = some condition)
    (hfield : ∀ c ∈ field, Text.isBlank c = false)
    (hoperator : (∀ c ∈ operator, c ∈ ['<', '>', '=', '!']) ∨ ∀ c ∈ operator, c.isAlpha = true) :
    condition.WellFormed := by
  rw [condition?] at h
  split at h
  · cases h
  · rename_i hcheck
    simp only [Bool.or_eq_true, not_or, List.isEmpty_iff] at hcheck
    cases h
    constructor
    case field =>
      rw [String.toList_ofList]
      exact ⟨hcheck.1.1.1, hfield⟩
    case operator =>
      rw [IsOperator, String.toList_ofList]
      exact ⟨hcheck.1.1.2, hoperator⟩

theorem wellFormed_of_symbolicCondition? (h : symbolicCondition? x = some condition) :
    condition.WellFormed := by
  simp only [symbolicCondition?] at h
  have hfield : ∀ c ∈ x.takeWhile fun c => !Text.isBlank c && !isOperatorChar c,
      Text.isBlank c = false := by
    intro c hc
    have hchar := List.mem_takeWhile_imp hc
    simp only [Bool.and_eq_true, Bool.not_eq_true'] at hchar
    exact hchar.1
  have hoperator : ∀ y : List Char, ∀ c ∈ y.takeWhile isOperatorChar, c ∈ ['<', '>', '=', '!'] := by
    intro y c hc
    have hchar := List.mem_takeWhile_imp hc
    simpa [isOperatorChar, or_assoc] using hchar
  split at h
  · -- The last character of the operator is taken for the value.
    exact wellFormed_of_condition? h hfield
      (.inl fun c hc => hoperator _ c (List.mem_of_mem_dropLast hc))
  · exact wellFormed_of_condition? h hfield (.inl (hoperator _))

theorem wellFormed_of_wordCondition? (h : wordCondition? x = some condition) :
    condition.WellFormed := by
  simp only [wordCondition?, Option.bind_eq_bind, Option.bind_eq_some_iff, Prod.exists] at h
  obtain ⟨field, _, hfield, operator, value, -, h⟩ := h
  split at h
  · rename_i halpha
    exact wellFormed_of_condition? h (solid_of_firstWord? hfield).unbroken
      (.inr (List.all_eq_true.1 halpha))
  · cases h

theorem wellFormed_of_readCondition (h : readCondition x = .ok condition) :
    condition.WellFormed := by
  simp only [readCondition] at h
  split at h
  · rename_i other hread
    cases h
    rcases Option.or_eq_some_iff.1 hread with hread | ⟨-, hread⟩
    · exact wellFormed_of_symbolicCondition? hread
    · exact wellFormed_of_wordCondition? hread
  · cases h

theorem wellFormed_of_readWhere {conditions : List Condition} (h : readWhere x = .ok conditions) :
    ∀ condition ∈ conditions, condition.WellFormed := by
  rw [readWhere] at h
  split at h
  · cases h
  split at h
  · cases h
  obtain ⟨parts, -, h⟩ := exists_of_bind h
  intro condition hcondition
  obtain ⟨part, -, hpart⟩ := exists_of_mem_mapM h hcondition
  exact wellFormed_of_readCondition hpart

end Conditions

/-! ## The query -/

/-- A clause that may be missing. -/
theorem forall_of_readClause {α : Type} {read : List Char → Except ParseError α} {P : α → Prop}
    {clause : Option (List Char)} {result : Option α} (hread : ∀ {x a}, read x = .ok a → P a)
    (h : readClause read clause = .ok result) : ∀ a ∈ result, P a := by
  cases clause with
  | none =>
    cases h
    nofun
  | some clause =>
    rw [readClause] at h
    cases hclause : read clause with
    | error error => rw [hclause] at h; cases h
    | ok b =>
      rw [hclause] at h
      cases h
      rintro a ⟨⟩
      exact hread hclause

section Read
variable {text : String} {query : Query} (h : read text = .ok query)
include h

theorem wellFormed_of_read : query.WellFormed := by
  obtain ⟨list, body, fields, groupBy, conditions, ⟨table, join⟩, -, hfields, hgroupBy, hconditions,
    hsource, rfl⟩ := exists_reads_of_read h
  obtain ⟨htable, hjoin⟩ := wellFormed_of_readSource hsource
  constructor
  case fields => exact areNames_of_readFields hfields
  case table => exact htable
  case join => exact hjoin
  case conditions =>
    cases conditions with
    | none => nofun
    | some conditions => exact forall_of_readClause wellFormed_of_readWhere hconditions _ rfl
  case groupBy => exact forall_of_readClause areNames_of_readGroupBy hgroupBy
  case summarizes =>
    rw [Summarizes, ← hasAggregate_eq_true, Bool.and_eq_true, Option.isNone_iff_eq_none]

/-- Conditions come from a WHERE behind the table. -/
theorem exists_where_of_read {o : Written.Outline} (htext : text.toList = o.text)
    (hne : query.conditions ≠ []) : ∃ w : Written.Word "where", w.text <:+: o.tail := by
  obtain ⟨list, body, -, conditions, -, hsplit, -, hread, -, hconditions⟩ := exists_parts_of_read h
  rw [htext, splitSelect?_outline, Option.some.injEq, Prod.mk.injEq] at hsplit
  obtain ⟨-, rfl⟩ := hsplit
  have hstarts : StartsBare (o.table ++ o.tail) := o.solid.startsBare.append o.solid.nonempty
  obtain ⟨e, he, -⟩ := exists_ending hstarts
  cases hclause : (splitClause whereKeywords
      (ungroupedPart (Text.trim (dropTerminator (o.table ++ o.tail))))).2 with
  | none =>
    rw [hclause] at hread
    cases hread
    exact absurd hconditions hne
  | some clause =>
    have hclausene : clause ≠ [] := by
      rintro rfl
      rw [hclause] at hread
      cases hread
    obtain ⟨middle, w, rest, htail, -⟩ := filtered_of_clause he hclause hclausene
    exact ⟨w, middle, rest, by rw [htail, List.append_assoc]⟩

end Read

/-- Every query that is read is well formed, and it has no conditions if no WHERE stands behind the
table of its text. The summary flag is also right in every query that is put together. -/
theorem read_wellFormed :
    (∀ (text : String) (query : Query), read text = .ok query →
      query.WellFormed ∧
      (∃ o : Written.Outline, text.toList = o.text) ∧
      ∀ o : Written.Outline, text.toList = o.text →
        (∀ w : Written.Word "where", ¬ w.text <:+: o.tail) → query.conditions = []) ∧
    ∀ query : Query, query.Built → query.Summarizes := by
  refine ⟨fun text query h => ⟨wellFormed_of_read h, ?_, fun o htext hwhere => ?_⟩,
    fun query h => h.summarizes⟩
  · obtain ⟨list, body, _, _, _, hsplit, hfields, -, hsource, -⟩ := exists_parts_of_read h
    exact exists_outline hsplit (trim_ne_nil_of_readFields hfields) (ne_nil_of_readSource hsource)
  · by_contra hne
    obtain ⟨w, hw⟩ := exists_where_of_read h htext hne
    exact hwhere w hw

/-- The operator of the second condition gives its last character to the value. -/
theorem wellFormed_seniors :
    ∃ query : Query,
      read ("select dept, Count( * ) from staff left join depts on staff.dept=depts.id " ++
        "where depts.name != 'HR' and staff.age >= group by dept ;") = .ok query ∧
      query.conditions = [⟨"depts.name", "!=", "HR"⟩, ⟨"staff.age", ">", "="⟩] ∧
      query.WellFormed := by
  let query : Query :=
    { fields := ["dept", "Count( * )"]
      table := "staff"
      conditions := [⟨"depts.name", "!=", "HR"⟩, ⟨"staff.age", ">", "="⟩]
      join := some ⟨.left, "depts", "staff.dept", "depts.id"⟩
      groupBy := some ["dept"]
      summarized := false }
  have hread : read ("select dept, Count( * ) from staff left join depts on staff.dept=depts.id " ++
      "where depts.name != 'HR' and staff.age >= group by dept ;") = .ok query := by
    decide +kernel
  exact ⟨query, hread, rfl, (read_wellFormed.1 _ query hread).1⟩

end Query

end Tabular
