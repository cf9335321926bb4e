import Tabular.Proofs.Clauses
/-!
# Reading a written query

Every statement of the language is read, and what is read is the query that was written, whatever
the case of its keywords and the blanks between its words.
-/

namespace Tabular.Query

open Written (Blanks Gap Keyword Name Word Separated Comma Field Predicate Statement)
open Text (Solid StartsBare EndsBare Trimmed Breaks Unopened afterClause?)

/-! ## The end of the text -/

section Ending
variable {x y : List Char} (s : Statement)

/-- A text that does not end with a semicolon. -/
def Unterminated (cs : List Char) : Prop := cs.getLast? ≠ some ';'

theorem Unterminated.append (hy : Unterminated y) (hne : y ≠ []) : Unterminated (x ++ y) := by
  rwa [Unterminated, List.getLast?_append, List.getLast?_eq_getLast_of_ne_nil hne, Option.some_or,
    ← List.getLast?_eq_getLast_of_ne_nil hne]

theorem unterminated_name (n : Name) : Unterminated n.text := by
  intro h
  exact absurd (n.plain _ (List.mem_of_getLast? h)) (by decide)

/-- A list ends as its last item does. -/
theorem separated_spec {σ α : Type} {separator : σ → List Char} {item : α → List Char}
    (h : ∀ a, Trimmed (item a) ∧ Unterminated (item a)) (l : Separated σ α) :
    Trimmed (l.text separator item) ∧ Unterminated (l.text separator item) := by
  have htrimmed : ∀ l : Separated σ α, Trimmed (l.text separator item) :=
    Text.separated_trimmed fun a => (h a).1
  refine ⟨htrimmed l, ?_⟩
  obtain ⟨first, rest⟩ := l
  induction rest generalizing first with
  | nil =>
    rw [Separated.text, List.flatMap_nil, List.append_nil]
    exact (h first).2
  | cons p rest ih =>
    rw [Separated.text_cons, ← List.append_assoc]
    exact (ih p.2).append (htrimmed ⟨p.2, rest⟩).nonempty

theorem unterminated_predicate (c : Predicate) : Unterminated c.text := by
  have hvalue : ∀ v : Written.Value, Unterminated v.text := by
    intro v
    cases v with
    | bare word => exact word.unterminated
    | quoted q =>
      intro h
      rw [Written.Value.text, List.getLast?_append] at h
      have hmark : q.mark = ';' := by simpa using h
      exact absurd (hmark ▸ q.quote) (by decide)
  cases c with
  | symbolic c => exact (hvalue c.value).append c.value.trimmed.nonempty
  | worded c => exact (hvalue c.value).append c.value.trimmed.nonempty

/-- A part behind another ends the text in its own way. -/
theorem append_spec {z : List Char} (hx : Trimmed x) (hz : Trimmed z ∧ Unterminated z) :
    Trimmed (x ++ (y ++ z)) ∧ Unterminated (x ++ (y ++ z)) := by
  refine ⟨hx.append y hz.1, ?_⟩
  rw [← List.append_assoc]
  exact hz.2.append hz.1.nonempty

theorem origin_spec : Trimmed s.origin ∧ Unterminated s.origin := by
  rw [Statement.origin]
  cases s.join with
  | none =>
    exact (List.append_nil s.table.text).symm ▸ ⟨s.table.solid.trimmed, unterminated_name s.table⟩
  | some j =>
    have htext : j.text =
        (j.before.text ++ j.keyword.text ++ j.join.text ++ j.table.text ++ j.on.text ++
          j.left.text ++ j.beforeEquals.text ++ '=' :: j.afterEquals.text) ++ j.right.text := by
      simp only [Written.Join.text, Written.Join.equality, List.append_assoc, List.cons_append]
    rw [Option.map_some, Option.getD_some, htext]
    exact append_spec s.table.solid.trimmed ⟨j.right.solid.trimmed, unterminated_name j.right⟩

theorem body_spec : Trimmed s.body ∧ Unterminated s.body := by
  have hungrouped : Trimmed s.ungrouped ∧ Unterminated s.ungrouped := by
    rw [Statement.ungrouped]
    cases s.filter with
    | none => exact (List.append_nil s.origin).symm ▸ origin_spec s
    | some f =>
      refine append_spec (origin_spec s).1 (separated_spec ?_ f.predicates)
      exact fun c => ⟨Predicate.trimmed c, unterminated_predicate c⟩
  rw [Statement.body]
  cases s.grouping with
  | none => exact (List.append_nil s.ungrouped).symm ▸ hungrouped
  | some g =>
    refine append_spec hungrouped.1 (separated_spec ?_ g.names)
    exact fun n => ⟨n.solid.trimmed, unterminated_name n⟩

/-- Blanks at the end are dropped. -/
theorem dropTerminator_blanks (hx : Trimmed x) (hlast : Unterminated x) (b : Blanks) :
    dropTerminator (x ++ b.text) = x := by
  simp only [dropTerminator, Text.trimRight_blanks b hx.endsBare]
  exact if_neg hlast

/-- So is a semicolon, with the blanks on both sides of it. -/
theorem dropTerminator_semicolon (hx : Trimmed x) (b b' : Blanks) :
    dropTerminator (x ++ (b.text ++ [';'] ++ b'.text)) = x := by
  have hsemicolon : EndsBare (x ++ (b.text ++ [';'])) := by
    rw [← List.append_assoc]
    refine EndsBare.append ?_ (List.cons_ne_nil ';' [])
    intro c hc
    cases hc
    decide
  have htrim : Text.trimRight (x ++ (b.text ++ [';'] ++ b'.text)) = x ++ b.text ++ [';'] := by
    rw [← List.append_assoc, Text.trimRight_blanks b' hsemicolon, List.append_assoc]
  simp only [dropTerminator, htrim, List.getLast?_concat, List.dropLast_concat,
    Text.trimRight_blanks b hx.endsBare]
  rw [if_pos trivial, if_neg (by simpa using hx.nonempty)]

/-- The blanks at the end and the semicolon between them are dropped. -/
theorem trim_dropTerminator : Text.trim (dropTerminator (s.body ++ s.ending)) = s.body := by
  obtain ⟨htrimmed, hlast⟩ := body_spec s
  have hdrop : dropTerminator (s.body ++ s.ending) = s.body := by
    rw [Statement.ending]
    cases s.terminator with
    | none => exact dropTerminator_blanks htrimmed hlast s.after
    | some blanks => exact dropTerminator_semicolon htrimmed blanks s.after
  rw [hdrop, htrimmed.trim]

end Ending

/-! ## The select list -/

section Select
variable (s : Statement)

theorem afterSomeBlanks_gap (g : Gap) {x : List Char} (hx : StartsBare x) :
    ∃ more, afterSomeBlanks (g.text ++ x) = x :: more := by
  obtain ⟨⟨text, blank⟩, nonempty⟩ := g
  -- The longest stretch of blanks comes first, so the induction ends at the last blank.
  induction text with
  | nil => exact absurd rfl nonempty
  | cons c cs ih =>
    have hc : Text.isBlank c = true := blank c List.mem_cons_self
    rw [List.cons_append, afterSomeBlanks, if_pos hc]
    cases cs with
    | nil =>
      have hnone : afterSomeBlanks x = [] := by
        cases x with
        | nil => rfl
        | cons d x => exact if_neg (by simp [hx d rfl])
      exact ⟨[], by rw [List.nil_append, hnone, List.nil_append]⟩
    | cons d cs =>
      obtain ⟨more, hmore⟩ := ih (fun e he => blank e (List.mem_cons_of_mem c he))
        (List.cons_ne_nil d cs)
      exact ⟨more ++ [d :: cs ++ x], by rw [hmore]; rfl⟩

theorem afterFrom?_text (w : Word "from") {x : List Char} (hx : Text.trimLeft x ≠ []) :
    afterFrom? (w.text ++ x) = some (Text.trimLeft x) := by
  have hfrom := Text.keyword_solid w.keyword
  have hkeyword :
      Text.afterKeyword? ['f', 'r', 'o', 'm'] (w.keyword.text ++ (w.after.text ++ x)) =
        some (w.after.text ++ x) :=
    Text.afterKeyword?_append (Text.keyword_foldCase w.keyword)
  rw [Word.text, List.append_assoc, List.append_assoc, afterFrom?,
    Text.afterBlanks?_gap _ (hfrom.startsBare.append hfrom.nonempty)]
  simp [hkeyword, Text.afterBlanks?_append, hx]

theorem afterFrom?_source (w : Word "from") {x : List Char} (hx : StartsBare x) (hne : x ≠ []) :
    afterFrom? (w.text ++ x) = some x := by
  rw [afterFrom?_text w (by rwa [hx.trimLeft]), hx.trimLeft]

/-- The select list ends at the first FROM. -/
theorem splitSelect?_parts (before : Blanks) (gap : Gap) (w : Word "from")
    {select list rest : List Char} (hselect : Solid select)
    (hfold : select.map Text.foldCase = ['s', 'e', 'l', 'e', 'c', 't']) (hlist : Trimmed list)
    (hunopened : Unopened afterFrom? list (w.text ++ rest)) (hrest : StartsBare rest)
    (hne : rest ≠ []) :
    splitSelect? (before.text ++ (select ++ (gap.text ++ (list ++ (w.text ++ rest))))) =
      some (list, Text.trim (dropTerminator rest)) := by
  have hkeyword : Text.afterKeyword? ['s', 'e', 'l', 'e', 'c', 't']
      (select ++ (gap.text ++ (list ++ (w.text ++ rest)))) =
        some (gap.text ++ (list ++ (w.text ++ rest))) :=
    Text.afterKeyword?_append hfold
  have hcut : cutAtFrom? (list ++ (w.text ++ rest)) = some (list, rest) := by
    -- The cut is looked for behind the first character of the list.
    obtain ⟨c, cs, rfl⟩ := List.exists_cons_of_ne_nil hlist.nonempty
    rw [List.cons_append, cutAtFrom?,
      Text.cutAt?_opening hunopened.tail (afterFrom?_source w hrest hne)]
    rfl
  obtain ⟨more, hmore⟩ := afterSomeBlanks_gap gap
    (hlist.startsBare.append hlist.nonempty : StartsBare (list ++ (w.text ++ rest)))
  rw [splitSelect?, Text.trimLeft_blanks before (hselect.startsBare.append hselect.nonempty),
    hkeyword]
  simp only [Option.bind_eq_bind, Option.bind_some, hmore, List.findSome?_cons, hcut]
  rfl

theorem splitSelect?_text : splitSelect? s.text = some (s.list, s.body) := by
  have hunopened : Unopened afterFrom? s.list (s.source.text ++ (s.body ++ s.ending)) := by
    refine Written.unopened_list s.fields ?_
    rw [Word.text, List.append_assoc, List.append_assoc]
    exact (Text.breaks_gap s.source.before).unlettered
  have hlist : Trimmed s.list := Text.separated_trimmed Field.trimmed s.fields
  obtain ⟨hbody, -⟩ := body_spec s
  simp only [Statement.text, List.append_assoc]
  rw [splitSelect?_parts s.before s.gap s.source (Text.keyword_solid s.select)
    (Text.keyword_foldCase s.select) hlist hunopened (hbody.startsBare.append hbody.nonempty)
    (List.append_ne_nil_of_left_ne_nil hbody.nonempty _), trim_dropTerminator]

theorem trim_text_ne_nil : Text.trim s.text ≠ [] :=
  (Text.keyword_solid s.select).trim_ne_nil fun c hc => by simp [Statement.text, hc]

end Select

/-! ## The clauses -/

section Clauses
variable (s : Statement)

theorem follows_grouping (g : Written.Grouping) : Follows g.text := by
  have hgroup := Text.keyword_solid g.group
  simp only [Written.Grouping.text, List.append_assoc]
  refine ⟨Text.breaks_gap g.before, Text.afterClause?_word g.before (by decide) hgroup
    (Text.breaks_gap g.between).unlettered ?_⟩
  rw [Text.keyword_foldCase g.group]
  decide

theorem afterClause?_grouping (g : Written.Grouping) :
    afterClause? groupByKeywords g.text = some g.list := by
  have hgroup := Text.keyword_solid g.group
  have hby := Text.keyword_solid g.by'
  have hg : g.group.text.map Text.foldCase = ['g', 'r', 'o', 'u', 'p'] :=
    Text.keyword_foldCase g.group
  have hb : g.by'.text.map Text.foldCase = ['b', 'y'] := Text.keyword_foldCase g.by'
  have hlist : Trimmed g.list := Text.separated_trimmed (fun n => n.solid.trimmed) g.names
  simp only [Written.Grouping.text, List.append_assoc]
  rw [groupByKeywords, Text.afterClause?_append g.before hgroup hg,
    Text.afterClause?_append g.between hby hb]
  exact Text.afterClause?_gap g.after hlist.startsBare

theorem afterClause?_where (w : Word "where") {x : List Char} (hx : StartsBare x) :
    afterClause? whereKeywords (w.text ++ x) = some x := by
  have hw : w.keyword.text.map Text.foldCase = ['w', 'h', 'e', 'r', 'e'] :=
    Text.keyword_foldCase w.keyword
  rw [Word.text, List.append_assoc, List.append_assoc, whereKeywords,
    Text.afterClause?_append w.before (Text.keyword_solid w.keyword) hw]
  exact Text.afterClause?_gap w.after hx

theorem afterClause?_filter (f : Written.Filter) :
    afterClause? whereKeywords f.text = some (f.predicates.text Word.text Predicate.text) :=
  afterClause?_where f.word (Text.separated_trimmed Predicate.trimmed f.predicates).startsBare

theorem unopened_ungrouped {x : List Char} (hx : Follows x) :
    Unopened (afterClause? groupByKeywords) s.ungrouped x := by
  rw [Statement.ungrouped]
  cases s.filter with
  | none =>
    rw [Option.map_none, Option.getD_none, List.append_nil]
    exact unopened_origin "group" (by decide) s hx.breaks.unlettered
  | some f =>
    refine .append (unopened_origin "group" (by decide) s ?_) (unopened_filter f hx)
    rw [Option.map_some, Option.getD_some, Written.Filter.text, List.append_assoc]
    exact (follows_keyword (by decide) f.word).breaks.unlettered

/-- The cut at GROUP BY gives the list of the clause that was written. -/
theorem splitClause_groupBy :
    splitClause groupByKeywords s.body = (s.ungrouped, s.grouping.map Written.Grouping.list) := by
  rw [splitClause, Statement.body]
  cases s.grouping with
  | none =>
    have hcut := Text.cutAt?_unopened (unopened_ungrouped s ⟨Text.breaks_nil, rfl⟩) rfl
    simp only [Option.map_none, Option.getD_none, List.append_nil, hcut]
  | some g =>
    have hcut := Text.cutAt?_opening (unopened_ungrouped s (follows_grouping g))
      (afterClause?_grouping g)
    simp only [Option.map_some, Option.getD_some, hcut]

theorem splitClause_where :
    splitClause whereKeywords s.ungrouped =
      (s.origin, s.filter.map fun f => f.predicates.text Word.text Predicate.text) := by
  rw [splitClause, Statement.ungrouped]
  cases s.filter with
  | none =>
    have hunopened : Unopened (afterClause? whereKeywords) s.origin [] :=
      unopened_origin "where" (by decide) s Text.breaks_nil.unlettered
    simp only [Option.map_none, Option.getD_none, List.append_nil,
      Text.cutAt?_unopened hunopened rfl]
  | some f =>
    have hunopened : Unopened (afterClause? whereKeywords) s.origin f.text := by
      refine unopened_origin "where" (by decide) s ?_
      exact (follows_keyword (by decide) f.word).breaks.unlettered
    simp only [Option.map_some, Option.getD_some,
      Text.cutAt?_opening hunopened (afterClause?_filter f)]

theorem readSource_origin :
    readSource (Text.trim s.origin) =
      .ok (String.ofList s.table.text, s.join.map Written.Join.clause) := by
  rw [(origin_spec s).1.trim, Statement.origin]
  cases s.join with
  | none =>
    rw [Option.map_none, Option.getD_none, List.append_nil]
    exact readSource_table s.table
  | some j => exact readSource_join s.table j

theorem readClause_grouping :
    readClause readGroupBy (s.grouping.map Written.Grouping.list) =
      .ok (s.grouping.map fun g => g.names.items.map fun n => String.ofList n.text) := by
  cases s.grouping with
  | none => rfl
  | some g =>
    rw [Option.map_some, readClause, Written.Grouping.list, readGroupBy_list]
    rfl

theorem readClause_filter :
    readClause readWhere (s.filter.map fun f => f.predicates.text Word.text Predicate.text) =
      .ok (s.filter.map fun f => f.predicates.items.map Predicate.condition) := by
  cases s.filter with
  | none => rfl
  | some f =>
    rw [Option.map_some, readClause, readWhere_list]
    rfl

end Clauses

/-- Every statement is read as the query that was written. -/
theorem read_statement (s : Statement) :
    ∃ query, read (String.ofList s.text) = .ok query ∧
      query.fields = s.fields.items.map (fun f => String.ofList f.text) ∧
      query.table = String.ofList s.table.text ∧
      query.join = s.join.map Written.Join.clause ∧
      query.conditions = s.predicates.map Predicate.condition ∧
      query.groupBy = s.grouping.map (fun g => g.names.items.map fun n => String.ofList n.text) ∧
      (query.summarized = true ↔ s.grouping = none ∧ ∃ f ∈ s.fields.items, f.IsAggregate) := by
  have hconditions : (s.filter.map fun f => f.predicates.items.map Predicate.condition).getD [] =
      s.predicates.map Predicate.condition := by
    rw [Statement.predicates]
    cases s.filter <;> rfl
  rw [read]
  simp only [String.toList_ofList, List.isEmpty_iff, trim_text_ne_nil, if_false, splitSelect?_text,
    Statement.list, readFields_list, splitClause_groupBy, readClause_grouping, splitClause_where,
    readClause_filter, readSource_origin]
  cases s.grouping with
  | none =>
    refine ⟨_, rfl, rfl, rfl, rfl, hconditions, rfl, ?_⟩
    simp [select, hasAggregate_iff]
  | some g => exact ⟨_, rfl, rfl, rfl, rfl, hconditions, rfl, by simp [withGroupBy]⟩

end Tabular.Query
