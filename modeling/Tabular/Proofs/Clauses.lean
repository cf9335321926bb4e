import Tabular.Proofs.ReadingConditions
import Tabular.Proofs.ReadingSources
/-!
# Where the clauses of a written query open

The first WHERE and the first GROUP BY of a text are those of its clauses: names are no keywords,
and what looks like a keyword in a value is not taken for one.
-/

namespace Tabular.Query

open Written (Blanks Gap Keyword Name Word Separated Predicate Value Quoted IsOneOf Statement)
open Text (Solid StartsBare Trimmed Breaks Unlettered Unopened afterClause?)

/-! ## Texts cut at a clause -/

section Splits
variable {keywords : List (List Char)} {cs x y : List Char}

theorem splitClause_append (h : Unopened (afterClause? keywords) x y) :
    splitClause keywords (x ++ y) =
      (x ++ (splitClause keywords y).1, (splitClause keywords y).2) := by
  rw [splitClause, splitClause, Text.cutAt?_append h]
  cases Text.cutAt? (afterClause? keywords) y <;> rfl

theorem splitClause_eq_none_iff :
    (splitClause keywords cs).2 = none ↔ ∀ s, s <:+ cs → afterClause? keywords s = none := by
  rw [← Text.cutAt?_eq_none_iff, splitClause]
  cases Text.cutAt? (afterClause? keywords) cs <;> simp

/-- A text is cut where the clause opens first. -/
theorem splitClause_spec (keywords : List (List Char)) (cs : List Char) :
    ∃ z, cs = (splitClause keywords cs).1 ++ z ∧
      Unopened (afterClause? keywords) (splitClause keywords cs).1 z ∧
      (splitClause keywords cs).2 = afterClause? keywords z := by
  rw [splitClause]
  cases hcut : Text.cutAt? (afterClause? keywords) cs with
  | none =>
    rw [Text.cutAt?_eq_none_iff] at hcut
    refine ⟨[], (List.append_nil cs).symm, fun s _ hs => ?_, (hcut [] List.nil_suffix).symm⟩
    rw [List.append_nil]
    exact hcut s hs
  | some cut =>
    obtain ⟨z, hz, hopen, hunopened⟩ := Text.exists_opening_of_cutAt? hcut
    exact ⟨z, hz, hunopened, hopen.symm⟩

end Splits

/-! ## The source -/

/-- The words that open the clauses. -/
def openings : List String := ["where", "group"]

section Source
variable {letters : String} {keywords : List (List Char)} {x : List Char}

theorem openings_spec (h : letters ∈ openings) :
    letters.toList.all Char.isLower = true ∧ letters.toList ≠ [] ∧ letters ∈ Written.reserved ∧
      ∀ word ∈ ["inner", "left", "right", "join", "on"], word.toList ≠ letters.toList := by
  revert letters
  decide

/-- No clause opens in a join. -/
theorem unopened_join (h : letters ∈ openings) (j : Written.Join) (hx : Unlettered x) :
    Unopened (afterClause? (letters.toList :: keywords)) j.text x := by
  obtain ⟨hk, hne, hreserved, hothers⟩ := openings_spec h
  have hopens := @Text.opens_clause _ keywords hk hne
  have hkeyword : ∀ {word : String} [Text.Lowercase word] (b : Blanks) (k : Keyword word)
      {y : List Char}, Unlettered y → word ∈ ["inner", "left", "right", "join", "on"] →
        Unopened (afterClause? (letters.toList :: keywords)) (b.text ++ k.text) y := by
    intro word _ b k y hy hword
    have hsolid := Text.keyword_solid k
    have hdiffers : k.text.map Text.foldCase ≠ letters.toList := by
      rw [Text.keyword_foldCase k]
      exact hothers word hword
    exact (hopens.beforeWord b hsolid hy hdiffers).append (hopens.inWord hsolid.unbroken)
  have hname : ∀ (b : Blanks) (n : Name) {y : List Char}, Unlettered y →
      Unopened (afterClause? (letters.toList :: keywords)) (b.text ++ n.text) y := by
    intro b n y hy
    have hdiffers := n.foldCase_ne letters hreserved rfl
    exact (hopens.beforeWord b n.solid hy hdiffers).append (hopens.inWord n.solid.unbroken)
  have hgap : ∀ (g : Gap) (y : List Char), Unlettered (g.text ++ y) := by
    intro g y
    exact (Text.breaks_gap g).unlettered
  -- Each word of the join with the blanks before it.
  have htext : j.text =
      (j.before.text ++ j.keyword.text) ++ ((j.join.before.text ++ j.join.keyword.text) ++
        ((j.join.after.text ++ j.table.text) ++ ((j.on.before.text ++ j.on.keyword.text) ++
          ((j.on.after.text ++ j.left.text) ++ (j.beforeEquals.text ++ (['='] ++
            (j.afterEquals.text ++ j.right.text))))))) := by
    simp only [join_text, Written.Join.equality, List.append_assoc, List.cons_append,
      List.nil_append]
  rw [htext]
  refine .append (hkeyword _ _ ?_ ?_) (.append (hkeyword _ _ ?_ ?_) (.append (hname _ _ ?_)
    (.append (hkeyword _ _ ?_ ?_) (.append (hname _ _ ?_) (.append ?_ (.append ?_ (hname _ _ hx)))))))
  · simpa only [List.append_assoc] using hgap j.join.before _
  · cases j.kind <;> decide
  · simpa only [List.append_assoc] using hgap j.join.after _
  · decide
  · simpa only [List.append_assoc] using hgap j.on.before _
  · simpa only [List.append_assoc] using hgap j.on.after _
  · decide
  · rw [List.append_assoc]
    exact Text.unlettered_blanks j.beforeEquals (Text.unlettered_cons (by decide))
  · exact hopens.beforeOther j.beforeEquals (by decide) (by decide)
  · exact hopens.inChar (by decide)

theorem unopened_origin (letters : String) (h : letters ∈ openings) (s : Statement)
    (hx : Unlettered x) :
    Unopened (afterClause? (letters.toList :: keywords)) s.origin x := by
  obtain ⟨hk, hne, -, -⟩ := openings_spec h
  refine .append ((Text.opens_clause hk hne).inWord s.table.solid.unbroken) ?_
  cases s.join with
  | none => exact Text.unopened_nil
  | some j => exact unopened_join h j hx

end Source

/-! ## Quoted values -/

section Quotes
variable {cs w x rest : List Char}

theorem exists_gap_of_afterBlanks? (h : Text.afterBlanks? cs = some rest) :
    ∃ g : Gap, cs = g.text ++ rest := by
  cases cs with
  | nil => cases h
  | cons c cs =>
    rw [Text.afterBlanks?] at h
    split at h
    · rename_i hc
      obtain rfl := Option.some.inj h
      have hblank : ∀ d ∈ c :: cs.takeWhile Text.isBlank, Text.isBlank d = true := by
        intro d hd
        rcases List.mem_cons.1 hd with rfl | hd
        · exact hc
        · exact List.mem_takeWhile_imp hd
      refine ⟨⟨⟨_, hblank⟩, List.cons_ne_nil _ _⟩, ?_⟩
      rw [List.cons_append, Text.trimLeft, List.takeWhile_append_dropWhile]
    · cases h

theorem exists_of_afterKeyword? {keyword : List Char}
    (h : Text.afterKeyword? keyword cs = some rest) :
    ∃ w, cs = w ++ rest ∧ w.map Text.foldCase = keyword := by
  rw [Text.afterKeyword?] at h
  split at h
  · rename_i heq
    obtain rfl := Option.some.inj h
    exact ⟨cs.take keyword.length, (List.take_append_drop _ cs).symm, beq_iff_eq.1 heq⟩
  · cases h

/-- A keyword that is found is written, unless it has one of the letters that other characters fold
to. -/
theorem exists_keyword_of_afterKeyword? {letters : String} (hs : 's' ∉ letters.toList)
    (hk : 'k' ∉ letters.toList) (h : Text.afterKeyword? letters.toList cs = some rest) :
    ∃ k : Keyword letters, cs = k.text ++ rest := by
  obtain ⟨w, hw, hfold⟩ := exists_of_afterKeyword? h
  refine ⟨⟨w, Eq.trans (List.map_congr_left fun c hc => ?_) hfold⟩, hw⟩
  have hmem : Text.foldCase c ∈ letters.toList := by
    rw [← hfold]
    exact List.mem_map_of_mem hc
  -- Two characters fold to letters that they are not a case of.
  unfold Text.foldCase at hmem ⊢
  split
  · rename_i hlong
    rw [if_pos hlong] at hmem
    exact absurd hmem hs
  · rename_i hlong
    rw [if_neg hlong] at hmem
    split
    · rename_i hkelvin
      rw [if_pos hkelvin] at hmem
      exact absurd hmem hk
    · rfl

theorem breaks_of_afterClause? (h : afterClause? [] cs = some rest) : Breaks cs := by
  cases cs with
  | nil => exact Text.breaks_nil
  | cons c cs =>
    intro d hd
    cases hd
    by_contra hc
    rw [afterClause?, Text.afterBlanks?, if_neg hc] at h
    · cases h
    · simp

/-- What GROUP BY opens is the words with blanks around them, if anything follows. -/
theorem exists_groupBy (h : afterClause? groupByKeywords cs = some rest) :
    ∃ (g₁ : Gap) (group : Keyword "group") (g₂ : Gap) (by' : Keyword "by") (y : List Char),
      cs = (g₁.text ++ group.text ++ g₂.text ++ by'.text) ++ y ∧ Breaks y := by
  simp only [groupByKeywords, afterClause?, Option.bind_eq_some_iff] at h
  obtain ⟨cs₁, h₁, cs₂, h₂, cs₃, h₃, cs₄, h₄, h⟩ := h
  obtain ⟨g₁, rfl⟩ := exists_gap_of_afterBlanks? h₁
  obtain ⟨group, rfl⟩ := @exists_keyword_of_afterKeyword? _ _ "group" (by decide) (by decide) h₂
  obtain ⟨g₂, rfl⟩ := exists_gap_of_afterBlanks? h₃
  obtain ⟨by', rfl⟩ := @exists_keyword_of_afterKeyword? _ _ "by" (by decide) (by decide) h₄
  exact ⟨g₁, group, g₂, by', cs₄, by simp only [List.append_assoc], breaks_of_afterClause? h⟩

theorem afterClause?_isGroupBy (h : Written.IsGroupBy cs) (x : List Char) :
    ∃ rest, afterClause? groupByKeywords (cs ++ x) = some rest := by
  obtain ⟨before, group, between, by', after, rfl⟩ := h
  have hg : group.text.map Text.foldCase = ['g', 'r', 'o', 'u', 'p'] := Text.keyword_foldCase group
  have hb : by'.text.map Text.foldCase = ['b', 'y'] := Text.keyword_foldCase by'
  refine ⟨Text.trimLeft x, ?_⟩
  simp only [List.append_assoc]
  rw [groupByKeywords, Text.afterClause?_append before (Text.keyword_solid group) hg,
    Text.afterClause?_append between (Text.keyword_solid by') hb, Text.afterClause?_blanks]

/-- GROUP BY opens in a quoted value only if its words stand there. -/
theorem unopened_quoted (q : Quoted) :
    Unopened (afterClause? groupByKeywords) q.content (q.mark :: x) := by
  intro cs hne hcs
  by_contra hsome
  obtain ⟨rest, hrest⟩ := Option.ne_none_iff_exists'.1 hsome
  obtain ⟨g₁, group, g₂, by', y, htext, hy⟩ := exists_groupBy hrest
  have hmark : Text.isBlank q.mark = false := Written.isBlank_of_isQuote q.quote
  have hletter : q.mark.isAlpha = false := Written.isAlpha_of_isQuote q.quote
  -- The quote stands behind the words.
  have hwords : q.mark ∉ g₁.text ++ group.text ++ g₂.text ++ by'.text := by
    have hgap : ∀ g : Gap, q.mark ∉ g.text := by
      intro g h
      rw [g.blank _ h] at hmark
      cases hmark
    have hgroup : q.mark ∉ group.text := by
      intro h
      rw [Text.keyword_isAlpha group _ h] at hletter
      cases hletter
    have hby : q.mark ∉ by'.text := by
      intro h
      rw [Text.keyword_isAlpha by' _ h] at hletter
      cases hletter
    simp [hgap, hgroup, hby]
  have hbreaks : y ≠ q.mark :: x := by
    rintro rfl
    rw [hy q.mark rfl] at hmark
    cases hmark
  rcases List.append_eq_append_iff.1 htext with ⟨t, ht, hquote⟩ | ⟨t, rfl, rfl⟩
  · -- The content ends among the words, so the quote would be one of their characters.
    cases t with
    | nil => exact hbreaks hquote.symm
    | cons d t =>
      rw [List.cons_append, List.cons.injEq] at hquote
      exact hwords (by rw [ht, hquote.1]; simp)
  · -- The words stand in the content with at least one blank behind them.
    cases t with
    | nil => exact hbreaks rfl
    | cons d t =>
      refine q.ungrouped _ (List.IsInfix.trans ⟨[], t, ?_⟩ hcs.isInfix)
        ⟨g₁, group, g₂, by', .single d (hy d rfl), rfl⟩
      simp [Gap.single]

end Quotes

/-! ## The conditions -/

section Conditions
variable {x : List Char}

/-- The text behind a value: a word ends there, and BY does not follow. -/
structure Follows (x : List Char) : Prop where
  breaks : Breaks x
  noBy : afterClause? [['b', 'y']] x = none

theorem opens_groupBy : Text.Opens ['g', 'r', 'o', 'u', 'p'] (afterClause? groupByKeywords) :=
  Text.opens_clause (by decide) (by decide)

theorem unopened_before_value (b : Blanks) (v : Value) (hx : Follows x) :
    Unopened (afterClause? groupByKeywords) b.text (v.text ++ x) := by
  cases v with
  | bare word =>
    have hsolid : Solid word.text := ⟨word.nonempty, word.unbroken⟩
    by_cases hgroup : word.text.map Text.foldCase = ['g', 'r', 'o', 'u', 'p']
    · -- The value is the word GROUP.
      exact Text.unopened_blanks b fun g => (Text.afterClause?_append g hsolid hgroup).trans hx.noBy
    · exact opens_groupBy.beforeWord b hsolid hx.breaks.unlettered hgroup
  | quoted q =>
    exact opens_groupBy.beforeOther b (Written.isBlank_of_isQuote q.quote)
      (Written.isLower_foldCase_of_isQuote q.quote)

theorem unopened_value (v : Value) : Unopened (afterClause? groupByKeywords) v.text x := by
  cases v with
  | bare word => exact opens_groupBy.inWord word.unbroken
  | quoted q =>
    have hmark : ∀ y, Unopened (afterClause? groupByKeywords) [q.mark] y := by
      intro y
      exact opens_groupBy.inChar (Written.isBlank_of_isQuote q.quote)
    have htext : (Value.quoted q).text = [q.mark] ++ (q.content ++ [q.mark]) := rfl
    rw [htext]
    exact (hmark _).append ((unopened_quoted q).append (hmark x))

theorem unopened_predicate (c : Predicate) (hx : Follows x) :
    Unopened (afterClause? groupByKeywords) c.text x := by
  cases c with
  | symbolic c =>
    obtain ⟨first, symbol, hsymbol, hfirst⟩ := c.exists_first
    rw [Predicate.text, c.text_eq]
    refine .append (opens_groupBy.inWord c.field.unbroken)
      (.append ?_ (.append (opens_groupBy.inWord c.solid.unbroken)
      (.append (unopened_before_value c.after c.value hx) (unopened_value c.value))))
    rw [hsymbol]
    exact opens_groupBy.beforeOther c.before (Written.isBlank_of_isOperatorChar hfirst)
      (Written.isLower_foldCase_of_isOperatorChar hfirst)
  | worded c =>
    have hword : c.word.map Text.foldCase ≠ ['g', 'r', 'o', 'u', 'p'] := by
      rw [Text.map_foldCase c.isNameChar]
      intro h
      refine c.free ?_
      rw [IsOneOf, h]
      decide
    rw [Predicate.text, c.text_eq]
    refine .append (opens_groupBy.inWord c.field.unbroken)
      (.append ?_ (.append (opens_groupBy.inWord c.solid.unbroken)
      (.append (unopened_before_value c.after.toBlanks c.value hx) (unopened_value c.value))))
    rw [List.append_assoc]
    refine opens_groupBy.beforeWord c.before.toBlanks c.solid ?_ hword
    rw [List.append_assoc]
    exact (Text.breaks_gap c.after).unlettered

/-- GROUP BY opens in no keyword with a name behind it. -/
theorem unopened_word {letters : String} [Text.Lowercase letters]
    (hgroup : letters.toList ≠ ['g', 'r', 'o', 'u', 'p']) (w : Word letters) (n : Name)
    (hx : Unlettered x) : Unopened (afterClause? groupByKeywords) w.text (n.text ++ x) := by
  have hsolid := Text.keyword_solid w.keyword
  rw [Word.text, List.append_assoc]
  refine .append ?_ (.append (opens_groupBy.inWord hsolid.unbroken) ?_)
  · rw [List.append_assoc]
    refine opens_groupBy.beforeWord w.before.toBlanks hsolid (Text.breaks_gap w.after).unlettered ?_
    rwa [Text.keyword_foldCase w.keyword]
  · exact opens_groupBy.beforeWord w.after.toBlanks n.solid hx
      (n.foldCase_ne "group" (by decide) rfl)

theorem unopened_keyword {letters : String} [Text.Lowercase letters]
    (hgroup : letters.toList ≠ ['g', 'r', 'o', 'u', 'p']) (w : Word letters) (c : Predicate) :
    Unopened (afterClause? groupByKeywords) w.text (c.text ++ x) := by
  obtain ⟨n, y, htext, hy⟩ := c.exists_name x
  rw [htext]
  exact unopened_word hgroup w n hy

theorem follows_keyword {letters : String} [Text.Lowercase letters]
    (hby : letters.toList ≠ ['b', 'y']) (w : Word letters) : Follows (w.text ++ x) := by
  rw [Word.text, List.append_assoc, List.append_assoc]
  refine ⟨Text.breaks_gap w.before, Text.afterClause?_word w.before (by decide)
    (Text.keyword_solid w.keyword) (Text.breaks_gap w.after).unlettered ?_⟩
  rwa [Text.keyword_foldCase w.keyword]

theorem unopened_filter (f : Written.Filter) (hx : Follows x) :
    Unopened (afterClause? groupByKeywords) f.text x := by
  have hlist :
      Unopened (afterClause? groupByKeywords) (f.predicates.text Word.text Predicate.text) x :=
    Text.unopened_separated (fun c _ => unopened_predicate c)
      (fun w c _ _ => unopened_keyword (by decide) w c)
      (fun w _ _ _ => follows_keyword (by decide) w) f.predicates hx
  refine .append ?_ hlist
  rw [Separated.text, List.append_assoc]
  exact unopened_keyword (by decide) f.word f.predicates.first

end Conditions

end Tabular.Query
