import Tabular.Proofs.Filtering
import Tabular.Proofs.Reading
/-!
# Where conditions come from

Every accepted text is `SELECT list FROM table` with a tail behind it. It is read with conditions if the
word WHERE stands in the tail and the words GROUP BY do not stand before it. A WHERE that stands
behind GROUP BY is not looked for: it becomes part of a group name.
-/

namespace Tabular.Written

open Text (Solid Trimmed Breaks)

/-! ## Outlines -/

/-- The parts of a text up to its table, and the tail behind it. The first FROM behind a list is the
one that ends it. -/
structure Outline where
  before : Blanks
  select : List Char
  selects : select.map Text.foldCase = ['s', 'e', 'l', 'e', 'c', 't']
  gap : Gap
  list : List Char
  trimmed : Trimmed list
  source : Word "from"
  first : ∀ w : Word "from", ¬ w.text <:+: list ++ source.before.text
  table : List Char
  solid : Solid table
  tail : List Char
  breaks : Breaks tail

namespace Outline
variable (o : Outline)

def text : List Char :=
  o.before.text ++ (o.select ++ (o.gap.text ++ (o.list ++ (o.source.text ++ (o.table ++ o.tail)))))

/-- The tail has the word WHERE with blanks on both sides, and no GROUP BY before it. -/
def Filtered : Prop :=
  ∃ (middle : List Char) (w : Word "where") (rest : List Char),
    o.tail = middle ++ (w.text ++ rest) ∧
      ∀ cs, cs <:+: middle ++ w.before.text → ¬ IsGroupBy cs

end Outline

end Tabular.Written

namespace Tabular.Query

open Written (Blanks Gap Word Outline IsGroupBy)
open Text (Solid StartsBare EndsBare EndsBlank Breaks Unopened afterClause?)

/-! ## FROM -/

section From
variable {x cs rest : List Char}

/-- What FROM opens is the word with blanks on both sides. -/
theorem exists_word_of_afterFrom? (h : afterFrom? cs = some rest) :
    ∃ (w : Word "from") (y : List Char), cs = w.text ++ y ∧ StartsBare y ∧
      (Text.trim rest ≠ [] → y = rest) := by
  simp only [afterFrom?, Option.bind_eq_bind, Option.bind_eq_some_iff] at h
  obtain ⟨cs₁, h₁, cs₂, h₂, y, h₃, h⟩ := h
  obtain ⟨before, rfl⟩ := exists_gap_of_afterBlanks? h₁
  obtain ⟨keyword, rfl⟩ := @exists_keyword_of_afterKeyword? _ _ "from" (by decide) (by decide) h₂
  obtain ⟨after, rfl⟩ := exists_gap_of_afterBlanks? h₃
  rw [Text.afterBlanks?_append] at h₃
  refine ⟨⟨before, keyword, after⟩, y, by simp only [Word.text, List.append_assoc], ?_, ?_⟩
  · rw [← Option.some.inj h₃]
    exact Text.startsBare_trimLeft y
  · intro hrest
    split at h
    · -- Only blanks follow, and the last of them stands for the rest.
      rename_i hempty
      rw [List.isEmpty_iff] at hempty
      subst hempty
      split at h
      · obtain rfl := Option.some.inj h
        refine absurd (Text.trim_blank ⟨_, fun c hc => ?_⟩) hrest
        have hmem := List.mem_of_mem_drop hc
        rw [List.append_nil] at hmem
        exact after.blank c hmem
      · cases h
    · exact Option.some.inj h

/-- FROM opens in a list only if the word stands there, with the blanks behind the list. -/
theorem unopened_from {list : List Char} (w : Word "from") (hlist : EndsBare list)
    (h : ∀ w' : Word "from", ¬ w'.text <:+: list ++ w.before.text) :
    Unopened afterFrom? list (w.text ++ x) := by
  intro cs hne hcs
  by_contra hsome
  obtain ⟨rest, hrest⟩ := Option.ne_none_iff_exists'.1 hsome
  obtain ⟨⟨before, keyword, after⟩, y, htext, -, -⟩ := exists_word_of_afterFrom? hrest
  have hbreaks : Breaks (w.text ++ x) := by
    simp only [Word.text, List.append_assoc]
    exact Text.breaks_gap w.before
  simp only [Word.text, List.append_assoc] at htext hbreaks
  obtain ⟨z, rfl, hz⟩ := Text.gap_word_boundary before (Text.keyword_solid keyword)
    (hlist.of_suffix hcs) hne hbreaks htext.symm
  -- The blank behind the word is the first one of the gap.
  obtain ⟨c, rest, hc⟩ := List.exists_cons_of_ne_nil
    (List.append_ne_nil_of_right_ne_nil z w.before.nonempty)
  have hblank : Text.isBlank c = true := by
    have hgap : Breaks (z ++ (w.before.text ++ (w.keyword.text ++ (w.after.text ++ x)))) :=
      hz ▸ Text.breaks_gap after
    rw [← List.append_assoc, hc] at hgap
    exact hgap c rfl
  obtain ⟨p, rfl⟩ := hcs
  refine h ⟨before, keyword, .single c hblank⟩ ⟨p, rest, ?_⟩
  simp only [Word.text, Gap.single, List.append_assoc, List.singleton_append, ← hc]

end From

/-! ## GROUP BY -/

section GroupBy
variable {w x y : List Char}

/-- GROUP BY opens before another word only if the words stand there. -/
theorem unopened_beforeWord (hx : EndsBlank x) (h : ∀ cs, cs <:+: x → ¬ IsGroupBy cs)
    (hw : Solid w) (hgroup : w.map Text.foldCase ≠ ['g', 'r', 'o', 'u', 'p'])
    (hby : w.map Text.foldCase ≠ ['b', 'y']) (hy : Breaks y) :
    Unopened (afterClause? groupByKeywords) x (w ++ y) := by
  intro cs hne hcs
  by_contra hsome
  obtain ⟨rest, hrest⟩ := Option.ne_none_iff_exists'.1 hsome
  obtain ⟨g₁, group, g₂, by', z, htext, hz⟩ := exists_groupBy hrest
  have hends : EndsBlank cs := hx.of_suffix hcs
  have hstarts : StartsBare (w ++ y) := hw.startsBare.append hw.nonempty
  simp only [List.append_assoc] at htext
  rcases Text.gap_boundary g₁ (Text.keyword_solid group) hends hne hstarts htext.symm with
    ⟨-, hword⟩ | ⟨z₁, hne₁, hends₁, rfl, h₁⟩
  · -- The word would be GROUP.
    obtain rfl := Text.eq_of_solid hw (Text.keyword_solid group) hy (Text.breaks_gap g₂) hword
    exact hgroup (Text.keyword_foldCase group)
  rcases Text.gap_boundary g₂ (Text.keyword_solid by') hends₁ hne₁ hstarts h₁ with
    ⟨-, hword⟩ | ⟨z₂, hne₂, -, rfl, rfl⟩
  · obtain rfl := Text.eq_of_solid hw (Text.keyword_solid by') hy hz hword
    exact hby (Text.keyword_foldCase by')
  obtain ⟨c, z, rfl⟩ := List.exists_cons_of_ne_nil hne₂
  have hc : Text.isBlank c = true := hz c rfl
  refine h _ (List.IsInfix.trans ⟨[], z, ?_⟩ hcs.isInfix) ⟨g₁, group, g₂, by', .single c hc, rfl⟩
  simp [Gap.single]

end GroupBy

/-! ## The end of the text -/

section Terminator
variable {x : List Char}

/-- What can be dropped at the end of a text. -/
def IsEnding (e : List Char) : Prop := ∀ c ∈ e, Text.isBlank c = true ∨ c = ';'

theorem isEnding_blanks (b : Blanks) : IsEnding b.text := fun c hc => .inl (b.blank c hc)

theorem IsEnding.append {d e : List Char} (hd : IsEnding d) (he : IsEnding e) :
    IsEnding (d ++ e) := fun c hc => (List.mem_append.1 hc).elim (hd c) (he c)

/-- A word of letters is not among what is dropped at the end of a text. -/
theorem IsEnding.exists_kept {e lead word x body : List Char} (he : IsEnding e)
    (hword : Solid word) (halpha : ∀ c ∈ word, c.isAlpha = true) (hx : Breaks x)
    (htext : lead ++ word ++ x = body ++ e) : ∃ r, body = lead ++ word ++ r ∧ Breaks r := by
  rcases List.append_eq_append_iff.1 htext with ⟨r, hbody, rfl⟩ | ⟨a, hlead, rfl⟩
  · exact ⟨r, hbody, hx.of_append⟩
  cases a with
  | nil => exact ⟨[], by simpa using hlead.symm, Text.breaks_nil⟩
  | cons c a =>
    -- The last letter of the word would be dropped.
    have hletter := List.getLast_mem hword.nonempty
    have hlast := congrArg List.getLast? hlead
    rw [List.getLast?_append_of_ne_nil lead hword.nonempty,
      List.getLast?_append_of_ne_nil body (List.cons_ne_nil c a),
      List.getLast?_eq_getLast_of_ne_nil hword.nonempty] at hlast
    have hdropped : word.getLast hword.nonempty ∈ c :: a := List.mem_of_getLast? hlast.symm
    rcases he _ (List.mem_append_left x hdropped) with h | h
    · rw [hword.unbroken _ hletter] at h
      cases h
    · exact absurd (halpha _ hletter) (by rw [h]; decide)

theorem exists_dropped (hx : StartsBare x) : ∃ e, x = dropTerminator x ++ e ∧ IsEnding e := by
  obtain ⟨b, hb⟩ := Text.exists_trimRight x
  by_cases hlast : (Text.trimRight x).getLast? = some ';'
  · obtain ⟨r, hr⟩ := List.getLast?_eq_some_iff.1 hlast
    obtain ⟨b', hb'⟩ := Text.exists_trimRight r
    have hending : IsEnding ([';'] ++ b.text) :=
      .append (List.forall_mem_singleton.2 (.inr rfl)) (isEnding_blanks b)
    rw [hr, List.append_assoc] at hb
    by_cases hempty : Text.trimRight r = []
    · -- The semicolon is all there is, since the text starts with no blank.
      have hrnil : r = [] := by
        rw [hempty, List.nil_append] at hb'
        cases r with
        | nil => rfl
        | cons c r =>
          have hc := b'.blank c (by rw [← hb']; exact List.mem_cons_self)
          rw [hx c (by rw [hb]; rfl)] at hc
          cases hc
      have hdrop : dropTerminator x = [';'] := by simp [dropTerminator, hr, hempty]
      exact ⟨b.text, by rw [hdrop, hb, hrnil, List.nil_append], isEnding_blanks b⟩
    · refine ⟨b'.text ++ ([';'] ++ b.text), ?_, (isEnding_blanks b').append hending⟩
      have hdrop : dropTerminator x = Text.trimRight r := by
        simp [dropTerminator, hr, hempty]
      rw [hdrop, ← List.append_assoc, ← hb', hb]
  · refine ⟨b.text, ?_, isEnding_blanks b⟩
    have hdrop : dropTerminator x = Text.trimRight x := if_neg hlast
    rw [hdrop, ← hb]

theorem exists_ending (hx : StartsBare x) :
    ∃ e, x = Text.trim (dropTerminator x) ++ e ∧ IsEnding e := by
  obtain ⟨e, he, hending⟩ := exists_dropped hx
  have hstarts : StartsBare (dropTerminator x) := by
    rw [he] at hx
    exact hx.of_append
  obtain ⟨b, hb⟩ := Text.exists_trimRight (dropTerminator x)
  refine ⟨b.text ++ e, ?_, (isEnding_blanks b).append hending⟩
  rw [Text.trim, hstarts.trimLeft, ← List.append_assoc, ← hb, ← he]

theorem trim_dropTerminator_blank (b : Blanks) : Text.trim (dropTerminator b.text) = [] := by
  have htrim : Text.trimRight b.text = [] := by
    have h := Text.trimRight_blanks (x := []) b (fun c hc => absurd hc (by simp))
    rwa [List.nil_append] at h
  simp only [dropTerminator, htrim]
  rfl

end Terminator

/-! ## Outlines of accepted texts -/

section Select
variable {cs x list raw body : List Char}

theorem exists_gap_of_mem (h : x ∈ afterSomeBlanks cs) : ∃ g : Gap, cs = g.text ++ x := by
  induction cs with
  | nil => cases h
  | cons c cs ih =>
    rw [afterSomeBlanks] at h
    split at h
    · rename_i hc
      rcases List.mem_append.1 h with h | h
      · obtain ⟨g, rfl⟩ := ih h
        have hblank : ∀ d ∈ c :: g.text, Text.isBlank d = true :=
          List.forall_mem_cons.2 ⟨hc, g.blank⟩
        exact ⟨⟨⟨c :: g.text, hblank⟩, List.cons_ne_nil c _⟩, rfl⟩
      · rw [List.mem_singleton.1 h]
        exact ⟨.single c hc, rfl⟩
    · cases h

theorem exists_cut_of_cutAtFrom? (h : cutAtFrom? cs = some (list, raw)) :
    ∃ c l z, list = c :: l ∧ cs = list ++ z ∧ afterFrom? z = some raw ∧
      Unopened afterFrom? l z := by
  cases cs with
  | nil => cases h
  | cons c cs =>
    obtain ⟨⟨l, after⟩, hcut, hpair⟩ := Option.map_eq_some_iff.1 h
    cases hpair
    obtain ⟨z, rfl, hz, hunopened⟩ := Text.exists_opening_of_cutAt? hcut
    exact ⟨c, l, z, rfl, rfl, hz, hunopened⟩

/-- The parts of a split: blanks, SELECT, blanks, a list and FROM with what follows it. -/
theorem exists_parts_of_splitSelect? (h : splitSelect? cs = some (list, body)) :
    ∃ (before : Blanks) (select : List Char) (gap : Gap) (c : Char) (l z raw : List Char),
      cs = before.text ++ (select ++ (gap.text ++ (list ++ z))) ∧
      select.map Text.foldCase = ['s', 'e', 'l', 'e', 'c', 't'] ∧ list = c :: l ∧
      Unopened afterFrom? l z ∧ afterFrom? z = some raw ∧
      body = Text.trim (dropTerminator raw) := by
  simp only [splitSelect?, Option.bind_eq_bind, Option.bind_eq_some_iff] at h
  obtain ⟨x, hselect, ⟨list', raw⟩, hfind, hpair⟩ := h
  cases hpair
  obtain ⟨before, hbefore⟩ := Text.exists_trimLeft cs
  obtain ⟨select, htext, hfold⟩ := exists_of_afterKeyword? hselect
  obtain ⟨y, hy, hcut⟩ := List.exists_of_findSome?_eq_some hfind
  obtain ⟨gap, rfl⟩ := exists_gap_of_mem hy
  obtain ⟨c, l, z, hlist, rfl, hz, hunopened⟩ := exists_cut_of_cutAtFrom? hcut
  exact ⟨before, select, gap, c, l, z, raw, by rw [← htext, ← hbefore], hfold, hlist, hunopened, hz,
    rfl⟩

/-- A list that starts behind all blanks, with FROM and more behind it. The reader looks for FROM
behind the first character only, but this one is no blank. -/
theorem opening_none {c : Char} {l z s : List Char} (h : Unopened afterFrom? l z)
    (hlist : list <:+ c :: l) (hstarts : StartsBare list) (hs : s <:+ list)
    (hblank : ¬ StartsBare s) : afterFrom? (s ++ z) = none := by
  have hne : s ≠ [] := by
    rintro rfl
    exact hblank fun d hd => absurd hd (by simp)
  rcases List.suffix_cons_iff.1 (hs.trans hlist) with rfl | hs'
  · rw [hs.eq_of_length_le hlist.length_le] at hblank
    exact absurd hstarts hblank
  · exact h s hne hs'

section Cut
variable {c : Char} {l y : List Char} (w : Word "from")
  (h : Unopened afterFrom? l (w.text ++ y)) (hlist : list <:+ c :: l) (hstarts : StartsBare list)
include h hlist hstarts

theorem endsBare_list (hy : StartsBare y) (hne : y ≠ []) : EndsBare list := by
  intro d hd
  by_contra hblank
  rw [Bool.not_eq_false] at hblank
  obtain ⟨p, hp⟩ := List.getLast?_eq_some_iff.1 hd
  have hnone := opening_none (s := [d]) h hlist hstarts ⟨p, hp.symm⟩ fun hbare => by
    rw [hbare d rfl] at hblank
    cases hblank
  -- FROM would open one blank earlier.
  have hgap : ∀ e ∈ d :: w.before.text, Text.isBlank e = true :=
    List.forall_mem_cons.2 ⟨hblank, w.before.blank⟩
  have hsome := afterFrom?_source ⟨⟨⟨_, hgap⟩, List.cons_ne_nil d _⟩, w.keyword, w.after⟩ hy hne
  simp only [Word.text, List.append_assoc, List.cons_append, List.nil_append] at hnone hsome
  rw [hnone] at hsome
  cases hsome

/-- No FROM stands in the list. -/
theorem first_from (w' : Word "from") : ¬ w'.text <:+: list ++ w.before.text := by
  rintro ⟨p, q, htext⟩
  -- The letters of the word are not among the blanks behind the list.
  have hletters : ∀ u v, w.before.text ≠ u ++ (w'.text ++ v) := by
    intro u v hu
    obtain ⟨d, hd, hbare⟩ := (Text.keyword_solid w'.keyword).exists_bare
    rw [w.before.blank d (by rw [hu]; simp [Word.text, hd])] at hbare
    cases hbare
  rw [List.append_assoc] at htext
  rcases List.append_eq_append_iff.1 htext with ⟨a, hlist', ha⟩ | ⟨a, -, ha⟩
  · have hblank : ¬ StartsBare a := by
      intro hbare
      cases a with
      | nil => exact hletters [] q ha.symm
      | cons d a =>
        have hbreaks : Breaks (w'.text ++ q) := by
          simp only [Word.text, List.append_assoc]
          exact Text.breaks_gap w'.before
        have hd := hbreaks d (by rw [ha]; rfl)
        rw [hbare d rfl] at hd
        cases hd
    have hnone := opening_none h hlist hstarts ⟨p, hlist'.symm⟩ hblank
    have hrest : Text.trimLeft (q ++ (w.keyword.text ++ (w.after.text ++ y))) ≠ [] := by
      intro hnil
      obtain ⟨d, hd, hbare⟩ := (Text.keyword_solid w.keyword).exists_bare
      rw [List.dropWhile_eq_nil_iff.1 hnil d (by simp [hd])] at hbare
      cases hbare
    have hsome := afterFrom?_text w' hrest
    rw [← List.append_assoc, ha, List.append_assoc] at hsome
    simp only [Word.text, List.append_assoc] at hnone hsome
    rw [hnone] at hsome
    cases hsome
  · exact hletters a q ha

end Cut

/-- The table is the first word behind FROM. -/
theorem exists_table {y : List Char} (hy : StartsBare y) (hne : y ≠ []) :
    ∃ table tail, y = table ++ tail ∧ Solid table ∧ Breaks tail := by
  refine ⟨y.takeWhile (!Text.isBlank ·), y.dropWhile (!Text.isBlank ·),
    List.takeWhile_append_dropWhile.symm, ⟨?_, fun d hd => ?_⟩, fun d hd => ?_⟩
  · cases y with
    | nil => exact absurd rfl hne
    | cons d y => simp [hy d rfl]
  · simpa using List.mem_takeWhile_imp hd
  · have hhead := List.head?_dropWhile_not (!Text.isBlank ·) y
    rw [hd] at hhead
    simpa using hhead

/-- A split text has an outline, if neither of the parts is blank. -/
theorem exists_outline (h : splitSelect? cs = some (list, body)) (hlist : Text.trim list ≠ [])
    (hbody : body ≠ []) : ∃ o : Outline, cs = o.text := by
  obtain ⟨before, select, gap, c, l, z, raw, rfl, hfold, hcons, hunopened, hz, rfl⟩ :=
    exists_parts_of_splitSelect? h
  obtain ⟨w, y, rfl, hy, hraw⟩ := exists_word_of_afterFrom? hz
  have hraw : y = raw := by
    apply hraw
    intro hblank
    apply hbody
    exact trim_dropTerminator_blank ⟨raw, Text.isBlank_of_trim_eq_nil hblank⟩
  subst hraw
  have hyne : y ≠ [] := by
    rintro rfl
    exact hbody rfl
  -- The blanks at the start of the list belong to the gap.
  obtain ⟨b, hb⟩ := Text.exists_trimLeft list
  have hsuffix : Text.trimLeft list <:+ c :: l := ⟨b.text, by rw [← hb, hcons]⟩
  have hstarts : StartsBare (Text.trimLeft list) := Text.startsBare_trimLeft list
  have hne : Text.trimLeft list ≠ [] := by
    intro hnil
    rw [Text.trim, hnil] at hlist
    exact hlist rfl
  have hgap : ∀ d ∈ gap.text ++ b.text, Text.isBlank d = true := by
    intro d hd
    exact (List.mem_append.1 hd).elim (gap.blank d) (b.blank d)
  obtain ⟨table, tail, rfl, hsolid, hbreaks⟩ := exists_table hy hyne
  let o : Outline := {
    before
    select
    selects := hfold
    gap := ⟨⟨_, hgap⟩, List.append_ne_nil_of_left_ne_nil gap.nonempty _⟩
    list := Text.trimLeft list
    trimmed := ⟨hne, hstarts, endsBare_list w hunopened hsuffix hstarts hy hyne⟩
    source := w
    first := first_from w hunopened hsuffix hstarts
    table
    solid := hsolid
    tail
    breaks := hbreaks }
  refine ⟨o, ?_⟩
  have hlist : list = b.text ++ o.list := hb
  rw [Outline.text, hlist]
  simp only [o, List.append_assoc]

end Select

/-! ## The clauses of an accepted text -/

/-- Where the reader looks for WHERE: the text before GROUP BY. -/
def ungroupedPart (body : List Char) : List Char := (splitClause groupByKeywords body).1

/-- A text that is read is split, its parts are read one by one, and the query is put together from
them. -/
theorem exists_reads_of_read {text : String} {query : Query} (h : read text = .ok query) :
    ∃ list body fields groupBy conditions source, splitSelect? text.toList = some (list, body) ∧
      readFields list = .ok fields ∧
      readClause readGroupBy (splitClause groupByKeywords body).2 = .ok groupBy ∧
      readClause readWhere (splitClause whereKeywords (ungroupedPart body)).2 = .ok conditions ∧
      readSource (Text.trim (splitClause whereKeywords (ungroupedPart body)).1) = .ok source ∧
      query = { fields, table := source.1, conditions := conditions.getD [], join := source.2,
                groupBy, summarized := groupBy.isNone && hasAggregate fields } := by
  rw [read] at h
  split at h
  · cases h
  cases hsplit : splitSelect? text.toList with
  | none => rw [hsplit] at h; cases h
  | some parts =>
    obtain ⟨list, body⟩ := parts
    rw [hsplit] at h
    obtain ⟨fields, hfields, h⟩ := exists_of_bind h
    obtain ⟨groupBy, hgroupBy, h⟩ := exists_of_bind h
    obtain ⟨conditions, hconditions, h⟩ := exists_of_bind h
    obtain ⟨source, hsource, h⟩ := exists_of_bind h
    refine ⟨list, body, fields, groupBy, conditions, source, rfl, hfields, hgroupBy, hconditions,
      hsource, ?_⟩
    cases groupBy <;> cases h <;> rfl

theorem exists_parts_of_read {text : String} {query : Query} (h : read text = .ok query) :
    ∃ list body fields conditions source, splitSelect? text.toList = some (list, body) ∧
      readFields list = .ok fields ∧
      readClause readWhere (splitClause whereKeywords (ungroupedPart body)).2 = .ok conditions ∧
      readSource (Text.trim (splitClause whereKeywords (ungroupedPart body)).1) = .ok source ∧
      query.conditions = conditions.getD [] := by
  obtain ⟨list, body, fields, -, conditions, source, hsplit, hfields, -, hconditions, hsource, rfl⟩ :=
    exists_reads_of_read h
  exact ⟨list, body, fields, conditions, source, hsplit, hfields, hconditions, hsource, rfl⟩

theorem trim_ne_nil_of_readFields {list : List Char} {fields : List String}
    (h : readFields list = .ok fields) : Text.trim list ≠ [] := by
  intro hnil
  have hblank : ∀ c ∈ list, IsPlain c := fun c hc =>
    isPlain_of_isBlank (Text.isBlank_of_trim_eq_nil hnil c hc)
  have hpieces : splitTopLevel list = [[]] := by
    rw [splitTopLevel, ← List.append_nil list, piecesFrom_plain hblank]
    simp [piecesFrom, hnil]
  rw [readFields, hpieces] at h
  cases h

theorem ne_nil_of_readSource {body : List Char} {source : String × Option JoinClause}
    (h : readSource (Text.trim (splitClause whereKeywords (ungroupedPart body)).1) = .ok source) :
    body ≠ [] := by
  rintro rfl
  cases h

theorem partsFrom_ne_nil (part runs : List Run) : partsFrom part runs ≠ [] := by
  induction runs generalizing part with
  | nil => exact List.cons_ne_nil _ _
  | cons run runs ih =>
    rw [partsFrom]
    split
    · exact List.cons_ne_nil _ _
    · exact ih _

/-- A clause that is read has a condition. -/
theorem ne_nil_of_readWhere {clause : List Char} {conditions : List Condition}
    (h : readWhere clause = .ok conditions) : clause ≠ [] ∧ conditions ≠ [] := by
  have hclause : clause ≠ [] := by
    rintro rfl
    cases h
  refine ⟨hclause, ?_⟩
  rw [readWhere] at h
  split at h
  · cases h
  split at h
  · cases h
  obtain ⟨parts, hparts, h⟩ := exists_of_bind h
  have hne : parts ≠ [] := by
    rw [splitConditions] at hparts
    simp only at hparts
    split at hparts
    · cases hparts
    split at hparts
    · cases hparts
    cases hparts
    exact partsFrom_ne_nil _ _
  obtain ⟨part, parts, rfl⟩ := List.exists_cons_of_ne_nil hne
  rw [List.mapM_cons] at h
  obtain ⟨condition, -, h⟩ := exists_of_bind h
  obtain ⟨others, -, h⟩ := exists_of_bind h
  cases h
  exact List.cons_ne_nil _ _

/-- What WHERE opens with something behind it is the word with blanks on both sides. -/
theorem exists_word_of_where {cs rest : List Char} (h : afterClause? whereKeywords cs = some rest)
    (hne : rest ≠ []) : ∃ w : Word "where", cs = w.text ++ rest := by
  simp only [whereKeywords, afterClause?, Option.bind_eq_some_iff] at h
  obtain ⟨cs₁, h₁, cs₂, h₂, h⟩ := h
  obtain ⟨before, rfl⟩ := exists_gap_of_afterBlanks? h₁
  obtain ⟨keyword, rfl⟩ := @exists_keyword_of_afterKeyword? _ _ "where" (by decide) (by decide) h₂
  have hafter : Text.afterBlanks? cs₂ = some rest := by
    cases cs₂ with
    | nil => exact absurd (Option.some.inj h).symm hne
    | cons c cs => exact h
  obtain ⟨after, rfl⟩ := exists_gap_of_afterBlanks? hafter
  exact ⟨⟨before, keyword, after⟩, by simp only [Word.text, List.append_assoc]⟩

theorem afterClause?_breaks {x : List Char} (h : Breaks x) : ∃ rest, afterClause? [] x = some rest := by
  cases x with
  | nil => exact ⟨[], rfl⟩
  | cons c x => exact ⟨_, if_pos (h c rfl)⟩

/-! ## WHERE in the tail -/

section Tail
variable {o : Outline} {body e : List Char} (htext : o.table ++ o.tail = body ++ e)
include htext

theorem filtered_of_clause {clause : List Char}
    (h : (splitClause whereKeywords (ungroupedPart body)).2 = some clause) (hne : clause ≠ []) :
    o.Filtered := by
  obtain ⟨z, hz, hgroup, -⟩ := splitClause_spec groupByKeywords body
  obtain ⟨y, hy, -, hclause⟩ := splitClause_spec whereKeywords (ungroupedPart body)
  rw [h] at hclause
  obtain ⟨w, rfl⟩ := exists_word_of_where hclause.symm hne
  rw [← ungroupedPart] at hz hgroup
  -- The table ends before the blanks in front of WHERE.
  obtain ⟨middle, horigin, htail⟩ : ∃ middle,
      (splitClause whereKeywords (ungroupedPart body)).1 = o.table ++ middle ∧
        o.tail = middle ++ (w.text ++ (clause ++ (z ++ e))) := by
    have hbreaks : Breaks (w.text ++ (clause ++ (z ++ e))) := by
      simp only [Word.text, List.append_assoc]
      exact Text.breaks_gap w.before
    rw [hz, hy] at htext
    simp only [List.append_assoc] at htext
    exact Text.word_boundary o.solid hbreaks htext
  refine ⟨middle, w, _, htail, ?_⟩
  rintro cs ⟨p, q, hcs⟩ hwords
  obtain ⟨rest, hrest⟩ :=
    afterClause?_isGroupBy hwords (q ++ (w.keyword.text ++ (w.after.text ++ clause)) ++ z)
  rw [← List.append_assoc, hgroup] at hrest
  · cases hrest
  · simp [(Text.keyword_solid w.keyword).nonempty]
  · refine ⟨o.table ++ p, ?_⟩
    rw [hy, horigin]
    have hlead := congrArg (o.table ++ · ++ (w.keyword.text ++ (w.after.text ++ clause))) hcs
    simpa only [Word.text, List.append_assoc] using hlead

theorem clause_of_filtered (he : IsEnding e) (h : o.Filtered) :
    (splitClause whereKeywords (ungroupedPart body)).2 ≠ none := by
  obtain ⟨middle, w, rest, htail, hwords⟩ := h
  have hsolid := Text.keyword_solid w.keyword
  have hfold : w.keyword.text.map Text.foldCase = ['w', 'h', 'e', 'r', 'e'] :=
    Text.keyword_foldCase w.keyword
  obtain ⟨r, hbody, hr⟩ : ∃ r, body = o.table ++ (middle ++ w.before.text) ++ w.keyword.text ++ r ∧
      Breaks r := by
    have hafter : Breaks (w.after.text ++ rest) := Text.breaks_gap w.after
    refine he.exists_kept hsolid (Text.keyword_isAlpha w.keyword) hafter ?_
    rw [← htext, htail]
    simp only [Word.text, List.append_assoc]
  have hunopened : Unopened (afterClause? groupByKeywords)
      (o.table ++ (middle ++ w.before.text) ++ w.keyword.text) r := by
    refine .append (.append (opens_groupBy.inWord o.solid.unbroken) ?_)
      (opens_groupBy.inWord hsolid.unbroken)
    refine unopened_beforeWord (Text.endsBlank_gap w.before) hwords hsolid ?_ ?_ hr
    · rw [hfold]
      decide
    · rw [hfold]
      decide
  have hpart := congrArg Prod.fst (splitClause_append hunopened)
  rw [← hbody, ← ungroupedPart] at hpart
  obtain ⟨z, hz, -⟩ := splitClause_spec groupByKeywords r
  have hfront : Breaks (splitClause groupByKeywords r).1 := by
    rw [hz] at hr
    exact hr.of_append
  intro hnone
  obtain ⟨rest', hrest'⟩ := afterClause?_breaks hfront
  have hopen := splitClause_eq_none_iff.1 hnone
    (w.before.text ++ (w.keyword.text ++ (splitClause groupByKeywords r).1))
    ⟨o.table ++ middle, by rw [hpart]; simp only [List.append_assoc]⟩
  rw [whereKeywords, Text.afterClause?_append w.before hsolid hfold, hrest'] at hopen
  cases hopen

end Tail

/-- The parts up to FROM are found whatever stands in front of them and behind them. -/
theorem splitSelect?_rest (o : Outline) (before : Blanks) {rest : List Char}
    (hrest : StartsBare rest) (hne : rest ≠ []) :
    splitSelect? (before.text ++ (o.select ++ (o.gap.text ++ (o.list ++
      (o.source.text ++ rest))))) = some (o.list, Text.trim (dropTerminator rest)) :=
  splitSelect?_parts before o.gap o.source
    (Text.solid_of_foldCase o.selects (by decide) (by decide)) o.selects o.trimmed
    (unopened_from o.source o.trimmed.endsBare o.first) hrest hne

theorem splitSelect?_outline (o : Outline) :
    splitSelect? o.text = some (o.list, Text.trim (dropTerminator (o.table ++ o.tail))) :=
  splitSelect?_rest o o.before (o.solid.startsBare.append o.solid.nonempty)
    (List.append_ne_nil_of_left_ne_nil o.solid.nonempty _)

/-- Every accepted text has an outline, and it is read with conditions if and only if WHERE stands in
its tail with no GROUP BY before it. -/
theorem read_conditions {text : String} {query : Query} (h : read text = .ok query) :
    (∃ o : Outline, text.toList = o.text) ∧
      ∀ o : Outline, text.toList = o.text → (query.conditions ≠ [] ↔ o.Filtered) := by
  obtain ⟨list, body, fields, conditions, source, hsplit, hfields, hread, hsource, hconditions⟩ :=
    exists_parts_of_read h
  constructor
  · exact exists_outline hsplit (trim_ne_nil_of_readFields hfields) (ne_nil_of_readSource hsource)
  intro o htext
  rw [htext, splitSelect?_outline, Option.some.injEq, Prod.mk.injEq] at hsplit
  obtain ⟨-, rfl⟩ := hsplit
  have hstarts : StartsBare (o.table ++ o.tail) := o.solid.startsBare.append o.solid.nonempty
  obtain ⟨e, he, hending⟩ := exists_ending hstarts
  rw [hconditions]
  cases hclause : (splitClause whereKeywords
      (ungroupedPart (Text.trim (dropTerminator (o.table ++ o.tail))))).2 with
  | none =>
    rw [hclause] at hread
    cases hread
    exact iff_of_false (fun hne => hne rfl)
      fun hfiltered => clause_of_filtered he hending hfiltered hclause
  | some clause =>
    rw [hclause, readClause] at hread
    cases hclauseRead : readWhere clause with
    | error error => rw [hclauseRead] at hread; cases hread
    | ok conditions =>
      rw [hclauseRead] at hread
      cases hread
      obtain ⟨hne, hconditions⟩ := ne_nil_of_readWhere hclauseRead
      exact iff_of_true hconditions (filtered_of_clause he hclause hne)

theorem exists_filtered :
    ∃ o : Outline, "SELECT a FROM t WHERE a = 1 GROUP BY a".toList = o.text ∧ o.Filtered := by
  have hread : read "SELECT a FROM t WHERE a = 1 GROUP BY a" =
      .ok (((select "t" ["a"]).withCondition ⟨"a", "=", "1"⟩).withGroupBy ["a"]) := by
    decide +kernel
  obtain ⟨⟨o, htext⟩, hfiltered⟩ := read_conditions hread
  exact ⟨o, htext, (hfiltered o htext).1 (List.cons_ne_nil _ _)⟩

/-- A list of one letter is too short for the word FROM. -/
theorem no_from_in_letter (w : Word "from") : ¬ w.text <:+: ['a'] ++ Written.space.text := by
  intro h
  have hkeyword : w.keyword.text.length = 4 := by
    rw [← List.length_map Char.toLower, w.keyword.spells]
    decide
  have hlength := h.length_le
  simp [Word.text, Written.space, Gap.single, hkeyword] at hlength
  omega

/-- Behind GROUP BY the word WHERE is read as a part of a group name, and there are no conditions. -/
theorem read_lateFilter :
    ∃ (o : Outline) (middle : List Char) (w : Word "where") (rest : List Char),
      String.ofList o.text = "SELECT a FROM t GROUP BY a WHERE a = 1" ∧
      o.tail = middle ++ (w.text ++ rest) ∧
      read (String.ofList o.text) = .ok ((select "t" ["a"]).withGroupBy ["a WHERE a = 1"]) := by
  let o : Outline := {
    before := .empty
    select := "SELECT".toList
    selects := by decide
    gap := Written.space
    list := ['a']
    trimmed := (Text.solid_singleton (by decide)).trimmed
    source := ⟨Written.space, ⟨"FROM".toList, by decide⟩, Written.space⟩
    first := no_from_in_letter
    table := ['t']
    solid := Text.solid_singleton (by decide)
    tail := " GROUP BY a WHERE a = 1".toList
    breaks := by rintro c ⟨⟩; decide }
  exact ⟨o, " GROUP BY a".toList, ⟨Written.space, ⟨"WHERE".toList, by decide⟩, Written.space⟩,
    "a = 1".toList, by decide, by decide, by decide +kernel⟩

end Tabular.Query
