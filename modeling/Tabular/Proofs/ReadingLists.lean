import Tabular.Proofs.Cuts
/-!
# Reading the lists of a written query

A select list and a list of group names are read as the entries that were written, and an entry is
an aggregate if it was written as one.
-/

namespace Tabular.Written

open Text (Solid Trimmed Unlettered)

/-! ## Names and fields -/

section Names
variable (n : Name)

theorem Name.solid : Solid n.text := Text.solid_name n.nonempty n.plain

theorem Name.notMem {c : Char} (h : isNameChar c = false) : c ∉ n.text := by
  intro hc
  rw [n.plain c hc] at h
  exact absurd h (by decide)

/-- A name is no keyword. -/
theorem Name.foldCase_ne (letters : String) {keyword : List Char} (h : letters ∈ reserved)
    (hk : letters.toList = keyword) : n.text.map Text.foldCase ≠ keyword := by
  rw [Text.map_foldCase n.plain]
  rintro rfl
  exact n.free (List.mem_map.2 ⟨letters, h, hk⟩)

end Names

section Fields
variable {x : List Char}

theorem Call.text_eq (c : Call) :
    c.text = c.function.text ++ (c.before.text ++ ('(' :: (c.inside.text ++ (c.argument.text ++
      (c.after.text ++ [')']))))) := by
  simp only [Call.text, List.append_assoc, List.cons_append]

theorem Argument.solid (a : Argument) : Solid a.text := by
  cases a with
  | all => exact Text.solid_singleton (by decide)
  | name column => exact column.solid

/-- A field starts with a name that ends there. -/
theorem Field.exists_name (f : Field) (hx : Unlettered x) :
    ∃ (n : Name) (y : List Char), f.text ++ x = n.text ++ y ∧ Unlettered y := by
  cases f with
  | plain n => exact ⟨n, x, rfl, hx⟩
  | call c =>
    refine ⟨c.function, _, by rw [text, Call.text_eq, List.append_assoc], ?_⟩
    rw [List.append_assoc]
    exact Text.unlettered_blanks c.before (Text.unlettered_cons (by decide))

theorem Field.trimmed (f : Field) : Trimmed f.text := by
  cases f with
  | plain n => exact n.solid.trimmed
  | call c =>
    have hclose : Solid [')'] := Text.solid_singleton (by decide)
    have h := c.function.solid.trimmed.append
      (c.before.text ++ '(' :: c.inside.text ++ c.argument.text ++ c.after.text) hclose.trimmed
    simpa only [text, Call.text, List.append_assoc, List.cons_append] using h

end Fields

/-! ## The end of the select list -/

section SelectList
variable {x : List Char}

/-- FROM does not open in a field. -/
theorem Field.unopened (f : Field) : Text.Unopened Query.afterFrom? f.text x := by
  cases f with
  | plain n => exact Text.opens_from.inWord n.solid.unbroken
  | call c =>
    have htext : c.text =
        c.function.text ++ (c.before.text ++ (['('] ++ (c.inside.text ++ (c.argument.text ++
        (c.after.text ++ [')']))))) := Call.text_eq c
    rw [text, htext]
    refine .append (Text.opens_from.inWord c.function.solid.unbroken)
      (.append ?_ (.append (Text.opens_from.inChar (by decide))
        (.append ?_ (.append (Text.opens_from.inWord c.argument.solid.unbroken)
          (.append ?_ (Text.opens_from.inChar (by decide)))))))
    · exact Text.opens_from.beforeOther c.before (by decide) (by decide)
    · cases h : c.argument with
      | all => exact Text.opens_from.beforeOther c.inside (by decide) (by decide)
      | name column =>
        rw [List.append_assoc, List.append_assoc]
        refine Text.opens_from.beforeWord c.inside column.solid ?_
          (column.foldCase_ne "from" (by decide) rfl)
        exact Text.unlettered_blanks c.after (Text.unlettered_cons (by decide))
    · exact Text.opens_from.beforeOther c.after (by decide) (by decide)

theorem unlettered_comma (comma : Comma) : Unlettered (comma.text ++ x) := by
  rw [Comma.text, List.append_assoc]
  exact Text.unlettered_blanks comma.before (Text.unlettered_cons (by decide))

/-- FROM opens nowhere in a select list. -/
theorem unopened_list (l : Separated Comma Field) (hx : Unlettered x) :
    Text.Unopened Query.afterFrom? (l.text Comma.text Field.text) x := by
  refine Text.unopened_separated (fun f _ _ => f.unopened) (fun comma f x hx => ?_)
    (fun comma _ _ _ => unlettered_comma comma) l hx
  -- The word behind a comma is a name, so not FROM.
  obtain ⟨n, y, hy, hunlettered⟩ := f.exists_name hx
  have htext : comma.text = comma.before.text ++ ([','] ++ comma.after.text) := rfl
  rw [htext, hy]
  refine .append ?_ (.append (Text.opens_from.inChar (by decide)) ?_)
  · exact Text.opens_from.beforeOther comma.before (by decide) (by decide)
  · exact Text.opens_from.beforeWord comma.after n.solid hunlettered
      (n.foldCase_ne "from" (by decide) rfl)

end SelectList

end Tabular.Written

namespace Tabular.Query

open Written (Blanks Separated Comma Field Name)
open Text (Trimmed)

/-! ## Entries -/

section Entries
variable {α : Type} (item : α → List Char) (split : List Char → List (List Char))

/-- A cut at the commas gives the items of a list, with the blanks around them. -/
theorem map_trim_split (h : ∀ a, Trimmed (item a))
    (hlast : ∀ (b : Blanks) a, split (b.text ++ item a) = [b.text ++ item a])
    (hcomma : ∀ (b b' : Blanks) a rest,
      split (b.text ++ (item a ++ (b'.text ++ ',' :: rest))) =
        (b.text ++ (item a ++ b'.text)) :: split rest)
    (b : Blanks) (l : Separated Comma α) :
    (split (b.text ++ l.text Comma.text item)).map Text.trim = l.items.map item := by
  obtain ⟨first, rest⟩ := l
  induction rest generalizing first b with
  | nil =>
    rw [Separated.text, List.flatMap_nil, List.append_nil, hlast, List.map_singleton,
      Text.trim_leading b (h first)]
    rfl
  | cons p rest ih =>
    obtain ⟨comma, second⟩ := p
    have htext : Separated.text Comma.text item ⟨first, (comma, second) :: rest⟩ =
        item first ++ (comma.before.text ++
          ',' :: (comma.after.text ++ Separated.text Comma.text item ⟨second, rest⟩)) := by
      rw [Separated.text_cons, Comma.text, List.append_assoc, List.cons_append]
    rw [htext, hcomma, List.map_cons, Text.trim_blanks b comma.before (h first), ih]
    rfl

theorem checkEntries_items {error : String → ParseError} {list : List Char}
    {entries : List (List Char)} (h : ∀ entry ∈ entries, entry ≠ []) :
    checkEntries error list entries = .ok (entries.map String.ofList) := by
  refine if_neg fun hany => ?_
  obtain ⟨entry, hmem, hempty⟩ := List.any_eq_true.1 hany
  exact h entry hmem (List.isEmpty_iff.1 hempty)

end Entries

/-! ## Cuts at the commas outside parentheses -/

section Pieces
variable {cs rest piece : List Char} {depth : Nat}

/-- A character that does not matter to the cut. -/
def IsPlain (c : Char) : Prop := c ≠ '(' ∧ c ≠ ')' ∧ c ≠ ','

theorem isPlain_of_isNameChar {c : Char} (h : Written.isNameChar c = true) : IsPlain c := by
  refine ⟨?_, ?_, ?_⟩ <;>
  · rintro rfl
    exact absurd h (by decide)

theorem isPlain_of_isBlank {c : Char} (h : Text.isBlank c = true) : IsPlain c := by
  refine ⟨?_, ?_, ?_⟩ <;>
  · rintro rfl
    exact absurd h (by decide)

theorem piecesFrom_plain (h : ∀ c ∈ cs, IsPlain c) :
    piecesFrom depth piece (cs ++ rest) = piecesFrom depth (cs.reverse ++ piece) rest := by
  induction cs generalizing piece with
  | nil => rfl
  | cons c cs ih =>
    obtain ⟨ho, hc, hcomma⟩ := h c List.mem_cons_self
    rw [List.cons_append, piecesFrom, if_neg ho, if_neg hc, if_neg (fun h => hcomma h.1),
      ih fun d hd => h d (List.mem_cons_of_mem c hd), List.reverse_cons, List.append_assoc]
    rfl

theorem isPlain_blanks (b : Blanks) : ∀ c ∈ b.text, IsPlain c := by
  intro c hc
  exact isPlain_of_isBlank (b.blank c hc)

theorem isPlain_name (n : Name) : ∀ c ∈ n.text, IsPlain c := by
  intro c hc
  exact isPlain_of_isNameChar (n.plain c hc)

theorem isPlain_argument (a : Written.Argument) : ∀ c ∈ a.text, IsPlain c := by
  cases a with
  | all =>
    simp only [Written.Argument.text, List.mem_singleton]
    rintro c rfl
    exact ⟨by decide, by decide, by decide⟩
  | name column => exact isPlain_name column

/-- A field is read into one piece, since the parentheses of a call are closed in it. -/
theorem piecesFrom_field (f : Field) :
    piecesFrom 0 piece (f.text ++ rest) = piecesFrom 0 (f.text.reverse ++ piece) rest := by
  cases f with
  | plain n => exact piecesFrom_plain (isPlain_name n)
  | call c =>
    -- The depth is one inside the parentheses and zero again behind them.
    simp only [Field.text, Written.Call.text_eq, List.append_assoc, List.cons_append,
      List.nil_append]
    rw [piecesFrom_plain (isPlain_name c.function), piecesFrom_plain (isPlain_blanks c.before),
      piecesFrom, if_pos rfl, piecesFrom_plain (isPlain_blanks c.inside),
      piecesFrom_plain (isPlain_argument c.argument), piecesFrom_plain (isPlain_blanks c.after),
      piecesFrom, if_neg (by decide), if_pos rfl]
    simp

end Pieces

/-! ## The two lists -/

theorem readFields_list (l : Separated Comma Field) :
    readFields (l.text Comma.text Field.text) =
      .ok (l.items.map fun f => String.ofList f.text) := by
  have hsplit : splitTopLevel (l.text Comma.text Field.text) = l.items.map Field.text := by
    refine map_trim_split Field.text (piecesFrom 0 []) Field.trimmed ?_ ?_ .empty l
    · intro b f
      rw [piecesFrom_plain (isPlain_blanks b), ← List.append_nil f.text, piecesFrom_field,
        piecesFrom]
      simp
    · intro b b' f rest
      rw [piecesFrom_plain (isPlain_blanks b), piecesFrom_field,
        piecesFrom_plain (isPlain_blanks b'), piecesFrom, if_neg (by decide), if_neg (by decide),
        if_pos ⟨rfl, rfl⟩]
      simp
  rw [readFields, hsplit, checkEntries_items, List.map_map]
  · rfl
  · simp only [List.forall_mem_map]
    exact fun f _ => f.trimmed.nonempty

theorem readGroupBy_list (l : Separated Comma Name) :
    readGroupBy (l.text Comma.text Name.text) =
      .ok (l.items.map fun n => String.ofList n.text) := by
  have hcomma : ∀ b : Blanks, ',' ∉ b.text := fun b hc => absurd (b.blank ',' hc) (by decide)
  have hname : ∀ n : Name, ',' ∉ n.text := fun n => n.notMem (by decide)
  have hsplit : ((l.text Comma.text Name.text).splitOn ',').map Text.trim =
      l.items.map Name.text := by
    refine map_trim_split Name.text (List.splitOn ',') (fun n => n.solid.trimmed) ?_ ?_ .empty l
    · intro b n
      exact List.splitOn_eq_singleton (by simp [hcomma b, hname n])
    · intro b b' n rest
      rw [← List.append_assoc (Name.text n), ← List.append_assoc b.text,
        List.splitOn_append_cons_self_of_not_mem]
      simp [hcomma b, hcomma b', hname n]
  rw [readGroupBy, hsplit, checkEntries_items, List.map_map]
  · rfl
  · simp only [List.forall_mem_map]
    exact fun n _ => n.nonempty

/-! ## Aggregates -/

section Aggregates

theorem function_isSome_iff (cs : List Char) :
    (Aggregate.Function.ofName? cs).isSome = true ↔ Written.IsOneOf Written.functions cs := by
  simp only [Aggregate.Function.ofName?, List.find?_isSome, List.mem_cons, List.not_mem_nil,
    or_false, exists_eq_or_imp, exists_eq_left, beq_iff_eq, Aggregate.Function.name,
    Written.IsOneOf, Written.functions, List.map_cons, List.map_nil]
  have h : ∀ {lower upper : String}, lower.toList.map Char.toUpper = upper.toList →
      upper.toList.map Char.toLower = lower.toList →
      (upper.toList = cs.map Char.toUpper ↔ cs.map Char.toLower = lower.toList) := by
    intro lower upper hu hl
    rw [eq_comm]
    exact Text.map_toUpper_eq_iff hu hl
  rw [@h "sum" "SUM" rfl rfl, @h "min" "MIN" rfl rfl, @h "max" "MAX" rfl rfl,
    @h "count" "COUNT" rfl rfl, @h "avg" "AVG" rfl rfl]

theorem isIdentifier_iff (cs : List Char) :
    Aggregate.isIdentifier cs = true ↔ Written.IsIdentifier cs := by
  simp [Aggregate.isIdentifier, Written.IsIdentifier]

theorem point_notMem {cs : List Char} (h : Written.IsIdentifier cs) : '.' ∉ cs := by
  intro hc
  exact absurd (h.2 '.' hc) (by decide)

theorem isColumnName_iff (cs : List Char) :
    Aggregate.isColumnName cs = true ↔ Written.IsColumn cs := by
  have hsplit := List.takeWhile_append_dropWhile (p := (· ≠ '.')) (l := cs)
  unfold Aggregate.isColumnName
  cases h : cs.dropWhile (· ≠ '.') with
  | nil =>
    have hpoint : '.' ∉ cs := by
      intro hc
      simpa using List.dropWhile_eq_nil_iff.1 h '.' hc
    constructor
    · intro hid
      exact .inl ((isIdentifier_iff cs).1 hid)
    · rintro (hid | ⟨table, column, -, -, rfl⟩)
      · exact (isIdentifier_iff cs).2 hid
      · exact absurd (by simp) hpoint
  | cons c column =>
    rw [h] at hsplit
    have hc : c = '.' := by
      have hhead := List.head?_dropWhile_not (· ≠ '.') cs
      rw [h] at hhead
      simpa using hhead
    subst hc
    simp only [Bool.and_eq_true, isIdentifier_iff]
    constructor
    · rintro ⟨ht, hcolumn⟩
      exact .inr ⟨_, column, ht, hcolumn, hsplit.symm⟩
    · rintro (hid | ⟨table, column', ht, hcolumn, hcs⟩)
      · exact absurd (by rw [← hsplit]; simp) (point_notMem hid)
      · -- Names hold no point, so both cuts are at the same one.
        have htake : cs.takeWhile (· ≠ '.') = table ∧ cs.dropWhile (· ≠ '.') = '.' :: column' := by
          have hall : ∀ d ∈ table, decide (d ≠ '.') = true := by
            intro d hd
            apply decide_eq_true
            rintro rfl
            exact point_notMem ht hd
          rw [hcs, List.takeWhile_append_of_pos hall, List.dropWhile_append_of_pos hall]
          simp
        rw [h] at htake
        obtain ⟨rfl, htail⟩ := htake
        rw [List.cons.injEq] at htail
        exact ⟨ht, htail.2 ▸ hcolumn⟩

theorem argument_isSome_iff (a : Written.Argument) :
    (Aggregate.Argument.read? a.text).isSome = true ↔ a.Fits := by
  cases a with
  | all => simp [Written.Argument.text, Aggregate.Argument.read?, Written.Argument.Fits]
  | name column =>
    have hstar : column.text ≠ ['*'] := by
      intro h
      have hmem : '*' ∈ column.text := by rw [h]; exact List.mem_singleton_self _
      exact column.notMem (by decide) hmem
    rw [Written.Argument.text, Aggregate.Argument.read?, if_neg hstar, Written.Argument.Fits,
      ← isColumnName_iff]
    cases Aggregate.isColumnName column.text <;> simp

/-- The function is what stands before the parenthesis, and its argument what stands inside. -/
theorem read?_call (before between after : Blanks) {name : List Char} (inside : List Char)
    (hname : Text.Solid name) (hopen : '(' ∉ name) :
    Aggregate.read? (String.ofList
        (before.text ++ (name ++ (between.text ++ '(' :: (inside ++ ')' :: after.text))))) =
      (Aggregate.Function.ofName? name).bind fun function =>
        (Aggregate.Argument.read? (Text.trim inside)).map fun argument => ⟨function, argument⟩ := by
  have htrim : Text.trim (before.text ++
      (name ++ (between.text ++ '(' :: (inside ++ ')' :: after.text)))) =
        name ++ between.text ++ ('(' :: inside ++ [')']) := by
    have hclose : Trimmed [')'] := (Text.solid_singleton (by decide)).trimmed
    have hsplit := Text.trim_blanks before after
      (hname.trimmed.append (between.text ++ '(' :: inside) hclose)
    simpa only [List.append_assoc, List.cons_append, List.nil_append] using hsplit
  have hall : ∀ c ∈ name ++ between.text, decide (c ≠ '(') = true := by
    intro c hc
    apply decide_eq_true
    rintro rfl
    rcases List.mem_append.1 hc with hc | hc
    · exact hopen hc
    · exact absurd (between.blank _ hc) (by decide)
  have hdrop : (name ++ between.text ++ ('(' :: inside ++ [')'])).dropWhile (· ≠ '(') =
      '(' :: (inside ++ [')']) := by
    rw [List.dropWhile_append_of_pos hall]
    simp
  have htake : Text.trimRight ((name ++ between.text ++ ('(' :: inside ++ [')'])).takeWhile
      (· ≠ '(')) = name := by
    rw [List.takeWhile_append_of_pos hall]
    simp [Text.trimRight_blanks between hname.endsBare]
  have hinside : Aggregate.insideParentheses? ('(' :: (inside ++ [')'])) = some inside := by
    rw [Aggregate.insideParentheses?, if_pos List.getLast?_concat, List.dropLast_concat]
  rw [Aggregate.read?, String.toList_ofList]
  simp only [htrim, hdrop, htake, hinside, Option.bind_eq_bind, Option.bind_some]
  cases Aggregate.Function.ofName? name <;>
    cases Aggregate.Argument.read? (Text.trim inside) <;> rfl

/-- An entry is read as an aggregate if it was written as one. -/
theorem read?_isSome_iff (f : Field) :
    (Aggregate.read? (String.ofList f.text)).isSome = true ↔ f.IsAggregate := by
  cases f with
  | plain n =>
    have hdrop : n.text.dropWhile (· ≠ '(') = [] := by
      rw [List.dropWhile_eq_nil_iff]
      intro c hc
      apply decide_eq_true
      rintro rfl
      exact n.notMem (by decide) hc
    rw [Field.text, Aggregate.read?, String.toList_ofList, n.solid.trimmed.trim, hdrop]
    simp [Aggregate.insideParentheses?, Written.Field.IsAggregate]
  | call c =>
    have htext : c.text = Blanks.empty.text ++ (c.function.text ++ (c.before.text ++
        '(' :: (c.inside.text ++ (c.argument.text ++ c.after.text) ++ ')' :: Blanks.empty.text))) := by
      simp [Written.Call.text_eq, Blanks.text_empty]
    have hinside : Text.trim (c.inside.text ++ (c.argument.text ++ c.after.text)) =
        c.argument.text :=
      Text.trim_blanks c.inside c.after c.argument.solid.trimmed
    rw [Field.text, htext, read?_call .empty c.before .empty _ c.function.solid
      (c.function.notMem (by decide)), hinside, Written.Field.IsAggregate,
      Written.Call.IsAggregate, ← function_isSome_iff, ← argument_isSome_iff]
    cases Aggregate.Function.ofName? c.function.text <;>
      cases Aggregate.Argument.read? c.argument.text <;> simp

theorem hasAggregate_iff (fields : List Field) :
    hasAggregate (fields.map fun f => String.ofList f.text) = true ↔
      ∃ f ∈ fields, f.IsAggregate := by
  simp only [hasAggregate, List.any_map, List.any_eq_true, Function.comp_apply, read?_isSome_iff]

end Aggregates

end Tabular.Query
