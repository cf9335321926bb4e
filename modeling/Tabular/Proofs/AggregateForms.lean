import Tabular.Proofs.ReadingLists
/-!
# The forms of an aggregate

An aggregate can be written with its function in any case and with blanks between its parts. A text is
read as an aggregate exactly if it is one of these forms.
-/

namespace Tabular.Aggregate

open Written (Blanks)
open Text (Solid Trimmed)

/-! ## Forms -/

/-- The argument is `*` or a column. -/
def Argument.Fits : Argument → Prop
  | all => True
  | column name => Written.IsColumn name.toList

/-- The parts of a text that stands for an aggregate. -/
structure Form (aggregate : Aggregate) where
  before : Blanks
  name : List Char
  spells : name.map Char.toUpper = aggregate.function.name.toList
  between : Blanks
  left : Blanks
  fits : aggregate.argument.Fits
  right : Blanks
  after : Blanks

def Form.text {aggregate : Aggregate} (form : Form aggregate) : List Char :=
  form.before.text ++ (form.name ++ (form.between.text ++
    '(' :: (form.left.text ++ (aggregate.argument.text.toList ++ form.right.text) ++
      ')' :: form.after.text)))

/-- The form in upper case without blanks. -/
def canonical (aggregate : Aggregate) : String :=
  aggregate.function.name ++ "(" ++ aggregate.argument.text ++ ")"

/-! ## Functions -/

section Functions
variable {name : List Char} {function : Function}

theorem ofName?_eq_some_iff :
    Function.ofName? name = some function ↔ name.map Char.toUpper = function.name.toList := by
  constructor
  · intro h
    have hname := List.find?_some h
    rw [beq_iff_eq] at hname
    exact hname.symm
  · intro h
    rw [Function.ofName?, h]
    cases function <;> decide

/-- The name of a function is made of letters. -/
theorem isAlpha_of_spells (h : name.map Char.toUpper = function.name.toList) :
    ∀ c ∈ name, c.isAlpha = true := by
  intro c hc
  by_contra hother
  have hletters : ∀ d ∈ function.name.toList, d.isAlpha = true :=
    List.all_eq_true.1 (by cases function <;> rfl)
  have hmem : c.toUpper ∈ function.name.toList := h ▸ List.mem_map_of_mem hc
  rw [Text.toUpper_of_not_isAlpha (by simpa using hother)] at hmem
  exact hother (hletters c hmem)

theorem solid_of_spells (h : name.map Char.toUpper = function.name.toList) : Solid name := by
  apply Text.solid_name
  · rintro rfl
    cases function <;> cases h
  · intro c hc
    exact Text.isNameChar_of_isAlpha (isAlpha_of_spells h c hc)

theorem parenthesis_notMem_name (h : name.map Char.toUpper = function.name.toList) :
    '(' ∉ name := by
  intro hc
  exact absurd (isAlpha_of_spells h _ hc) (by decide)

end Functions

/-! ## Arguments -/

section Arguments
variable {cs : List Char} {argument : Argument}

theorem argument_read?_eq_some_iff :
    Argument.read? cs = some argument ↔ argument.Fits ∧ argument.text.toList = cs := by
  unfold Argument.read?
  constructor
  · intro h
    split at h
    · rename_i hall
      cases h
      exact ⟨trivial, hall.symm⟩
    · split at h
      · rename_i hcolumn
        cases h
        exact ⟨by rwa [Argument.Fits, String.toList_ofList, ← Query.isColumnName_iff],
          String.toList_ofList⟩
      · cases h
  · rintro ⟨hfits, rfl⟩
    cases argument with
    | all => rfl
    | column name =>
      have hcolumn : isColumnName name.toList = true := (Query.isColumnName_iff _).2 hfits
      have hstar : name.toList ≠ ['*'] := by
        intro h
        rw [h] at hcolumn
        exact absurd hcolumn (by decide)
      rw [Argument.text, if_neg hstar, if_pos hcolumn, String.ofList_toList]

/-- A column name holds no blank, so trimming leaves it. -/
theorem trimmed_of_fits (h : argument.Fits) : Trimmed argument.text.toList := by
  have hidentifier {cs : List Char} (h : Written.IsIdentifier cs) : Solid cs :=
    Text.solid_name h.1 fun c hc => Bool.or_eq_true_iff.2 (.inl (h.2 c hc))
  cases argument with
  | all => exact (Text.solid_singleton (by decide)).trimmed
  | column name =>
    rcases h with h | ⟨table, column, htable, hcolumn, hname⟩
    · exact (hidentifier h).trimmed
    · rw [Argument.text, hname]
      exact (hidentifier htable).trimmed.append ['.'] (hidentifier hcolumn).trimmed

end Arguments

/-! ## Reading -/

section Reading
variable {aggregate : Aggregate}

/-- Every form of an aggregate is read as that aggregate. -/
theorem read?_form (form : Form aggregate) :
    read? (String.ofList form.text) = some aggregate := by
  have hargument : Argument.read? (Text.trim (form.left.text ++
      (aggregate.argument.text.toList ++ form.right.text))) = some aggregate.argument := by
    rw [Text.trim_blanks form.left form.right (trimmed_of_fits form.fits)]
    exact argument_read?_eq_some_iff.2 ⟨form.fits, rfl⟩
  rw [Form.text, Query.read?_call form.before form.between form.after _
    (solid_of_spells form.spells) (parenthesis_notMem_name form.spells),
    ofName?_eq_some_iff.2 form.spells, hargument]
  rfl

theorem eq_of_insideParentheses? {cs inside : List Char}
    (h : insideParentheses? cs = some inside) : cs = '(' :: (inside ++ [')']) := by
  unfold insideParentheses? at h
  split at h
  · split at h
    · rename_i cs hlast
      cases h
      rw [List.dropLast_append_getLast? _ hlast]
    · cases h
  · cases h

/-- What is read as an aggregate is one of its forms. -/
theorem exists_form_of_read? {expr : String} (h : read? expr = some aggregate) :
    ∃ form : Form aggregate, expr.toList = form.text := by
  simp only [read?, Option.bind_eq_bind, Option.bind_eq_some_iff, Option.pure_def,
    Option.some.injEq] at h
  obtain ⟨inside, hinside, function, hfunction, argument, hargument, rfl⟩ := h
  obtain ⟨before, after, hexpr⟩ := Text.exists_trim expr.toList
  obtain ⟨between, hname⟩ := Text.exists_trimRight ((Text.trim expr.toList).takeWhile (· ≠ '('))
  obtain ⟨left, right, hinner⟩ := Text.exists_trim inside
  obtain ⟨hfits, htext⟩ := argument_read?_eq_some_iff.1 hargument
  -- The text is cut at its first parenthesis, and what stands behind that is between the two.
  have hcut : Text.trim expr.toList = (Text.trim expr.toList).takeWhile (· ≠ '(') ++
      (Text.trim expr.toList).dropWhile (· ≠ '(') := List.takeWhile_append_dropWhile.symm
  rw [eq_of_insideParentheses? hinside, hname, hinner, ← htext] at hcut
  rw [hcut] at hexpr
  refine ⟨⟨before, _, ofName?_eq_some_iff.1 hfunction, between, left, hfits, right, after⟩,
    hexpr.trans ?_⟩
  simp only [Form.text, List.append_assoc, List.cons_append, List.nil_append]

/-- A text is read as an aggregate exactly if it is one of the forms of that aggregate, and as nothing
otherwise. What is read can be written in upper case without blanks, and is then read again. -/
theorem read?_grammar (expr : String) :
    (∀ aggregate, read? expr = some aggregate ↔
      ∃ form : Form aggregate, expr.toList = form.text) ∧
      ((read? expr).bind fun aggregate => read? aggregate.canonical) = read? expr := by
  constructor
  · intro aggregate
    constructor
    · exact exists_form_of_read?
    · rintro ⟨form, hform⟩
      rw [← String.ofList_toList (s := expr), hform]
      exact read?_form form
  · cases h : read? expr with
    | none => rfl
    | some aggregate =>
      obtain ⟨form, -⟩ := exists_form_of_read? h
      let upper : Form aggregate := {
        before := .empty
        name := aggregate.function.name.toList
        spells := by cases aggregate.function <;> decide
        between := .empty
        left := .empty
        fits := form.fits
        right := .empty
        after := .empty }
      have hupper : aggregate.canonical = String.ofList upper.text := by
        apply String.toList_injective
        simp [canonical, upper, Form.text, Blanks.text_empty]
      rw [Option.bind_some, hupper]
      exact read?_form upper

end Reading

end Tabular.Aggregate
