import Tabular.Proofs.Commands
import Tabular.Proofs.Outlines
/-!
# Around a query

Blanks around a query text and a semicolon behind it are no part of the query. An accepted text is
read as the same query with more of them, with fewer of them, and without any.
-/

namespace Tabular.Text

open Written (Blanks)

section Blanks
variable {x : List Char} (a b : Blanks)

theorem trimRight_append : trimRight (x ++ b.text) = trimRight x := by
  have hblank : ∀ c ∈ b.text.reverse, isBlank c = true := by
    intro c hc
    exact b.blank c (List.mem_reverse.1 hc)
  rw [trimRight, trimRight, List.reverse_append, List.dropWhile_append_of_pos hblank]

theorem trim_surrounded : trim (a.text ++ (x ++ b.text)) = trim x := by
  obtain ⟨c, hc⟩ := exists_trimLeft x
  have hstarts := startsBare_trimLeft x
  have hlead : a.text ++ (x ++ b.text) = (a.append c).text ++ (trimLeft x ++ b.text) := by
    rw [Blanks.text_append, List.append_assoc, ← List.append_assoc c.text, ← hc]
  rw [hlead]
  by_cases hblank : trimLeft x = []
  · -- Blanks are all there is.
    have hempty : trim x = [] := by
      rw [trim, hblank]
      rfl
    rw [hblank, hempty, List.nil_append]
    exact trim_blank ((a.append c).append b)
  · rw [trim, trimLeft_blanks _ (hstarts.append hblank), trimRight_append, trim]

end Blanks

end Tabular.Text

namespace Tabular.Query

open Written (Blanks Outline)
open Text (StartsBare Trimmed)

/-! ## The end of the text -/

section Terminator
variable {x : List Char} (a b : Blanks)

theorem dropTerminator_append : dropTerminator (x ++ b.text) = dropTerminator x := by
  simp only [dropTerminator, Text.trimRight_append]

/-- A semicolon is dropped if there is none yet. -/
theorem dropTerminator_terminated (hx : StartsBare x) (hne : Text.trimRight x ≠ [])
    (hlast : Unterminated (Text.trimRight x)) :
    dropTerminator (x ++ (b.text ++ ';' :: a.text)) = dropTerminator x := by
  obtain ⟨c, hc⟩ := Text.exists_trimRight x
  have htrimmed : Trimmed (Text.trimRight x) := by
    refine ⟨hne, ?_, Text.endsBare_trimRight x⟩
    rw [hc] at hx
    exact hx.of_append
  have hdrop : dropTerminator x = Text.trimRight x := if_neg hlast
  have htext : x ++ (b.text ++ ';' :: a.text) =
      Text.trimRight x ++ ((c.append b).text ++ [';'] ++ a.text) := by
    conv_lhs => rw [hc]
    simp only [Blanks.text_append, List.append_assoc, List.singleton_append]
  rw [htext, dropTerminator_semicolon htrimmed, hdrop]

end Terminator

/-! ## Texts with an outline -/

section Outline
variable (o : Outline) {cs cs' : List Char} (a b : Blanks)

theorem read_congr (hsplit : splitSelect? cs = splitSelect? cs') (hcs : Text.trim cs ≠ [])
    (hcs' : Text.trim cs' ≠ []) : read (String.ofList cs) = read (String.ofList cs') := by
  simp only [read, String.toList_ofList, List.isEmpty_iff, hcs, hcs', if_false, hsplit]

theorem trim_ne_nil_of_select (h : o.select ⊆ cs) : Text.trim cs ≠ [] :=
  (Text.solid_of_foldCase o.selects (by decide) (by decide)).trim_ne_nil h

/-- A text is read as its outline says, whatever stands in front of it and whatever is dropped at its
end. -/
theorem read_outline {rest : List Char} (hrest : StartsBare rest) (hne : rest ≠ [])
    (hbody : dropTerminator rest = dropTerminator (o.table ++ o.tail)) :
    read (String.ofList (a.text ++ (o.select ++ (o.gap.text ++ (o.list ++
      (o.source.text ++ rest)))))) = read (String.ofList o.text) := by
  refine read_congr ?_ (trim_ne_nil_of_select o fun c hc => ?_)
    (trim_ne_nil_of_select o fun c hc => ?_)
  · rw [splitSelect?_rest o a hrest hne, splitSelect?_outline, hbody]
  · simp [hc]
  · simp [Outline.text, hc]

theorem read_surrounded_outline :
    read (String.ofList (a.text ++ (o.text ++ b.text))) = read (String.ofList o.text) := by
  have hsolid : StartsBare (o.table ++ (o.tail ++ b.text)) :=
    o.solid.startsBare.append o.solid.nonempty
  have hbody : dropTerminator (o.table ++ (o.tail ++ b.text)) =
      dropTerminator (o.table ++ o.tail) := by
    rw [← List.append_assoc, dropTerminator_append]
  rw [← read_outline o (a.append o.before) hsolid
    (List.append_ne_nil_of_left_ne_nil o.solid.nonempty _) hbody]
  simp only [Outline.text, Blanks.text_append, List.append_assoc]

/-- The outline without the blanks at both ends. -/
def bare : Outline where
  __ := o
  before := .empty
  tail := Text.trimRight o.tail
  breaks := by
    obtain ⟨b, hb⟩ := Text.exists_trimRight o.tail
    have hbreaks := o.breaks
    rw [hb] at hbreaks
    exact hbreaks.of_append

theorem trim_text : Text.trim o.text = (bare o).text := by
  have htrimmed : Trimmed (o.select ++ (o.gap.text ++ (o.list ++ o.source.text) ++ o.table)) :=
    (Text.solid_of_foldCase o.selects (by decide) (by decide)).trimmed.append _ o.solid.trimmed
  have htext : o.text = o.before.text ++
      ((o.select ++ (o.gap.text ++ (o.list ++ o.source.text) ++ o.table) ++ o.tail) ++
        Blanks.empty.text) := by
    simp only [Outline.text, Blanks.text_empty, List.append_assoc, List.append_nil]
  rw [htext, Text.trim_surrounded, Text.trim_append htrimmed]
  simp only [bare, Outline.text, Blanks.text_empty, List.append_assoc, List.nil_append]

/-- What follows FROM ends as the whole text does. -/
theorem unterminated_rest (h : Unterminated (Text.trim o.text)) :
    Unterminated (Text.trimRight (o.table ++ o.tail)) := by
  have hrest : Text.trimRight (o.table ++ o.tail) = o.table ++ Text.trimRight o.tail := by
    have htrim := Text.trim_append o.solid.trimmed o.tail
    rwa [Text.trim, (o.solid.startsBare.append o.solid.nonempty).trimLeft] at htrim
  have hne : o.table ++ Text.trimRight o.tail ≠ [] :=
    List.append_ne_nil_of_left_ne_nil o.solid.nonempty _
  have htext : (bare o).text = (o.select ++ (o.gap.text ++ (o.list ++ o.source.text))) ++
      (o.table ++ Text.trimRight o.tail) := by
    simp only [bare, Outline.text, Blanks.text_empty, List.append_assoc, List.nil_append]
  rwa [trim_text, htext, Unterminated, List.getLast?_append_of_ne_nil _ hne, ← hrest] at h

theorem read_terminated_outline (h : Unterminated (Text.trim o.text)) :
    read (String.ofList (o.text ++ (b.text ++ ';' :: a.text))) = read (String.ofList o.text) := by
  have hsolid : ∀ x, StartsBare (o.table ++ x) := fun x =>
    o.solid.startsBare.append o.solid.nonempty
  have hne : Text.trimRight (o.table ++ o.tail) ≠ [] := by
    intro hnil
    obtain ⟨c, hc⟩ := Text.exists_trimRight (o.table ++ o.tail)
    obtain ⟨d, hd, hbare⟩ := o.solid.exists_bare
    rw [hnil, List.nil_append] at hc
    rw [c.blank d (hc ▸ List.mem_append_left _ hd)] at hbare
    cases hbare
  have hbody := dropTerminator_terminated a b (hsolid o.tail) hne (unterminated_rest o h)
  rw [List.append_assoc] at hbody
  rw [← read_outline o o.before (hsolid _)
    (List.append_ne_nil_of_left_ne_nil o.solid.nonempty _) hbody]
  simp only [Outline.text, List.append_assoc]

end Outline

/-! ## Accepted texts -/

section Accepted
variable {query : Query} {cs : List Char}

theorem exists_outline_of_read {text : String} (h : read text = .ok query) :
    ∃ o : Outline, text.toList = o.text := by
  obtain ⟨list, body, fields, conditions, source, hsplit, hfields, -, hsource, -⟩ :=
    exists_parts_of_read h
  exact exists_outline hsplit (trim_ne_nil_of_readFields hfields) (ne_nil_of_readSource hsource)

/-- Only what is left without the blanks around it matters. -/
theorem read_trim :
    read (String.ofList (Text.trim cs)) = .ok query ↔ read (String.ofList cs) = .ok query := by
  obtain ⟨a, b, hcs⟩ := Text.exists_trim cs
  -- Whichever of the two texts is accepted, the shorter one has an outline.
  have hsame : (∃ o : Outline, Text.trim cs = o.text) →
      read (String.ofList cs) = read (String.ofList (Text.trim cs)) := by
    rintro ⟨o, ho⟩
    rw [ho] at hcs
    rw [ho, hcs, read_surrounded_outline]
  constructor
  · intro h
    obtain ⟨o, ho⟩ := exists_outline_of_read h
    rwa [hsame ⟨o, by rwa [String.toList_ofList] at ho⟩]
  · intro h
    obtain ⟨o, ho⟩ := exists_outline_of_read h
    rw [String.toList_ofList] at ho
    rwa [← hsame ⟨bare o, by rw [ho, trim_text]⟩]

end Accepted

/-- A text is accepted as a query exactly if it is with blanks around it, and exactly if what a command
makes of it is. An accepted text that does not end with a semicolon can be given one. -/
theorem read_surrounded (text : String) (a b : Blanks) (query : Query) :
    (read (String.ofList (a.text ++ (text.toList ++ b.text))) = .ok query ↔
      read text = .ok query) ∧
    (∀ input arg, CommandLine.Given input arg text.toList →
      ((∃ given, CommandLine.queryText input arg = .ok given ∧ read given = .ok query) ↔
        read text = .ok query)) ∧
    (read text = .ok query → Unterminated (Text.trim text.toList) →
      read (String.ofList (text.toList ++ (b.text ++ ';' :: a.text))) = .ok query) := by
  have htext : read (String.ofList (Text.trim text.toList)) = .ok query ↔
      read text = .ok query := by
    rw [read_trim, String.ofList_toList]
  refine ⟨?_, ?_, ?_⟩
  · rw [← htext, ← read_trim, Text.trim_surrounded]
  · intro input arg hgiven
    rw [CommandLine.queryText_of_given hgiven, ← htext]
    by_cases hblank : Text.trim text.toList = []
    · -- Neither a command nor the reader takes a blank text.
      rw [hblank]
      exact iff_of_false (by rintro ⟨given, hgiven, -⟩; cases hgiven) nofun
    · rw [if_neg (by rwa [List.isEmpty_iff])]
      simp
  · intro h hlast
    obtain ⟨o, ho⟩ := exists_outline_of_read h
    rw [ho] at hlast
    rw [← String.ofList_toList (s := text), ho] at h
    rw [ho, read_terminated_outline o a b hlast, h]

/-- A text that ends with the word FROM, which more blanks could turn into the one that is looked
for. -/
theorem read_endingFrom :
    let text := "SELECT a FROM t GROUP BY from"
    let query := (select "t" ["a"]).withGroupBy ["from"]
    read text = .ok query ∧ read (String.ofList ([] ++ (text.toList ++ [' ', ' ']))) = .ok query ∧
      (∃ given, CommandLine.queryText [] (some text) = .ok given ∧ read given = .ok query) ∧
      Unterminated (Text.trim text.toList) ∧
      read (String.ofList (text.toList ++ ([' ', ' '] ++ [';']))) = .ok query := by
  intro text query
  have hread : read text = .ok query := by decide +kernel
  have hlast : Unterminated (Text.trim text.toList) := by
    rw [Unterminated]
    decide +kernel
  obtain ⟨haround, hgiven, hterminated⟩ := read_surrounded text .empty
    ⟨[' ', ' '], List.all_eq_true.1 rfl⟩ query
  exact ⟨hread, haround.2 hread, (hgiven [] _ (.argument text)).2 hread, hlast,
    hterminated hread hlast⟩

end Tabular.Query
