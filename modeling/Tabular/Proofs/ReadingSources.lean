import Tabular.Proofs.ReadingLists
import Tabular.Query.Source
/-!
# Reading the source of a written query

A table, or a join with its kind, its table and its two operands, is read as it was written.
-/

namespace Tabular.Query

open Written (Blanks Gap Keyword Name)
open Text (Solid Trimmed)

/-! ## Operands -/

section Operands

theorem isOperandChar_of_isNameChar {c : Char} (h : Written.isNameChar c = true) :
    isOperandChar c = true := by
  simp only [Written.isNameChar, isOperandChar, Text.isWord, Bool.or_eq_true] at h ⊢
  exact h.imp_left .inl

theorem isOperandChar_of_isBlank {c : Char} (h : Text.isBlank c = true) :
    isOperandChar c = false := by
  -- The blanks are few enough to look each of them up among the word characters.
  have hmem : c.toNat ∈ [9, 10, 11, 12, 13, 0x20, 0x85, 0xA0, 0x1680, 0x2000, 0x2001, 0x2002, 0x2003,
      0x2004, 0x2005, 0x2006, 0x2007, 0x2008, 0x2009, 0x200A, 0x2028, 0x2029, 0x202F, 0x205F,
      0x3000] := by
    simp only [Text.isBlank, Bool.or_eq_true, Bool.and_eq_true, decide_eq_true_eq, beq_iff_eq] at h
    simp only [List.mem_cons, List.not_mem_nil, or_false]
    omega
  rw [← Char.ofNat_toNat c]
  revert hmem
  generalize c.toNat = n
  revert n
  decide +kernel

theorem takeWhile_operand (n : Name) (b : Blanks) (rest : List Char) :
    (n.text ++ (b.text ++ '=' :: rest)).takeWhile isOperandChar = n.text := by
  rw [List.takeWhile_append_of_pos fun c hc => isOperandChar_of_isNameChar (n.plain c hc)]
  obtain ⟨text, blank⟩ := b
  cases text with
  | nil => simp [isOperandChar, Text.isWord]
  | cons c cs =>
    have hc : isOperandChar c = false := isOperandChar_of_isBlank (blank c List.mem_cons_self)
    simp [hc]

theorem joinCondition?_equality (j : Written.Join) :
    joinCondition? j.equality = some ⟨String.ofList j.left.text, String.ofList j.right.text⟩ := by
  have htext : j.equality =
      j.left.text ++ (j.beforeEquals.text ++ '=' :: (j.afterEquals.text ++ j.right.text)) := by
    simp only [Written.Join.equality, List.append_assoc, List.cons_append]
  have hequals :
      Text.trimLeft (j.beforeEquals.text ++ '=' :: (j.afterEquals.text ++ j.right.text)) =
      '=' :: (j.afterEquals.text ++ j.right.text) :=
    Text.trimLeft_blanks j.beforeEquals fun c hc => by cases hc; decide
  have hall : j.right.text.all isOperandChar = true :=
    List.all_eq_true.2 fun c hc => isOperandChar_of_isNameChar (j.right.plain c hc)
  rw [htext, joinCondition?, takeWhile_operand, List.drop_left, hequals]
  simp [Text.trimLeft_blanks j.afterEquals j.right.solid.startsBare, hall, j.left.nonempty,
    j.right.nonempty]

end Operands

/-! ## Joins -/

section Joins
variable (t : Name) (j : Written.Join)

theorem kind_ofKeyword? {kind : JoinKind} (k : Keyword (Written.kindLetters kind)) :
    JoinKind.ofKeyword? (String.ofList k.text) = some kind := by
  have hupper : k.text.map Char.toUpper = kind.keyword.toList := by
    refine (Text.map_toUpper_eq_iff ?_ ?_).2 k.spells <;> cases kind <;> decide
  rw [JoinKind.ofKeyword?, String.toList_ofList, hupper]
  cases kind <;> decide

theorem equality_trimmed : Trimmed j.equality := by
  have h := j.left.solid.trimmed.append (j.beforeEquals.text ++ '=' :: j.afterEquals.text)
    j.right.solid.trimmed
  simpa only [Written.Join.equality, List.append_assoc, List.cons_append] using h

/-- The words of a source with a join, each with what follows it. -/
theorem join_text : j.text =
    j.before.text ++ (j.keyword.text ++ (j.join.before.text ++ (j.join.keyword.text ++
      (j.join.after.text ++ (j.table.text ++ (j.on.before.text ++ (j.on.keyword.text ++
        (j.on.after.text ++ j.equality)))))))) := by
  simp only [Written.Join.text, Written.Word.text, List.append_assoc]

theorem joinText?_join :
    joinText? (t.text ++ j.text) = some ⟨t.text, j.keyword.text, j.table.text, j.equality⟩ := by
  have hkind := Text.keyword_solid j.keyword
  have hjoin := Text.keyword_solid j.join.keyword
  have hon := Text.keyword_solid j.on.keyword
  have hequality := equality_trimmed j
  have hwords : j.keyword.text.all Text.isWord = true := by
    refine List.all_eq_true.2 fun c hc => ?_
    have halpha := Text.keyword_isAlpha j.keyword c hc
    simp [Text.isWord, Char.isAlphanum, halpha]
  have hj : Text.sameLetters j.join.keyword.text ['j', 'o', 'i', 'n'] = true := by
    rw [Text.sameLetters, j.join.keyword.spells]; decide
  have ho : Text.sameLetters j.on.keyword.text ['o', 'n'] = true := by
    rw [Text.sameLetters, j.on.keyword.spells]; decide
  rw [join_text, joinText?,
    Text.firstWord?_solid _ t.solid (hkind.startsBare.append hkind.nonempty)]
  simp only [Option.bind_eq_bind, Option.bind_some]
  rw [Text.firstWord?_solid _ hkind (hjoin.startsBare.append hjoin.nonempty)]
  simp only [Option.bind_some]
  rw [Text.firstWord?_solid _ hjoin (j.table.solid.startsBare.append j.table.nonempty)]
  simp only [Option.bind_some]
  rw [Text.firstWord?_solid _ j.table.solid (hon.startsBare.append hon.nonempty)]
  simp only [Option.bind_some]
  rw [Text.firstWord?_solid _ hon hequality.startsBare]
  simp [hwords, hj, ho, hequality.nonempty]

theorem words_join : ∃ words, Text.words (t.text ++ j.text) =
    t.text :: j.keyword.text :: j.join.keyword.text :: words := by
  have hkind := Text.keyword_solid j.keyword
  have hjoin := Text.keyword_solid j.join.keyword
  rw [join_text, Text.words_append _ t.solid, Text.words_append _ hkind, Text.words_append _ hjoin]
  exact ⟨_, rfl⟩

end Joins

/-! ## Sources -/

theorem readSource_table (t : Name) : readSource t.text = .ok (String.ofList t.text, none) := by
  have hjoin : Text.sameLetters t.text ['j', 'o', 'i', 'n'] = false := by
    refine Bool.eq_false_iff.2 fun h => t.free ?_
    rw [Text.sameLetters, beq_iff_eq] at h
    rw [Written.IsOneOf, h]
    decide
  rw [readSource, Text.words_solid t.solid]
  simp [t.nonempty, hjoin]

theorem readSource_join (t : Name) (j : Written.Join) :
    readSource (t.text ++ j.text) = .ok (String.ofList t.text, some j.clause) := by
  have hjoin : Text.sameLetters j.join.keyword.text ['j', 'o', 'i', 'n'] = true := by
    rw [Text.sameLetters, j.join.keyword.spells]; decide
  obtain ⟨words, hwords⟩ := words_join t j
  rw [readSource, hwords]
  simp [t.nonempty, hjoin, joinText?_join, kind_ofKeyword?, (equality_trimmed j).trim,
    joinCondition?_equality, Written.Join.clause]

end Tabular.Query
