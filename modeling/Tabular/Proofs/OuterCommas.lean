import Tabular.Proofs.Cuts
import Tabular.Query.SelectList
/-!
# Cuts at the commas outside parentheses

The splitter of a select list reads one character at a time and keeps the depth and the piece so far.
Here the depth in front of a character is said by the text before it. A comma is a cut if and only if
that depth is zero, the pieces with commas between them are the text, and what stands in parentheses
stays in one piece.
-/

namespace Tabular.Query

open Written (Blanks)

/-! ## Depth -/

/-- The parentheses that are open behind a character. With none open a closing one changes nothing. -/
def depthBehind (depth : Nat) (c : Char) : Nat :=
  if c = '(' then depth + 1 else if c = ')' then depth - 1 else depth

/-- The parentheses that are open at the end of a text. -/
def depthOf (cs : List Char) : Nat := cs.foldl depthBehind 0

/-- A comma outside parentheses, given with the depth in front of it. -/
def isOuter (place : Char × Nat) : Bool := place.1 == ',' && place.2 == 0

/-- How many commas stand outside parentheses, if the text starts at `depth`. -/
def outerCommas (depth : Nat) (cs : List Char) : Nat :=
  (cs.zip (cs.scanl depthBehind depth)).countP isOuter

/-- The parenthesis in front of `inside` is not closed in it. -/
def StaysOpen (inside : List Char) : Prop :=
  ∀ start, start <+: inside → depthOf ('(' :: start) ≠ 0

instance (inside : List Char) : Decidable (StaysOpen inside) :=
  decidable_of_iff (∀ start ∈ inside.inits, depthOf ('(' :: start) ≠ 0)
    (by simp only [List.mem_inits, StaysOpen])

section Depth
variable {depth low : Nat} {c : Char} {cs : List Char}

theorem eq_of_isOuter (h : isOuter (c, depth) = true) : c = ',' ∧ depth = 0 := by
  simpa [isOuter] using h

theorem outerCommas_cons : outerCommas depth (c :: cs) =
    outerCommas (depthBehind depth c) cs + if isOuter (c, depth) then 1 else 0 := by
  rw [outerCommas, List.scanl_cons, List.zip_cons_cons, List.countP_cons, ← outerCommas]

theorem depthBehind_mono (h : low ≤ depth) : depthBehind low c ≤ depthBehind depth c := by
  unfold depthBehind
  split_ifs <;> omega

/-- No comma is an outer one if the depth never comes down to zero, be it from `low` or from more. -/
theorem outerCommas_eq_zero (hle : low ≤ depth)
    (h : ∀ start, start <+: cs → start.foldl depthBehind low ≠ 0) : outerCommas depth cs = 0 := by
  induction cs generalizing low depth with
  | nil => rfl
  | cons c cs ih =>
    have hlow : low ≠ 0 := h [] List.nil_prefix
    have hinner : isOuter (c, depth) = false := by
      rw [Bool.eq_false_iff]
      intro hout
      have := (eq_of_isOuter hout).2
      omega
    rw [outerCommas_cons, hinner, ih (depthBehind_mono hle) fun start hstart => ?_]
    · rfl
    · exact h (c :: start) (List.cons_prefix_cons.2 ⟨rfl, hstart⟩)

end Depth

/-! ## Pieces -/

section Pieces
variable (depth : Nat) (piece : List Char) {before after inside x cs : List Char}

theorem piecesFrom_cons (c : Char) (cs : List Char) : piecesFrom depth piece (c :: cs) =
    if isOuter (c, depth) then piece.reverse :: piecesFrom 0 [] cs
    else piecesFrom (depthBehind depth c) (c :: piece) cs := by
  rw [piecesFrom]
  by_cases hopen : c = '('
  · subst hopen
    rfl
  · by_cases hclose : c = ')'
    · subst hclose
      rfl
    · simp [isOuter, depthBehind, hopen, hclose]

theorem length_piecesFrom (cs : List Char) :
    (piecesFrom depth piece cs).length = outerCommas depth cs + 1 := by
  induction cs generalizing depth piece with
  | nil => rfl
  | cons c cs ih =>
    rw [piecesFrom_cons, outerCommas_cons]
    split
    · rename_i hout
      obtain ⟨rfl, rfl⟩ := eq_of_isOuter hout
      rw [List.length_cons, ih]
      rfl
    · rw [ih, Nat.add_zero]

/-- What was read of the current piece is in the first one. -/
theorem exists_piecesFrom (cs : List Char) :
    ∃ more rest, piecesFrom depth piece cs = (piece.reverse ++ more) :: rest := by
  induction cs generalizing depth piece with
  | nil => exact ⟨[], [], by rw [piecesFrom, List.append_nil]⟩
  | cons c cs ih =>
    rw [piecesFrom_cons]
    split
    · exact ⟨[], _, by rw [List.append_nil]⟩
    · obtain ⟨more, rest, hnext⟩ := ih (depthBehind depth c) (c :: piece)
      exact ⟨c :: more, rest, by rw [hnext, List.reverse_cons, List.append_assoc]; rfl⟩

theorem piecesFrom_ne_nil (cs : List Char) : piecesFrom depth piece cs ≠ [] := by
  obtain ⟨more, rest, hpieces⟩ := exists_piecesFrom depth piece cs
  rw [hpieces]
  exact List.cons_ne_nil _ _

/-- No character is lost but the commas at the cuts. -/
theorem intercalate_piecesFrom (cs : List Char) :
    [','].intercalate (piecesFrom depth piece cs) = piece.reverse ++ cs := by
  induction cs generalizing depth piece with
  | nil => rw [piecesFrom, List.intercalate_singleton, List.append_nil]
  | cons c cs ih =>
    rw [piecesFrom_cons]
    split
    · rename_i hout
      obtain ⟨rfl, rfl⟩ := eq_of_isOuter hout
      rw [List.intercalate_cons_of_ne_nil (piecesFrom_ne_nil 0 [] cs), ih, List.append_assoc]
      rfl
    · rw [ih, List.reverse_cons, List.append_assoc]
      rfl

/-- At an outer comma the cuts of the two sides come together. -/
theorem piecesFrom_comma (h : before.foldl depthBehind depth = 0) :
    piecesFrom depth piece (before ++ ',' :: after) =
      piecesFrom depth piece before ++ piecesFrom 0 [] after := by
  induction before generalizing depth piece with
  | nil =>
    rw [List.foldl_nil] at h
    subst h
    rfl
  | cons c before ih =>
    rw [List.foldl_cons] at h
    rw [List.cons_append, piecesFrom_cons, piecesFrom_cons]
    split
    · rename_i hout
      obtain ⟨rfl, rfl⟩ := eq_of_isOuter hout
      rw [ih 0 [] h, List.cons_append]
    · exact ih _ _ h

/-- Between two pieces there is an outer comma. -/
theorem exists_comma_of_piecesFrom {ps qs : List (List Char)}
    (h : piecesFrom depth piece cs = ps ++ qs) (hps : ps ≠ []) (hqs : qs ≠ []) :
    ∃ before after, cs = before ++ ',' :: after ∧ before.foldl depthBehind depth = 0 ∧
      [','].intercalate ps = piece.reverse ++ before := by
  induction cs generalizing depth piece ps with
  | nil =>
    rcases List.append_eq_singleton_iff.1 h.symm with ⟨hnil, -⟩ | ⟨-, hnil⟩
    · exact absurd hnil hps
    · exact absurd hnil hqs
  | cons c cs ih =>
    rw [piecesFrom_cons] at h
    split at h
    · rename_i hout
      obtain ⟨rfl, rfl⟩ := eq_of_isOuter hout
      rcases List.append_eq_cons_iff.1 h.symm with ⟨hnil, -⟩ | ⟨ps, rfl, hrest⟩
      · exact absurd hnil hps
      · -- The comma read here is the last of `ps`, or the next ones are in what follows it.
        by_cases hone : ps = []
        · subst hone
          exact ⟨[], cs, rfl, rfl, by rw [List.intercalate_singleton, List.append_nil]⟩
        · obtain ⟨before, after, rfl, hdepth, htext⟩ := ih 0 [] hrest hone
          refine ⟨',' :: before, after, rfl, hdepth, ?_⟩
          rw [List.intercalate_cons_of_ne_nil hone, htext, List.append_assoc]
          rfl
    · obtain ⟨before, after, rfl, hdepth, htext⟩ := ih _ _ h hps
      refine ⟨c :: before, after, rfl, hdepth, ?_⟩
      rw [htext, List.reverse_cons, List.append_assoc]
      rfl

/-- Where the splitter is behind a text does not depend on what follows. -/
theorem exists_piecesFrom_append (before cs : List Char) : ∃ ps current,
    piecesFrom depth piece (before ++ cs) =
      ps ++ piecesFrom (before.foldl depthBehind depth) current cs := by
  induction before generalizing depth piece with
  | nil => exact ⟨[], piece, rfl⟩
  | cons c before ih =>
    rw [List.cons_append, piecesFrom_cons, List.foldl_cons]
    split
    · rename_i hout
      obtain ⟨rfl, rfl⟩ := eq_of_isOuter hout
      obtain ⟨ps, current, hrest⟩ := ih 0 []
      exact ⟨piece.reverse :: ps, current, congrArg (piece.reverse :: ·) hrest⟩
    · exact ih _ _

theorem piecesFrom_unbroken (h : outerCommas depth x = 0) (after : List Char) :
    piecesFrom depth piece (x ++ after) =
      piecesFrom (x.foldl depthBehind depth) (x.reverse ++ piece) after := by
  induction x generalizing depth piece with
  | nil => rfl
  | cons c x ih =>
    rw [outerCommas_cons, Nat.add_eq_zero_iff] at h
    have hinner : isOuter (c, depth) = false := by simpa using h.2
    rw [List.cons_append, piecesFrom_cons, hinner, if_neg Bool.false_ne_true, ih _ _ h.1,
      List.foldl_cons, List.reverse_cons, List.append_assoc]
    rfl

/-- What stands in parentheses is in one piece with them. -/
theorem exists_mem_piecesFrom (h : StaysOpen inside) (before after : List Char) :
    ∃ p ∈ piecesFrom depth piece (before ++ '(' :: (inside ++ ')' :: after)),
      '(' :: (inside ++ [')']) <:+: p := by
  obtain ⟨ps, current, hbefore⟩ :=
    exists_piecesFrom_append depth piece before ('(' :: (inside ++ ')' :: after))
  have hinside : ∀ d, outerCommas (d + 1) inside = 0 := fun d =>
    outerCommas_eq_zero (Nat.succ_le_succ (Nat.zero_le d)) h
  rw [hbefore, piecesFrom_cons, if_neg (by simp [isOuter])]
  -- The depth in front of the parenthesis does not matter: it is one more inside.
  generalize before.foldl depthBehind depth = d
  have hopen : depthBehind d '(' = d + 1 := rfl
  rw [hopen, piecesFrom_unbroken _ _ (hinside d), piecesFrom_cons, if_neg (by simp [isOuter])]
  generalize depthBehind (inside.foldl depthBehind (d + 1)) ')' = d'
  obtain ⟨more, rest, hpieces⟩ := exists_piecesFrom d' (')' :: (inside.reverse ++ '(' :: current)) after
  rw [hpieces]
  refine ⟨_, List.mem_append_right ps List.mem_cons_self, current.reverse, more, ?_⟩
  simp

end Pieces

/-! ## Cuts -/

/-- The text before one of the cuts between the pieces is `before`. -/
def CutsBehind (pieces : List (List Char)) (before : List Char) : Prop :=
  ∃ ps qs, ps ≠ [] ∧ qs ≠ [] ∧ pieces = ps ++ qs ∧ [','].intercalate ps = before

theorem cutsBehind_iff (before after : List Char) :
    CutsBehind (piecesFrom 0 [] (before ++ ',' :: after)) before ↔ depthOf before = 0 := by
  constructor
  · rintro ⟨ps, qs, hps, hqs, hpieces, htext⟩
    obtain ⟨before', after', -, hdepth, htext'⟩ := exists_comma_of_piecesFrom 0 [] hpieces hps hqs
    rw [htext, List.reverse_nil, List.nil_append] at htext'
    rw [htext']
    exact hdepth
  · intro hdepth
    exact ⟨_, _, piecesFrom_ne_nil 0 [] before, piecesFrom_ne_nil 0 [] after,
      piecesFrom_comma 0 [] hdepth, intercalate_piecesFrom 0 [] before⟩

theorem exists_part_of_staysOpen {inside : List Char} (h : StaysOpen inside) (before after : List Char) :
    ∃ part ∈ splitTopLevel (before ++ '(' :: (inside ++ ')' :: after)),
      '(' :: (inside ++ [')']) <:+: part := by
  obtain ⟨piece, hpiece, hin⟩ := exists_mem_piecesFrom 0 [] h before after
  have hopen : Text.Solid ['('] := Text.solid_singleton (by decide)
  have hclose : Text.Solid [')'] := Text.solid_singleton (by decide)
  have htrimmed : Text.Trimmed ('(' :: inside ++ [')']) := hopen.trimmed.append inside hclose.trimmed
  exact ⟨Text.trim piece, List.mem_map_of_mem hpiece, htrimmed.infix_trim hin⟩

/-- A select list has one entry more than commas outside parentheses. Its entries are pieces without
the blanks around them, and the pieces with commas between them are the list. A comma of the list is
between two of the pieces if and only if it is outside parentheses. So the argument of a call is in one
entry with its parentheses. -/
theorem splitTopLevel_cuts (list : List Char) :
    (splitTopLevel list).length = outerCommas 0 list + 1 ∧
      (∃ pieces : List (List Char), [','].intercalate pieces = list ∧
        pieces.map Text.trim = splitTopLevel list ∧
        (∀ piece ∈ pieces, ∃ b b' : Blanks, piece = b.text ++ (Text.trim piece ++ b'.text)) ∧
        ∀ before after, list = before ++ ',' :: after →
          (CutsBehind pieces before ↔ depthOf before = 0)) ∧
      ∀ before inside after, list = before ++ '(' :: (inside ++ ')' :: after) → StaysOpen inside →
        ∃ part ∈ splitTopLevel list, '(' :: (inside ++ [')']) <:+: part := by
  refine ⟨?_, ⟨piecesFrom 0 [] list, ?_, rfl, ?_, ?_⟩, ?_⟩
  · rw [splitTopLevel, List.length_map, length_piecesFrom]
  · exact intercalate_piecesFrom 0 [] list
  · exact fun piece _ => Text.exists_trim piece
  · rintro before after rfl
    exact cutsBehind_iff before after
  · rintro before inside after rfl hinside
    exact exists_part_of_staysOpen hinside before after

/-- Closed more often than opened, then opened more often than closed. -/
theorem splitTopLevel_unbalanced :
    let list := "a) , F(b,(c),d),G(e,".toList
    (splitTopLevel list).length = 3 ∧
      (∃ pieces : List (List Char), [','].intercalate pieces = list ∧
        pieces.map Text.trim = splitTopLevel list ∧ CutsBehind pieces "a) ".toList ∧
        ¬ CutsBehind pieces "a) , F(b".toList ∧ ¬ CutsBehind pieces "a) , F(b,(c),d),G(e".toList) ∧
      StaysOpen "b,(c),d".toList ∧ ∃ part ∈ splitTopLevel list, "(b,(c),d)".toList <:+: part := by
  intro list
  obtain ⟨hlength, ⟨pieces, htext, htrim, -, hcuts⟩, hcalls⟩ := splitTopLevel_cuts list
  have hcommas : outerCommas 0 list = 2 := by decide
  have hinside : StaysOpen "b,(c),d".toList := by decide
  refine ⟨by rw [hlength, hcommas], ⟨pieces, htext, htrim, ?_, ?_, ?_⟩, hinside, ?_⟩
  · exact (hcuts "a) ".toList " F(b,(c),d),G(e,".toList rfl).2 (by decide)
  · exact fun h => absurd ((hcuts _ "(c),d),G(e,".toList rfl).1 h) (by decide)
  · exact fun h => absurd ((hcuts _ [] rfl).1 h) (by decide)
  · exact hcalls "a) , F".toList _ ",G(e,".toList rfl hinside

end Tabular.Query
