import Tabular.Proofs.BlankLines
/-!
# Where reading stops

A table is read until the first record with a fault: a character behind a closing quote, a quote
that is left open, or a number of fields that is not the header's. The fault names the line of that
character or else the line that the record starts on, counted by the line breaks before it. All of
this is said of the text alone; the reader keeps its counts as it goes.
-/

namespace Tabular.Delimited

/-! ## Records in their text -/

/-- A record of a text: all that stands before it, and its own characters with the line break that
ends it. -/
structure Piece where
  before : List Char
  text : List Char

/-- The line of the character behind `before`. -/
def lineBehind (before : List Char) : Nat := 1 + before.count '\n'

/-- Where a character stands if `text` precedes it in a record and `place` precedes `text`. -/
def placeBehind (d : Char) (place : Place) (text : List Char) : Place :=
  text.foldl (fun place c => place.after d c none) place

/-- Cuts a text behind each line break outside quotes. `text` is what is taken of the current
record, and `before` what stands before that. -/
def piecesFrom (d : Char) (before text : List Char) : List Char → List Piece
  | [] => [⟨before, text⟩]
  | c :: cs =>
    if placeBehind d .start text ≠ .quoted ∧ c = '\n' then
      ⟨before, text ++ [c]⟩ :: piecesFrom d (before ++ (text ++ [c])) [] cs
    else piecesFrom d before (text ++ [c]) cs

/-- The byte order mark that starts a text, if one does. -/
def markOf : List Char → List Char
  | '\ufeff' :: _ => ['\ufeff']
  | _ => []

/-- The records of a content. -/
def pieces (d : Char) (content : String) : List Piece :=
  piecesFrom d (markOf content.toList) [] (dropMark content.toList)

/-! ## Faults of a record -/

/-- At `n` stands a character behind a closing quote, which is no other quote and does not end the
field. -/
def StrayAt (d : Char) (text : List Char) (n : Nat) : Prop :=
  placeBehind d .start (text.take n) = .closed ∧
    ∃ c, text[n]? = some c ∧ c ∉ ['"', d, '\n'] ∧ ¬(c = '\r' ∧ text[n + 1]? = some '\n')

/-- The delimiters outside quotes. -/
def delimiters (d : Char) (place : Place) : List Char → Nat
  | [] => 0
  | c :: cs => (if place ≠ .quoted ∧ c = d then 1 else 0) + delimiters d (place.after d c none) cs

namespace Piece
variable (d : Char) (p : Piece)

/-- The number of fields. -/
def width : Nat := delimiters d .start p.text + 1

/-- An empty line, or a pair of quotes and nothing else. -/
def IsBlank : Prop :=
  ∃ t ∈ [[], quotedEmpty], p.text = t ∨ p.text = t ++ ['\n'] ∨ d ≠ '\r' ∧ p.text = t ++ ['\r', '\n']

instance : Decidable (p.IsBlank d) := inferInstanceAs (Decidable (∃ t ∈ _, _))

/-- A quote is still open where the record ends. -/
def IsOpen : Prop := placeBehind d .start p.text = .quoted

/-- The record has another width than the header, if the header stands before it. -/
def IsMisfit (header : Option Piece) : Prop :=
  ∃ h, header = some h ∧ ¬ p.IsBlank d ∧ p.width d ≠ h.width d

def IsFaulty (header : Option Piece) : Prop :=
  (∃ n, StrayAt d p.text n) ∨ p.IsOpen d ∨ p.IsMisfit d header

/-- The fault of a record. Of several it is the one listed first. -/
inductive Fails (header : Option Piece) : Fault → Prop
  | afterQuote {n : Nat} (h : StrayAt d p.text n) (hfirst : ∀ m < n, ¬ StrayAt d p.text m) :
    Fails header (.afterQuote (lineBehind (p.before ++ p.text.take n)))
  | openQuote (hstray : ∀ n, ¬ StrayAt d p.text n) (h : p.IsOpen d) :
    Fails header (.openQuote (lineBehind p.before))
  | width {h : Piece} (hstray : ∀ n, ¬ StrayAt d p.text n) (hopen : ¬ p.IsOpen d)
    (hheader : header = some h) (hblank : ¬ p.IsBlank d) (hwidth : p.width d ≠ h.width d) :
    Fails header (.width (lineBehind p.before) (h.width d) (p.width d))

end Piece

/-- The header of a table, if it is among its first records: the first of them that is not blank. -/
def headerOf (d : Char) (before : List Piece) : Option Piece := before.find? (¬ ·.IsBlank d)

/-! ## One more character -/

section Concat
variable {d c : Char} {place : Place} {before text more : List Char}

theorem lineBehind_concat : lineBehind (before ++ [c]) = lineBehind before + [c].count '\n' := by
  rw [lineBehind, lineBehind, List.count_append, Nat.add_assoc]

theorem placeBehind_concat :
    placeBehind d place (text ++ [c]) = (placeBehind d place text).after d c none := by
  rw [placeBehind, placeBehind, List.foldl_append]
  rfl

theorem delimiters_concat :
    delimiters d place (text ++ [c]) =
      delimiters d place text + if placeBehind d place text ≠ .quoted ∧ c = d then 1 else 0 := by
  induction text generalizing place with
  | nil => rw [List.nil_append, delimiters, Nat.add_comm]; rfl
  | cons e text ih => rw [List.cons_append, delimiters, ih, delimiters, Nat.add_assoc]; rfl

theorem unbroken_concat :
    Unbroken d place (text ++ [c]) ↔
      Unbroken d place text ∧ (placeBehind d place text ≠ .quoted → c ≠ '\n') := by
  induction text generalizing place with
  | nil => exact and_comm
  | cons e text ih => rw [List.cons_append, Unbroken, ih, Unbroken, and_assoc]; rfl

theorem strayAt_length :
    StrayAt d (text ++ c :: more) text.length ↔
      placeBehind d .start text = .closed ∧ c ∉ ['"', d, '\n'] ∧
        ¬(c = '\r' ∧ more.head? = some '\n') := by
  have hnext : (text ++ c :: more)[text.length + 1]? = more.head? := by
    rw [List.getElem?_append_right (Nat.le_add_right _ _), Nat.add_sub_cancel_left,
      List.getElem?_cons_succ, List.head?_eq_getElem?]
  rw [StrayAt, List.take_left, hnext]
  simp

theorem not_strayAt_of_length_le {n : Nat} (h : text.length ≤ n) : ¬ StrayAt d text n := by
  rintro ⟨-, c, hc, -⟩
  rw [List.getElem?_eq_none h] at hc
  cases hc

/-- A record begins with what is taken of it and goes on with the next character. -/
theorem exists_piecesFrom (d : Char) (before text cs : List Char) :
    ∃ more ps, piecesFrom d before text cs = ⟨before, text ++ more⟩ :: ps ∧
      more.head? = cs.head? := by
  induction cs generalizing text with
  | nil => exact ⟨[], [], by rw [piecesFrom, List.append_nil], rfl⟩
  | cons c cs ih =>
    rw [piecesFrom]
    split
    · exact ⟨[c], _, rfl, rfl⟩
    · obtain ⟨more, ps, hcut, -⟩ := ih (text ++ [c])
      exact ⟨c :: more, ps, by rw [hcut, List.append_assoc]; rfl, rfl⟩

end Concat

/-! ## Steps of the reader -/

section Steps
variable {d c : Char} {next : Option Char} {s t : State}

/-- The reader counts the line breaks, in quotes and outside. -/
theorem State.line_read (hbreak : d ≠ '\n') (h : s.read d c next = .ok t) :
    t.line = s.line + [c].count '\n' := by
  cases step_of_read h with
  | opens _ _ hc => rw [hc]; rfl
  | closes _ hc => rw [hc]; rfl
  | doubles _ hc => rw [hc]; rfl
  | inside hs hc line =>
    rw [read_inside hs hc] at h
    exact (congrArg State.line (Except.ok.inj h)).symm
  | endsField _ hc => rw [count_other (hc ▸ hbreak)]; rfl
  | skips _ _ hc => rw [hc]; rfl
  | endsRecord _ hc => rw [hc]; rfl
  | pushes _ hc => rw [count_other hc.2]; rfl

/-- Reading stops only behind a closing quote. -/
theorem State.of_read_error {fault : Fault} (h : s.read d c next = .error fault) :
    s.mode = .closed ∧ c ∉ ['"', d, '\n'] ∧ ¬(c = '\r' ∧ next = some '\n') ∧
      fault = .afterQuote s.line := by
  have hbare (h : s.readBare d c next = .error fault) :
      s.mode = .closed ∧ c ∉ [d, '\n'] ∧ ¬(c = '\r' ∧ next = some '\n') ∧
        fault = .afterQuote s.line := by
    unfold readBare at h
    split_ifs at h with hopen hd hreturn hn hclosed
    cases h
    exact ⟨hclosed, by simp [hd, hn], hreturn, rfl⟩
  unfold read at h
  split at h
  · rename_i hs
    rw [(hbare h).1] at hs
    cases hs
  · split_ifs at h
  · split_ifs at h with hquote
    obtain ⟨hclosed, hc, hreturn, hfault⟩ := hbare h
    exact ⟨hclosed, mt List.mem_cons.1 (not_or.2 ⟨hquote, hc⟩), hreturn, hfault⟩

theorem State.Step.of_closed (h : State.Step d s c next t) (hs : s.mode = .closed) :
    c ∈ ['"', d, '\n'] ∨ c = '\r' ∧ next = some '\n' := by
  cases h with
  | opens hmode => rw [hs] at hmode; cases hmode
  | closes hmode => rw [hs] at hmode; cases hmode
  | doubles _ hc => exact .inl (by simp [hc])
  | inside hmode => rw [hs] at hmode; cases hmode
  | endsField _ hc => exact .inl (by simp [hc])
  | skips _ _ hc hnext => exact .inr ⟨hc, hnext⟩
  | endsRecord _ hc => exact .inl (by simp [hc])
  | pushes hmode => rw [hs] at hmode; cases hmode

theorem State.Step.start_eq (h : State.Step d s c next t) (hc : s.mode ≠ .quoted → c ≠ '\n') :
    t.start = s.start := by
  cases h with
  | endsRecord hs hbreak => exact absurd hbreak (hc hs)
  | _ => rfl

/-- A delimiter outside quotes ends a field, and inside a record nothing else does. -/
theorem State.Step.length_fields (hquote : d ≠ '"') (h : State.Step d s c next t)
    (hc : s.mode ≠ .quoted → c ≠ '\n') :
    t.fields.length = s.fields.length + if s.mode ≠ .quoted ∧ c = d then 1 else 0 := by
  cases h with
  | opens hs hfield hopen => simp [hopen, hquote.symm]
  | closes hs => simp [hs]
  | doubles hs hopen => simp [State.push, hopen, hquote.symm]
  | inside hs => simp [State.push, hs]
  | endsField hs hd => simp [State.endField, hs, hd]
  | skips hs hd => simp [hd]
  | endsRecord hs hbreak => exact absurd hbreak (hc hs)
  | pushes hs hd => simp [State.push, hd.1]

end Steps

/-! ## The state inside a record -/

/-- What a record can begin with while its fields are empty; `next` is the character behind it. -/
def Quiet (d : Char) (text : List Char) (next : Option Char) : Prop :=
  text ∈ [[], ['"'], quotedEmpty] ∨
    d ≠ '\r' ∧ next = some '\n' ∧ text ∈ [['\r'], quotedEmpty ++ ['\r']]

/-- The state of the reader that has taken `text` of a record, in the terms of the text alone. In
front of a line break the place is left open, since a carriage return may have been skipped. -/
structure State.Within (d : Char) (before text : List Char) (next : Option Char) (s : State) :
    Prop where
  quoted : s.mode = .quoted ↔ placeBehind d .start text = .quoted
  place : next ≠ some '\n' → s.place = placeBehind d .start text
  line : s.line = lineBehind (before ++ text)
  start : s.start = lineBehind before
  width : s.fields.length = delimiters d .start text
  begun : ¬ s.Begun ↔ Quiet d text next
  unbroken : Unbroken d .start text

/-- A record as it is read. -/
structure Record.Shows (d : Char) (p : Piece) (r : Record) : Prop where
  line : r.line = lineBehind p.before
  width : r.fields.length = p.width d
  blank : r.isBlank = true ↔ p.IsBlank d

section Within
variable {d c : Char} {before text : List Char} {next : Option Char} {s t : State}

theorem Within.start (d : Char) (before : List Char) (next : Option Char) {s : State}
    (hmode : s.mode = .bare) (hfield : s.field = []) (hfields : s.fields = [])
    (hline : s.line = lineBehind before) (hstart : s.start = lineBehind before) :
    s.Within d before [] next where
  quoted := by rw [hmode]; exact iff_of_false nofun nofun
  place _ := by rw [State.place, hmode, if_pos hfield]; rfl
  line := by rw [List.append_nil, hline]
  start := hstart
  width := by rw [hfields]; rfl
  begun := iff_of_true (by simp [State.Begun, hfield, hfields]) (.inl List.mem_cons_self)
  unbroken := trivial

namespace State.Within

/-- Inside a record the place is that of the text. -/
theorem place_eq (hs : s.Within d before text (some c))
    (hc : placeBehind d .start text ≠ .quoted → c ≠ '\n') :
    s.place = placeBehind d .start text := by
  by_cases hn : c = '\n'
  · have hquoted : placeBehind d .start text = .quoted := by
      by_contra h
      exact hc h hn
    rw [hquoted, place_eq_quoted_iff, hs.quoted, hquoted]
  · exact hs.place fun h => hn (Option.some.inj h)

/-- A text that leaves the fields empty is known from the place behind it. -/
theorem begins_of_not_begun (hs : s.Within d before text (some c)) (hbegun : ¬ s.Begun)
    (hc : c ≠ '\n') : text = [] ∧ s.place = .start ∨ text = ['"'] ∧ s.place = .quoted ∨
      text = quotedEmpty ∧ s.place = .closed := by
  have hplace := hs.place fun h => hc (Option.some.inj h)
  rcases hs.begun.1 hbegun with htext | ⟨-, hn, -⟩
  · simp only [List.mem_cons, List.not_mem_nil, or_false] at htext
    rcases htext with rfl | rfl | rfl
    · exact .inl ⟨rfl, hplace⟩
    · exact .inr (.inl ⟨rfl, hplace⟩)
    · exact .inr (.inr ⟨rfl, hplace⟩)
  · exact absurd (Option.some.inj hn) hc

/-- The fields stay empty only while quotes are opened and closed, and in front of a line end. -/
theorem quiet_of_not_begun (hs : s.Within d before text (some c)) (h : State.Step d s c next t)
    (hc : placeBehind d .start text ≠ .quoted → c ≠ '\n') (hbegun : ¬ t.Begun) :
    Quiet d (text ++ [c]) next := by
  cases h with
  | opens hmode hfield hquote =>
    subst hquote
    rcases hs.begins_of_not_begun hbegun (by decide) with ⟨rfl, -⟩ | ⟨-, hplace⟩ | ⟨-, hplace⟩
    · exact .inl (by decide)
    · rw [place_eq_quoted_iff, hmode] at hplace
      cases hplace
    · rw [place_eq_closed_iff, hmode] at hplace
      cases hplace
  | closes hmode hquote =>
    subst hquote
    rcases hs.begins_of_not_begun hbegun (by decide) with ⟨-, hplace⟩ | ⟨rfl, -⟩ | ⟨-, hplace⟩
    · rw [(place_eq_start_iff.1 hplace).1] at hmode
      cases hmode
    · exact .inl (by decide)
    · rw [place_eq_closed_iff, hmode] at hplace
      cases hplace
  | skips hmode hd hreturn hnext =>
    subst hreturn
    refine .inr ⟨hd.symm, hnext, ?_⟩
    rcases hs.begins_of_not_begun hbegun (by decide) with ⟨rfl, -⟩ | ⟨-, hplace⟩ | ⟨rfl, -⟩
    · decide
    · exact absurd (place_eq_quoted_iff.1 hplace) hmode
    · decide
  | doubles => exact absurd (.inl (List.cons_ne_nil _ _)) hbegun
  | inside => exact absurd (.inl (List.cons_ne_nil _ _)) hbegun
  | endsField => exact absurd (.inr (List.cons_ne_nil _ _)) hbegun
  | endsRecord hmode hn => exact absurd hn (hc (mt hs.quoted.2 hmode))
  | pushes => exact absurd (.inl (List.cons_ne_nil _ _)) hbegun

theorem not_begun_of_quiet (hs : s.Within d before text (some c)) (h : s.read d c next = .ok t)
    (hquiet : Quiet d (text ++ [c]) next) : ¬ t.Begun := by
  have hplace (hc : c ≠ '\n') := hs.place fun h => hc (Option.some.inj h)
  have hlast {u : List Char} {e : Char} (h : text ++ [c] = u ++ [e]) : text = u ∧ c = e := by
    simpa using h
  rcases hquiet with htext | ⟨hd, rfl, htext⟩
  · simp only [List.mem_cons, List.not_mem_nil, or_false] at htext
    rcases htext with htext | htext | htext
    · cases (List.append_eq_nil_iff.1 htext).2
    · obtain ⟨rfl, rfl⟩ := hlast (u := []) htext
      obtain ⟨hmode, hfield⟩ := place_eq_start_iff.1 (hplace (by decide))
      rw [read_open hmode hfield] at h
      cases h
      exact hs.begun.2 (.inl (by decide))
    · obtain ⟨rfl, rfl⟩ := hlast (u := ['"']) htext
      rw [read_close (place_eq_quoted_iff.1 (hplace (by decide)))] at h
      cases h
      exact hs.begun.2 (.inl (by decide))
  · -- The carriage return is skipped.
    have hmode : s.mode ≠ .quoted ∧ c = '\r' ∧ Quiet d text (some c) := by
      simp only [List.mem_cons, List.not_mem_nil, or_false] at htext
      rcases htext with htext | htext
      · obtain ⟨rfl, rfl⟩ := hlast (u := []) htext
        exact ⟨mt hs.quoted.1 nofun, rfl, .inl (by decide)⟩
      · obtain ⟨rfl, rfl⟩ := hlast htext
        exact ⟨mt hs.quoted.1 nofun, rfl, .inl (by decide)⟩
    obtain ⟨hmode, rfl, hquiet⟩ := hmode
    rw [read_return hmode hd] at h
    cases h
    exact hs.begun.2 hquiet

/-- One more character of a record. -/
theorem step (hquote : d ≠ '"') (hbreak : d ≠ '\n') (hs : s.Within d before text (some c))
    (h : s.read d c next = .ok t) (hc : placeBehind d .start text ≠ .quoted → c ≠ '\n') :
    t.Within d before (text ++ [c]) next where
  quoted := by
    rw [← place_eq_quoted_iff, place_read hquote h, hs.place_eq hc, Place.after_eq_quoted_iff,
      placeBehind_concat]
  place hnext := by
    rw [place_read hquote h, hs.place_eq hc, Place.after_none hnext, placeBehind_concat]
  line := by rw [line_read hbreak h, hs.line, ← List.append_assoc, lineBehind_concat]
  start := by
    rw [(step_of_read h).start_eq fun hmode => hc (mt hs.quoted.2 hmode), hs.start]
  width := by
    rw [(step_of_read h).length_fields hquote fun hmode => hc (mt hs.quoted.2 hmode), hs.width,
      delimiters_concat]
    simp only [ne_eq, hs.quoted]
  begun := ⟨hs.quiet_of_not_begun (step_of_read h) hc, hs.not_begun_of_quiet h⟩
  unbroken := unbroken_concat.2 ⟨hs.unbroken, hc⟩

end State.Within

/-! ## The end of a record -/

theorem isBlank_iff_not_begun {line : Nat} :
    Record.isBlank ⟨line, s.endField.fields.reverse⟩ = true ↔ ¬ s.Begun := by
  simp [Record.isBlank, State.endField, List.append_eq_singleton_iff, State.Begun, and_comm]

theorem blank_cases {blank : List Char} (h : blank ∈ [[], quotedEmpty]) :
    blank ∈ [[], ['"'], quotedEmpty] ∧ blank ++ ['\r'] ∈ [['\r'], quotedEmpty ++ ['\r']] ∧
      placeBehind d .start blank ≠ .quoted := by
  simp only [List.mem_cons, List.not_mem_nil, or_false] at h
  rcases h with rfl | rfl <;> exact ⟨by decide, by decide, nofun⟩

/-- The fields of a last line without an end are empty if it is blank. -/
theorem quiet_iff_isBlank (htext : Unbroken d .start text)
    (hopen : placeBehind d .start text ≠ .quoted) :
    Quiet d text none ↔ Piece.IsBlank d ⟨before, text⟩ := by
  constructor
  · rintro (htext | ⟨-, hnone, -⟩)
    · simp only [List.mem_cons, List.not_mem_nil, or_false] at htext
      rcases htext with rfl | rfl | rfl
      · exact ⟨[], by decide, .inl rfl⟩
      · exact absurd rfl hopen
      · exact ⟨quotedEmpty, by decide, .inl rfl⟩
    · cases hnone
  · rintro ⟨blank, hblank, rfl | rfl | ⟨-, rfl⟩⟩ <;>
      obtain ⟨hquiet, -, hplace⟩ := blank_cases (d := d) hblank
    · exact .inl hquiet
    · exact absurd rfl ((unbroken_concat.1 htext).2 hplace)
    · have hreturn : placeBehind d .start (blank ++ ['\r']) ≠ .quoted := by
        rw [placeBehind_concat]
        exact Place.after_return hplace
      rw [List.append_cons] at htext
      exact absurd rfl ((unbroken_concat.1 htext).2 hreturn)

/-- The fields of a line are empty if it is blank. -/
theorem quiet_iff_isBlank_line (hopen : placeBehind d .start text ≠ .quoted) :
    Quiet d text (some '\n') ↔ Piece.IsBlank d ⟨before, text ++ ['\n']⟩ := by
  constructor
  · rintro (htext | ⟨hd, -, htext⟩)
    · simp only [List.mem_cons, List.not_mem_nil, or_false] at htext
      rcases htext with rfl | rfl | rfl
      · exact ⟨[], by decide, .inr (.inl rfl)⟩
      · exact absurd rfl hopen
      · exact ⟨quotedEmpty, by decide, .inr (.inl rfl)⟩
    · simp only [List.mem_cons, List.not_mem_nil, or_false] at htext
      rcases htext with rfl | rfl
      · exact ⟨[], by decide, .inr (.inr ⟨hd, rfl⟩)⟩
      · exact ⟨quotedEmpty, by decide, .inr (.inr ⟨hd, rfl⟩)⟩
  · rintro ⟨blank, hblank, h | h | ⟨hd, h⟩⟩ <;>
      obtain ⟨hquiet, hreturn, -⟩ := blank_cases (d := d) hblank
    · have hlast : blank.getLast? = some '\n' := by rw [← h, List.getLast?_concat]
      simp only [List.mem_cons, List.not_mem_nil, or_false] at hblank
      rcases hblank with rfl | rfl <;> cases hlast
    · exact .inl (List.append_cancel_right h ▸ hquiet)
    · have hline : text ++ ['\n'] = (blank ++ ['\r']) ++ ['\n'] := h.trans (List.append_cons ..)
      exact .inr ⟨hd, rfl, List.append_cancel_right hline ▸ hreturn⟩

/-- A record at its end, of which all but the line break is read. -/
theorem State.Within.shows {full : List Char} (hs : s.Within d before text next)
    (hwidth : delimiters d .start full = delimiters d .start text)
    (hblank : Quiet d text next ↔ Piece.IsBlank d ⟨before, full⟩) :
    Record.Shows d ⟨before, full⟩ ⟨s.start, s.endField.fields.reverse⟩ where
  line := hs.start
  width := by
    rw [List.length_reverse, State.endField, List.length_cons, hs.width, Piece.width, hwidth]
  blank := isBlank_iff_not_begun.trans (hs.begun.trans hblank)

end Within

/-! ## Reading the records -/

/-- The records that are read of a text, and the fault that ends them early. -/
inductive Readings (d : Char) : List Piece → List Record → Option Fault → Prop
  | done : Readings d [] [] none
  | stops {p : Piece} {ps : List Piece} {fault : Fault} (h : p.Fails d none fault) :
    Readings d (p :: ps) [] (some fault)
  | goesOn {p : Piece} {ps : List Piece} {r : Record} {rs : List Record} {fault : Option Fault}
    (hp : ¬ p.IsFaulty d none) (hr : r.Shows d p) (h : Readings d ps rs fault) :
    Readings d (p :: ps) (r :: rs) fault

section Readings
variable {d c : Char} {before text more full cs : List Char} {ps : List Piece} {s t : State}

theorem not_isFaulty_none {p : Piece} (hstray : ∀ n, ¬ StrayAt d p.text n) (hopen : ¬ p.IsOpen d) :
    ¬ p.IsFaulty d none := by
  rintro (⟨n, h⟩ | h | ⟨_, h, -⟩)
  · exact hstray n h
  · exact hopen h
  · cases h

/-- The line break of a record is no fault. -/
theorem not_isFaulty_line (hopen : placeBehind d .start text ≠ .quoted)
    (hstray : ∀ n < text.length, ¬ StrayAt d (text ++ ['\n']) n) :
    ¬ Piece.IsFaulty d ⟨before, text ++ ['\n']⟩ none := by
  refine not_isFaulty_none (fun n hn => ?_) ?_
  · rcases Nat.lt_trichotomy n text.length with hlt | rfl | hgt
    · exact hstray n hlt hn
    · exact (strayAt_length.1 hn).2.1 (by simp)
    · exact not_strayAt_of_length_le (by rw [List.length_append]; exact hgt) hn
  · rw [Piece.IsOpen, placeBehind_concat, Place.after, if_neg hopen]
    simp

/-- A character that is read is not one behind a closing quote. -/
theorem State.Within.not_strayAt (hs : s.Within d before text (some c))
    (hc : placeBehind d .start text ≠ .quoted → c ≠ '\n') (h : s.read d c more.head? = .ok t) :
    ¬ StrayAt d (text ++ c :: more) text.length := by
  rw [strayAt_length, ← hs.place_eq hc, place_eq_closed_iff]
  rintro ⟨hmode, hmem, hreturn⟩
  exact (step_of_read h).of_closed hmode |>.elim hmem hreturn

/-- A character that is not read is the first behind a closing quote, on the line of the reader. -/
theorem State.Within.fails (hs : s.Within d before text (some c))
    (hc : placeBehind d .start text ≠ .quoted → c ≠ '\n') {fault : Fault}
    (h : s.read d c more.head? = .error fault)
    (hstray : ∀ n < text.length, ¬ StrayAt d (text ++ c :: more) n) :
    Piece.Fails d ⟨before, text ++ c :: more⟩ none fault := by
  obtain ⟨hmode, hmem, hreturn, rfl⟩ := of_read_error h
  have hplace : placeBehind d .start text = .closed := by
    rw [← hs.place_eq hc, place_eq_closed_iff.2 hmode]
  have hfails : Piece.Fails d ⟨before, text ++ c :: more⟩ none _ :=
    .afterQuote (strayAt_length.2 ⟨hplace, hmem, hreturn⟩) hstray
  rwa [List.take_left, ← hs.line] at hfails

/-- The reader takes a text record by record, and stops at the first with a quote out of place. -/
theorem recordsFrom_readings (hquote : d ≠ '"') (hbreak : d ≠ '\n')
    (hcut : piecesFrom d before text cs = ⟨before, full⟩ :: ps)
    (hs : s.Within d before text cs.head?) (hstray : ∀ n < text.length, ¬ StrayAt d full n) :
    ∃ rs fault, recordsFrom d s cs = (s.records.reverse ++ rs, fault) ∧
      Readings d (⟨before, full⟩ :: ps) rs fault := by
  induction cs generalizing s before text full ps with
  | nil =>
    obtain ⟨hfull, rfl⟩ := List.cons.inj hcut
    cases hfull
    have hnone (n : Nat) : ¬ StrayAt d text n :=
      (Nat.lt_or_ge n text.length).elim (hstray n) not_strayAt_of_length_le
    by_cases hmode : s.mode = .quoted
    · refine ⟨[], some (.openQuote s.start), by rw [recordsFrom, if_pos hmode, List.append_nil], ?_⟩
      rw [hs.start]
      exact .stops (.openQuote hnone (hs.quoted.1 hmode))
    · have hopen := mt hs.quoted.2 hmode
      refine ⟨[⟨s.start, s.endField.fields.reverse⟩], none, ?_, ?_⟩
      · rw [recordsFrom, if_neg hmode, State.endRecord, List.reverse_cons]
        rfl
      · exact .goesOn (not_isFaulty_none hnone hopen)
          (hs.shows rfl (quiet_iff_isBlank hs.unbroken hopen)) .done
  | cons c cs ih =>
    rw [piecesFrom] at hcut
    split at hcut
    · -- The record ends here, and the next one starts on the next line.
      rename_i hend
      obtain ⟨hopen, rfl⟩ := hend
      obtain ⟨hfull, rfl⟩ := List.cons.inj hcut
      cases hfull
      obtain ⟨more, qs, hnext, -⟩ := exists_piecesFrom d (before ++ (text ++ ['\n'])) [] cs
      have hline : s.endRecord.line = lineBehind (before ++ (text ++ ['\n'])) := by
        rw [← List.append_assoc, lineBehind_concat, ← hs.line]
        rfl
      obtain ⟨rs, fault, hrs, hreadings⟩ :=
        ih hnext (Within.start d _ cs.head? rfl rfl rfl hline hline) fun n hn =>
          absurd hn n.not_lt_zero
      have hwidth : delimiters d .start (text ++ ['\n']) = delimiters d .start text := by
        rw [delimiters_concat, if_neg fun h => hbreak h.2.symm, Nat.add_zero]
      refine ⟨⟨s.start, s.endField.fields.reverse⟩ :: rs, fault, ?_, ?_⟩
      · rw [recordsFrom_cons (State.read_newline (mt hs.quoted.1 hopen) hbreak _), hrs,
          State.endRecord, List.reverse_cons, List.append_assoc]
        rfl
      · rw [hnext]
        exact .goesOn (not_isFaulty_line hopen hstray)
          (hs.shows hwidth (quiet_iff_isBlank_line hopen)) hreadings
    · rename_i hend
      have hc : placeBehind d .start text ≠ .quoted → c ≠ '\n' := fun hopen hn => hend ⟨hopen, hn⟩
      obtain ⟨more, qs, hmore, hhead⟩ := exists_piecesFrom d before (text ++ [c]) cs
      obtain ⟨hfull, rfl⟩ := List.cons.inj (hcut.symm.trans hmore)
      have hfull : full = text ++ c :: more := by
        rw [(Piece.mk.inj hfull).2, List.append_assoc, List.singleton_append]
      subst hfull
      cases hread : s.read d c cs.head? with
      | error fault =>
        exact ⟨[], some fault, by rw [recordsFrom, hread, List.append_nil],
          .stops (hs.fails hc (hhead ▸ hread) hstray)⟩
      | ok t =>
        have hstray (n : Nat) (hn : n < (text ++ [c]).length) :
            ¬ StrayAt d (text ++ c :: more) n := by
          rw [List.length_append, List.length_singleton, Nat.lt_succ_iff_lt_or_eq] at hn
          rcases hn with hlt | rfl
          · exact hstray n hlt
          · exact hs.not_strayAt hc (hhead ▸ hread)
        obtain ⟨rs, fault, hrs, hreadings⟩ := ih hcut (hs.step hquote hbreak hread hc) hstray
        have hrecords : t.records = s.records :=
          (State.step_of_read hread).records_eq fun hmode => hc (mt hs.quoted.2 hmode)
        exact ⟨rs, fault, by rw [recordsFrom_cons hread, hrs, hrecords], hreadings⟩

end Readings

/-! ## The first fault -/

namespace Piece
variable {d : Char} {p : Piece} {header : Option Piece} {fault fault' : Fault}

theorem isFaulty_iff : p.IsFaulty d header ↔ ∃ fault, p.Fails d header fault := by
  classical
  constructor
  · intro h
    by_cases hstray : ∃ n, StrayAt d p.text n
    · exact ⟨_, .afterQuote (Nat.find_spec hstray) fun m hm => Nat.find_min hstray hm⟩
    have hnone := not_exists.1 hstray
    by_cases hopen : p.IsOpen d
    · exact ⟨_, .openQuote hnone hopen⟩
    obtain ⟨n, hn⟩ | h | ⟨_, hheader, hblank, hwidth⟩ := h
    · exact absurd hn (hnone n)
    · exact absurd h hopen
    · exact ⟨_, .width hnone hopen hheader hblank hwidth⟩
  · rintro ⟨fault, h⟩
    cases h with
    | afterQuote h => exact .inl ⟨_, h⟩
    | openQuote _ h => exact .inr (.inl h)
    | width _ _ hheader hblank hwidth => exact .inr (.inr ⟨_, hheader, hblank, hwidth⟩)

theorem Fails.unique (h : p.Fails d header fault) (h' : p.Fails d header fault') :
    fault = fault' := by
  cases h with
  | @afterQuote n h hfirst =>
    cases h' with
    | @afterQuote m h' hfirst' =>
      have hn : ¬ m < n := fun hlt => hfirst m hlt h'
      have hm : ¬ n < m := fun hlt => hfirst' n hlt h
      rw [Nat.le_antisymm (Nat.le_of_not_lt hn) (Nat.le_of_not_lt hm)]
    | openQuote hstray => exact absurd h (hstray n)
    | width hstray => exact absurd h (hstray n)
  | openQuote hstray h =>
    cases h' with
    | afterQuote h' => exact absurd h' (hstray _)
    | openQuote => rfl
    | width _ hopen => exact absurd h hopen
  | width hstray hopen hheader =>
    cases h' with
    | afterQuote h' => exact absurd h' (hstray _)
    | openQuote _ h' => exact absurd h' hopen
    | width _ _ hheader' =>
      cases hheader.symm.trans hheader'
      rfl

theorem not_isFaulty (h : ¬ p.IsFaulty d none) (hfit : ¬ p.IsMisfit d header) :
    ¬ p.IsFaulty d header := by
  rintro (hstray | hopen | hmisfit)
  · exact h (.inl hstray)
  · exact h (.inr (.inl hopen))
  · exact hfit hmisfit

/-- A quote out of place is a fault under any header. -/
theorem Fails.under (h : p.Fails d none fault) (header : Option Piece) :
    p.Fails d header fault := by
  cases h with
  | afterQuote h hfirst => exact .afterQuote h hfirst
  | openQuote hstray h => exact .openQuote hstray h
  | width _ _ hheader => cases hheader

end Piece

/-- Of the faults of some records the first. `header` is the header of the table, if it stands
before them. -/
def FirstFault (d : Char) (header : Option Piece) (ps : List Piece) (fault : Fault) : Prop :=
  ∃ before p after, ps = before ++ p :: after ∧ p.Fails d (header.or (headerOf d before)) fault ∧
    ∀ b q a, before = b ++ q :: a → ¬ q.IsFaulty d (header.or (headerOf d b))

section FirstFault
variable {d : Char} {p : Piece} {ps : List Piece} {header : Option Piece} {fault fault' : Fault}

theorem or_headerOf_nil (header : Option Piece) : header.or (headerOf d []) = header :=
  Option.or_none

theorem headerOf_cons (header : Option Piece) (before : List Piece) :
    header.or (headerOf d (p :: before)) = (header.or (headerOf d [p])).or (headerOf d before) := by
  rw [← List.singleton_append, headerOf, List.find?_append, Option.or_assoc]
  rfl

theorem headerOf_of_isBlank (h : p.IsBlank d) : headerOf d [p] = none :=
  List.find?_cons_of_neg (by simpa using h)

theorem headerOf_of_not_isBlank (h : ¬ p.IsBlank d) : headerOf d [p] = some p :=
  List.find?_cons_of_pos (by simpa using h)

theorem not_firstFault_nil : ¬ FirstFault d header [] fault := by
  rintro ⟨before, p, after, h, -⟩
  exact List.append_ne_nil_of_right_ne_nil _ (List.cons_ne_nil _ _) h.symm

theorem firstFault_of_fails (h : p.Fails d header fault) :
    FirstFault d header (p :: ps) fault' ↔ fault' = fault := by
  constructor
  · rintro ⟨_ | ⟨q, before⟩, p', after, hps, hfails, hfirst⟩
    · cases hps
      rw [or_headerOf_nil] at hfails
      exact hfails.unique h
    · cases hps
      have hp := hfirst [] p before rfl
      rw [or_headerOf_nil] at hp
      exact absurd (Piece.isFaulty_iff.2 ⟨fault, h⟩) hp
  · rintro rfl
    exact ⟨[], p, ps, rfl, by rwa [or_headerOf_nil],
      fun b q a hnil => absurd hnil.symm (by simp)⟩

theorem firstFault_cons (h : ¬ p.IsFaulty d header) :
    FirstFault d header (p :: ps) fault ↔ FirstFault d (header.or (headerOf d [p])) ps fault := by
  constructor
  · rintro ⟨_ | ⟨q, before⟩, p', after, hps, hfails, hfirst⟩
    · cases hps
      rw [or_headerOf_nil] at hfails
      exact absurd (Piece.isFaulty_iff.2 ⟨fault, hfails⟩) h
    · cases hps
      rw [headerOf_cons] at hfails
      refine ⟨before, p', after, rfl, hfails, fun b q a hb => ?_⟩
      rw [← headerOf_cons]
      exact hfirst (p :: b) q a (congrArg (p :: ·) hb)
  · rintro ⟨before, p', after, rfl, hfails, hfirst⟩
    rw [← headerOf_cons] at hfails
    refine ⟨p :: before, p', after, rfl, hfails, ?_⟩
    rintro (_ | ⟨q', b⟩) q a hb
    · cases hb
      rwa [or_headerOf_nil]
    · cases hb
      rw [headerOf_cons]
      exact hfirst b q a rfl

/-- If any record has a fault, one of them is the first. -/
theorem exists_firstFault_iff : (∃ fault, FirstFault d header ps fault) ↔
    ∃ before p after, ps = before ++ p :: after ∧ p.IsFaulty d (header.or (headerOf d before)) := by
  constructor
  · rintro ⟨fault, before, p, after, hps, hfails, -⟩
    exact ⟨before, p, after, hps, Piece.isFaulty_iff.2 ⟨fault, hfails⟩⟩
  · rintro ⟨before, p, after, rfl, hp⟩
    induction before generalizing header with
    | nil =>
      rw [or_headerOf_nil] at hp
      obtain ⟨fault, hfails⟩ := Piece.isFaulty_iff.1 hp
      exact ⟨fault, (firstFault_of_fails hfails).2 rfl⟩
    | cons q before ih =>
      by_cases hq : q.IsFaulty d header
      · obtain ⟨fault, hfails⟩ := Piece.isFaulty_iff.1 hq
        exact ⟨fault, (firstFault_of_fails hfails).2 rfl⟩
      · rw [headerOf_cons] at hp
        obtain ⟨fault, hfirst⟩ := ih hp
        exact ⟨fault, (firstFault_cons hq).2 hfirst⟩

end FirstFault

/-! ## Rows under the header -/

section Tables
variable {d : Char} {p top : Piece} {ps : List Piece} {r header : Record} {rs : List Record}
  {stop : Option Fault} {fault : Fault}

theorem tableOf_header (first : Option Record) :
    tableOf first.toList stop = .error fault ↔ stop = some fault := by
  have hrows : tableOf first.toList stop = stop.elim (.ok []) .error := by
    cases stop <;> cases first <;> rfl
  rw [hrows]
  cases stop <;> simp

theorem tableOf_fit (hwidth : r.fields.length = header.fields.length) :
    tableOf (header :: r :: rs) stop = .error fault ↔
      tableOf (header :: rs) stop = .error fault := by
  have hrow : r.toRow header.fields = .ok (r.row header.fields) := if_pos hwidth
  simp only [tableOf, List.mapM_cons, hrow]
  cases rs.mapM (·.toRow header.fields) with
  | error e => rfl
  | ok rows =>
    cases stop with
    | none => constructor <;> intro h <;> cases h
    | some stop => rfl

theorem tableOf_misfit (hwidth : r.fields.length ≠ header.fields.length) :
    tableOf (header :: r :: rs) stop =
      .error (.width r.line header.fields.length r.fields.length) := by
  have hrow : r.toRow header.fields = .error (.width r.line header.fields.length r.fields.length) :=
    if_neg hwidth
  simp only [tableOf, List.mapM_cons, hrow]
  rfl

/-- Under a header that is read the first fault of the records that follow is found. -/
theorem tableOf_firstFault_under (hheader : header.fields.length = top.width d)
    (hread : Readings d ps rs stop) :
    tableOf (header :: rs.filter (!·.isBlank)) stop = .error fault ↔
      FirstFault d (some top) ps fault := by
  induction hread with
  | done => exact (tableOf_header (some header)).trans (iff_of_false nofun not_firstFault_nil)
  | stops hfails =>
    rw [List.filter_nil, firstFault_of_fails (hfails.under _)]
    exact (tableOf_header (some header)).trans (Option.some_inj.trans eq_comm)
  | @goesOn p ps r rs stop hfaulty hr hread ih =>
    by_cases hblank : p.IsBlank d
    · have hfit : ¬ p.IsMisfit d (some top) := fun ⟨_, _, hnot, _⟩ => hnot hblank
      rw [List.filter_cons_of_neg (by simpa using hr.blank.2 hblank), ih,
        firstFault_cons (Piece.not_isFaulty hfaulty hfit), Option.some_or]
    rw [List.filter_cons_of_pos (by simpa using mt hr.blank.1 hblank)]
    by_cases hwidth : p.width d = top.width d
    · have hfit : ¬ p.IsMisfit d (some top) := by
        rintro ⟨_, htop, -, hne⟩
        exact hne (Option.some.inj htop ▸ hwidth)
      rw [tableOf_fit (by rw [hr.width, hheader, hwidth]), ih,
        firstFault_cons (Piece.not_isFaulty hfaulty hfit), Option.some_or]
    · have hfails : p.Fails d (some top) (.width (lineBehind p.before) (top.width d) (p.width d)) :=
        .width (fun n hn => hfaulty (.inl ⟨n, hn⟩)) (fun hopen => hfaulty (.inr (.inl hopen))) rfl
          hblank hwidth
      rw [tableOf_misfit (by rwa [hr.width, hheader]), firstFault_of_fails hfails, hr.line,
        hr.width, hheader, Except.error.injEq, eq_comm]

/-- The first record that is not blank is the header, and up to it only quotes are out of place. -/
theorem tableOf_firstFault (hread : Readings d ps rs stop) :
    tableOf (rs.filter (!·.isBlank)) stop = .error fault ↔ FirstFault d none ps fault := by
  induction hread with
  | done => exact (tableOf_header none).trans (iff_of_false nofun not_firstFault_nil)
  | stops hfails =>
    rw [List.filter_nil, firstFault_of_fails hfails]
    exact (tableOf_header none).trans (Option.some_inj.trans eq_comm)
  | @goesOn p ps r rs stop hfaulty hr hread ih =>
    rw [firstFault_cons hfaulty, Option.none_or]
    by_cases hblank : p.IsBlank d
    · rw [List.filter_cons_of_neg (by simpa using hr.blank.2 hblank), ih,
        headerOf_of_isBlank hblank]
    · rw [List.filter_cons_of_pos (by simpa using mt hr.blank.1 hblank),
        headerOf_of_not_isBlank hblank, tableOf_firstFault_under hr.width hread]

end Tables

/-! ## Contents -/

theorem flatMap_piecesFrom (d : Char) (before text cs : List Char) :
    (piecesFrom d before text cs).flatMap Piece.text = text ++ cs := by
  induction cs generalizing before text with
  | nil => rw [piecesFrom, List.flatMap_singleton, List.append_nil]
  | cons c cs ih =>
    rw [piecesFrom]
    split
    · rw [List.flatMap_cons, ih, List.nil_append, List.append_assoc]
      rfl
    · rw [ih, List.append_assoc]
      rfl

/-- A record stands in the text behind all that is before it and in front of the next records. -/
theorem eq_of_piecesFrom {d : Char} {before text cs : List Char} {ps qs : List Piece} {p : Piece}
    (h : piecesFrom d before text cs = ps ++ p :: qs) :
    before ++ (text ++ cs) = p.before ++ (p.text ++ qs.flatMap Piece.text) := by
  induction cs generalizing before text ps with
  | nil =>
    rw [piecesFrom, eq_comm, List.append_eq_singleton_iff] at h
    obtain ⟨-, h⟩ | ⟨-, h⟩ := h
    · cases h
      rfl
    · cases h
  | cons c cs ih =>
    rw [piecesFrom] at h
    split at h
    · cases ps with
      | nil =>
        cases h
        rw [flatMap_piecesFrom, List.nil_append, List.append_assoc]
        rfl
      | cons q ps =>
        rw [← ih (List.cons.inj h).2]
        simp
    · rw [← ih h]
      simp

theorem markOf_append_dropMark (cs : List Char) : markOf cs ++ dropMark cs = cs := by
  unfold markOf dropMark
  split <;> simp_all

/-- A byte order mark stands on the first line. -/
theorem lineBehind_markOf (cs : List Char) : lineBehind (markOf cs) = 1 := by
  unfold markOf
  split <;> rfl

/-- Reading fails exactly if a record has a fault, and then with that of the first one: the line is
that of the character behind the closing quote, or else the one that the record starts on, and the
widths are those of the header and the record. -/
theorem read_fault (d : Char) (content : String) (hquote : d ≠ '"') (hbreak : d ≠ '\n') :
    (∀ before p after, pieces d content = before ++ p :: after →
      content.toList = p.before ++ (p.text ++ after.flatMap Piece.text)) ∧
    ((∃ fault, read d content = .error fault) ↔
      ∃ before p after, pieces d content = before ++ p :: after ∧
        p.IsFaulty d (headerOf d before)) ∧
    ∀ fault, read d content = .error fault ↔
      ∃ before p after, pieces d content = before ++ p :: after ∧
        p.Fails d (headerOf d before) fault ∧
        ∀ b q a, before = b ++ q :: a → ¬ q.IsFaulty d (headerOf d b) := by
  have hfirst (fault : Fault) :
      read d content = .error fault ↔ FirstFault d none (pieces d content) fault := by
    obtain ⟨text, ps, hcut, -⟩ := exists_piecesFrom d (markOf content.toList) []
      (dropMark content.toList)
    have hline : State.initial.line = lineBehind (markOf content.toList) :=
      (lineBehind_markOf _).symm
    obtain ⟨rs, stop, hrs, hread⟩ := recordsFrom_readings hquote hbreak hcut
      (Within.start d _ _ rfl rfl rfl hline hline) nofun
    rw [pieces, hcut, ← tableOf_firstFault hread, read, records, hrs]
    rfl
  refine ⟨fun before p after h => ?_, ?_, hfirst⟩
  · rw [← eq_of_piecesFrom h, List.nil_append, markOf_append_dropMark]
  · simp only [hfirst]
    exact exists_firstFault_iff

/-- The header takes the second line and the third. The fault is that of the sixth line, and not of
the one behind it, where a character follows a closing quote. -/
theorem read_shortRecord :
    let content := "\ufeff\n\"id\nno\",note\r\n\"\"\n1,\"a\"\"b\"\n2\n3,\"x\"y"
    (pieces ',' content).map Piece.text = ["\n", "\"id\nno\",note\r\n", "\"\"\n",
      "1,\"a\"\"b\"\n", "2\n", "3,\"x\"y"].map String.toList ∧
    ∃ before p after, pieces ',' content = before ++ p :: after ∧
      p.Fails ',' (headerOf ',' before) (.width 6 2 1) ∧
      ∀ b q a, before = b ++ q :: a → ¬ q.IsFaulty ',' (headerOf ',' b) := by
  intro content
  have hread : read ',' content = .error (.width 6 2 1) := by decide +kernel
  exact ⟨by decide +kernel,
    ((read_fault ',' content (by decide) (by decide)).2.2 (.width 6 2 1)).1 hread⟩

-- A character behind a closing quote is on its own line, an open quote on that of its record.
example : read ';' "a\n\"b\nc\"d" = .error (.afterQuote 3) ∧
    read ';' "a\n\"b\nc" = .error (.openQuote 2) := by
  decide +kernel

end Tabular.Delimited
