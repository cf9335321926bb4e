import Tabular.Proofs.Filtering
import Tabular.Proofs.Places
/-!
# Blank lines

A text is cut into records at the line ends outside quotes. Every record that is written with at least
one character counts, the first one for the columns and each other one for a row, except a pair of
quotes with nothing else, which is skipped as an empty line is.
-/

namespace Tabular.Delimited

/-! ## Records as they are written -/

/-- The records of a text, each without its line end. `place` is where the text starts. -/
def recordTexts (d : Char) (place : Place) : List Char → List (List Char)
  | [] => [[]]
  | c :: cs =>
    if place ≠ .quoted ∧ c = '\n' then [] :: recordTexts d .start cs
    else if place ≠ .quoted ∧ c = '\r' ∧ cs.head? = some '\n' then recordTexts d place cs
    else (recordTexts d (place.after d c none) cs).modifyHead (c :: ·)

/-- The records of a content that are written with at least one character. -/
def writtenRecords (d : Char) (content : String) : List (List Char) :=
  (recordTexts d .start (dropMark content.toList)).filter (!·.isEmpty)

/-- A field in quotes with nothing between them. -/
def quotedEmpty : List Char := ['"', '"']

/-- No line break stands outside quotes. -/
def Unbroken (d : Char) : Place → List Char → Prop
  | _, [] => True
  | place, c :: cs => (place ≠ .quoted → c ≠ '\n') ∧ Unbroken d (place.after d c none) cs

theorem unbroken_recordTexts {d : Char} {place : Place} {cs text : List Char}
    {texts : List (List Char)} (h : recordTexts d place cs = text :: texts) :
    Unbroken d place text ∧ ∀ t ∈ texts, Unbroken d .start t := by
  induction cs generalizing place text texts with
  | nil =>
    cases h
    exact ⟨trivial, nofun⟩
  | cons c cs ih =>
    rw [recordTexts] at h
    split at h
    · obtain ⟨rfl, rfl⟩ := List.cons.inj h
      refine ⟨trivial, ?_⟩
      cases hcs : recordTexts d .start cs with
      | nil => nofun
      | cons t ts => exact List.forall_mem_cons.2 (ih hcs)
    rename_i hbreak
    split at h
    · exact ih h
    cases hcs : recordTexts d (place.after d c none) cs with
    | nil => rw [hcs] at h; cases h
    | cons t ts =>
      rw [hcs] at h
      cases h
      obtain ⟨ht, hts⟩ := ih hcs
      exact ⟨⟨fun hplace hc => hbreak ⟨hplace, hc⟩, ht⟩, hts⟩

/-! ## Records on their own -/

/-- The fields of a record, of which `text` is what is left to read; none if it is no record. -/
def fieldsFrom (d : Char) (s : State) : List Char → List String
  | [] => if s.mode = .quoted then [] else s.endField.fields.reverse
  | c :: cs =>
    match s.read d c none with
    | .ok t => fieldsFrom d t cs
    | .error _ => []

def fieldsOf (d : Char) (text : List Char) : List String := fieldsFrom d .initial text

/-- The states agree in the current record. -/
structure State.Alike (s s' : State) : Prop where
  mode : s.mode = s'.mode
  field : s.field = s'.field
  fields : s.fields = s'.fields

section Alone
variable {d c : Char} {s s' t : State} {cs text : List Char} {next : Option Char}

theorem State.Alike.symm (h : s.Alike s') : s'.Alike s :=
  ⟨h.mode.symm, h.field.symm, h.fields.symm⟩

theorem State.Alike.read (h : s.Alike s') (hread : s.read d c next = .ok t) :
    ∃ t', s'.read d c next = .ok t' ∧ t.Alike t' := by
  obtain ⟨mode, line, start, field, fields, records⟩ := s
  obtain ⟨mode', line', start', field', fields', records'⟩ := s'
  obtain ⟨rfl, rfl, rfl⟩ := h
  cases mode <;> simp only [State.read, State.readBare] at hread ⊢ <;>
    split_ifs at hread ⊢ <;> cases hread <;> exact ⟨_, rfl, rfl, rfl, rfl⟩

/-- What a record is read as does not depend on the records before it. -/
theorem fieldsFrom_alike (h : s.Alike s') : fieldsFrom d s text = fieldsFrom d s' text := by
  induction text generalizing s s' with
  | nil => rw [fieldsFrom, fieldsFrom, State.endField, State.endField, h.mode, h.field, h.fields]
  | cons c cs ih =>
    rw [fieldsFrom, fieldsFrom]
    cases hread : s.read d c none with
    | ok t =>
      obtain ⟨t', hread', ht⟩ := h.read hread
      rw [hread']
      exact ih ht
    | error fault =>
      cases hread' : s'.read d c none with
      | error fault' => rfl
      | ok t' =>
        obtain ⟨t, ht, -⟩ := h.symm.read hread'
        rw [hread] at ht
        cases ht

theorem fieldsFrom_endRecord : fieldsFrom d s.endRecord text = fieldsOf d text :=
  fieldsFrom_alike ⟨rfl, rfl, rfl⟩

/-- Only a line break outside quotes completes a record. -/
theorem State.Step.records_eq (h : State.Step d s c next t) (hc : s.mode ≠ .quoted → c ≠ '\n') :
    t.records = s.records := by
  cases h with
  | endsRecord hs hbreak => exact absurd hbreak (hc hs)
  | _ => rfl

/-- The records of a text without faults are its parts, each read on its own. -/
theorem recordsFrom_texts (hquote : d ≠ '"') (hreturn : d ≠ '\r') (hbreak : d ≠ '\n')
    {records : List Record} (h : recordsFrom d s cs = (records, none)) :
    ∃ text texts, recordTexts d s.place cs = text :: texts ∧
      records.map Record.fields =
        s.records.reverse.map Record.fields ++ fieldsFrom d s text :: texts.map (fieldsOf d) := by
  induction cs generalizing s with
  | nil =>
    rw [recordsFrom] at h
    split at h
    · cases h
    · rename_i hs
      cases h
      refine ⟨[], [], rfl, ?_⟩
      rw [fieldsFrom, if_neg hs, State.endRecord, List.reverse_cons, List.map_append]
      rfl
  | cons c cs ih =>
    cases hread : s.read d c cs.head? with
    | error fault => rw [recordsFrom, hread] at h; cases h
    | ok t =>
      rw [recordsFrom_cons hread] at h
      obtain ⟨text, texts, htexts, hfields⟩ := ih h
      have hplace : s.place ≠ .quoted ↔ s.mode ≠ .quoted := not_congr State.place_eq_quoted_iff
      rw [recordTexts]
      split
      · -- The record ends here.
        rename_i hc
        obtain ⟨hs, rfl⟩ := hc
        rw [State.read_newline (hplace.1 hs) hbreak] at hread
        cases hread
        rw [State.place_endRecord] at htexts
        refine ⟨[], text :: texts, by rw [htexts], ?_⟩
        have hend : fieldsFrom d s [] = s.endField.fields.reverse := if_neg (hplace.1 hs)
        rw [hfields, fieldsFrom_endRecord, hend, State.endRecord, List.reverse_cons,
          List.map_append, List.append_assoc]
        rfl
      rename_i hline
      split
      · -- The carriage return belongs to a line end.
        rename_i hc
        obtain ⟨hs, rfl, hnext⟩ := hc
        rw [hnext, State.read_return (hplace.1 hs) hreturn] at hread
        cases hread
        exact ⟨text, texts, htexts, hfields⟩
      rename_i hskip
      have hnone : s.read d c none = .ok t := by
        rw [← hread]
        refine State.read_congr fun hs hc => ?_
        have hnext : cs.head? ≠ some '\n' := fun hnext => hskip ⟨hplace.2 hs, hc, hnext⟩
        exact iff_of_false (Option.some_ne_none _).symm hnext
      rw [State.place_read hquote hnone] at htexts
      refine ⟨c :: text, texts, by rw [htexts]; rfl, ?_⟩
      have hrecords : t.records = s.records :=
        (State.step_of_read hread).records_eq fun hs hc => hline ⟨hplace.2 hs, hc⟩
      rw [hfields, hrecords, fieldsFrom, hnone]

end Alone

/-! ## Blank records -/

/-- Something of the current record is read. -/
def State.Begun (s : State) : Prop := s.field ≠ [] ∨ s.fields ≠ []

section Blank
variable {d c : Char} {s t : State} {cs text : List Char}

/-- Inside a record only the quotes around a field leave it empty. -/
theorem State.Step.begun_or_quote (h : State.Step d s c none t)
    (hc : s.mode ≠ .quoted → c ≠ '\n') :
    t.Begun ∨ c = '"' ∧ (s.mode = .bare ∧ t = { s with mode := .quoted } ∨
      s.mode = .quoted ∧ t = { s with mode := .closed }) := by
  cases h with
  | opens hs hfield hquote => exact .inr ⟨hquote, .inl ⟨hs, rfl⟩⟩
  | closes hs hquote => exact .inr ⟨hquote, .inr ⟨hs, rfl⟩⟩
  | doubles => exact .inl (.inl (List.cons_ne_nil _ _))
  | inside => exact .inl (.inl (List.cons_ne_nil _ _))
  | endsField => exact .inl (.inr (List.cons_ne_nil _ _))
  | skips hs hd hreturn hnext => cases hnext
  | endsRecord hs hbreak => exact absurd hbreak (hc hs)
  | pushes => exact .inl (.inl (List.cons_ne_nil _ _))

theorem State.Begun.step (hs : s.Begun) (h : State.Step d s c none t)
    (hc : s.mode ≠ .quoted → c ≠ '\n') : t.Begun := by
  rcases h.begun_or_quote hc with ht | ⟨-, ⟨-, rfl⟩ | ⟨-, rfl⟩⟩
  · exact ht
  · exact hs
  · exact hs

theorem fieldsFrom_begun (hquote : d ≠ '"') (hs : s.Begun) (htext : Unbroken d s.place text) :
    fieldsFrom d s text ≠ [""] := by
  induction text generalizing s with
  | nil =>
    rw [fieldsFrom]
    split
    · exact (List.cons_ne_nil _ _).symm
    · intro h
      rw [State.endField, List.reverse_cons, List.append_eq_singleton_iff] at h
      obtain ⟨hfields, hfield⟩ | ⟨-, hnil⟩ := h
      · rw [List.reverse_eq_nil_iff] at hfields
        rw [List.cons.injEq, String.ofList_eq_empty_iff, List.reverse_eq_nil_iff] at hfield
        exact hs.elim (absurd hfield.1) (absurd hfields)
      · cases hnil
  | cons c cs ih =>
    obtain ⟨hc, hcs⟩ := htext
    rw [fieldsFrom]
    cases hread : s.read d c none with
    | error fault => exact (List.cons_ne_nil _ _).symm
    | ok t =>
      rw [← State.place_read hquote hread] at hcs
      exact ih (hs.step (State.step_of_read hread)
        fun hmode => hc (mt State.place_eq_quoted_iff.1 hmode)) hcs

/-- A record that is read as one empty field goes on with a quote, and is blank behind it. -/
theorem quote_of_blank (hquote : d ≠ '"') (htext : Unbroken d s.place (c :: cs))
    (h : fieldsFrom d s (c :: cs) = [""]) :
    c = '"' ∧ ∃ t, (s.mode = .bare ∧ t = { s with mode := .quoted } ∨
      s.mode = .quoted ∧ t = { s with mode := .closed }) ∧
      Unbroken d t.place cs ∧ fieldsFrom d t cs = [""] := by
  obtain ⟨hc, hcs⟩ := htext
  rw [fieldsFrom] at h
  cases hread : s.read d c none with
  | error fault => rw [hread] at h; cases h
  | ok t =>
    rw [hread] at h
    rw [← State.place_read hquote hread] at hcs
    rcases (State.step_of_read hread).begun_or_quote
      fun hmode => hc (mt State.place_eq_quoted_iff.1 hmode) with ht | ⟨rfl, ht⟩
    · exact absurd h (fieldsFrom_begun hquote ht hcs)
    · exact ⟨rfl, t, ht, hcs, h⟩

/-- Two texts are read as one empty field: the empty one, and a pair of quotes. -/
theorem fieldsOf_eq_blank_iff (hquote : d ≠ '"') (htext : Unbroken d .start text) :
    fieldsOf d text = [""] ↔ text = [] ∨ text = quotedEmpty := by
  constructor
  · intro h
    cases text with
    | nil => exact .inl rfl
    | cons c cs =>
      obtain ⟨rfl, t, ⟨-, rfl⟩ | ⟨hmode, -⟩, hcs, h⟩ :=
        quote_of_blank (s := .initial) hquote htext h
      swap
      · cases hmode
      cases cs with
      | nil => cases h
      | cons c cs =>
        obtain ⟨rfl, t, ⟨hmode, -⟩ | ⟨-, rfl⟩, hcs, h⟩ := quote_of_blank hquote hcs h
        · cases hmode
        cases cs with
        | nil => exact .inr rfl
        | cons c cs =>
          obtain ⟨-, t, ⟨hmode, -⟩ | ⟨hmode, -⟩, -⟩ := quote_of_blank hquote hcs h
          · cases hmode
          · cases hmode
  · rintro (rfl | rfl)
    · rfl
    · rfl

end Blank

/-! ## Tables -/

/-- The rows of records under the first of them. -/
def rowsUnder : List (List String) → Table
  | [] => []
  | header :: records => records.map fun fields => Row.ofList (header.zip (fields.map Cell.text))

theorem length_rowsUnder (records : List (List String)) :
    (rowsUnder records).length = records.length - 1 := by
  cases records with
  | nil => rfl
  | cons header records => exact List.length_map _

section Tables
variable {d : Char} {content : String} {rows : Table}

/-- A table that is read is free of faults, and its rows are those under its header. -/
theorem eq_rowsUnder_of_tableOf {records : List Record} {fault : Option Fault}
    (h : tableOf records fault = .ok rows) :
    fault = none ∧ rows = rowsUnder (records.map Record.fields) := by
  cases fault with
  | some fault =>
    cases records with
    | nil => cases h
    | cons header records =>
      obtain ⟨table, -, h⟩ := exists_of_bind h
      cases h
  | none =>
    refine ⟨rfl, ?_⟩
    cases records with
    | nil =>
      cases h
      rfl
    | cons header records =>
      obtain ⟨table, htable, h⟩ := exists_of_bind h
      cases h
      rw [(mapM_toRow_iff.1 htable).2, List.map_cons, rowsUnder, List.map_map]
      rfl

/-- The records that are not blank are those that are written and no pair of quotes. -/
theorem fields_notBlank (hquote : d ≠ '"') (hreturn : d ≠ '\r') (hbreak : d ≠ '\n')
    {list : List Record} (h : records d content.toList = (list, none)) :
    (list.filter (!·.isBlank)).map Record.fields =
      ((writtenRecords d content).filter (· ≠ quotedEmpty)).map (fieldsOf d) := by
  obtain ⟨text, texts, htexts, hfields⟩ := recordsFrom_texts hquote hreturn hbreak h
  have hlist : list.map Record.fields = (text :: texts).map (fieldsOf d) := hfields
  have hwritten : recordTexts d .start (dropMark content.toList) = text :: texts := htexts
  have hblank : ∀ t ∈ text :: texts,
      (fieldsOf d t != [""]) = (decide (t ≠ quotedEmpty) && !t.isEmpty) := by
    intro t ht
    have hunbroken := List.forall_mem_cons.2 (unbroken_recordTexts hwritten) t ht
    rw [Bool.eq_iff_iff, bne_iff_ne, Ne, fieldsOf_eq_blank_iff hquote hunbroken]
    simp [and_comm]
  calc (list.filter (!·.isBlank)).map Record.fields
      = (list.map Record.fields).filter (· != [""]) := by rw [List.filter_map]; rfl
    _ = ((text :: texts).filter (fieldsOf d · != [""])).map (fieldsOf d) := by
        rw [hlist, List.filter_map]; rfl
    _ = ((writtenRecords d content).filter (· ≠ quotedEmpty)).map (fieldsOf d) := by
        rw [List.filter_congr hblank, writtenRecords, hwritten, List.filter_filter]

end Tables

/-- Behind the first of some texts as many are left without the pairs of quotes as with them only if
there is no pair of quotes, or nothing else. -/
theorem length_filter_quotedEmpty (texts : List (List Char)) :
    (texts.filter (· ≠ quotedEmpty)).length - 1 = texts.length - 1 ↔
      quotedEmpty ∉ texts ∨ texts = [quotedEmpty] := by
  constructor
  · intro hlength
    by_cases hmem : quotedEmpty ∈ texts
    · have hlt : (texts.filter (· ≠ quotedEmpty)).length < texts.length := by
        rw [List.length_filter_lt_length_iff_exists]
        exact ⟨quotedEmpty, hmem, by simp⟩
      have hone : texts.length = 1 := by omega
      obtain ⟨text, rfl⟩ := List.length_eq_one_iff.1 hone
      exact .inr (by rw [List.mem_singleton.1 hmem])
    · exact .inl hmem
  · rintro (hnone | rfl)
    · have hall : texts.filter (· ≠ quotedEmpty) = texts := by
        rw [List.filter_eq_self]
        intro text ht
        exact decide_eq_true (ne_of_mem_of_not_mem ht hnone)
      rw [hall]
    · rfl

/-- The first of the records that are written gives the columns and each other one a row, where a pair
of quotes alone does not count. So there is one row less than records are written exactly if none of
them is a pair of quotes, or if that is all there is. -/
theorem read_writtenRecords (d : Char) (content : String) (rows : Table) (hquote : d ≠ '"')
    (hreturn : d ≠ '\r') (hbreak : d ≠ '\n') (h : read d content = .ok rows) :
    rows = rowsUnder (((writtenRecords d content).filter (· ≠ quotedEmpty)).map (fieldsOf d)) ∧
      (rows.length = (writtenRecords d content).length - 1 ↔
        quotedEmpty ∉ writtenRecords d content ∨ writtenRecords d content = [quotedEmpty]) := by
  cases hlist : records d content.toList with | mk list fault =>
  have hrows : rows =
      rowsUnder (((writtenRecords d content).filter (· ≠ quotedEmpty)).map (fieldsOf d)) := by
    rw [read, hlist] at h
    obtain ⟨rfl, hrows⟩ := eq_rowsUnder_of_tableOf h
    rwa [fields_notBlank hquote hreturn hbreak hlist] at hrows
  refine ⟨hrows, ?_⟩
  rw [hrows, length_rowsUnder, List.length_map]
  exact length_filter_quotedEmpty _

/-- Two empty fields in quotes are a record, and an empty line is none. -/
theorem read_quotedNotes :
    let content := "\ufeffid;note\r\n\r\n1;\"a\nb\"\r\n\"\";\"\""
    let rows := [Row.ofList [("id", .text "1"), ("note", .text "a\nb")],
      Row.ofList [("id", .text ""), ("note", .text "")]]
    read ';' content = .ok rows ∧ (writtenRecords ';' content).length = 3 ∧
      rows.length = (writtenRecords ';' content).length - 1 := by
  intro content rows
  have hread : read ';' content = .ok rows := by decide +kernel
  have hwritten : quotedEmpty ∉ writtenRecords ';' content := by decide +kernel
  obtain ⟨-, hlength⟩ :=
    read_writtenRecords ';' content rows (by decide) (by decide) (by decide) hread
  exact ⟨hread, by decide +kernel, hlength.2 (.inl hwritten)⟩

/-- A column with one cell, which is empty and in quotes: the cell counts as a record, and its row is
lost. -/
theorem read_quotedEmpty :
    writtenRecords ',' "name\n\"\"\n" = ["name".toList, quotedEmpty] ∧
      read ',' "name\n\"\"\n" = .ok [] := by
  decide +kernel

end Tabular.Delimited
