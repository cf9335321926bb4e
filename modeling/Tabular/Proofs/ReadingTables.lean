import Tabular.Proofs.Rows
import Tabular.Proofs.WrittenTables
/-!
# Written tables are read back

The reader takes a written table part by part: a field, a delimiter, a line end. `Reads` says that a
part is taken whole, whatever follows it, and what state the reader is then in. A last line that is
not ended counts like the others, and empty lines count as nothing.
-/

namespace Tabular.Delimited

open Written (IsDelimiter Field LineEnd Line Break Document escape emptyLines)

/-! ## One character -/

namespace Written.IsDelimiter
variable {d : Char} (h : IsDelimiter d)
include h

theorem ne_quote : d ≠ '"' := fun he => h (by simp [he])

theorem ne_return : d ≠ '\r' := fun he => h (by simp [he])

theorem ne_newline : d ≠ '\n' := fun he => h (by simp [he])

theorem ne_mark : d ≠ '\ufeff' := fun he => h (by simp [he])

end Written.IsDelimiter

theorem count_other {c : Char} (h : c ≠ '\n') : [c].count '\n' = 0 :=
  List.count_eq_zero.2 (by simpa using h.symm)

namespace State
variable {d c : Char} {s : State}

theorem read_unquoted (hs : s.mode ≠ .quoted) (hc : c ≠ '"') (next : Option Char) :
    s.read d c next = s.readBare d c next := by
  rw [read]
  cases hm : s.mode with
  | bare => rfl
  | quoted => exact absurd hm hs
  | closed => exact if_neg hc

theorem read_delimiter (hs : s.mode ≠ .quoted) (hd : d ≠ '"') (next : Option Char) :
    s.read d d next = .ok s.endField := by
  rw [read_unquoted hs hd, readBare, if_neg fun h => hd h.1, if_pos rfl]

theorem read_newline (hs : s.mode ≠ .quoted) (hd : d ≠ '\n') (next : Option Char) :
    s.read d '\n' next = .ok s.endRecord := by
  rw [read_unquoted hs (by decide), readBare, if_neg fun h => absurd h.1 (by decide),
    if_neg hd.symm, if_neg fun h => absurd h.1 (by decide), if_pos rfl]

/-- The carriage return of a line end is skipped. -/
theorem read_return (hs : s.mode ≠ .quoted) (hd : d ≠ '\r') :
    s.read d '\r' (some '\n') = .ok s := by
  rw [read_unquoted hs (by decide), readBare, if_neg fun h => absurd h.1 (by decide),
    if_neg hd.symm, if_pos ⟨rfl, rfl⟩]

/-- A quote opens a field only at its very start. -/
theorem read_open (hs : s.mode = .bare) (hf : s.field = []) (next : Option Char) :
    s.read d '"' next = .ok { s with mode := .quoted } := by
  simp only [read, hs, readBare, hf]
  rfl

theorem read_bare (hs : s.mode = .bare) (hc : c ≠ d ∧ c ≠ '\r' ∧ c ≠ '\n')
    (hopen : s.field = [] → c ≠ '"') (next : Option Char) : s.read d c next = .ok (s.push c) := by
  have hread : s.read d c next = s.readBare d c next := by rw [read, hs]
  rw [hread, readBare, if_neg fun h => hopen h.2.2 h.1, if_neg hc.1, if_neg fun h => hc.2.1 h.1,
    if_neg hc.2.2, if_neg (by rw [hs]; decide)]

theorem read_inside (hs : s.mode = .quoted) (hc : c ≠ '"') (next : Option Char) :
    s.read d c next = .ok { s.push c with line := s.line + [c].count '\n' } := by
  rw [read, hs]
  by_cases hn : c = '\n'
  · subst hn
    rfl
  · simp only [if_neg hc, if_neg hn, count_other hn]
    rfl

/-- A quote inside quotes closes the field for now. -/
theorem read_close (hs : s.mode = .quoted) (next : Option Char) :
    s.read d '"' next = .ok { s with mode := .closed } := by
  simp only [read, hs]
  rfl

/-- Behind a closing quote another one opens the field again. -/
theorem read_doubled (hs : s.mode = .closed) (next : Option Char) :
    s.read d '"' next = .ok { s.push '"' with mode := .quoted } := by
  simp only [read, hs]
  rfl

end State

/-! ## Parts of a text -/

/-- The reader takes the part and goes on in another state. -/
def Reads (d : Char) (state : State) (part : List Char) (next : State) : Prop :=
  ∀ rest, recordsFrom d state (part ++ rest) = recordsFrom d next rest

theorem recordsFrom_cons {d c : Char} {state next : State} {rest : List Char}
    (h : state.read d c rest.head? = .ok next) :
    recordsFrom d state (c :: rest) = recordsFrom d next rest := by
  rw [recordsFrom, h]

namespace Reads
variable {d : Char} {s t u : State}

theorem nil (s : State) : Reads d s [] s := fun _ => rfl

theorem char {c : Char} (h : ∀ next, s.read d c next = .ok t) : Reads d s [c] t :=
  fun _ => recordsFrom_cons (h _)

theorem append {x y : List Char} (hx : Reads d s x t) (hy : Reads d t y u) :
    Reads d s (x ++ y) u := by
  intro rest
  rw [List.append_assoc, hx, hy]

/-! ## Fields -/

/-- A bare field is taken character by character. -/
theorem bare {content : List Char} (hcontent : ∀ c ∈ content, c ≠ d ∧ c ≠ '\r' ∧ c ≠ '\n')
    (hs : s.mode = .bare) (hquote : s.field = [] → content.head? ≠ some '"') :
    Reads d s content { s with field := content.reverse ++ s.field } := by
  induction content generalizing s with
  | nil => exact .nil s
  | cons c cs ih =>
    have hfirst : Reads d s [c] (s.push c) :=
      .char (State.read_bare hs (hcontent c List.mem_cons_self) fun hf hc =>
        hquote hf (congrArg some hc))
    have hrest := ih (s := s.push c) (fun e he => hcontent e (List.mem_cons_of_mem _ he)) hs nofun
    rw [List.reverse_cons, List.append_assoc]
    exact hfirst.append hrest

/-- Inside quotes everything is content, and two quotes are one. -/
theorem inside (content : List Char) (hs : s.mode = .quoted) :
    Reads d s (escape content)
      { s with field := content.reverse ++ s.field, line := s.line + content.count '\n' } := by
  induction content generalizing s with
  | nil => exact .nil s
  | cons c cs ih =>
    have hfirst : Reads d s (escape [c]) { s.push c with line := s.line + [c].count '\n' } := by
      by_cases hc : c = '"'
      · subst hc
        have hclose : Reads d s ['"'] { s with mode := .closed } := .char (State.read_close hs)
        have hagain := Reads.char (d := d) (State.read_doubled (s := { s with mode := .closed }) rfl)
        have hstate : { ({ s with mode := .closed } : State).push '"' with mode := .quoted } =
            { s.push '"' with line := s.line + ['"'].count '\n' } := by
          rw [← hs]
          rfl
        exact hstate ▸ hclose.append hagain
      · rw [escape, List.flatMap_singleton, if_neg hc]
        exact .char (State.read_inside hs hc)
    have hrest := ih (s := { s.push c with line := s.line + [c].count '\n' }) hs
    have hescape : escape (c :: cs) = escape [c] ++ escape cs := by simp [escape]
    have hcount : (c :: cs).count '\n' = [c].count '\n' + cs.count '\n' :=
      (List.count_append : ([c] ++ cs).count '\n' = _)
    rw [hescape, hcount, ← Nat.add_assoc, List.reverse_cons, List.append_assoc]
    exact hfirst.append hrest

/-- A field is taken whole, and a delimiter would complete it. -/
theorem field (f : Field d) (hs : s.mode = .bare) (hf : s.field = []) :
    ∃ t : State, Reads d s f.text t ∧ t.mode ≠ .quoted ∧ t.records = s.records ∧
      t.endField.fields = String.ofList f.content :: s.fields := by
  cases f with
  | quoted content =>
    have hopen : Reads d s ['"'] { s with mode := .quoted } := .char (State.read_open hs hf)
    have hinside := inside (d := d) content (s := { s with mode := .quoted }) rfl
    have hclose := Reads.char (d := d) (State.read_close
      (s := { s with
        mode := .quoted
        field := content.reverse ++ s.field
        line := s.line + content.count '\n' }) rfl)
    refine ⟨_, (hopen.append hinside).append hclose, nofun, rfl, ?_⟩
    rw [State.endField, hf, List.append_nil, List.reverse_reverse]
    rfl
  | bare content unbroken unquoted =>
    refine ⟨_, bare unbroken hs fun _ => unquoted, by rw [hs]; nofun, rfl, ?_⟩
    rw [State.endField, hf, List.append_nil, List.reverse_reverse]
    rfl

/-! ## Lines -/

theorem lineEnd (hd : IsDelimiter d) (e : LineEnd) (hs : s.mode ≠ .quoted) :
    Reads d s e.text s.endRecord := by
  have hnewline : Reads d s ['\n'] s.endRecord := .char (State.read_newline hs hd.ne_newline)
  cases e with
  | lf => exact hnewline
  | crlf =>
    -- The carriage return is skipped because of what follows it, so it cannot be taken alone.
    intro rest
    exact (recordsFrom_cons (State.read_return hs hd.ne_return)).trans (hnewline rest)

/-- The fields after the first one, each behind a delimiter. -/
theorem moreFields (hd : IsDelimiter d) (rest : List (Field d)) (hs : s.mode ≠ .quoted) :
    ∃ t : State, Reads d s (rest.flatMap fun f => d :: f.text) t ∧ t.mode ≠ .quoted ∧
      t.records = s.records ∧
      t.endField.fields.reverse =
        s.endField.fields.reverse ++ rest.map fun f => String.ofList f.content := by
  induction rest generalizing s with
  | nil => exact ⟨s, .nil s, hs, rfl, (List.append_nil _).symm⟩
  | cons f rest ih =>
    have hdelimiter : Reads d s [d] s.endField := .char (State.read_delimiter hs hd.ne_quote)
    obtain ⟨t, hfield, ht, htrecords, htfields⟩ := field f (s := s.endField) rfl rfl
    obtain ⟨u, hrest, hu, hurecords, hufields⟩ := ih ht
    refine ⟨u, (hdelimiter.append hfield).append hrest, hu, hurecords.trans htrecords, ?_⟩
    rw [hufields, htfields, List.reverse_cons, List.append_assoc]
    rfl

end Reads

/-! ## Tables -/

/-- The records so far that are not blank. -/
def State.kept (s : State) : List (List String) :=
  ((s.records.filter (!·.isBlank)).map Record.fields).reverse

/-- The reader is at the start of a line. -/
structure Fresh (s : State) (kept : List (List String)) : Prop where
  mode : s.mode = .bare
  field : s.field = []
  fields : s.fields = []
  kept : s.kept = kept

/-- The reader is at the end of a line, and a line end would complete the records. -/
structure Filled (s : State) (kept : List (List String)) : Prop where
  unquoted : s.mode ≠ .quoted
  kept : s.endRecord.kept = kept

section Tables
variable {d : Char} {s : State} {kept : List (List String)}

theorem Filled.fresh (h : Filled s kept) : Fresh s.endRecord kept := ⟨rfl, rfl, rfl, h.kept⟩

theorem kept_endRecord (s : State) :
    s.endRecord.kept =
      s.kept ++ if s.endField.fields.reverse = [""] then [] else [s.endField.fields.reverse] := by
  have hrecords : s.endRecord.records = ⟨s.start, s.endField.fields.reverse⟩ :: s.records := rfl
  rw [State.kept, hrecords, List.filter_cons]
  by_cases h : s.endField.fields.reverse = [""]
  · simp [Record.isBlank, h, State.kept]
  · simp [Record.isBlank, h, State.kept]

/-- An empty line leaves nothing. -/
theorem Fresh.filled (h : Fresh s kept) : Filled s kept where
  unquoted := by rw [h.mode]; decide
  kept := by
    rw [kept_endRecord, State.endField, h.field, h.fields, h.kept]
    exact List.append_nil kept

theorem Fresh.emptyLines (hd : IsDelimiter d) (h : Fresh s kept) (lines : List LineEnd) :
    ∃ t, Reads d s (Written.emptyLines lines) t ∧ Fresh t kept := by
  induction lines generalizing s with
  | nil => exact ⟨s, .nil s, h⟩
  | cons e lines ih =>
    obtain ⟨t, hlines, ht⟩ := ih h.filled.fresh
    exact ⟨t, (Reads.lineEnd hd e h.filled.unquoted).append hlines, ht⟩

theorem Filled.lineBreak (hd : IsDelimiter d) (h : Filled s kept) (b : Break) :
    ∃ t, Reads d s b.text t ∧ Fresh t kept := by
  obtain ⟨t, hlines, ht⟩ := h.fresh.emptyLines hd b.empty
  exact ⟨t, (Reads.lineEnd hd b.lineEnd h.unquoted).append hlines, ht⟩

theorem Fresh.line (hd : IsDelimiter d) (h : Fresh s kept) (line : Line d)
    (hline : line.fields ≠ [""]) : ∃ t, Reads d s line.text t ∧ Filled t (kept ++ [line.fields]) := by
  obtain ⟨t, hfirst, ht, htrecords, htfields⟩ := Reads.field line.first h.mode h.field
  obtain ⟨u, hrest, hu, hurecords, hufields⟩ := Reads.moreFields hd line.rest ht
  have hfields : u.endField.fields.reverse = line.fields := by
    rw [hufields, htfields, h.fields]
    rfl
  refine ⟨u, hfirst.append hrest, hu, ?_⟩
  rw [kept_endRecord, hfields, if_neg hline, State.kept, hurecords, htrecords, ← State.kept, h.kept]

theorem Filled.records (hd : IsDelimiter d) (records : List (Break × Line d)) (h : Filled s kept)
    (hlines : ∀ p ∈ records, p.2.fields ≠ [""]) :
    ∃ t, Reads d s (records.flatMap fun p => p.1.text ++ p.2.text) t ∧
      Filled t (kept ++ records.map fun p => p.2.fields) := by
  induction records generalizing s kept with
  | nil => exact ⟨s, .nil s, (List.append_nil kept).symm ▸ h⟩
  | cons p records ih =>
    obtain ⟨t, hbreak, ht⟩ := h.lineBreak hd p.1
    obtain ⟨u, hline, hu⟩ := ht.line hd p.2 (hlines p List.mem_cons_self)
    obtain ⟨v, hrecords, hv⟩ := ih hu fun q hq => hlines q (List.mem_cons_of_mem _ hq)
    rw [List.append_assoc] at hv
    exact ⟨v, (hbreak.append hline).append hrecords, hv⟩

/-- Where the text ends, the records are complete. -/
theorem Filled.recordsFrom_nil (h : Filled s kept) :
    ∃ records, recordsFrom d s [] = (records, none) ∧
      (records.filter (!·.isBlank)).map Record.fields = kept := by
  refine ⟨s.endRecord.records.reverse, if_neg h.unquoted, ?_⟩
  rw [← h.kept, State.kept, List.filter_reverse, List.map_reverse]

/-- The records of a written table, less the blank ones, are its header and its rows. -/
theorem recordsFrom_body (hd : IsDelimiter d) (document : Document d)
    (hheader : document.names ≠ [""]) (hrows : ∀ fields ∈ document.rows, fields ≠ [""]) :
    ∃ records, recordsFrom d .initial document.body = (records, none) ∧
      (records.filter (!·.isBlank)).map Record.fields = document.names :: document.rows := by
  have hinitial : Fresh .initial [] := ⟨rfl, rfl, rfl, rfl⟩
  obtain ⟨s, hbefore, hs⟩ := hinitial.emptyLines hd document.before
  obtain ⟨t, hheader, ht⟩ := hs.line hd document.header hheader
  obtain ⟨u, hrecords, hu⟩ := ht.records hd document.records fun p hp =>
    hrows _ (List.mem_map_of_mem hp)
  obtain ⟨v, hafter, hv⟩ : ∃ v, Reads d u ((document.after.map Break.text).getD []) v ∧
      Filled v (document.names :: document.rows) := by
    cases document.after with
    | none => exact ⟨u, .nil u, hu⟩
    | some b =>
      obtain ⟨v, hbreak, hv⟩ := hu.lineBreak hd b
      exact ⟨v, hbreak, hv.filled⟩
  obtain ⟨records, hend, hkept⟩ := hv.recordsFrom_nil (d := d)
  refine ⟨records, ?_, hkept⟩
  rw [← hend, ← List.append_nil document.body]
  exact ((hbefore.append (hheader.append hrecords)).append hafter) []

end Tables

/-! ## The byte order mark -/

section Mark
variable {d : Char}

theorem dropMark_of_head {cs : List Char} (h : cs.head? ≠ some '\ufeff') : dropMark cs = cs := by
  rw [dropMark]
  rintro cs rfl
  exact h rfl

/-- A line starts with its first field, or with a delimiter if that is empty and bare. -/
theorem head?_line (hd : IsDelimiter d) {line : Line d} (hline : line.fields ≠ [""])
    (hfirst : ¬ line.first.StartsMarked) (rest : List Char) :
    (line.text ++ rest).head? ≠ some '\ufeff' := by
  obtain ⟨first, more⟩ := line
  rw [Field.StartsMarked] at hfirst
  rw [Line.text]
  cases htext : first.text with
  | cons c cs =>
    rw [htext] at hfirst
    exact hfirst
  | nil =>
    cases more with
    | nil =>
      -- A single empty field is no line.
      cases first with
      | quoted content => cases htext
      | bare content unbroken unquoted =>
        cases htext
        exact absurd rfl hline
    | cons f more =>
      intro h
      exact hd.ne_mark (Option.some.inj h)

theorem dropMark_text (hd : IsDelimiter d) {document : Document d} (hheader : document.names ≠ [""])
    (hmark : document.mark = false → document.before = [] →
      ¬ document.header.first.StartsMarked) : dropMark document.text = document.body := by
  rw [Document.text]
  cases hm : document.mark with
  | true => rfl
  | false =>
    refine dropMark_of_head ?_
    change document.body.head? ≠ _
    rw [Document.body]
    cases hb : document.before with
    | nil =>
      rw [List.append_assoc, List.append_assoc]
      exact head?_line hd hheader (hmark hm hb) _
    | cons e lines => cases e <;> exact fun h => absurd (Option.some.inj h) (by decide)

end Mark

/-! ## The rows -/

/-- Under distinct names the columns of a row are the names with the fields of the record. -/
theorem columns_row {header : List String} (hn : header.Nodup) {record : Record}
    (h : record.fields.length = header.length) :
    (record.row header).columns = header.zip (record.fields.map Cell.text) := by
  refine Row.columns_ofList ?_
  rwa [List.map_fst_zip (by rw [List.length_map, h])]

/-- The table of records that all have the width of the first. -/
theorem tableOf_records {records : List Record} {header : List String} {rows : List (List String)}
    (hrecords : records.map Record.fields = header :: rows) (hn : header.Nodup)
    (hwidth : ∀ fields ∈ rows, fields.length = header.length) :
    ∃ table, tableOf records none = .ok table ∧
      table.map Row.columns = rows.map fun fields => header.zip (fields.map Cell.text) := by
  cases records with
  | nil => cases hrecords
  | cons first records =>
    rw [List.map_cons, List.cons.injEq] at hrecords
    obtain ⟨rfl, rfl⟩ := hrecords
    have hlength : ∀ record ∈ records, record.fields.length = first.fields.length :=
      fun record hr => hwidth _ (List.mem_map_of_mem hr)
    refine ⟨records.map (·.row first.fields), ?_, ?_⟩
    · rw [tableOf]
      simp only [mapM_toRow_iff.2 ⟨hlength, rfl⟩]
      rfl
    · rw [List.map_map, List.map_map]
      exact List.map_congr_left fun record hr => columns_row hn (hlength record hr)

/-- Every way to write a table is read back as that table: its rows in order, each with the columns
of the header and the text of the fields that were written. A line of one empty field, the header
included, would count as an empty line. -/
theorem read_document (d : Char) (document : Document d) (hd : IsDelimiter d)
    (hnames : document.names.Nodup)
    (hwidth : ∀ fields ∈ document.rows, fields.length = document.names.length)
    (hsolid : ∀ fields ∈ document.names :: document.rows, fields ≠ [""])
    (hmark : document.mark = false → document.before = [] →
      ¬ document.header.first.StartsMarked) :
    ∃ table, read d (String.ofList document.text) = .ok table ∧
      table.map Row.columns =
        document.rows.map fun fields => document.names.zip (fields.map Cell.text) := by
  have hheader := hsolid _ List.mem_cons_self
  obtain ⟨written, hrecords, hkept⟩ :=
    recordsFrom_body hd document hheader fun fields hf => hsolid _ (List.mem_cons_of_mem _ hf)
  obtain ⟨table, htable, hcolumns⟩ := tableOf_records hkept hnames hwidth
  refine ⟨table, ?_, hcolumns⟩
  rw [read, String.toList_ofList, records, dropMark_text hd hheader hmark, hrecords]
  exact htable

/-- Behind an empty line a byte order mark belongs to the first name. A remark holds a delimiter, a
line break and quotes; another is empty; the last line is not ended. -/
def remarks : Document ';' where
  mark := false
  before := [.crlf]
  header := ⟨.bare ['\ufeff', 'i', 'd'] (by simp) (by simp), [.quoted ['r', ';']]⟩
  records :=
    [(⟨.crlf, []⟩, ⟨.quoted ['1'], [.quoted ['a', '"', ';', '\n', '"']]⟩),
      (⟨.lf, [.lf, .crlf]⟩, ⟨.bare ['2', '"'] (by simp) (by simp),
        [.bare [] (by simp) (by simp)]⟩)]
  after := none

theorem read_remarks :
    ∃ table, read ';' (String.ofList remarks.text) = .ok table ∧
      table.map Row.columns =
        [[("\ufeffid", .text "1"), ("r;", .text "a\";\n\"")],
          [("\ufeffid", .text "2\""), ("r;", .text "")]] :=
  read_document ';' remarks (by decide) (by decide) (by decide) (by decide) nofun

end Tabular.Delimited
