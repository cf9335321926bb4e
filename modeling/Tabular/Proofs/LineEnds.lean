import Tabular.Proofs.Places
/-!
# Line ends

A text may end its lines with a line break or with a carriage return and a line break, and change from
one to the other at any line. What is read is the same, and so is the fault that stops the reading
and the line it names.
-/

namespace Tabular.Delimited

/-! ## Carriage returns -/

/-- The second text is the first with a carriage return in front of some of the line breaks outside
quotes that have none. `place` is where the texts start. -/
inductive Returned (d : Char) : Place → List Char → List Char → Prop
  | nil (place : Place) : Returned d place [] []
  /-- A character stays. If it is a carriage return, so does the line break behind it. -/
  | kept {place : Place} {c : Char} {cs cs' : List Char} (hc : c = '\r' → cs'.head? = cs.head?)
    (h : Returned d (place.after d c cs.head?) cs cs') : Returned d place (c :: cs) (c :: cs')
  | returned {place : Place} {cs cs' : List Char} (hplace : place ≠ .quoted)
    (h : Returned d .start cs cs') : Returned d place ('\n' :: cs) ('\r' :: '\n' :: cs')

/-- The same for whole texts. A byte order mark stays in front. -/
inductive AddsReturns (d : Char) : List Char → List Char → Prop
  | plain {cs cs' : List Char} (hcs : cs.head? ≠ some '\ufeff') (h : Returned d .start cs cs') :
    AddsReturns d cs cs'
  | marked {cs cs' : List Char} (h : Returned d .start cs cs') :
    AddsReturns d ('\ufeff' :: cs) ('\ufeff' :: cs')

section Returns
variable {d : Char} {cs cs' : List Char}

/-- The reader comes to the same states, from one line end to the next. -/
theorem recordsFrom_returned {place : Place} (hquote : d ≠ '"') (hreturn : d ≠ '\r')
    (hbreak : d ≠ '\n') (h : Returned d place cs cs') {s : State} (hs : s.place = place) :
    recordsFrom d s cs' = recordsFrom d s cs := by
  induction h generalizing s with
  | nil place => rfl
  | kept hc h ih =>
    rename_i place c cs cs'
    have hread : s.read d c cs'.head? = s.read d c cs.head? :=
      State.read_congr fun _ hcr => by rw [hc hcr]
    rw [recordsFrom, recordsFrom, hread]
    cases hnext : s.read d c cs.head? with
    | error fault => rfl
    | ok t => exact ih (hs ▸ State.place_read hquote hnext)
  | returned hplace h ih =>
    rename_i place cs cs'
    have hmode : s.mode ≠ .quoted := by rwa [Ne, ← State.place_eq_quoted_iff, hs]
    calc recordsFrom d s ('\r' :: '\n' :: cs')
        = recordsFrom d s ('\n' :: cs') := recordsFrom_cons (State.read_return hmode hreturn)
      _ = recordsFrom d s.endRecord cs' := recordsFrom_cons (State.read_newline hmode hbreak _)
      _ = recordsFrom d s.endRecord cs := ih (State.place_endRecord s)
      _ = recordsFrom d s ('\n' :: cs) :=
        (recordsFrom_cons (State.read_newline hmode hbreak _)).symm

theorem Returned.head? {place : Place} (h : Returned d place cs cs') :
    cs'.head? = cs.head? ∨ cs'.head? = some '\r' := by
  cases h with
  | nil => exact .inl rfl
  | kept => exact .inl rfl
  | returned => exact .inr rfl

theorem AddsReturns.dropMark (h : AddsReturns d cs cs') :
    Returned d .start (dropMark cs) (dropMark cs') := by
  cases h with
  | plain hcs h =>
    have hcs' : cs'.head? ≠ some '\ufeff' := by
      rcases h.head? with hhead | hhead
      · rwa [hhead]
      · rw [hhead]
        decide
    rwa [dropMark_of_head hcs, dropMark_of_head hcs']
  | marked h => exact h

end Returns

/-- Carriage returns in front of line breaks do not matter: the same rows are read, or the reading
stops with the same fault on the same line. -/
theorem read_addsReturns (d : Char) (content content' : String) (hquote : d ≠ '"')
    (hreturn : d ≠ '\r') (hbreak : d ≠ '\n') (h : AddsReturns d content.toList content'.toList) :
    read d content' = read d content := by
  have hrecords : records d content'.toList = records d content.toList := by
    rw [records, records]
    exact recordsFrom_returned hquote hreturn hbreak h.dropMark rfl
  rw [read, read, hrecords]

/-- One line end is left as it is, and so is the line break in quotes, which counts for the line of
the fault. -/
theorem read_mixedLineEnds :
    let content := ['n', '\n', '"', '\n', '"', '\n', '1', ';', '2', '\n']
    let content' := ['n', '\r', '\n', '"', '\n', '"', '\n', '1', ';', '2', '\r', '\n']
    AddsReturns ';' content content' ∧
      read ';' (String.ofList content) = .error (.width 4 1 2) ∧
      read ';' (String.ofList content') = .error (.width 4 1 2) := by
  intro content content'
  have hcontent : read ';' (String.ofList content) = .error (.width 4 1 2) := by decide +kernel
  have hreturns : AddsReturns ';' content content' := by
    refine .plain (by decide) (.kept (by decide) (.returned (by decide) ?_))
    -- The quotes and what stands between them, then the lines behind them.
    refine .kept (by decide) (.kept (by decide) (.kept (by decide) (.kept (by decide) ?_)))
    exact .kept (by decide) (.kept (by decide) (.kept (by decide) (.returned (by decide) (.nil _))))
  refine ⟨hreturns, hcontent, ?_⟩
  rw [← hcontent]
  refine read_addsReturns ';' _ _ (by decide) (by decide) (by decide) ?_
  rwa [String.toList_ofList, String.toList_ofList]

end Tabular.Delimited
