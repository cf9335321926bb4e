import Tabular.Proofs.ReadingTables
/-!
# Places in a delimited text

Whether a character stands inside quotes is a matter of the quotes, delimiters and line breaks before
it. The reader is always in the mode of the place it has come to, so what is said of places holds of
what is read.
-/

namespace Tabular.Delimited

/-! ## Places -/

/-- Where the next character stands. -/
inductive Place
  /-- At the start of a field. -/
  | start
  /-- In a field without quotes. -/
  | bare
  /-- Between the quotes of a field. -/
  | quoted
  /-- Behind a quote that closes the field unless another one follows. -/
  | closed
deriving DecidableEq

/-- The place behind `c`; `next` is the character after it. The carriage return of a line end belongs
to no field. -/
def Place.after (d : Char) (place : Place) (c : Char) (next : Option Char) : Place :=
  if place = .quoted then if c = '"' then .closed else .quoted
  else if c = '"' ∧ place ≠ .bare then .quoted
  else if c = d ∨ c = '\n' then .start
  else if c = '\r' ∧ next = some '\n' then place
  else .bare

namespace Place
variable {d c : Char} {place : Place} {next : Option Char}

/-- What follows a character matters for its place only if the two end a line. -/
theorem after_none (h : next ≠ some '\n') : place.after d c next = place.after d c none := by
  simp [after, h]

theorem after_eq_quoted_iff :
    place.after d c next = .quoted ↔ place.after d c none = .quoted := by
  unfold after
  split_ifs <;> simp_all

/-- A carriage return opens no quotes. -/
theorem after_return (h : place ≠ .quoted) : place.after d '\r' none ≠ .quoted := by
  simp only [after, if_neg h]
  split_ifs <;> simp_all

end Place

namespace State
variable {d c : Char} {s t : State} {next next' : Option Char}

def place (s : State) : Place :=
  match s.mode with
  | .bare => if s.field = [] then .start else .bare
  | .quoted => .quoted
  | .closed => .closed

theorem place_endField (s : State) : s.endField.place = .start := rfl

theorem place_endRecord (s : State) : s.endRecord.place = .start := rfl

theorem place_eq_quoted_iff : s.place = .quoted ↔ s.mode = .quoted := by
  rw [place]
  cases s.mode with
  | bare => by_cases h : s.field = [] <;> simp [h]
  | quoted => simp
  | closed => simp

theorem place_eq_closed_iff : s.place = .closed ↔ s.mode = .closed := by
  rw [place]
  cases s.mode with
  | bare => by_cases h : s.field = [] <;> simp [h]
  | quoted => simp
  | closed => simp

theorem place_eq_start_iff : s.place = .start ↔ s.mode = .bare ∧ s.field = [] := by
  rw [place]
  cases s.mode with
  | bare => by_cases h : s.field = [] <;> simp [h]
  | quoted => simp
  | closed => simp

/-! ## Steps -/

/-- What reading a character can do. -/
inductive Step (d : Char) (s : State) (c : Char) (next : Option Char) : State → Prop
  | opens (hs : s.mode = .bare) (hfield : s.field = []) (hc : c = '"') :
    Step d s c next { s with mode := .quoted }
  | closes (hs : s.mode = .quoted) (hc : c = '"') : Step d s c next { s with mode := .closed }
  | doubles (hs : s.mode = .closed) (hc : c = '"') :
    Step d s c next { s.push c with mode := .quoted }
  | inside (hs : s.mode = .quoted) (hc : c ≠ '"') (line : Nat) :
    Step d s c next { s.push c with line }
  | endsField (hs : s.mode ≠ .quoted) (hc : c = d) : Step d s c next s.endField
  | skips (hs : s.mode ≠ .quoted) (hd : c ≠ d) (hc : c = '\r') (hnext : next = some '\n') :
    Step d s c next s
  | endsRecord (hs : s.mode ≠ .quoted) (hc : c = '\n') : Step d s c next s.endRecord
  | pushes (hs : s.mode = .bare) (hc : c ≠ d ∧ c ≠ '\n') (hquote : c = '"' → s.field ≠ [])
    (hreturn : ¬(c = '\r' ∧ next = some '\n')) : Step d s c next (s.push c)

theorem step_of_readBare (h : s.readBare d c next = .ok t) (hs : s.mode ≠ .quoted) :
    Step d s c next t := by
  unfold readBare at h
  split at h
  · rename_i hopen
    cases h
    exact .opens hopen.2.1 hopen.2.2 hopen.1
  rename_i hopen
  split at h
  · rename_i hc
    cases h
    exact .endsField hs hc
  rename_i hd
  split at h
  · rename_i hreturn
    cases h
    exact .skips hs hd hreturn.1 hreturn.2
  rename_i hreturn
  split at h
  · rename_i hc
    cases h
    exact .endsRecord hs hc
  rename_i hn
  split at h
  · cases h
  · rename_i hmode
    cases h
    have hbare : s.mode = .bare := by
      cases hm : s.mode with
      | bare => rfl
      | quoted => exact absurd hm hs
      | closed => exact absurd hm hmode
    exact .pushes hbare ⟨hd, hn⟩ (fun hc hfield => hopen ⟨hc, hbare, hfield⟩) hreturn

theorem step_of_read (h : s.read d c next = .ok t) : Step d s c next t := by
  unfold read at h
  split at h
  · rename_i hs
    exact step_of_readBare h (by rw [hs]; decide)
  · rename_i hs
    split at h
    · rename_i hc
      cases h
      exact .closes hs hc
    · rename_i hc
      split at h <;> cases h
      · exact .inside hs hc _
      · exact .inside hs hc s.line
  · rename_i hs
    split at h
    · rename_i hc
      cases h
      subst hc
      exact .doubles hs rfl
    · exact step_of_readBare h (by rw [hs]; decide)

/-- The reader is in the mode of its place. -/
theorem place_read (hd : d ≠ '"') (h : s.read d c next = .ok t) :
    t.place = s.place.after d c next := by
  have hplace : s.mode ≠ .quoted → s.place ≠ .quoted := mt place_eq_quoted_iff.1
  cases step_of_read h with
  | opens hs hfield hc => simp [place, Place.after, hs, hfield, hc]
  | closes hs hc => simp [place, Place.after, hs, hc]
  | doubles hs hc => simp [place, Place.after, hs, hc]
  | inside hs hc line => simp [place, Place.after, push, hs, hc]
  | endsField hs hc => simp [place_endField, Place.after, hplace hs, hc, hd]
  | skips hs hcd hc hnext =>
    subst hc hnext
    simp [Place.after, hplace hs, hcd]
  | endsRecord hs hc => simp [place_endRecord, Place.after, hplace hs, hc]
  | pushes hs hc hquote hreturn =>
    by_cases hfield : s.field = []
    · have hopen : c ≠ '"' := fun h => hquote h hfield
      simp [place, Place.after, push, hs, hfield, hc, hopen, hreturn]
    · simp [place, Place.after, push, hs, hfield, hc, hreturn]

/-- What follows a character matters only for a carriage return outside quotes. -/
theorem read_congr (h : s.mode ≠ .quoted → c = '\r' → (next = some '\n' ↔ next' = some '\n')) :
    s.read d c next = s.read d c next' := by
  have hbare : s.mode ≠ .quoted → s.readBare d c next = s.readBare d c next' := by
    intro hs
    have hreturn : (c = '\r' ∧ next = some '\n') ↔ (c = '\r' ∧ next' = some '\n') :=
      and_congr_right (h hs)
    simp only [readBare, hreturn]
  unfold read
  cases hs : s.mode with
  | bare => exact hbare (by rw [hs]; decide)
  | quoted => rfl
  | closed => rw [hbare (by rw [hs]; decide)]

end State

end Tabular.Delimited
