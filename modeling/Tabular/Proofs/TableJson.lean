import Tabular.Proofs.Responses
/-!
# What JSON keeps of a table

A written value shows where it ends, whatever follows it. So a written list or object can be taken
apart in one way only, and a table is known by its JSON, but for the numbers that JSON does not have
and the sign of zero.
-/

namespace Tabular

namespace Json

/-! ## One way to take a text apart -/

/-- None of the texts can be mistaken for another one with more or less behind it. -/
def Separable (P : String → Prop) : Prop :=
  ∀ ⦃s t : String⦄, P s → P t → ∀ ⦃rest rest' : List Char⦄, Ends rest → Ends rest' →
    s.toList ++ rest = t.toList ++ rest' → s = t ∧ rest = rest'

/-- The reader comes to the end of a written value and nowhere else. -/
theorem separable_written : Separable fun s => ∃ value, Written s value := by
  rintro s t ⟨value, hs⟩ ⟨value', ht⟩ rest rest' hr hr' h
  let fuel := 2 * s.toList.length + 2 * t.toList.length
  have hread := hs.read fuel rest (Nat.le_add_right _ _) hr
  rw [h, ht.read fuel rest' (Nat.le_add_left _ _) hr'] at hread
  obtain ⟨-, rfl⟩ := Prod.mk.inj (Option.some.inj hread)
  exact ⟨String.toList_inj.1 (List.append_cancel_right h), rfl⟩

theorem text_append_injective {s t : String} {rest rest' : List Char}
    (h : (text s).toList ++ rest = (text t).toList ++ rest') : s = t ∧ rest = rest' := by
  rw [toList_text, toList_text, List.cons_append, List.cons_append, List.append_assoc,
    List.append_assoc] at h
  have hread := congrArg readText? (List.cons.inj h).2
  simp only [List.singleton_append] at hread
  rw [readText?_text, readText?_text] at hread
  simpa using hread

/-- What is written of a member. -/
def member (name value : String) : String := text name ++ ":" ++ value

theorem toList_member_append (name value : String) (rest : List Char) :
    (member name value).toList ++ rest = (text name).toList ++ ':' :: (value.toList ++ rest) := by
  simp [member]

theorem separable_member :
    Separable fun s => ∃ name text value, s = member name text ∧ Written text value := by
  rintro s t ⟨name, s, value, rfl, hs⟩ ⟨name', t, value', rfl, ht⟩ rest rest' hr hr' h
  rw [toList_member_append, toList_member_append] at h
  obtain ⟨rfl, hcontent⟩ := text_append_injective h
  obtain ⟨rfl, rfl⟩ :=
    separable_written ⟨value, hs⟩ ⟨value', ht⟩ hr hr' (List.cons.inj hcontent).2
  exact ⟨rfl, rfl⟩

theorem member_injective : Function.Injective fun m : String × String => member m.1 m.2 := by
  rintro ⟨name, value⟩ ⟨name', value'⟩ h
  have h : (member name value).toList ++ [] = (member name' value').toList ++ [] :=
    congrArg (String.toList · ++ []) h
  rw [toList_member_append, toList_member_append, List.append_nil, List.append_nil] at h
  obtain ⟨rfl, hvalue⟩ := text_append_injective h
  rw [String.toList_inj.1 (List.cons.inj hvalue).2]

/-! ## Lists and objects -/

section Joined
variable {P : String → Prop} {pieces pieces' : List String} {close : Char}

theorem ends_followers (hclose : close = ']' ∨ close = '\x7d') (pieces : List String) :
    Ends (followers pieces ++ [close]) := by
  cases pieces with
  | nil => rcases hclose with rfl | rfl <;> [exact ends_bracket []; exact ends_brace []]
  | cons s pieces => exact ends_comma _

theorem followers_injective (hP : Separable P) (hclose : close = ']' ∨ close = '\x7d')
    (h : ∀ s ∈ pieces, P s) (h' : ∀ s ∈ pieces', P s)
    (he : followers pieces ++ [close] = followers pieces' ++ [close]) : pieces = pieces' := by
  have hcomma : close ≠ ',' := by rcases hclose with rfl | rfl <;> decide
  induction pieces generalizing pieces' with
  | nil =>
    cases pieces' with
    | nil => rfl
    | cons t pieces' => exact absurd (List.cons.inj he).1 hcomma
  | cons s pieces ih =>
    cases pieces' with
    | nil => exact absurd (List.cons.inj he).1.symm hcomma
    | cons t pieces' =>
      simp only [followers, List.flatMap_cons, List.cons_append, List.append_assoc,
        List.cons.injEq, true_and] at he
      obtain ⟨hs, hpieces⟩ := List.forall_mem_cons.1 h
      obtain ⟨ht, hpieces'⟩ := List.forall_mem_cons.1 h'
      obtain ⟨rfl, hrest⟩ :=
        hP hs ht (ends_followers hclose pieces) (ends_followers hclose pieces') he
      rw [ih hpieces hpieces' hrest]

/-- Joined pieces are known by their joined text, if none starts with what closes the list. -/
theorem join_injective (hP : Separable P) (hclose : close = ']' ∨ close = '\x7d')
    (hstart : ∀ s, P s → ∃ c cs, s.toList = c :: cs ∧ c ≠ close)
    (h : ∀ s ∈ pieces, P s) (h' : ∀ s ∈ pieces', P s)
    (he : (",".intercalate pieces).toList ++ [close] = (",".intercalate pieces').toList ++ [close]) :
    pieces = pieces' := by
  have hempty {s : String} {pieces : List String} (hs : P s)
      (he : [close] = (",".intercalate (s :: pieces)).toList ++ [close]) : False := by
    obtain ⟨c, cs, hc, hne⟩ := hstart s hs
    rw [toList_join_cons, hc] at he
    exact hne (List.cons.inj he).1.symm
  cases pieces with
  | nil =>
    cases pieces' with
    | nil => rfl
    | cons t pieces' => exact (hempty (h' t List.mem_cons_self) he).elim
  | cons s pieces =>
    obtain ⟨hs, hpieces⟩ := List.forall_mem_cons.1 h
    cases pieces' with
    | nil => exact (hempty hs he.symm).elim
    | cons t pieces' =>
      obtain ⟨ht, hpieces'⟩ := List.forall_mem_cons.1 h'
      rw [toList_join_cons, toList_join_cons, List.append_assoc, List.append_assoc] at he
      obtain ⟨rfl, hrest⟩ :=
        hP hs ht (ends_followers hclose pieces) (ends_followers hclose pieces') he
      rw [followers_injective hP hclose hpieces hpieces' hrest]

end Joined

theorem array_injective {items items' : List String} (h : ∀ s ∈ items, ∃ value, Written s value)
    (h' : ∀ s ∈ items', ∃ value, Written s value) (he : array items = array items') :
    items = items' := by
  refine join_injective separable_written (.inl rfl) ?_ h h' ?_
  · rintro s ⟨value, hs⟩
    obtain ⟨c, cs, hc, -, hne⟩ := hs.starts
    exact ⟨c, cs, hc, hne⟩
  · simpa [array] using congrArg String.toList he

theorem object_injective {members members' : List (String × String)}
    (h : ∀ m ∈ members, ∃ value, Written m.2 value)
    (h' : ∀ m ∈ members', ∃ value, Written m.2 value) (he : object members = object members') :
    members = members' := by
  refine List.map_injective_iff.2 member_injective
    (join_injective separable_member (.inr rfl) ?_ (List.forall_mem_map.2 ?_)
      (List.forall_mem_map.2 ?_) ?_)
  · rintro s ⟨name, content, value, rfl, -⟩
    exact ⟨'"', _, toList_member name content, by decide⟩
  · exact fun m hm => (h m hm).elim fun value hvalue => ⟨m.1, m.2, value, rfl, hvalue⟩
  · exact fun m hm => (h' m hm).elim fun value hvalue => ⟨m.1, m.2, value, rfl, hvalue⟩
  · simpa [object, member] using congrArg String.toList he

/-! ## Values without items -/

theorem text_injective {s t : String} (h : text s = text t) : s = t :=
  (text_append_injective (congrArg (String.toList · ++ []) h)).1

theorem toDigits_injective {m n : Nat} (h : Nat.toDigits 10 m = Nat.toDigits 10 n) : m = n := by
  rw [← @Nat.ofDigitChars_ten_toDigits m, h, Nat.ofDigitChars_ten_toDigits]

theorem integer_injective {m n : Int} (h : integer m = integer n) : m = n := by
  have hsign (m n : Nat) : '-' :: Nat.toDigits 10 m ≠ Nat.toDigits 10 n := fun he =>
    (isDigits_toDigits n).not_mem rfl (he ▸ List.mem_cons_self)
  rw [integer, integer, String.ofList_inj] at h
  split_ifs at h with hm hn hn
  · have hsize := toDigits_injective (List.cons.inj h).2
    omega
  · exact absurd h (hsign _ _)
  · exact absurd h.symm (hsign _ _)
  · have hsize := toDigits_injective h
    omega

/-- No other kind of value starts like a number. -/
theorem integer_ne {n : Int} {s : String} {c : Char} {cs : List Char} (hs : s.toList = c :: cs)
    (hc : (c.isDigit || c == '-') = false) : integer n ≠ s := by
  rintro rfl
  obtain ⟨d, ds, hd, hstart⟩ := (isNumeral_integer n).starts
  rw [hs] at hd
  exact hstart.ne c hc (List.cons.inj hd).1.symm

theorem integer_ne_null (n : Int) : integer n ≠ null :=
  @integer_ne n null 'n' ['u', 'l', 'l'] rfl rfl

theorem integer_ne_text (n : Int) (s : String) : integer n ≠ text s := integer_ne (toList_text s) rfl

theorem null_ne_text (s : String) : null ≠ text s := by
  intro h
  have hstart := congrArg String.toList h
  rw [toList_text] at hstart
  exact absurd (List.cons.inj hstart).1 (by decide)

end Json

/-! ## Whole numbers -/

namespace Binary64

/-- The number, with one zero. -/
def plain (x : Binary64) : Binary64 := if x = zero true then zero false else x

theorem plain_zero (sign : Bool) : (zero sign).plain = zero false := by
  cases sign
  · rw [plain, if_neg fun h => Bool.noConfusion (zero_inj h)]
  · rw [plain, if_pos rfl]

/-- The cast to a whole number forgets the sign of zero and nothing else. -/
theorem plain_eq_of_toInt? {x y : Binary64} {n : Int} (hx : x.toInt? = some n)
    (hy : y.toInt? = some n) : x.plain = y.plain := by
  rcases eq_or_zeros (rank?_of_toInt? hx) (rank?_of_toInt? hy) with rfl | ⟨s, t, rfl, rfl⟩
  · rfl
  · rw [plain_zero, plain_zero]

end Binary64

/-! ## Cells -/

namespace Cell

/-- The cell as JSON has it: no number that is not finite, and one zero. -/
def plain : Cell → Cell
  | .number x => if x.isFinite then .number x.plain else .null
  | cell => cell

/-- No finite number but whole ones of at most 2^53 in size. -/
def Whole : Cell → Prop
  | .number (.finite _ size) => ∃ n ≤ 2 ^ 53, size.units = n * Binary64.one
  | _ => True

instance (cell : Cell) : Decidable cell.Whole :=
  match cell with
  | .null | .text _ | .number .nan | .number (.infinite _) => .isTrue trivial
  | .number (.finite _ size) =>
    decidable_of_iff (size.units % Binary64.one = 0 ∧ size.units / Binary64.one ≤ 2 ^ 53)
      ⟨fun ⟨hmod, hdiv⟩ =>
          ⟨_, hdiv, (Nat.div_mul_cancel (Nat.dvd_of_mod_eq_zero hmod)).symm⟩,
        fun ⟨n, hn, hsize⟩ => by
          rw [hsize, Nat.mul_div_cancel n Binary64.one_pos]
          exact ⟨Nat.mul_mod_left n _, hn⟩⟩

theorem json_of_toInt? {x : Binary64} {n : Int} (h : x.toInt? = some n) :
    (Cell.number x).json = Json.integer n := by
  simp only [json, h]

theorem json_not_finite {x : Binary64} (h : x.isFinite = false) :
    (Cell.number x).json = Json.null := by
  cases x with
  | nan | infinite _ => rfl
  | finite _ _ => cases h

theorem json_plain (cell : Cell) : cell.plain.json = cell.json := by
  cases cell with
  | null | text _ => rfl
  | number x =>
    rw [plain]
    split_ifs with hfinite
    · by_cases hx : x = .zero true
      · subst hx
        rw [Binary64.plain_zero, json_of_toInt? (Binary64.toInt?_zero _),
          json_of_toInt? (Binary64.toInt?_zero _)]
      · rw [Binary64.plain, if_neg hx]
    · rw [json_not_finite (Bool.eq_false_iff.2 hfinite)]
      rfl

/-- What is written of a cell, next to what is kept of it. -/
inductive Shown (cell : Cell) : Prop
  | absent (hjson : cell.json = Json.null) (hplain : cell.plain = .null)
  | text (content : String) (hcell : cell = .text content)
  | whole (x : Binary64) (n : Int) (hn : x.toInt? = some n) (hjson : cell.json = Json.integer n)
    (hplain : cell.plain = .number x.plain)

theorem Whole.shown {cell : Cell} (h : cell.Whole) : Shown cell := by
  cases cell with
  | null => exact .absent rfl rfl
  | text content => exact .text content rfl
  | number x =>
    cases x with
    | nan | infinite _ => exact .absent rfl rfl
    | finite negative size =>
      obtain ⟨n, hn, hsize⟩ := h
      have hint := Binary64.toInt?_of_whole negative hn hsize
      exact .whole _ _ hint (json_of_toInt? hint) rfl

/-- The first character tells the kinds apart. -/
theorem plain_eq_of_json {a b : Cell} (ha : a.Whole) (hb : b.Whole) (h : a.json = b.json) :
    a.plain = b.plain := by
  cases ha.shown with
  | absent hja hpa =>
    rw [hja] at h
    cases hb.shown with
    | absent _ hpb => rw [hpa, hpb]
    | text content hcb =>
      subst hcb
      exact absurd h (Json.null_ne_text content)
    | whole _ n _ hjb _ =>
      rw [hjb] at h
      exact absurd h.symm (Json.integer_ne_null n)
  | text content hca =>
    subst hca
    cases hb.shown with
    | absent hjb _ =>
      rw [hjb] at h
      exact absurd h.symm (Json.null_ne_text content)
    | text content' hcb =>
      subst hcb
      rw [Json.text_injective h]
    | whole _ n _ hjb _ =>
      rw [hjb] at h
      exact absurd h.symm (Json.integer_ne_text n content)
  | whole x n hx hja hpa =>
    rw [hja] at h
    cases hb.shown with
    | absent hjb _ =>
      rw [hjb] at h
      exact absurd h (Json.integer_ne_null n)
    | text content hcb =>
      subst hcb
      exact absurd h (Json.integer_ne_text n content)
    | whole y m hy hjb hpb =>
      rw [hjb] at h
      obtain rfl := Json.integer_injective h
      rw [hpa, hpb, Binary64.plain_eq_of_toInt? hx hy]

end Cell

/-! ## Rows and tables -/

/-- Lists of the same images under `f` have the same images under `g`, if `f` tells apart what `g`
does. -/
theorem map_eq_map_of {α β γ : Type} {f : α → β} {g : α → γ} {as bs : List α}
    (h : ∀ a ∈ as, ∀ b ∈ bs, f a = f b → g a = g b) (he : as.map f = bs.map f) :
    as.map g = bs.map g := by
  induction as generalizing bs with
  | nil => rw [List.map_eq_nil_iff.1 he.symm]
  | cons a as ih =>
    obtain ⟨b, bs, rfl, hb, hbs⟩ := List.map_eq_cons_iff.1 he.symm
    have hrest := ih (fun c hc d hd => h c (List.mem_cons_of_mem a hc) d (List.mem_cons_of_mem b hd))
      hbs.symm
    rw [List.map_cons, List.map_cons, hrest, h a List.mem_cons_self b List.mem_cons_self hb.symm]

namespace Row

/-- The row with plain cells. -/
def plain (row : Row) : Row where
  columns := row.columns.map fun (name, cell) => (name, cell.plain)
  distinct := by simpa [Function.comp_def] using row.distinct

/-- Every cell is null, a text or a number that JSON writes as a whole number or as null. -/
def Whole (row : Row) : Prop := ∀ column ∈ row.columns, column.2.Whole

instance (row : Row) : Decidable row.Whole :=
  inferInstanceAs (Decidable (∀ column ∈ row.columns, column.2.Whole))

theorem written_member (row : Row) : ∀ m ∈ row.members, ∃ value, Json.Written m.2 value :=
  List.forall_mem_map.2 fun column _ => ⟨_, column.2.written⟩

theorem json_plain (row : Row) : row.plain.json = row.json := by
  have hmembers : row.plain.members = row.members := by
    simp [plain, members, Cell.json_plain]
  rw [json, hmembers, json]

theorem plain_eq_of_json {a b : Row} (ha : a.Whole) (hb : b.Whole) (h : a.json = b.json) :
    a.plain = b.plain := by
  have hmembers := Json.object_injective a.written_member b.written_member h
  have hcolumns : a.plain.columns = b.plain.columns := by
    refine map_eq_map_of (fun x hx y hy he => ?_) hmembers
    obtain ⟨hname, hjson⟩ := Prod.mk.inj he
    exact Prod.ext hname (Cell.plain_eq_of_json (ha x hx) (hb y hy) hjson)
  rw [mk.injEq]
  exact hcolumns

end Row

namespace Table

/-- The table with plain cells. -/
def plain (table : Table) : Table := table.map Row.plain

/-- Every row is made of whole cells. -/
def Whole (table : Table) : Prop := ∀ row ∈ table, row.Whole

instance (table : Table) : Decidable table.Whole :=
  inferInstanceAs (Decidable (∀ row ∈ table, row.Whole))

theorem json_plain (table : Table) : table.plain.json = table.json := by
  simp [plain, json, Function.comp_def, Row.json_plain]

/-- The JSON of two tables is the same exactly if the tables are, up to numbers that are not finite
and the sign of zero. -/
theorem json_eq_iff {a b : Table} (ha : a.Whole) (hb : b.Whole) :
    a.json = b.json ↔ a.plain = b.plain := by
  have hwritten (table : Table) : ∀ s ∈ table.map Row.json, ∃ value, Json.Written s value :=
    List.forall_mem_map.2 fun row _ => ⟨_, Json.written_members row.describes_members⟩
  refine ⟨fun h => ?_, fun h => ?_⟩
  · have hrows := Json.array_injective (hwritten a) (hwritten b) h
    exact map_eq_map_of (fun x hx y hy => Row.plain_eq_of_json (ha x hx) (hb y hy)) hrows
  · rw [← a.json_plain, h, b.json_plain]

/-- A missing number and a negative zero go unseen. Digits as a text do not, nor does the text
`null`, the sign of the largest whole number or the other order of columns. -/
theorem json_digitsAndNulls :
    let largest (negative : Bool) : Cell :=
      .number (.finite negative ⟨2 ^ 53 * Binary64.one, Binary64.fits_whole le_rfl⟩)
    let one : Cell := .number (.finite false ⟨1 * Binary64.one, Binary64.fits_whole (by decide)⟩)
    let zero (negative : Bool) : Cell := .number (.zero negative)
    let row (sum note : Cell) : Row := ⟨[("sum", sum), ("note", note)], by simp⟩
    let swapped (sum note : Cell) : Row := ⟨[("note", note), ("sum", sum)], by simp⟩
    let read : Table :=
      [row (.number .nan) (.text "1"), row (largest true) .null, row (zero true) .null]
    let same : Table := [row .null (.text "1"), row (largest true) .null, row (zero false) .null]
    let others : List Table :=
      [[row .null one, row (largest true) .null, row (zero false) .null],
        [row .null (.text "1"), row (largest true) (.text "null"), row (zero false) .null],
        [row .null (.text "1"), row (largest false) .null, row (zero false) .null],
        [row .null (.text "1"), row (largest true) .null, swapped (zero false) .null]]
    read.json = same.json ∧ ∀ other ∈ others, read.json ≠ other.json := by
  intro largest one zero row swapped read same others
  have hread : read.Whole := by decide +kernel
  have hsame : same.Whole := by decide +kernel
  have hothers : ∀ other ∈ others, other.Whole ∧ read.plain ≠ other.plain := by decide +kernel
  refine ⟨(json_eq_iff hread hsame).2 (by decide +kernel), fun other h => ?_⟩
  obtain ⟨hother, hne⟩ := hothers other h
  exact fun he => hne ((json_eq_iff hread hother).1 he)

end Table

end Tabular
