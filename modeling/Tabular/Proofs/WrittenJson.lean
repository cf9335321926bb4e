import Mathlib.Data.List.Forall2
import Tabular.Proofs.Numerals
/-!
# Reading what was written

What the writer makes of a value stands on one line, and the reader takes it back whole, whatever
follows it in a list or an object.
-/

namespace Tabular.Json

/-! ## Texts -/

theorem hexValue?_hexDigit : ∀ d < 16, hexValue? (hexDigit d) = some d := by decide

theorem hexDigit_ne_newline : ∀ d < 16, hexDigit d ≠ '\n' := by decide

section Characters
variable (c : Char) (codes : List Nat) (rest : List Char)

/-- One character of a text at a time. -/
theorem readCodes?_escape :
    readCodes? codes (escape c ++ rest) = readCodes? (c.toNat :: codes) rest := by
  rw [escape]
  split_ifs with hquote hback hline hreturn htab hbell hform hlow
  · subst hquote; rfl
  · subst hback; rfl
  · subst hline; rfl
  · subst hreturn; rfl
  · subst htab; rfl
  · subst hbell; rfl
  · subst hform; rfl
  · have hhigh := hexValue?_hexDigit (c.toNat / 16) (by omega)
    have hrest := hexValue?_hexDigit (c.toNat % 16) (by omega)
    have hzero : hexValue? '0' = some 0 := rfl
    have hcode : ((0 * 16 + 0) * 16 + c.toNat / 16) * 16 + c.toNat % 16 = c.toNat := by omega
    simp only [List.cons_append, List.nil_append]
    rw [readCodes?, hzero, hhigh, hrest]
    simp only [hcode]
  · simp [readCodes?, hback, hlow]

theorem newline_not_mem_escape : '\n' ∉ escape c := by
  rw [escape]
  split_ifs with hquote hback hline hreturn htab hbell hform hlow
  iterate 7 decide
  · have hhigh := hexDigit_ne_newline (c.toNat / 16) (by omega)
    have hrest := hexDigit_ne_newline (c.toNat % 16) (by omega)
    simp [hhigh.symm, hrest.symm]
  · simpa using Ne.symm hline

end Characters

theorem readCodes?_escaped (cs : List Char) (codes : List Nat) (rest : List Char) :
    readCodes? codes (cs.flatMap escape ++ '"' :: rest) =
      some (codes.reverse ++ cs.map Char.toNat, rest) := by
  induction cs generalizing codes with
  | nil => simp [readCodes?]
  | cons c cs ih =>
    rw [List.flatMap_cons, List.append_assoc, readCodes?_escape, ih]
    simp

/-- No character is a surrogate. -/
theorem not_surrogate (c : Char) : ¬(0xD800 ≤ c.toNat ∧ c.toNat ≤ 0xDFFF) := by
  have hvalid : c.toNat < 0xD800 ∨ 0xDFFF < c.toNat ∧ c.toNat < 0x110000 := c.valid
  omega

theorem charsOfCodes?_toNat (cs : List Char) : charsOfCodes? (cs.map Char.toNat) = some cs := by
  induction cs with
  | nil => rfl
  | cons c cs ih =>
    have hc := not_surrogate c
    rw [List.map_cons]
    unfold charsOfCodes?
    rw [if_neg (by omega), if_neg (by omega), ih, Option.map_some, Char.ofNat_toNat]

/-- What is read after the opening quote of a text. -/
theorem readText?_text (s : String) (rest : List Char) :
    readText? (s.toList.flatMap escape ++ '"' :: rest) = some (some s, rest) := by
  rw [readText?, readCodes?_escaped]
  simp only [Option.map_some, List.reverse_nil, List.nil_append, charsOfCodes?_toNat,
    String.ofList_toList]

/-! ## Written values -/

/-- A text that stands for a value. Reading takes no more steps than there are characters twice
over, since every item or member takes one step besides those of its value. -/
structure Written (text : String) (value : Value) : Prop where
  starts : ∃ c rest, text.toList = c :: rest ∧ isSpace c = false ∧ c ≠ ']'
  line : '\n' ∉ text.toList
  read : ∀ fuel rest, 2 * text.toList.length ≤ fuel → Ends rest →
    readValue? fuel (text.toList ++ rest) = some (value, rest)

theorem skipSpaces_cons {c : Char} (hc : isSpace c = false) (rest : List Char) :
    skipSpaces (c :: rest) = c :: rest :=
  List.dropWhile_cons_of_neg (by simp [hc])

/-- A document that was written is read back. -/
theorem Written.read? {s : String} {value : Value} (h : Written s value) : read? s = some value := by
  have hread := h.read (2 * s.length + 1) [] (by rw [String.length_toList]; omega) ends_nil
  rw [List.append_nil] at hread
  rw [Json.read?, hread]
  rfl

/-- A value without items or members is read in one step. -/
theorem written_of_read {s : String} {value : Value} {c : Char} {cs : List Char}
    (hs : s.toList = c :: cs) (hc : isSpace c = false ∧ c ≠ ']') (hline : '\n' ∉ s.toList)
    (hread : ∀ fuel rest, Ends rest → readValue? (fuel + 1) (s.toList ++ rest) = some (value, rest)) :
    Written s value where
  starts := ⟨c, cs, hs, hc⟩
  line := hline
  read fuel rest hfuel hr := by
    rw [hs, List.length_cons] at hfuel
    obtain ⟨fuel, rfl⟩ : ∃ n, fuel = n + 1 := ⟨fuel - 1, by omega⟩
    exact hread fuel rest hr

theorem toList_text (s : String) : (text s).toList = '"' :: (s.toList.flatMap escape ++ ['"']) := by
  rw [text, String.toList_ofList, List.cons_append]

theorem written_text (s : String) : Written (text s) (.text (some s)) := by
  refine written_of_read (toList_text s) ⟨rfl, by decide⟩ ?_ fun fuel rest _ => ?_
  · rw [toList_text]
    simpa using fun c _ => newline_not_mem_escape c
  · rw [toList_text, List.cons_append, List.append_assoc]
    change (readText? (s.toList.flatMap escape ++ '"' :: rest)).map _ = _
    rw [readText?_text]
    rfl

/-! ## Numbers and literals -/

theorem written_null : Written null .other :=
  written_of_read (c := 'n') rfl ⟨rfl, by decide⟩ (by decide) fun _ _ _ => rfl

theorem written_bool (b : Bool) : Written (bool b) .other := by
  cases b with
  | false => exact written_of_read (c := 'f') rfl ⟨rfl, by decide⟩ (by decide) fun _ _ _ => rfl
  | true => exact written_of_read (c := 't') rfl ⟨rfl, by decide⟩ (by decide) fun _ _ _ => rfl

theorem StartsNumeral.ne {c : Char} (hc : StartsNumeral c) (mark : Char)
    (hmark : (mark.isDigit || mark == '-') = false) : c ≠ mark := by
  rintro rfl
  rcases hc with hc | rfl
  · simp [hc] at hmark
  · cases hmark

theorem StartsNumeral.not_space {c : Char} (hc : StartsNumeral c) : isSpace c = false := by
  simp [isSpace, hc.ne ' ' rfl, hc.ne '\n' rfl, hc.ne '\t' rfl, hc.ne '\r' rfl]

/-- No numeral starts like another kind of value. -/
theorem readValue?_numeral {cs rest : List Char} (h : IsNumeral cs) (hr : Ends rest) (fuel : Nat) :
    readValue? (fuel + 1) (cs ++ rest) = some (.other, rest) := by
  have hafter := afterNumber?_append h hr
  obtain ⟨c, cs, rfl, hc⟩ := h.starts
  rw [List.cons_append] at hafter ⊢
  have hliteral : afterLiteral? (c :: (cs ++ rest)) = none := by
    simp [afterLiteral?, hc.ne 't' rfl, hc.ne 'f' rfl, hc.ne 'n' rfl]
  rw [readValue?, skipSpaces_cons hc.not_space]
  simp [hc.ne '"' rfl, hc.ne '[' rfl, hc.ne '\x7b' rfl, hliteral, hafter]

theorem written_numeral {s : String} (h : IsNumeral s.toList) : Written s .other := by
  obtain ⟨c, cs, he, hc⟩ := h.starts
  exact written_of_read he ⟨hc.not_space, hc.ne ']' rfl⟩ h.newline_not_mem
    fun fuel _ hr => readValue?_numeral h hr fuel

/-! ## Lists and objects -/

theorem join_singleton (s : String) : ",".intercalate [s] = s := by
  rw [← String.toList_inj, String.toList_intercalate, List.map_singleton, List.intercalate_singleton]

theorem toList_join (s t : String) (rest : List String) :
    (",".intercalate (s :: t :: rest)).toList =
      s.toList ++ ',' :: (",".intercalate (t :: rest)).toList := by
  rw [String.toList_intercalate, String.toList_intercalate, List.map_cons, List.map_cons,
    List.intercalate_cons_cons, List.append_assoc]
  rfl

theorem toList_member (name value : String) :
    (text name ++ ":" ++ value).toList =
      '"' :: (name.toList.flatMap escape ++ '"' :: ':' :: value.toList) := by
  simp [text]

section Lists
variable {s : String} {value : Value} {fuel : Nat}

theorem readItems?_next (h : Written s value) (hfuel : 2 * s.toList.length ≤ fuel)
    (before : List Value) (rest : List Char) :
    readItems? (fuel + 1) before (s.toList ++ ',' :: rest) =
      readItems? fuel (value :: before) rest := by
  rw [readItems?, h.read fuel _ hfuel (ends_comma rest)]
  rfl

theorem readItems?_last (h : Written s value) (hfuel : 2 * s.toList.length ≤ fuel)
    (before : List Value) (rest : List Char) :
    readItems? (fuel + 1) before (s.toList ++ ']' :: rest) =
      some (.array (before.reverse ++ [value]), rest) := by
  rw [readItems?, h.read fuel _ hfuel (ends_bracket rest), ← List.reverse_cons]
  rfl

theorem readMembers?_next (h : Written s value) (hfuel : 2 * s.toList.length ≤ fuel)
    (before : List (Option String × Value)) (name : String) (rest : List Char) :
    readMembers? (fuel + 1) before ((text name ++ ":" ++ s).toList ++ ',' :: rest) =
      readMembers? fuel ((some name, value) :: before) rest := by
  have hread := h.read fuel _ hfuel (ends_comma rest)
  rw [toList_member]
  simp (disch := decide) only [List.cons_append, List.append_assoc, readMembers?, skipSpaces_cons,
    readText?_text, hread]

theorem readMembers?_last (h : Written s value) (hfuel : 2 * s.toList.length ≤ fuel)
    (before : List (Option String × Value)) (name : String) (rest : List Char) :
    readMembers? (fuel + 1) before ((text name ++ ":" ++ s).toList ++ '\x7d' :: rest) =
      some (.object (before.reverse ++ [(some name, value)]), rest) := by
  have hread := h.read fuel _ hfuel (ends_brace rest)
  rw [toList_member]
  simp (disch := decide) only [List.cons_append, List.append_assoc, readMembers?, skipSpaces_cons,
    readText?_text, hread, List.reverse_cons]

end Lists

/-- Items with commas between them, read one after the other. `read` stands for the reader of items
or of members, `piece` for what is written of an item, and `result` for what closing makes of them. -/
theorem read_join {α β : Type} {read : Nat → List β → List Char → Option (Value × List Char)}
    {piece : α → String} {item : α → β} {close : Char} {result : List β → Value} {items : List α}
    (hnext : ∀ a ∈ items, ∀ fuel before rest, 2 * (piece a).toList.length ≤ fuel →
      read (fuel + 1) before ((piece a).toList ++ ',' :: rest) = read fuel (item a :: before) rest)
    (hlast : ∀ a ∈ items, ∀ fuel before rest, 2 * (piece a).toList.length ≤ fuel →
      read (fuel + 1) before ((piece a).toList ++ close :: rest) =
        some (result (before.reverse ++ [item a]), rest))
    (hne : items ≠ []) {fuel : Nat}
    (hfuel : 2 * (",".intercalate (items.map piece)).toList.length ≤ fuel) (before : List β)
    (rest : List Char) :
    read (fuel + 1) before ((",".intercalate (items.map piece)).toList ++ close :: rest) =
      some (result (before.reverse ++ items.map item), rest) := by
  induction items generalizing fuel before with
  | nil => exact absurd rfl hne
  | cons a items ih =>
    cases items with
    | nil =>
      rw [List.map_singleton, join_singleton] at hfuel ⊢
      exact hlast a List.mem_cons_self fuel before rest hfuel
    | cons b items =>
      rw [List.map_cons, List.map_cons, toList_join, ← List.map_cons] at hfuel ⊢
      rw [List.length_append, List.length_cons] at hfuel
      obtain ⟨fuel, rfl⟩ : ∃ n, fuel = n + 1 := Nat.exists_eq_add_one.2 (by omega)
      calc read (fuel + 1 + 1) before
            ((piece a).toList ++ ',' :: (",".intercalate ((b :: items).map piece)).toList ++
              close :: rest)
          = read (fuel + 1) (item a :: before)
              ((",".intercalate ((b :: items).map piece)).toList ++ close :: rest) := by
            rw [List.append_assoc, List.cons_append,
              hnext a List.mem_cons_self _ _ _ (by omega)]
        _ = some (result ((item a :: before).reverse ++ (b :: items).map item), rest) :=
            ih (fun c hc => hnext c (List.mem_cons_of_mem a hc))
              (fun c hc => hlast c (List.mem_cons_of_mem a hc)) (List.cons_ne_nil b items)
              (by omega) _
        _ = some (result (before.reverse ++ (a :: b :: items).map item), rest) := by
            rw [List.reverse_cons, List.append_assoc]
            rfl

/-- The pieces after the first, each behind its comma. -/
def followers (pieces : List String) : List Char := pieces.flatMap fun s => ',' :: s.toList

theorem toList_join_cons (s : String) (pieces : List String) :
    (",".intercalate (s :: pieces)).toList = s.toList ++ followers pieces := by
  induction pieces generalizing s with
  | nil => rw [join_singleton, followers, List.flatMap_nil, List.append_nil]
  | cons t pieces ih =>
    rw [toList_join, ih, followers, followers, List.flatMap_cons, List.cons_append]

theorem readValue?_bracket {c : Char} (hc : isSpace c = false ∧ c ≠ ']') (fuel : Nat)
    (rest : List Char) :
    readValue? (fuel + 1) ('[' :: c :: rest) = readItems? fuel [] (c :: rest) := by
  rw [readValue?, skipSpaces_cons rfl]
  simp [skipSpaces_cons hc.1, hc.2]

theorem readValue?_brace {c : Char} (hc : isSpace c = false ∧ c ≠ '\x7d') (fuel : Nat)
    (rest : List Char) :
    readValue? (fuel + 1) ('\x7b' :: c :: rest) = readMembers? fuel [] (c :: rest) := by
  rw [readValue?, skipSpaces_cons rfl]
  simp [skipSpaces_cons hc.1, hc.2]

/-- Joined pieces stand on one line if each of them does. -/
theorem newline_not_mem_join {pieces : List String} (h : ∀ s ∈ pieces, '\n' ∉ s.toList) :
    '\n' ∉ (",".intercalate pieces).toList := by
  induction pieces with
  | nil => exact List.not_mem_nil
  | cons s pieces ih =>
    have hs := h s List.mem_cons_self
    have hrest := ih fun t ht => h t (List.mem_cons_of_mem s ht)
    cases pieces with
    | nil => rwa [join_singleton]
    | cons t pieces =>
      rw [toList_join, List.mem_append, List.mem_cons, not_or, not_or]
      exact ⟨hs, by decide, hrest⟩

section Collections
variable {α : Type} {write : α → String} {value : α → Value}

theorem written_array {items : List α} (h : ∀ a ∈ items, Written (write a) (value a)) :
    Written (array (items.map write)) (.array (items.map value)) := by
  have hs : (array (items.map write)).toList =
      '[' :: ((",".intercalate (items.map write)).toList ++ [']']) := by
    simp [array]
  have hline : '\n' ∉ (",".intercalate (items.map write)).toList :=
    newline_not_mem_join (List.forall_mem_map.2 fun a ha => (h a ha).line)
  refine ⟨⟨'[', _, hs, rfl, by decide⟩, by rw [hs]; simpa using hline, fun fuel rest hfuel _ => ?_⟩
  rw [hs, List.length_cons, List.length_append, List.length_singleton] at hfuel
  obtain ⟨fuel, rfl⟩ : ∃ n, fuel = n + 2 := ⟨fuel - 2, by omega⟩
  rw [hs, List.cons_append, List.append_assoc]
  cases items with
  | nil => rfl
  | cons a items =>
    have hread : readItems? (fuel + 1) []
        ((",".intercalate ((a :: items).map write)).toList ++ ']' :: rest) =
          some (.array ([] ++ (a :: items).map value), rest) :=
      read_join (fun a ha _ before rest hfuel => readItems?_next (h a ha) hfuel before rest)
        (fun a ha _ before rest hfuel => readItems?_last (h a ha) hfuel before rest)
        (List.cons_ne_nil a items) (by omega) [] rest
    obtain ⟨c, cs, hstart, hc⟩ := (h a List.mem_cons_self).starts
    rw [List.map_cons, toList_join_cons, hstart, List.cons_append, List.cons_append] at hread ⊢
    rw [readValue?_bracket hc]
    exact hread

/-- The names of an object's members are texts. -/
theorem written_object {members : List (String × α)}
    (h : ∀ member ∈ members, Written (write member.2) (value member.2)) :
    Written (object (members.map fun (name, a) => (name, write a)))
      (.object (members.map fun (name, a) => (some name, value a))) := by
  let piece (member : String × α) : String := text member.1 ++ ":" ++ write member.2
  have hs : (object (members.map fun (name, a) => (name, write a))).toList =
      '\x7b' :: ((",".intercalate (members.map piece)).toList ++ ['\x7d']) := by
    simp [object, piece, Function.comp_def]
  have hline : '\n' ∉ (",".intercalate (members.map piece)).toList := by
    refine newline_not_mem_join (List.forall_mem_map.2 fun member hm => ?_)
    have hname := (written_text member.1).line
    have hvalue := (h member hm).line
    simp [piece, hname, hvalue]
  refine ⟨⟨'\x7b', _, hs, rfl, by decide⟩, by rw [hs]; simpa using hline,
    fun fuel rest hfuel _ => ?_⟩
  rw [hs, List.length_cons, List.length_append, List.length_singleton] at hfuel
  obtain ⟨fuel, rfl⟩ : ∃ n, fuel = n + 2 := ⟨fuel - 2, by omega⟩
  have hfuel : 2 * (",".intercalate (members.map piece)).toList.length ≤ fuel := by omega
  have hlength (m : String × α) : 2 * (write m.2).toList.length ≤ 2 * (piece m).toList.length := by
    simp only [piece, toList_member, List.length_cons, List.length_append]
    omega
  rw [hs, List.cons_append, List.append_assoc]
  cases members with
  | nil => rfl
  | cons member members =>
    have hread : readMembers? (fuel + 1) []
        ((",".intercalate ((member :: members).map piece)).toList ++ '\x7d' :: rest) =
          some (.object ([] ++ (member :: members).map fun (name, a) => (some name, value a)),
            rest) :=
      read_join
        (fun m hm _ before rest hfuel =>
          readMembers?_next (h m hm) ((hlength m).trans hfuel) before m.1 rest)
        (fun m hm _ before rest hfuel =>
          readMembers?_last (h m hm) ((hlength m).trans hfuel) before m.1 rest)
        (List.cons_ne_nil member members) hfuel [] rest
    rw [List.map_cons, toList_join_cons, toList_member, List.cons_append, List.cons_append] at hread ⊢
    rw [readValue?_brace ⟨rfl, by decide⟩]
    exact hread

end Collections

/-! ## Objects with members of several kinds -/

/-- A written member stands for one of the same name. -/
def Describes (member : String × String) (value : String × Value) : Prop :=
  member.1 = value.1 ∧ Written member.2 value.2

/-- An object whose names are all well formed. -/
def Value.ofMembers (values : List (String × Value)) : Value :=
  .object (values.map fun (name, value) => (some name, value))

theorem Value.ofMembers_injective : Function.Injective Value.ofMembers := by
  intro values values' h
  injection h with h
  refine List.map_injective_iff.2 ?_ h
  rintro ⟨name, value⟩ ⟨name', value'⟩ h
  cases h
  rfl

section Described
variable {members : List (String × String)} {values : List (String × Value)}

/-- Members and what they stand for are two sides of one list. -/
theorem exists_pairs (h : List.Forall₂ Describes members values) :
    ∃ pairs : List (String × (String × Value)),
      members = pairs.map (fun (name, pair) => (name, pair.1)) ∧
      values = pairs.map (fun (name, pair) => (name, pair.2)) ∧
      ∀ pair ∈ pairs, Written pair.2.1 pair.2.2 := by
  induction h with
  | nil => exact ⟨[], rfl, rfl, nofun⟩
  | @cons member value _ _ h _ ih =>
    obtain ⟨pairs, rfl, rfl, hpairs⟩ := ih
    refine ⟨(member.1, (member.2, value.2)) :: pairs, rfl, ?_, List.forall_mem_cons.2 ⟨h.2, hpairs⟩⟩
    rw [List.map_cons, h.1]

theorem written_members (h : List.Forall₂ Describes members values) :
    Written (object members) (.ofMembers values) := by
  obtain ⟨pairs, rfl, rfl, hpairs⟩ := exists_pairs h
  have hwritten := written_object hpairs
  rw [Value.ofMembers, List.map_map]
  exact hwritten

theorem sorted_map {α β : Type} (f : α → β) (members : List (String × α)) :
    sorted (members.map fun (name, a) => (name, f a)) =
      (sorted members).map fun (name, a) => (name, f a) := by
  refine (List.map_mergeSort ?_).symm
  exact fun _ _ _ _ => rfl

/-- The order of members depends on their names only. -/
theorem describes_sorted (h : List.Forall₂ Describes members values) :
    List.Forall₂ Describes (sorted members) (sorted values) := by
  obtain ⟨pairs, rfl, rfl, hpairs⟩ := exists_pairs h
  rw [sorted_map, sorted_map, List.forall₂_map_left_iff, List.forall₂_map_right_iff,
    List.forall₂_same]
  exact fun pair hp => ⟨rfl, hpairs pair ((List.mergeSort_perm _ _).mem_iff.1 hp)⟩

end Described

end Tabular.Json
