import Mathlib.Data.List.Forall2
import Tabular.Text.Utf8
/-!
# Decoding UTF-8

Bytes decode to characters exactly if they are those characters encoded.
-/

namespace Tabular.Text

/-! ## Sequences -/

def Within (byte : UInt8) (range : UInt8 × UInt8) : Prop := range.1 ≤ byte ∧ byte ≤ range.2

/-- The bits of a sequence so far with those of the bytes that follow. -/
def bitsWith (bits : Nat) (follow : List UInt8) : Nat :=
  follow.foldl (fun bits byte => bits * 64 + byte.toNat % 64) bits

section Sequences
variable {index bits length : Nat} {decoded cs : List Char} {byte : UInt8} {bytes : List UInt8}
  {range : UInt8 × UInt8} {expected : List (UInt8 × UInt8)}

theorem within_of_decodeFrom
    (h : decodeFrom index decoded ⟨bits, length, range :: expected⟩ (byte :: bytes) = .ok cs) :
    Within byte range := by
  rw [decodeFrom] at h
  simp only at h
  split at h
  · assumption
  · cases h

theorem decodeFrom_last (h : Within byte range) :
    decodeFrom index decoded ⟨bits, length, [range]⟩ (byte :: bytes) =
      decodeFrom (index + (length + 1)) (Char.ofNat (bits * 64 + byte.toNat % 64) :: decoded)
        ⟨0, 0, []⟩ bytes := by
  rw [decodeFrom]
  simp only
  rw [if_pos (show range.1 ≤ byte ∧ byte ≤ range.2 from h)]
  rfl

theorem decodeFrom_next {next : UInt8 × UInt8} (h : Within byte range) :
    decodeFrom index decoded ⟨bits, length, range :: next :: expected⟩ (byte :: bytes) =
      decodeFrom index decoded ⟨bits * 64 + byte.toNat % 64, length + 1, next :: expected⟩ bytes := by
  rw [decodeFrom]
  simp only
  rw [if_pos (show range.1 ≤ byte ∧ byte ≤ range.2 from h)]
  rfl

/-- A sequence in progress takes the bytes it expects and makes one character of them. -/
theorem decodeFrom_partial (hlength : length ≠ 0) :
    decodeFrom index decoded ⟨bits, length, range :: expected⟩ bytes = .ok cs ↔
      ∃ follow rest, bytes = follow ++ rest ∧ List.Forall₂ Within follow (range :: expected) ∧
        decodeFrom (index + (length + follow.length))
          (Char.ofNat (bitsWith bits follow) :: decoded) ⟨0, 0, []⟩ rest = .ok cs := by
  induction expected generalizing bits length range bytes with
  | nil =>
    constructor
    · intro h
      cases bytes with
      | nil => simp [decodeFrom, hlength] at h
      | cons byte bytes =>
        have hbyte := within_of_decodeFrom h
        rw [decodeFrom_last hbyte] at h
        exact ⟨[byte], bytes, rfl, .cons hbyte .nil, h⟩
    · rintro ⟨_, rest, rfl, hbyte | ⟨hbyte, hfollow⟩, h⟩
      cases hfollow
      rw [List.cons_append, decodeFrom_last hbyte]
      exact h
  | cons next expected ih =>
    constructor
    · intro h
      cases bytes with
      | nil => simp [decodeFrom, hlength] at h
      | cons byte bytes =>
        have hbyte := within_of_decodeFrom h
        rw [decodeFrom_next hbyte, ih (Nat.succ_ne_zero length)] at h
        obtain ⟨follow, rest, rfl, hfollow, h⟩ := h
        rw [Nat.succ_add_eq_add_succ] at h
        exact ⟨byte :: follow, rest, rfl, .cons hbyte hfollow, h⟩
    · rintro ⟨_, rest, rfl, hfollow | ⟨hbyte, hfollow⟩, h⟩
      rename_i byte follow
      rw [List.cons_append, decodeFrom_next hbyte, ih (Nat.succ_ne_zero length)]
      rw [List.length_cons, ← Nat.succ_add_eq_add_succ] at h
      exact ⟨follow, rest, rfl, hfollow, h⟩

/-- A first byte and the bytes that may follow it make one character. -/
theorem decodeFrom_first : decodeFrom index decoded ⟨0, 0, []⟩ (byte :: bytes) = .ok cs ↔
    ∃ expected follow rest, followers byte = some expected ∧ bytes = follow ++ rest ∧
      List.Forall₂ Within follow expected ∧
      decodeFrom (index + (1 + follow.length))
        (Char.ofNat (bitsWith (leadBits byte expected.length) follow) :: decoded) ⟨0, 0, []⟩ rest =
          .ok cs := by
  rw [decodeFrom]
  simp only
  cases hfollowers : followers byte with
  | none => simp
  | some expected =>
    cases expected with
    | nil =>
      constructor
      · intro h
        exact ⟨[], [], bytes, rfl, rfl, .nil, h⟩
      · rintro ⟨_, _, rest, ⟨⟩, rfl, ⟨⟩, h⟩
        exact h
    | cons range expected =>
      simp only
      rw [decodeFrom_partial Nat.one_ne_zero]
      constructor
      · rintro ⟨follow, rest, h⟩
        exact ⟨_, follow, rest, rfl, h⟩
      · rintro ⟨_, follow, rest, ⟨⟩, h⟩
        exact ⟨follow, rest, h⟩

end Sequences

/-! ## Characters -/

section Characters
variable {a b c d : UInt8}

theorem toNat_ofNat {n : Nat} (h : n.isValidChar) : (Char.ofNat n).toNat = n := by
  rw [Char.ofNat, dif_pos h]
  rfl

/-- The range of the bytes after the second. -/
def later : UInt8 × UInt8 := (0x80, 0xBF)

/-- The range of the second byte in a sequence of three or four. -/
def second (first : UInt8) : UInt8 × UInt8 :=
  (if first.toNat = 0xE0 then 0xA0 else if first.toNat = 0xF0 then 0x90 else 0x80,
    if first.toNat = 0xED then 0x9F else if first.toNat = 0xF4 then 0x8F else 0xBF)

theorem followers_eq (a : UInt8) : followers a =
    if a.toNat < 0x80 then some []
    else if 0xC2 ≤ a.toNat ∧ a.toNat ≤ 0xDF then some [later]
    else if 0xE0 ≤ a.toNat ∧ a.toNat ≤ 0xEF then some [second a, later]
    else if 0xF0 ≤ a.toNat ∧ a.toNat ≤ 0xF4 then some [second a, later, later]
    else none := by
  simp only [followers, second, later, UInt8.lt_iff_toNat_lt, UInt8.le_iff_toNat_le,
    ← UInt8.toNat_inj, UInt8.reduceToNat]
  split_ifs <;> first | rfl | omega

theorem within_later : Within b later ↔ 0x80 ≤ b.toNat ∧ b.toNat ≤ 0xBF := by
  simp only [Within, later, UInt8.le_iff_toNat_le]
  rfl

theorem within_second : Within b (second a) ↔ (0x80 ≤ b.toNat ∧ b.toNat ≤ 0xBF) ∧
    (a.toNat = 0xE0 → 0xA0 ≤ b.toNat) ∧ (a.toNat = 0xF0 → 0x90 ≤ b.toNat) ∧
    (a.toNat = 0xED → b.toNat ≤ 0x9F) ∧ (a.toNat = 0xF4 → b.toNat ≤ 0x8F) := by
  simp only [Within, second, UInt8.le_iff_toNat_le]
  split_ifs <;> simp only [UInt8.reduceToNat] <;> omega

theorem encode_one (ha : a.toNat < 0x80) : String.utf8EncodeChar (Char.ofNat a.toNat) = [a] := by
  unfold String.utf8EncodeChar
  rw [Char.toNat_val, toNat_ofNat (.inl (by omega))]
  simp only
  rw [if_pos (by omega), UInt8.ofNat_toNat]

theorem encode_two (ha : 0xC2 ≤ a.toNat ∧ a.toNat ≤ 0xDF) (hb : Within b later) :
    String.utf8EncodeChar (Char.ofNat (a.toNat % 32 * 64 + b.toNat % 64)) = [a, b] := by
  rw [within_later] at hb
  unfold String.utf8EncodeChar
  rw [Char.toNat_val, toNat_ofNat (.inl (by omega))]
  simp only
  rw [if_neg (by omega), if_pos (by omega)]
  simp only [List.cons.injEq, ← UInt8.toNat_inj, UInt8.toNat_ofNat', and_true]
  omega

theorem encode_three (ha : 0xE0 ≤ a.toNat ∧ a.toNat ≤ 0xEF) (hb : Within b (second a))
    (hc : Within c later) :
    String.utf8EncodeChar
      (Char.ofNat ((a.toNat % 16 * 64 + b.toNat % 64) * 64 + c.toNat % 64)) = [a, b, c] := by
  rw [within_later] at hc
  rw [within_second] at hb
  have hvalid : ((a.toNat % 16 * 64 + b.toNat % 64) * 64 + c.toNat % 64).isValidChar := by
    unfold Nat.isValidChar
    omega
  unfold String.utf8EncodeChar
  rw [Char.toNat_val, toNat_ofNat hvalid]
  simp only
  rw [if_neg (by omega), if_neg (by omega), if_pos (by omega)]
  simp only [List.cons.injEq, ← UInt8.toNat_inj, UInt8.toNat_ofNat', and_true]
  omega

theorem encode_four (ha : 0xF0 ≤ a.toNat ∧ a.toNat ≤ 0xF4) (hb : Within b (second a))
    (hc : Within c later) (hd : Within d later) :
    String.utf8EncodeChar (Char.ofNat
      (((a.toNat % 8 * 64 + b.toNat % 64) * 64 + c.toNat % 64) * 64 + d.toNat % 64)) =
        [a, b, c, d] := by
  rw [within_later] at hc hd
  rw [within_second] at hb
  have hvalid :
      (((a.toNat % 8 * 64 + b.toNat % 64) * 64 + c.toNat % 64) * 64 + d.toNat % 64).isValidChar := by
    unfold Nat.isValidChar
    omega
  unfold String.utf8EncodeChar
  rw [Char.toNat_val, toNat_ofNat hvalid]
  simp only
  rw [if_neg (by omega), if_neg (by omega), if_neg (by omega)]
  simp only [List.cons.injEq, ← UInt8.toNat_inj, UInt8.toNat_ofNat', and_true]
  omega

/-- The character of a sequence is encoded as that sequence. -/
theorem encode_sequence {follow : List UInt8} {expected : List (UInt8 × UInt8)}
    (h : followers a = some expected) (hfollow : List.Forall₂ Within follow expected) :
    String.utf8EncodeChar (Char.ofNat (bitsWith (leadBits a expected.length) follow)) =
      a :: follow := by
  rw [followers_eq] at h
  split_ifs at h with hone htwo hthree hfour <;> cases h
  · cases hfollow
    exact encode_one hone
  · obtain _ | ⟨hb, ⟨⟩⟩ := hfollow
    exact encode_two htwo hb
  · obtain _ | ⟨hb, _ | ⟨hc, ⟨⟩⟩⟩ := hfollow
    exact encode_three hthree hb hc
  · obtain _ | ⟨hb, _ | ⟨hc, _ | ⟨hd, ⟨⟩⟩⟩⟩ := hfollow
    exact encode_four hfour hb hc hd

theorem followers_one (h : a.toNat < 0x80) : followers a = some [] := by
  rw [followers_eq, if_pos h]

theorem followers_two (h : 0xC2 ≤ a.toNat ∧ a.toNat ≤ 0xDF) : followers a = some [later] := by
  rw [followers_eq, if_neg (by omega), if_pos h]

theorem followers_three (h : 0xE0 ≤ a.toNat ∧ a.toNat ≤ 0xEF) :
    followers a = some [second a, later] := by
  rw [followers_eq, if_neg (by omega), if_neg (by omega), if_pos h]

theorem followers_four (h : 0xF0 ≤ a.toNat ∧ a.toNat ≤ 0xF4) :
    followers a = some [second a, later, later] := by
  rw [followers_eq, if_neg (by omega), if_neg (by omega), if_neg (by omega), if_pos h]

/-- Every character is encoded as a sequence that makes it. -/
theorem exists_sequence (char : Char) : ∃ first follow expected,
    String.utf8EncodeChar char = first :: follow ∧ followers first = some expected ∧
      List.Forall₂ Within follow expected ∧
      bitsWith (leadBits first expected.length) follow = char.toNat := by
  have hvalid : char.toNat < 0xD800 ∨ 0xDFFF < char.toNat ∧ char.toNat < 0x110000 := char.valid
  unfold String.utf8EncodeChar
  rw [Char.toNat_val]
  simp only
  split_ifs with hone htwo hthree
  · refine ⟨_, _, _, rfl, followers_one ?_, .nil, ?_⟩ <;>
      simp only [bitsWith, leadBits, List.foldl_nil, List.length_nil, UInt8.toNat_ofNat'] <;> omega
  · refine ⟨_, _, _, rfl, followers_two ?_, .cons (within_later.2 ?_) .nil, ?_⟩ <;>
      simp only [bitsWith, leadBits, List.foldl_cons, List.foldl_nil, List.length_cons,
        List.length_nil, UInt8.toNat_ofNat'] <;> omega
  · refine ⟨_, _, _, rfl, followers_three ?_, .cons (within_second.2 ?_)
      (.cons (within_later.2 ?_) .nil), ?_⟩ <;>
      simp only [bitsWith, leadBits, List.foldl_cons, List.foldl_nil, List.length_cons,
        List.length_nil, UInt8.toNat_ofNat'] <;> omega
  · refine ⟨_, _, _, rfl, followers_four ?_, .cons (within_second.2 ?_)
      (.cons (within_later.2 ?_) (.cons (within_later.2 ?_) .nil)), ?_⟩ <;>
      simp only [bitsWith, leadBits, List.foldl_cons, List.foldl_nil, List.length_cons,
        List.length_nil, UInt8.toNat_ofNat'] <;> omega

end Characters

/-! ## Texts -/

/-- The bytes of a text. -/
def encodeUtf8 (cs : List Char) : List UInt8 := cs.flatMap String.utf8EncodeChar

theorem encodeUtf8_cons (c : Char) (cs : List Char) :
    encodeUtf8 (c :: cs) = String.utf8EncodeChar c ++ encodeUtf8 cs :=
  List.flatMap_cons

theorem decodeFrom_encode (cs : List Char) (index : Nat) (decoded : List Char) :
    decodeFrom index decoded ⟨0, 0, []⟩ (encodeUtf8 cs) = .ok (decoded.reverse ++ cs) := by
  induction cs generalizing index decoded with
  | nil => exact congrArg Except.ok (List.append_nil _).symm
  | cons c cs ih =>
    obtain ⟨first, follow, expected, hchar, hfollowers, hfollow, hbits⟩ := exists_sequence c
    rw [encodeUtf8_cons, hchar, List.cons_append, decodeFrom_first]
    refine ⟨expected, follow, encodeUtf8 cs, hfollowers, rfl, hfollow, ?_⟩
    rw [hbits, Char.ofNat_toNat, ih, List.reverse_cons, List.append_assoc]
    rfl

/-- What decodes was encoded. The induction is on a bound for the number of bytes, since a character
takes several of them. -/
theorem encode_of_decodeFrom {n index : Nat} {decoded cs : List Char} {bytes : List UInt8}
    (hn : bytes.length ≤ n) (h : decodeFrom index decoded ⟨0, 0, []⟩ bytes = .ok cs) :
    ∃ rest, cs = decoded.reverse ++ rest ∧ bytes = encodeUtf8 rest := by
  induction n generalizing index decoded bytes with
  | zero =>
    rw [List.eq_nil_of_length_eq_zero (Nat.le_zero.1 hn)] at h ⊢
    cases h
    exact ⟨[], (List.append_nil _).symm, rfl⟩
  | succ n ih =>
    cases bytes with
    | nil =>
      cases h
      exact ⟨[], (List.append_nil _).symm, rfl⟩
    | cons first bytes =>
      obtain ⟨expected, follow, rest, hfollowers, rfl, hfollow, h⟩ := decodeFrom_first.1 h
      rw [List.length_cons, List.length_append] at hn
      obtain ⟨cs, rfl, rfl⟩ := ih (by omega) h
      refine ⟨Char.ofNat (bitsWith (leadBits first expected.length) follow) :: cs, ?_, ?_⟩
      · rw [List.reverse_cons, List.append_assoc]
        rfl
      · rw [encodeUtf8_cons, encode_sequence hfollowers hfollow]
        rfl

/-- Decoding undoes encoding, and takes nothing else. -/
theorem decodeUtf8_iff {bytes : List UInt8} {cs : List Char} :
    decodeUtf8 bytes = .ok cs ↔ bytes = encodeUtf8 cs := by
  constructor
  · intro h
    obtain ⟨rest, rfl, hbytes⟩ := encode_of_decodeFrom (Nat.le_refl _) h
    exact hbytes
  · rintro rfl
    exact decodeFrom_encode cs 0 []

end Tabular.Text
