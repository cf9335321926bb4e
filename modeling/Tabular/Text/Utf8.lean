/-!
# UTF-8

Bytes as characters. A fault says how many bytes before it are valid, and how long the sequence is
that cannot be continued; a sequence cut off by the end of the bytes has no length.
-/

namespace Tabular.Text

structure Utf8Fault where
  index : Nat
  length : Option Nat
deriving DecidableEq

def Utf8Fault.message (fault : Utf8Fault) : String :=
  match fault.length with
  | some n =>
    "invalid utf-8 sequence of " ++ n.repr ++ " bytes from index " ++ fault.index.repr
  | none => "incomplete utf-8 byte sequence from index " ++ fault.index.repr

/-- The ranges of the bytes that may follow a first byte. The second byte is the only one that
depends on the first: it excludes long forms, surrogates and code points past the last. -/
def followers (first : UInt8) : Option (List (UInt8 × UInt8)) :=
  if first < 0x80 then some []
  else if 0xC2 ≤ first ∧ first ≤ 0xDF then some [(0x80, 0xBF)]
  else if first = 0xE0 then some [(0xA0, 0xBF), (0x80, 0xBF)]
  else if first = 0xED then some [(0x80, 0x9F), (0x80, 0xBF)]
  else if 0xE1 ≤ first ∧ first ≤ 0xEF then some [(0x80, 0xBF), (0x80, 0xBF)]
  else if first = 0xF0 then some [(0x90, 0xBF), (0x80, 0xBF), (0x80, 0xBF)]
  else if first = 0xF4 then some [(0x80, 0x8F), (0x80, 0xBF), (0x80, 0xBF)]
  else if 0xF1 ≤ first ∧ first ≤ 0xF3 then some [(0x80, 0xBF), (0x80, 0xBF), (0x80, 0xBF)]
  else none

/-- The bits of a first byte that belong to the code point, by the number of bytes that follow. -/
def leadBits (first : UInt8) (follow : Nat) : Nat :=
  match follow with
  | 0 => first.toNat
  | 1 => first.toNat % 32
  | 2 => first.toNat % 16
  | _ => first.toNat % 8

/-- A sequence that is being read: the bits so far, the bytes so far, and the ranges of the bytes
to come. -/
structure Partial where
  bits : Nat
  length : Nat
  expected : List (UInt8 × UInt8)

/-- Decodes from a sequence in progress. `index` is where that sequence starts, and `decoded` holds
the characters before it, last first. -/
def decodeFrom (index : Nat) (decoded : List Char) (sequence : Partial) :
    List UInt8 → Except Utf8Fault (List Char)
  | [] => if sequence.length = 0 then .ok decoded.reverse else .error ⟨index, none⟩
  | byte :: bytes =>
    match sequence.expected with
    | [] =>
      match followers byte with
      | none => .error ⟨index, some 1⟩
      | some [] => decodeFrom (index + 1) (Char.ofNat byte.toNat :: decoded) ⟨0, 0, []⟩ bytes
      | some expected => decodeFrom index decoded ⟨leadBits byte expected.length, 1, expected⟩ bytes
    | (low, high) :: expected =>
      if low ≤ byte ∧ byte ≤ high then
        let bits := sequence.bits * 64 + byte.toNat % 64
        let length := sequence.length + 1
        if expected.isEmpty then
          decodeFrom (index + length) (Char.ofNat bits :: decoded) ⟨0, 0, []⟩ bytes
        else decodeFrom index decoded ⟨bits, length, expected⟩ bytes
      else .error ⟨index, some sequence.length⟩

def decodeUtf8 (bytes : List UInt8) : Except Utf8Fault (List Char) :=
  decodeFrom 0 [] ⟨0, 0, []⟩ bytes

end Tabular.Text
