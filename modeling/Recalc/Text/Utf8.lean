/-!
# Bytes that may not be UTF-8

Where a byte sequence stops being UTF-8, and reading it with a replacement character for each
longest start of a character that is not continued.
-/

namespace Recalc.Text.Utf8

/-- How many continuation bytes a first byte calls for, with the range of the next one. -/
def plan? (b : UInt8) : Option (Nat × UInt8 × UInt8) :=
  if b < 0x80 then some (0, 0, 0)
  else if 0xC2 ≤ b && b ≤ 0xDF then some (1, 0x80, 0xBF)
  else if b = 0xE0 then some (2, 0xA0, 0xBF)
  else if b = 0xED then some (2, 0x80, 0x9F)
  else if 0xE1 ≤ b && b ≤ 0xEF then some (2, 0x80, 0xBF)
  else if b = 0xF0 then some (3, 0x90, 0xBF)
  else if b = 0xF4 then some (3, 0x80, 0x8F)
  else if 0xF1 ≤ b && b ≤ 0xF3 then some (3, 0x80, 0xBF)
  else none

/-- The bits of a first byte that belong to its character. -/
def leadBits (b : UInt8) : Nat :=
  if b < 0x80 then b.toNat
  else if b < 0xE0 then b.toNat % 0x20
  else if b < 0xF0 then b.toNat % 0x10
  else b.toNat % 0x08

/-- Take continuation bytes, the next of which has to lie between `low` and `high`. The result is
the code point, if it is complete, and the number of bytes taken. -/
def continue? : Nat → UInt8 → UInt8 → Nat → List UInt8 → Option Nat × Nat
  | 0, _, _, code, _ => (some code, 0)
  | _ + 1, _, _, _, [] => (none, 0)
  | more + 1, low, high, code, b :: rest =>
      if low ≤ b && b ≤ high then
        let (result, taken) := continue? more 0x80 0xBF (code * 0x40 + b.toNat % 0x40) rest
        (result, taken + 1)
      else (none, 0)

/-- The character that starts with `b`, if it is complete, and the bytes it or its start takes. -/
def first (b : UInt8) (rest : List UInt8) : Option Char × Nat :=
  match plan? b with
  | none => (none, 1)
  | some (more, low, high) =>
      let (code, taken) := continue? more low high (leadBits b) rest
      (code.map Char.ofNat, taken + 1)

/-- The number of bytes before the first that is not UTF-8, looking at up to `limit` characters. -/
def validWithin : Nat → List UInt8 → Nat
  | 0, _ => 0
  | _ + 1, [] => 0
  | limit + 1, b :: rest =>
      match first b rest with
      | (some _, taken) => taken + validWithin limit (rest.drop (taken - 1))
      | (none, _) => 0

/-- The number of bytes before the first that is not UTF-8. -/
def validLength (bytes : List UInt8) : Nat := validWithin bytes.length bytes

/-- Up to `limit` characters, with replacement characters for bytes that are not UTF-8. -/
def lossyWithin : Nat → List UInt8 → List Char
  | 0, _ => []
  | _ + 1, [] => []
  | limit + 1, b :: rest =>
      let (c, taken) := first b rest
      c.getD (Char.ofNat 0xFFFD) :: lossyWithin limit (rest.drop (taken - 1))

/-- Text from bytes, with replacement characters for bytes that are not UTF-8. -/
def lossy (bytes : List UInt8) : String := String.ofList (lossyWithin bytes.length bytes)

/-- The bytes of a text. -/
def encode (s : String) : List UInt8 := s.toUTF8.toList

/-- Text from bytes that are UTF-8. -/
def decode? (bytes : List UInt8) : Option String :=
  String.fromUTF8? ⟨bytes.toArray⟩

end Recalc.Text.Utf8
