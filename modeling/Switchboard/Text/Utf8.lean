/-
Switchboard/Text/Utf8.lean

Characters and their bytes.  `encode` writes the bytes of a text, `decode`
reads them back one byte at a time and refuses every sequence that no text
has: a stray continuation byte, a character cut short, an overlong form, a
surrogate, a value past U+10FFFF.
-/

namespace Switchboard

/-- A frame as it travels: its bytes in order. -/
abbrev Bytes := List UInt8

namespace Utf8

/-! ### Writing -/

/-- The one to four bytes of a character. -/
def encodeChar (c : Char) : Bytes :=
  let n := c.toNat
  if n < 0x80 then [n.toUInt8]
  else if n < 0x800 then [(0xC0 + n / 64).toUInt8, (0x80 + n % 64).toUInt8]
  else if n < 0x10000 then
    [(0xE0 + n / 4096).toUInt8, (0x80 + n / 64 % 64).toUInt8, (0x80 + n % 64).toUInt8]
  else
    [(0xF0 + n / 262144).toUInt8, (0x80 + n / 4096 % 64).toUInt8,
      (0x80 + n / 64 % 64).toUInt8, (0x80 + n % 64).toUInt8]

/-- The bytes of a text, character by character. -/
def encode (cs : List Char) : Bytes := cs.flatMap encodeChar

/-- The bytes of a string. -/
def ofString (s : String) : Bytes := encode s.toList

/-! ### Reading -/

/-- A character under way: the bytes it has and those it still owes, the range the next one must
lie in, and the bits gathered so far. -/
structure Pending where
  used : Nat
  owed : Nat
  low : Nat
  high : Nat
  bits : Nat

/-- The character that a leading byte above the one-byte range opens.  The range of the second
byte shuts out overlong forms, surrogates and values past the last character. -/
def opening (b : Nat) : Option Pending :=
  if b < 0xC2 then none
  else if b < 0xE0 then some ⟨1, 1, 0x80, 0xBF, b - 0xC0⟩
  else if b = 0xE0 then some ⟨1, 2, 0xA0, 0xBF, 0⟩
  else if b = 0xED then some ⟨1, 2, 0x80, 0x9F, 0xD⟩
  else if b < 0xF0 then some ⟨1, 2, 0x80, 0xBF, b - 0xE0⟩
  else if b = 0xF0 then some ⟨1, 3, 0x90, 0xBF, 0⟩
  else if b < 0xF4 then some ⟨1, 3, 0x80, 0xBF, b - 0xF0⟩
  else if b = 0xF4 then some ⟨1, 3, 0x80, 0x8F, 4⟩
  else none

/-- Reads on with the characters already read in `acc`, the last one first, and perhaps one under
way.  Where no character can be, the answer is the number of bytes from its first one on. -/
def decodeFrom (acc : List Char) : Option Pending → Bytes → Except Nat (List Char)
  | none, [] => .ok acc.reverse
  | some p, [] => .error p.used
  | none, b :: rest =>
    if b.toNat < 0x80 then decodeFrom (Char.ofNat b.toNat :: acc) none rest
    else match opening b.toNat with
      | some p => decodeFrom acc (some p) rest
      | none => .error (rest.length + 1)
  | some p, b :: rest =>
    if p.low ≤ b.toNat ∧ b.toNat ≤ p.high then
      let bits := p.bits * 64 + (b.toNat - 0x80)
      if p.owed ≤ 1 then decodeFrom (Char.ofNat bits :: acc) none rest
      else decodeFrom acc (some ⟨p.used + 1, p.owed - 1, 0x80, 0xBF, bits⟩) rest
    else .error (p.used + rest.length + 1)

/-- The text that has these bytes; if there is none, the number of bytes that are left at the
first place where no character can be. -/
def decode (bs : Bytes) : Except Nat (List Char) := decodeFrom [] none bs

end Utf8

end Switchboard
