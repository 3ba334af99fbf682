/-
Switchboard/Uuid.lean

Universally unique identifiers: 128 bits, written as 32 lower-case
hexadecimal digits in five groups.  Version 4 is all chance; version 7
begins with the time in milliseconds, so that later ones sort later.
-/
import Switchboard.Text.Digits

namespace Switchboard

/-- A 128-bit identifier. -/
structure Uuid where
  value : Nat
deriving DecidableEq

namespace Uuid

open Text

/-- The written form. -/
def text (u : Uuid) : String :=
  let ds := fill 32 (hex u.value)
  String.ofList <|
    ds.take 8 ++ '-' :: (ds.drop 8).take 4 ++ '-' :: (ds.drop 12).take 4 ++
      '-' :: (ds.drop 16).take 4 ++ '-' :: ds.drop 20

/-- An identifier of a version, with its two free parts of 48 and 12 bits before and after the
version, and 62 bits at the end. -/
def ofParts (version high middle low : Nat) : Uuid :=
  ⟨high % Nat.pow 2 48 * Nat.pow 2 80 + version % 16 * Nat.pow 2 76 +
    middle % Nat.pow 2 12 * Nat.pow 2 64 + Nat.pow 2 63 + low % Nat.pow 2 62⟩

/-- The version that an identifier states. -/
def version (u : Uuid) : Nat := u.value / Nat.pow 2 76 % 16

/-- The identifier made by chance from these bits. -/
def byChance (bits : Nat) : Uuid := ofParts 4 (bits / Nat.pow 2 74) (bits / Nat.pow 2 62) bits

/-- The identifier of a moment, told apart from others of that moment by a serial number. -/
def atTime (millis serial : Nat) : Uuid := ofParts 7 millis (serial / Nat.pow 2 62) serial

end Uuid

end Switchboard
