/-
Switchboard/Instant/Printer.lean

The written form of a moment, `YYYY-MM-DDThh:mm:ss[.fraction]Z`: the fewest
of 0, 3, 6 or 9 fraction digits that lose nothing, and an explicit sign on a
year that does not fit four digits.
-/
import Switchboard.Instant.Basic
import Switchboard.Text.Digits

namespace Switchboard.Instant

open Text

/-- The year: four digits, or a sign and at least four. -/
def yearText (y : Int) : List Char :=
  if 0 ≤ y ∧ y ≤ 9999 then padded 4 y.toNat
  else (if y < 0 then '-' else '+') :: padded 4 y.natAbs

/-- The fraction of a second, after its point. -/
def fractionText (nano : Nat) : List Char :=
  if nano = 0 then []
  else if nano % 1000000 = 0 then '.' :: padded 3 (nano / 1000000)
  else if nano % 1000 = 0 then '.' :: padded 6 (nano / 1000)
  else '.' :: padded 9 nano

/-- The written form. -/
def text (t : Instant) : List Char :=
  yearText t.date.year ++ '-' :: padded 2 t.date.month ++ '-' :: padded 2 t.date.day ++
    'T' :: padded 2 t.hour ++ ':' :: padded 2 t.minute ++ ':' :: padded 2 t.second ++
    fractionText t.nano ++ ['Z']

end Switchboard.Instant
