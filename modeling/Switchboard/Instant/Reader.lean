/-
Switchboard/Instant/Reader.lean

Reading a moment from text, with some slack: blanks around the numbers, one
digit where two are usual, a space for the `T`, an offset in several
spellings.  Each number is checked as soon as it is read, so that of two
faults the leftmost is reported; whether the month has the day and the
calendar the year is asked last.
-/
import Switchboard.Instant.Basic
import Switchboard.Text.Blank

namespace Switchboard.Instant

open Text

/-! ### Numbers and marks

A step of the reader gives a value and the text after it. -/

/-- The number that some digits write. -/
def ofDigits (ds : List Char) : Nat := ds.foldl (fun n c => n * 10 + (c.toNat - 48)) 0

/-- One to `width` digits. -/
def number (width : Nat) (cs : List Char) : Except Fault (Nat × List Char) :=
  match cs with
  | [] => .error .short
  | c :: _ =>
    if c.isDigit then
      let ds := (cs.take width).takeWhile Char.isDigit
      .ok (ofDigits ds, cs.drop ds.length)
    else .error .invalid

/-- Blanks and then a number of at most two digits, within bounds. -/
def field (low high : Nat) (cs : List Char) : Except Fault (Nat × List Char) := do
  let (n, rest) ← number 2 (trimLeft cs)
  if low ≤ n ∧ n ≤ high then .ok (n, rest) else .error .outOfRange

/-- A mark with blanks before it. -/
def mark (m : Char) (cs : List Char) : Except Fault (List Char) :=
  match trimLeft cs with
  | [] => .error .short
  | c :: rest => if c = m then .ok rest else .error .invalid

/-- The years that can be held until the date is checked: 32 bits with a sign. -/
def yearBound : Nat := 0x80000000

/-- The year: one to four digits, or a sign and any number of them. -/
def year (cs : List Char) : Except Fault (Int × List Char) := do
  let cs := trimLeft cs
  match cs with
  | '-' :: rest =>
    let (n, rest) ← number rest.length rest
    if n ≤ yearBound then .ok (-n, rest) else .error .outOfRange
  | '+' :: rest =>
    let (n, rest) ← number rest.length rest
    if n < yearBound then .ok (n, rest) else .error .outOfRange
  | _ =>
    let (n, rest) ← number 4 cs
    .ok (n, rest)

/-- A fraction of a second in nanoseconds, if one follows: nine digits count, the others are
skipped. -/
def fraction (cs : List Char) : Except Fault (Nat × List Char) :=
  match cs with
  | '.' :: rest => do
    let (n, after) ← number 9 rest
    .ok (n * Nat.pow 10 (9 - (rest.length - after.length)), after.dropWhile Char.isDigit)
  | _ => .ok (0, cs)

/-- The character between date and time. -/
def between (cs : List Char) : Except Fault (List Char) :=
  match cs with
  | [] => .error .short
  | c :: rest => if c = 'T' ∨ c = 't' ∨ c = ' ' then .ok rest else .error .invalid

/-! ### The offset -/

/-- Two characters of which both should be digits.  A lone character is too short only if it is a
single byte. -/
def twoDigits (cs : List Char) : Except Fault ((Nat × Nat) × List Char) :=
  match cs with
  | a :: b :: rest =>
    if a.isDigit ∧ b.isDigit then .ok ((a.toNat - 48, b.toNat - 48), rest) else .error .invalid
  | [a] => if a.toNat < 0x80 then .error .short else .error .invalid
  | [] => .error .short

/-- Hours and minutes of an offset, with any colons and blanks between them. -/
def offsetBody (cs : List Char) : Except Fault (Nat × List Char) := do
  let ((h, h'), rest) ← twoDigits cs
  let rest := rest.dropWhile fun c => c == ':' || isBlank c
  let ((m, m'), rest) ← twoDigits rest
  if m ≤ 5 then .ok ((h * 10 + h') * 60 + m * 10 + m', rest) else .error .outOfRange

/-- Do the characters spell `UTC`, in any case? -/
def spellsUtc (cs : List Char) : Bool := cs.map Char.toUpper == ['U', 'T', 'C']

/-- The offset from universal time, in minutes. -/
def offset (cs : List Char) : Except Fault (Int × List Char) :=
  if spellsUtc (cs.take 3) then .ok (0, cs.drop 3)
  else match cs with
  | [] => .error .short
  | c :: rest =>
    if c = 'Z' ∨ c = 'z' then .ok (0, rest)
    else if c = '+' then do
      let (n, rest) ← offsetBody rest
      .ok (n, rest)
    else if c = '-' ∨ c = '\u2212' then do
      let (n, rest) ← offsetBody rest
      .ok (-n, rest)
    else .error .invalid

/-! ### The whole -/

/-- An option whose absence is a fault. -/
def orFault {α : Type} (o : Option α) (f : Fault) : Except Fault α :=
  match o with
  | some a => .ok a
  | none => .error f

/-- The moment a text writes. -/
def ofChars (cs : List Char) : Except Fault Instant := do
  let (y, cs) ← year cs
  let cs ← mark '-' cs
  let (mo, cs) ← field 1 12 cs
  let cs ← mark '-' cs
  let (d, cs) ← field 1 31 cs
  let cs ← between cs
  let (h, cs) ← field 0 23 cs
  let cs ← mark ':' cs
  let (mi, cs) ← field 0 59 cs
  let cs ← mark ':' cs
  let (s, cs) ← field 0 60 cs
  let (n, cs) ← fraction cs
  let (off, cs) ← offset (trimLeft cs)
  if !(trimLeft cs).isEmpty then throw .trailing
  -- only now that the whole text has been read are the numbers held against the calendar
  let date ← orFault (Date.ofNumbers? y mo d) .outOfRange
  let shown ← orFault (ofNumbers? date h mi s n) .outOfRange
  if dayMinutes ≤ off.natAbs then throw .outOfRange
  orFault (shown.ofLocal? off) .impossible

end Switchboard.Instant
