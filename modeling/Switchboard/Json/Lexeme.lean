/-
Switchboard/Json/Lexeme.lean

The leaves of the grammar: blanks, the three words, strings and numbers, each
read off the front of the bytes that are left.  A reader answers with the
value and the rest, or with a problem.

A problem's place is one of two.  `here` is behind what was consumed; `next`
is behind the byte that was only looked at, and at the end of the text both
are the same, because a natural number has nothing below zero.
-/
import Switchboard.Json.Problem
import Switchboard.Double.Scaled

namespace Switchboard.Json

open Text

/-! ### Places and blanks -/

/-- A problem right where the rest begins. -/
def here (c : Cause) (rest : Bytes) : Problem := ⟨c, rest.length⟩

/-- A problem with the first byte of the rest. -/
def next (c : Cause) (rest : Bytes) : Problem := ⟨c, rest.length - 1⟩

/-- The bytes of the grammar's marks. -/
abbrev quote : UInt8 := 34
abbrev comma : UInt8 := 44
abbrev minus : UInt8 := 45
abbrev colon : UInt8 := 58
abbrev openList : UInt8 := 91
abbrev backslash : UInt8 := 92
abbrev closeList : UInt8 := 93
abbrev openRecord : UInt8 := 123
abbrev closeRecord : UInt8 := 125

/-- Space, line feed, tab and carriage return. -/
def isSpace (b : UInt8) : Bool := b == 32 || b == 10 || b == 9 || b == 13

def skipSpace (bs : Bytes) : Bytes := bs.dropWhile isSpace

def isDigit (b : UInt8) : Bool := 48 ≤ b && b ≤ 57

/-! ### Words -/

/-- The rest of a word whose first letter chose it. -/
def word : List UInt8 → Bytes → Except Problem Bytes
  | [], rest => .ok rest
  | _ :: _, [] => .error (here .endInValue [])
  | w :: ws, b :: rest => if b = w then word ws rest else .error (here .expectedWord rest)

abbrev ull : List UInt8 := [117, 108, 108]
abbrev rue : List UInt8 := [114, 117, 101]
abbrev alse : List UInt8 := [97, 108, 115, 101]

/-! ### Strings -/

/-- Where a string's reader stands between two bytes. -/
inductive TextMode where
  /-- Outside any escape. -/
  | plain
  /-- After a backslash. -/
  | escaped
  /-- Gathering four hexadecimal digits, after a leading surrogate or not. -/
  | hex (lead : Option Nat) (seen : List UInt8)
  /-- After a leading surrogate. -/
  | led (lead : Nat)
  /-- After a leading surrogate and a backslash. -/
  | ledEscaped (lead : Nat)

/-- The value of four hexadecimal digits. -/
def fourHex? (ds : List UInt8) : Option Nat :=
  ds.foldl (fun acc b => do return (← acc) * 16 + (← hexValue? b)) (some 0)

/-- The byte that a one-letter escape stands for. -/
def shortEscape? (b : UInt8) : Option UInt8 :=
  if b = 34 then some 34
  else if b = 92 then some 92
  else if b = 47 then some 47
  else if b = 98 then some 8
  else if b = 102 then some 12
  else if b = 110 then some 10
  else if b = 114 then some 13
  else if b = 116 then some 9
  else none

/-- What the four digits of an escape add: two surrogates make one character, and no surrogate
stands alone. -/
def afterHex (lead : Option Nat) (n : Nat) : Except Cause (TextMode × List Char) :=
  let leads := 0xD800 ≤ n ∧ n ≤ 0xDBFF
  let trails := 0xDC00 ≤ n ∧ n ≤ 0xDFFF
  match lead with
  | none =>
    if trails then .error .loneSurrogate
    else if leads then .ok (.led n, [])
    else .ok (.plain, [Char.ofNat n])
  | some l =>
    if trails then
      .ok (.plain, [Char.ofNat ((l - 0xD800) * 0x400 + (n - 0xDC00) + 0x10000)])
    else .error .loneSurrogate

/-- The reader's step on one byte of an escape: where it stands then, and the character that the
escape adds if it is complete. -/
def escapeStep : TextMode → UInt8 → Except Cause (TextMode × List Char)
  | .plain, _ => .ok (.plain, [])
  | .escaped, b =>
    if b = 117 then .ok (.hex none [], [])
    else match shortEscape? b with
      | some x => .ok (.plain, [Char.ofNat x.toNat])
      | none => .error .invalidEscape
  | .hex lead seen, b =>
    let seen := seen ++ [b]
    -- the digits are looked at once there are four of them
    if seen.length < 4 then .ok (.hex lead seen, [])
    else match fourHex? seen with
      | some n => afterHex lead n
      | none => .error .invalidEscape
  | .led lead, b => if b = backslash then .ok (.ledEscaped lead, []) else .error .escapeEndsEarly
  | .ledEscaped lead, b => if b = 117 then .ok (.hex (some lead) [], []) else .error .escapeEndsEarly

/-- The characters of a run of bytes between escapes, which is followed by one byte more and then
by the rest. -/
def runText (run rest : Bytes) : Except Problem (List Char) :=
  match Utf8.decode run with
  | .ok cs => .ok cs
  | .error n => .error ⟨.notUnicode, rest.length + n⟩

/-- The characters of a string whose opening quote has been read, up to its closing quote.  `acc`
holds those already read and `run` the bytes since the last escape, both the last one first. -/
def textFrom (acc : List Char) (run : Bytes) : TextMode → Bytes → Except Problem (List Char × Bytes)
  | _, [] => .error (here .endInText [])
  | .plain, b :: rest =>
    if b = quote then do
      let cs ← runText run.reverse rest
      .ok (acc.reverse ++ cs, rest)
    else if b = backslash then do
      let cs ← runText run.reverse rest
      textFrom (cs.reverse ++ acc) [] .escaped rest
    else if b < 0x20 then .error (here .controlCharacter rest)
    else textFrom acc (b :: run) .plain rest
  | mode, b :: rest =>
    match escapeStep mode b with
    | .ok (mode, cs) => textFrom (cs ++ acc) [] mode rest
    | .error c => .error (here c rest)

/-- A string whose opening quote has been read. -/
def readText (bs : Bytes) : Except Problem (String × Bytes) := do
  let (cs, rest) ← textFrom [] [] .plain bs
  .ok (String.ofList cs, rest)

/-! ### Numbers -/

/-- The parts of a number as they stand in the text: the digits of the integer part, those of the
fraction if it has one, and the sign and digits of the exponent if it has one. -/
structure Numeral where
  whole : List UInt8
  fraction : Option (List UInt8)
  exponent : Option (Bool × List UInt8)

/-- The digits at the front, and the rest. -/
def spanDigits (bs : Bytes) : List UInt8 × Bytes := bs.span isDigit

/-- The integer part.  A zero stands alone. -/
def readWhole : Bytes → Except Problem (List UInt8 × Bytes)
  | [] => .error (here .endInValue [])
  | b :: rest =>
    if b = 48 then
      match rest with
      | c :: _ => if isDigit c then .error (next .invalidNumber rest) else .ok ([b], rest)
      | [] => .ok ([b], rest)
    else if isDigit b then .ok (spanDigits (b :: rest))
    else .error (here .invalidNumber rest)

/-- A fraction, if a point comes next: at least one digit follows it. -/
def readFraction : Bytes → Except Problem (Option (List UInt8) × Bytes)
  | 46 :: rest =>
    match spanDigits rest, rest with
    | ([], _), [] => .error (next .endInValue [])
    | ([], _), _ :: _ => .error (next .invalidNumber rest)
    | (ds, after), _ => .ok (some ds, after)
  | bs => .ok (none, bs)

/-- The digits of an exponent, behind its sign: at least one. -/
def readExponentDigits : Bytes → Except Problem (List UInt8 × Bytes)
  | [] => .error (here .endInValue [])
  | b :: rest =>
    if isDigit b then .ok (spanDigits (b :: rest)) else .error (here .invalidNumber rest)

/-- An exponent, if a letter `e` comes next. -/
def readExponent : Bytes → Except Problem (Option (Bool × List UInt8) × Bytes)
  | [] => .ok (none, [])
  | b :: rest =>
    if b = 101 ∨ b = 69 then do
      let (negative, after) := match rest with
        | 43 :: after => (false, after)
        | 45 :: after => (true, after)
        | _ => (false, rest)
      let (ds, after) ← readExponentDigits after
      .ok (some (negative, ds), after)
    else .ok (none, b :: rest)

/-- The greatest number that a significand may reach. -/
def significandMax : Nat := 0xFFFFFFFFFFFFFFFF

/-- The significand of the integer part, and the number of digits that no longer went into it:
from the first one that would take it past its bound, all are only counted. -/
def takeWhole (s : Nat) : List UInt8 → Nat × Nat
  | [] => (s, 0)
  | b :: bs =>
    let t := s * 10 + (b.toNat - 48)
    if t ≤ significandMax then takeWhole t bs else (s, bs.length + 1)

/-- The significand with the digits of the fraction, and the number of them that went into it: from
the first one that would take it past its bound, all are dropped. -/
def takeFraction (s : Nat) (taken : Nat) : List UInt8 → Nat × Nat
  | [] => (s, taken)
  | b :: bs =>
    let t := s * 10 + (b.toNat - 48)
    if t ≤ significandMax then takeFraction t (taken + 1) bs else (s, taken)

/-- The greatest exponent that is worked with. -/
def exponentMax : Nat := 0x7FFFFFFF

/-- The value of exponent digits, or the digits behind the one that took it past its bound. -/
def takeExponent (e : Nat) : List UInt8 → Nat ⊕ List UInt8
  | [] => .inl e
  | b :: bs =>
    let t := e * 10 + (b.toNat - 48)
    if t ≤ exponentMax then takeExponent t bs else .inr bs

/-- A double from its magnitude and sign. -/
def signedDouble (negative : Bool) (d : Double) : Json :=
  .double { d with negative := negative }

/-- The integer with this sign and magnitude; minus zero and what does not fit 64 bits are
doubles. -/
def ofInteger (negative : Bool) (s : Nat) : Json :=
  if !negative then .integer s
  else if s = 0 then signedDouble true (Double.zero false)
  else if s ≤ 0x8000000000000000 then .integer (-s)
  else match Double.ofNat? s with
    | some d => signedDouble true d
    | none => .null

/-- The value of a numeral, with the bytes behind it. -/
def Numeral.value (negative : Bool) (n : Numeral) (rest : Bytes) : Except Problem Json :=
  let (s, dropped) := takeWhole 0 n.whole
  let (s, taken) := takeFraction s 0 (n.fraction.getD [])
  let shift : Int := (dropped : Int) - taken
  let scaled (e : Int) : Except Problem Json :=
    match Double.ofDecimal? s e with
    | some d => .ok (signedDouble negative d)
    | none => .error (here .numberOutOfRange rest)
  match n.exponent with
  | none =>
    if dropped = 0 ∧ n.fraction.isNone then .ok (ofInteger negative s) else scaled shift
  | some (negativeExponent, ds) =>
    match takeExponent 0 ds with
    | .inl e => scaled (if negativeExponent then shift - e else shift + e)
    | .inr unread =>
      if s ≠ 0 ∧ !negativeExponent then
        .error ⟨.numberOutOfRange, unread.length + rest.length⟩
      else .ok (signedDouble negative (Double.zero false))

/-- A number behind its sign. -/
def readNumber (negative : Bool) (bs : Bytes) : Except Problem (Json × Bytes) := do
  let (whole, rest) ← readWhole bs
  let (fraction, rest) ← readFraction rest
  let (exponent, rest) ← readExponent rest
  let v ← Numeral.value negative ⟨whole, fraction, exponent⟩ rest
  .ok (v, rest)

end Switchboard.Json
