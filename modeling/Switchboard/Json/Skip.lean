/-
Switchboard/Json/Skip.lean

Passing over a value without keeping it.  The grammar is checked, but not
what the value would mean: strings need not be Unicode, numbers need not be
in range, and brackets may nest to any depth, which is why the open ones are
kept on a list of their own.
-/
import Switchboard.Json.Lexeme

namespace Switchboard.Json

/-! ### Leaves -/

/-- Where the skipping of a string stands between two bytes. -/
inductive SkipMode where
  | plain
  | escaped
  | hex (seen : List UInt8)

/-- The bytes behind a string whose opening quote has been read. -/
def skipTextFrom : SkipMode → Bytes → Except Problem Bytes
  | _, [] => .error (here .endInText [])
  | .plain, b :: rest =>
    if b = quote then .ok rest
    else if b = backslash then skipTextFrom .escaped rest
    else if b < 0x20 then .error (here .controlCharacter (b :: rest))
    else skipTextFrom .plain rest
  | .escaped, b :: rest =>
    if b = 117 then skipTextFrom (.hex []) rest
    else if (shortEscape? b).isSome then skipTextFrom .plain rest
    else .error (here .invalidEscape rest)
  | .hex seen, b :: rest =>
    let seen := seen ++ [b]
    if seen.length < 4 then skipTextFrom (.hex seen) rest
    else if (fourHex? seen).isSome then skipTextFrom .plain rest
    else .error (here .invalidEscape rest)

def skipText (bs : Bytes) : Except Problem Bytes := skipTextFrom .plain bs

/-- The bytes behind an exponent whose letter has been read. -/
def skipExponent (bs : Bytes) : Except Problem Bytes :=
  let digits := match bs with
    | b :: rest => if b = 43 ∨ b = 45 then rest else bs
    | [] => bs
  match digits with
  | [] => .error (here .invalidNumber [])
  | b :: rest =>
    if isDigit b then .ok (rest.dropWhile isDigit) else .error (here .invalidNumber rest)

/-- The bytes behind an exponent, if there is one. -/
def skipExponentPart : Bytes → Except Problem Bytes
  | [] => .ok []
  | b :: rest => if b = 101 ∨ b = 69 then skipExponent rest else .ok (b :: rest)

/-- The bytes behind a fraction and an exponent, as far as there are any. -/
def skipFractionPart : Bytes → Except Problem Bytes
  | 46 :: rest =>
    match rest with
    | [] => .error (next .invalidNumber [])
    | b :: after =>
      if isDigit b then skipExponentPart (after.dropWhile isDigit)
      else .error (next .invalidNumber rest)
  | bs => skipExponentPart bs

/-- The bytes behind a number, from behind its sign. -/
def skipNumber : Bytes → Except Problem Bytes
  | [] => .error (here .invalidNumber [])
  | b :: rest =>
    if b = 48 then
      match rest with
      | c :: _ => if isDigit c then .error (next .invalidNumber rest) else skipFractionPart rest
      | [] => skipFractionPart rest
    else if isDigit b then skipFractionPart (rest.dropWhile isDigit)
    else .error (here .invalidNumber rest)

/-! ### Values -/

/-- An open bracket. -/
inductive Bracket where
  | list
  | record
deriving DecidableEq

/-- What the skipping looks for. -/
inductive Seek where
  /-- A value. -/
  | value
  /-- A part of the innermost bracket, or its end: it has just been opened. -/
  | first
  /-- A comma, or the end of the innermost bracket: a part of it has just ended. -/
  | more

/-- The first value of a list begins here; a record needs a name and a colon before it. -/
def skipName : Bracket → Bytes → Except Problem Bytes
  | .list, bs => .ok bs
  | .record, bs =>
    match skipSpace bs with
    | [] => .error (next .endInRecord [])
    | b :: rest =>
      if b = quote then do
        let rest ← skipText rest
        match skipSpace rest with
        | [] => .error (next .endInRecord [])
        | c :: after => if c = colon then .ok after else .error (next .expectedColon (c :: after))
      else .error (next .keyNotText (b :: rest))

/-- The problem of a text that ends in a bracket. -/
def Bracket.ended : Bracket → Cause
  | .list => .endInList
  | .record => .endInRecord

/-- The problem of a bracket with something after a part that is neither comma nor end. -/
def Bracket.unseparated : Bracket → Cause
  | .list => .expectedCommaOrBracket
  | .record => .expectedCommaOrBrace

/-- The byte that closes a bracket. -/
def Bracket.closer : Bracket → UInt8
  | .list => closeList
  | .record => closeRecord

/-- Passes over what is left of a value: what it looks for, and the brackets still open, the
innermost first.  Every turn takes a byte or more, but for one at each part. -/
def skipFrom : Nat → Seek → List Bracket → Bytes → Except Problem Bytes
  | 0, _, _, bs => .error (here .endInValue bs)
  | fuel + 1, .value, opened, bs =>
    match skipSpace bs with
    | [] => .error (next .endInValue [])
    | b :: rest =>
      if b = 110 then do skipFrom fuel .more opened (← word ull rest)
      else if b = 116 then do skipFrom fuel .more opened (← word rue rest)
      else if b = 102 then do skipFrom fuel .more opened (← word alse rest)
      else if b = minus then do skipFrom fuel .more opened (← skipNumber rest)
      else if isDigit b then do skipFrom fuel .more opened (← skipNumber (b :: rest))
      else if b = quote then do skipFrom fuel .more opened (← skipText rest)
      else if b = openList then skipFrom fuel .first (.list :: opened) rest
      else if b = openRecord then skipFrom fuel .first (.record :: opened) rest
      else .error (next .expectedValue (b :: rest))
  | _ + 1, .more, [], bs => .ok bs
  | _ + 1, .first, [], bs => .ok bs
  | fuel + 1, .more, k :: opened, bs =>
    match skipSpace bs with
    | [] => .error (next k.ended [])
    | b :: rest =>
      if b = comma then do skipFrom fuel .value (k :: opened) (← skipName k rest)
      else if b = k.closer then skipFrom fuel .more opened rest
      else .error (next k.unseparated (b :: rest))
  | fuel + 1, .first, k :: opened, bs =>
    match skipSpace bs with
    | [] => .error (next k.ended [])
    | b :: rest =>
      if b = k.closer then skipFrom fuel .more opened rest
      else do skipFrom fuel .value (k :: opened) (← skipName k (b :: rest))

/-- The bytes behind a value. -/
def skipValue (bs : Bytes) : Except Problem Bytes := skipFrom (2 * bs.length + 2) .value [] bs

end Switchboard.Json
