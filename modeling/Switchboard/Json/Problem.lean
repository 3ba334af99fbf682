/-
Switchboard/Json/Problem.lean

What can be wrong with a text that should be JSON, or with a value that
should have a certain shape, and the words for it.  A mismatch between a
value and a shape may have no place in the text; a problem with the text
always has one.
-/
import Switchboard.Instant.Basic
import Switchboard.Json.Value
import Switchboard.Double.Shortest
import Switchboard.Text.Quoted
import Switchboard.Text.Utf8

namespace Switchboard.Json

open Text

/-! ### A value of another shape than expected -/

/-- What was found instead. -/
inductive Found where
  | null
  | flag (b : Bool)
  | integer (n : Int)
  | double (d : Double)
  | text (s : String)
  | sequence
  | map
deriving DecidableEq

/-- The description of a value as a find. -/
def found : Json → Found
  | .null => .null
  | .flag b => .flag b
  | .integer n => .integer n
  | .double d => .double d
  | .text s => .text s
  | .list _ => .sequence
  | .record _ => .map

/-- What was expected. -/
inductive Wanted where
  | text
  | flag
  | count
  | unit
  | instant
  | choice
  | choiceName
  | choiceMap
  /-- A structure of that name. -/
  | shape (name : String)
  /-- A structure of that name and that many parts. -/
  | parts (name : String) (number : Nat)
  | fewerItems
deriving DecidableEq

/-- How a value fails to have a shape. -/
inductive Mismatch where
  | wrongType (it : Found) (want : Wanted)
  | wrongValue (it : Found) (want : Wanted)
  | wrongLength (n : Nat) (want : Wanted)
  | missingMember (name : String)
  | duplicateMember (name : String)
  | unknownChoice (name : String) (choices : List String)
  | badInstant (fault : Instant.Fault)
deriving DecidableEq

def Found.words : Found → String
  | .null => "null"
  | .flag b => "boolean `" ++ (if b then "true" else "false") ++ "`"
  | .integer n => "integer `" ++ String.ofList (decimalInt n) ++ "`"
  | .double d => "floating point `" ++ String.ofList d.text ++ "`"
  | .text s => "string " ++ quoted s
  | .sequence => "sequence"
  | .map => "map"

def Wanted.words : Wanted → String
  | .text => "a string"
  | .flag => "a boolean"
  | .count => "usize"
  | .unit => "unit"
  | .instant => "an RFC 3339 formatted date and time string"
  | .choice => "string or map"
  | .choiceName => "variant identifier"
  | .choiceMap => "map with a single key"
  | .shape name => "struct " ++ name
  | .parts name number =>
    "struct " ++ name ++ " with " ++ String.ofList (decimal number) ++
      (if number = 1 then " element" else " elements")
  | .fewerItems => "fewer elements in array"

/-- A name in backquotes. -/
def backquoted (s : String) : String := "`" ++ s ++ "`"

def Mismatch.message : Mismatch → String
  | .wrongType it want => "invalid type: " ++ it.words ++ ", expected " ++ want.words
  | .wrongValue it want => "invalid value: " ++ it.words ++ ", expected " ++ want.words
  | .wrongLength n want =>
    "invalid length " ++ String.ofList (decimal n) ++ ", expected " ++ want.words
  | .missingMember name => "missing field " ++ backquoted name
  | .duplicateMember name => "duplicate field " ++ backquoted name
  | .unknownChoice name choices =>
    "unknown variant " ++ backquoted name ++ ", expected one of " ++
      ", ".intercalate (choices.map backquoted)
  | .badInstant fault => fault.message

/-! ### A text that is not JSON -/

/-- The cause of a problem. -/
inductive Cause where
  | endInList
  | endInRecord
  | endInText
  | endInValue
  | expectedColon
  | expectedCommaOrBracket
  | expectedCommaOrBrace
  | expectedWord
  | expectedValue
  | invalidEscape
  | invalidNumber
  | numberOutOfRange
  | notUnicode
  | controlCharacter
  | keyNotText
  | loneSurrogate
  | trailingComma
  | trailingCharacters
  | escapeEndsEarly
  | tooDeep
  | mismatch (m : Mismatch)
deriving DecidableEq

/-- The categories of problems. -/
inductive Category where
  /-- The text breaks the grammar. -/
  | malformed
  /-- The text ends inside a value. -/
  | ended
  /-- The value is not of the shape asked for. -/
  | data
deriving DecidableEq

def Cause.category : Cause → Category
  | .endInList | .endInRecord | .endInText | .endInValue => .ended
  | .mismatch _ => .data
  | _ => .malformed

def Cause.message : Cause → String
  | .endInList => "EOF while parsing a list"
  | .endInRecord => "EOF while parsing an object"
  | .endInText => "EOF while parsing a string"
  | .endInValue => "EOF while parsing a value"
  | .expectedColon => "expected `:`"
  | .expectedCommaOrBracket => "expected `,` or `]`"
  | .expectedCommaOrBrace => "expected `,` or `\x7d`"
  | .expectedWord => "expected ident"
  | .expectedValue => "expected value"
  | .invalidEscape => "invalid escape"
  | .invalidNumber => "invalid number"
  | .numberOutOfRange => "number out of range"
  | .notUnicode => "invalid unicode code point"
  | .controlCharacter => "control character (\\u0000-\\u001F) found while parsing a string"
  | .keyNotText => "key must be a string"
  | .loneSurrogate => "lone leading surrogate in hex escape"
  | .trailingComma => "trailing comma"
  | .trailingCharacters => "trailing characters"
  | .escapeEndsEarly => "unexpected end of hex escape"
  | .tooDeep => "recursion limit exceeded"
  | .mismatch m => m.message

/-! ### Places -/

/-- A place in a text: the line, from 1, and the bytes of that line before the place. -/
structure Place where
  line : Nat
  column : Nat
deriving DecidableEq

/-- The byte that ends a line. -/
def newline : UInt8 := 10

/-- The place after the first `n` bytes. -/
def Place.after (bs : Bytes) (n : Nat) : Place :=
  let before := bs.take n
  ⟨1 + before.count newline, (before.reverse.takeWhile (· != newline)).length⟩

/-- A problem met while reading a text, with the number of bytes that are left after its
place. -/
structure Problem where
  cause : Cause
  left : Nat
deriving DecidableEq

/-- A problem as it is reported: the cause, and the place if it has one. -/
structure Failure where
  cause : Cause
  place : Option Place
deriving DecidableEq

/-- A problem with a text, its place worked out. -/
def Problem.report (whole : Bytes) (p : Problem) : Failure :=
  ⟨p.cause, some (Place.after whole (whole.length - p.left))⟩

/-- A mismatch without a place. -/
def Mismatch.report (m : Mismatch) : Failure := ⟨.mismatch m, none⟩

def Failure.message (f : Failure) : String :=
  match f.place with
  | none => f.cause.message
  | some p =>
    f.cause.message ++ " at line " ++ String.ofList (decimal p.line) ++
      " column " ++ String.ofList (decimal p.column)

def Failure.category (f : Failure) : Category := f.cause.category

end Switchboard.Json
