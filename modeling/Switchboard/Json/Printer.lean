/-
Switchboard/Json/Printer.lean

The compact written form of a JSON value: no white space, members in their
order, and in strings an escape only where the grammar demands one.
-/
import Switchboard.Json.Value
import Switchboard.Double.Shortest

namespace Switchboard.Json

open Text

/-- One character inside a JSON string. -/
def escapeChar (c : Char) : List Char :=
  if c = '"' then ['\\', '"']
  else if c = '\\' then ['\\', '\\']
  else if c = '\x08' then ['\\', 'b']
  else if c = '\x0c' then ['\\', 'f']
  else if c = '\n' then ['\\', 'n']
  else if c = '\r' then ['\\', 'r']
  else if c = '\t' then ['\\', 't']
  else if c.toNat < 0x20 then ['\\', 'u'] ++ fill 4 (hex c.toNat)
  else [c]

/-- A string in quotes. -/
def renderText (s : String) : List Char := '"' :: s.toList.flatMap escapeChar ++ ['"']

mutual

/-- The written form. -/
def render : Json → List Char
  | .null => ['n', 'u', 'l', 'l']
  | .flag true => ['t', 'r', 'u', 'e']
  | .flag false => ['f', 'a', 'l', 's', 'e']
  | .integer n => decimalInt n
  | .double d => d.text
  | .text s => renderText s
  | .list items => '[' :: renderItems items ++ [']']
  | .record members => '\x7b' :: renderMembers members ++ ['\x7d']

/-- Items with commas between them. -/
def renderItems : List Json → List Char
  | [] => []
  | [v] => render v
  | v :: w :: rest => render v ++ ',' :: renderItems (w :: rest)

/-- Members with commas between them. -/
def renderMembers : List (String × Json) → List Char
  | [] => []
  | [(k, v)] => renderText k ++ ':' :: render v
  | (k, v) :: m :: rest => renderText k ++ ':' :: render v ++ ',' :: renderMembers (m :: rest)

end

/-- The written form as a string. -/
def toText (v : Json) : String := String.ofList (render v)

end Switchboard.Json
