/-
Switchboard/Text/Quoted.lean

A text in double quotes, as error messages show the names they complain
about: plain characters as they are, all others by an escape, so that the
message stays on one line and shows what is really there.
-/
import Switchboard.Text.Digits
import Switchboard.Text.Plain

namespace Switchboard.Text

/-- One character between quotes. -/
def quoteChar (c : Char) : List Char :=
  if c = '\x00' then ['\\', '0']
  else if c = '\t' then ['\\', 't']
  else if c = '\r' then ['\\', 'r']
  else if c = '\n' then ['\\', 'n']
  else if c = '\\' then ['\\', '\\']
  else if c = '"' then ['\\', '"']
  else if isPlain c then [c]
  else ['\\', 'u', '\x7b'] ++ hex c.toNat ++ ['\x7d']

/-- The text between double quotes. -/
def quoted (s : String) : String :=
  String.ofList ('"' :: s.toList.flatMap quoteChar ++ ['"'])

end Switchboard.Text
