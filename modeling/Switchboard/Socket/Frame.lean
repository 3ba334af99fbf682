/-
Switchboard/Socket/Frame.lean

The frames of a socket, whole and without their bytes on the wire: what a
client sends and what it receives.

A client that says farewell gets its own words back, unless its code is none
that may be sent; then it is told that it has broken the protocol.
-/
import Switchboard.Text.Utf8

namespace Switchboard

/-- A farewell: a code, and a reason in words. -/
structure Farewell where
  code : Nat
  reason : String
deriving DecidableEq, Repr

/-- A frame from a client. -/
inductive Incoming where
  | text (content : Bytes)
  | binary (content : Bytes)
  | ping (content : Bytes)
  | pong (content : Bytes)
  | close (farewell : Option Farewell)
deriving DecidableEq

/-- What comes to a client: a frame, or the end of the stream. -/
inductive Outgoing where
  | text (content : String)
  /-- A probe. -/
  | ping
  | pong (content : Bytes)
  | close (farewell : Option Farewell)
  | ended
deriving DecidableEq

namespace Farewell

/-- May a client send this code? -/
def codeAllowed (code : Nat) : Bool :=
  (1000 ≤ code && code ≤ 1003) || (1007 ≤ code && code ≤ 1013)
    || (3000 ≤ code && code ≤ 4999)

/-- The answer to a code that may not be sent. -/
def protocolViolation : Farewell := ⟨1002, "Protocol violation"⟩

/-- The answer to a farewell. -/
def answer (f : Farewell) : Farewell := if codeAllowed f.code then f else protocolViolation

/-- The bytes of a farewell. -/
def size (f : Farewell) : Nat := 2 + (Utf8.ofString f.reason).length

end Farewell

/-- The most bytes that a ping, a pong or a farewell may carry. -/
def controlLimit : Nat := 125

/-- The most bytes that a socket reads in one frame, whatever else is allowed. -/
def frameLimit : Nat := 16 * 1024 * 1024

/-- Is a frame too long, or a text that is none?  A client that sends such a frame is not read
from any more. -/
def Incoming.unreadable (maxFrame : Nat) : Incoming → Bool
  | .text content =>
    min maxFrame frameLimit < content.length || (Utf8.decode content matches .error _)
  | .binary content => min maxFrame frameLimit < content.length
  | .ping content | .pong content => controlLimit < content.length
  | .close farewell => controlLimit < (farewell.map Farewell.size).getD 0

/-- The bytes on the wire of a frame from the service that carries so many. -/
def framedSize (carried : Nat) : Nat :=
  if carried ≤ controlLimit then 2 + carried
  else if carried < 0x10000 then 4 + carried
  else 10 + carried

/-- The bytes on the wire. -/
def Outgoing.size : Outgoing → Nat
  | .text content => framedSize (Utf8.ofString content).length
  | .ping => framedSize 0
  | .pong content => framedSize content.length
  | .close farewell => framedSize ((farewell.map Farewell.size).getD 0)
  | .ended => 0

end Switchboard
