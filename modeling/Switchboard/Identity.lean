/-
Switchboard/Identity.lean

Who is who: the identifier of a connection, and the user and session that a
connection is bound to once its client has proved who it is.
-/
import Switchboard.Uuid

namespace Switchboard

/-- Names a connection. -/
abbrev ConnectionId := Nat

/-- The written form of a connection's name. -/
def ConnectionId.text (id : ConnectionId) : String := (Uuid.mk id).text

/-- A user and one session of that user. -/
structure Identity where
  user : String
  session : String
deriving DecidableEq

end Switchboard
