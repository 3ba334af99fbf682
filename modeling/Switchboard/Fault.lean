/-
Switchboard/Fault.lean

Why a request or a delivery fails.  A fault concerns one connection or one
call and is never fatal: on its way to a client it becomes the body of an
error message, with a code and the words for it.
-/
import Switchboard.Envelope.Basic
import Switchboard.Identity
import Switchboard.Json.Problem

namespace Switchboard

/-- The cause of a failure. -/
inductive Fault where
  /-- The connection has been closed, or nobody takes its messages any more. -/
  | closed
  /-- No connection of that name is registered. -/
  | notFound (id : ConnectionId)
  /-- As many messages wait already as may wait. -/
  | full
  | notAuthenticated
  | alreadyAuthenticated
  /-- The name of the channel is empty or too long. -/
  | invalidChannel (channel : String)
  /-- Clients may not send messages of that kind. -/
  | unsupported (kind : Kind)
  /-- The frame is not a message. -/
  | malformed (failure : Json.Failure)

namespace Fault

/-- The words for a fault. -/
def message : Fault → String
  | .closed => "connection closed"
  | .notFound id => "connection not found: " ++ id.text
  | .full => "send channel full"
  | .notAuthenticated => "not authenticated"
  | .alreadyAuthenticated => "already authenticated"
  | .invalidChannel channel => "invalid channel name: " ++ Text.quoted channel
  | .unsupported kind => "unsupported message type: " ++ kind.title
  | .malformed failure => "malformed message: " ++ failure.message

/-- The code that a client is told. -/
def code : Fault → Code
  | .closed | .full => .internal
  | .notFound _ => .connectionNotFound
  | .notAuthenticated => .notAuthenticated
  | .alreadyAuthenticated => .alreadyAuthenticated
  | .invalidChannel _ => .invalidChannel
  | .unsupported _ => .unsupportedType
  | .malformed _ => .invalidMessage

/-- The body that tells a client of a fault. -/
def body (f : Fault) : Body := .error f.code f.message

end Fault

/-- Why a process cannot start or go on. -/
inductive Trouble where
  /-- The settings make no sense. -/
  | settings (reason : String)
  /-- The system refuses something. -/
  | system (reason : String)
  | json (failure : Json.Failure)

/-- The words for a trouble. -/
def Trouble.message : Trouble → String
  | .settings reason => "configuration error: " ++ reason
  | .system reason => "IO error: " ++ reason
  | .json failure => "JSON serialization error: " ++ failure.message

end Switchboard
