/-
Switchboard/Envelope/Writer.lean

The wire form of messages: a JSON record with the envelope's members in a
fixed order, absent ones left out, and the body's data inside it with its
members in ascending order.
-/
import Switchboard.Envelope.Basic
import Switchboard.Instant.Printer
import Switchboard.Json.Printer

namespace Switchboard

/-- A time as a JSON value. -/
def Instant.toJson (t : Instant) : Json := .text (String.ofList t.text)

/-- The member of that name, if there is a value for it. -/
def optionalMember (name : String) (s : Option String) : List (String × Json) :=
  match s with
  | some s => [(name, .text s)]
  | none => []

/-- The data of a body. -/
def Body.data : Body → Json
  | .ping => .record []
  | .pong time => .record [("timestamp", time.toJson)]
  | .auth token => .record [("token", .text token)]
  | .authResult r =>
    .record <| optionalMember "message" r.message ++ optionalMember "sessionId" r.session ++
      ("success", .flag r.success) :: optionalMember "userId" r.user
  | .subscribe channel | .subscribeAck channel | .unsubscribe channel | .unsubscribeAck channel =>
    .record [("channel", .text channel)]
  | .publish channel data => .record [("channel", .text channel), ("data", data)]
  | .publishAck channel subscribers =>
    .record [("channel", .text channel), ("subscriberCount", .integer subscribers)]
  | .notify channel event data =>
    .record [("channel", .text channel), ("data", data), ("event", .text event)]
  | .error code message => .record [("code", .text code.name), ("message", .text message)]

namespace Envelope

/-- The members of a message on the wire, in their order. -/
def members (m : Envelope) : List (String × Json) :=
  [("id", .text m.id), ("type", .text m.kind.name), ("timestamp", m.time.toJson),
    ("data", m.body.data)] ++
    optionalMember "requestId" m.requestId ++ optionalMember "error" m.error

/-- The wire form. -/
def wire (m : Envelope) : String := (Json.record m.members).toText

end Envelope

end Switchboard
