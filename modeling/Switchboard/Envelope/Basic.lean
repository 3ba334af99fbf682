/-
Switchboard/Envelope/Basic.lean

Messages.  The body is what a message says, one form for each kind; the
envelope around it carries the message's name, its time, the name of the
request that it answers and, on error messages, the complaint once more.

A name and a time that nobody gave come from outside as a `Stamp`, so that
making a message is a function of what goes in.
-/
import Switchboard.Envelope.Kind
import Switchboard.Instant.Basic
import Switchboard.Json.Value

namespace Switchboard

/-- How an attempt to prove one's identity ended. -/
structure AuthResult where
  success : Bool
  user : Option String
  session : Option String
  message : Option String
deriving DecidableEq

/-- What a message says. -/
inductive Body where
  | ping
  | pong (time : Instant)
  | auth (token : String)
  | authResult (result : AuthResult)
  | subscribe (channel : String)
  | subscribeAck (channel : String)
  | unsubscribe (channel : String)
  | unsubscribeAck (channel : String)
  | publish (channel : String) (data : Json)
  | publishAck (channel : String) (subscribers : Nat)
  | notify (channel event : String) (data : Json)
  | error (code : Code) (message : String)

/-- The kind that a body belongs to. -/
def Body.kind : Body → Kind
  | .ping => .ping
  | .pong _ => .pong
  | .auth _ => .auth
  | .authResult _ => .authResult
  | .subscribe _ => .subscribe
  | .subscribeAck _ => .subscribeAck
  | .unsubscribe _ => .unsubscribe
  | .unsubscribeAck _ => .unsubscribeAck
  | .publish _ _ => .publish
  | .publishAck _ _ => .publishAck
  | .notify _ _ _ => .notify
  | .error _ _ => .error

/-- A fresh message name and the time at which it was drawn. -/
structure Stamp where
  id : String
  time : Instant

/-- A message. -/
structure Envelope where
  id : String
  time : Instant
  body : Body
  /-- The request that this message answers. -/
  requestId : Option String
  /-- The complaint of an error message. -/
  error : Option String

namespace Envelope

/-- The complaint of a body, if it is one. -/
def complaint : Body → Option String
  | .error _ message => some message
  | _ => none

/-- A new message. -/
def new (stamp : Stamp) (body : Body) : Envelope :=
  ⟨stamp.id, stamp.time, body, none, complaint body⟩

/-- The message as the answer to the request of that name. -/
def answering (requestId : String) (m : Envelope) : Envelope := { m with requestId := requestId }

/-- A new message that answers a request. -/
def reply (stamp : Stamp) (request : Envelope) (body : Body) : Envelope :=
  (new stamp body).answering request.id

def kind (m : Envelope) : Kind := m.body.kind

end Envelope

/-! ### Equality of contents -/

/-- Do two bodies say the same, doubles compared as numbers? -/
def Body.same : Body → Body → Bool
  | .ping, .ping => true
  | .pong a, .pong b => a == b
  | .auth a, .auth b => a == b
  | .authResult a, .authResult b => a == b
  | .subscribe a, .subscribe b => a == b
  | .subscribeAck a, .subscribeAck b => a == b
  | .unsubscribe a, .unsubscribe b => a == b
  | .unsubscribeAck a, .unsubscribeAck b => a == b
  | .publish a v, .publish b w => a == b && v.same w
  | .publishAck a m, .publishAck b n => a == b && m == n
  | .notify a e v, .notify b f w => a == b && e == f && v.same w
  | .error c a, .error d b => c == d && a == b
  | _, _ => false

/-- Do two messages say the same? -/
def Envelope.same (a b : Envelope) : Bool :=
  a.id == b.id && a.time == b.time && a.body.same b.body && a.requestId == b.requestId &&
    a.error == b.error

/-! ### Notifications -/

/-- The event that subscribers are told of when a client publishes. -/
def publishEvent : String := "publish"

end Switchboard
