/-
Switchboard/Request.lean

Answering clients.  A client that has not proved its identity may only ping
and try to prove it; failing to do so costs it nothing and it may try again.
Every frame is answered, in the client's own queue, behind whatever else the
frame brought about.
-/
import Switchboard.Board.Delivery
import Switchboard.Envelope.Reader
import Switchboard.Tokens

namespace Switchboard

/-- What is drawn fresh for one event: for a client that comes the name of its connection; for a
request stamps for the message as received, for a notification that it brings about and for the
reply, and a session name. -/
structure Draw where
  connection : ConnectionId
  received : Stamp
  notice : Stamp
  reply : Stamp
  session : String

/-- What comes of a request. -/
inductive Outcome where
  | answer (body : Body)
  | fault (f : Fault)
  /-- The check of the token broke down. -/
  | broken

/-- The result of proving an identity. -/
def AuthResult.accepted (who : Identity) : AuthResult := ⟨true, who.user, who.session, none⟩

/-- The result of failing to. -/
def AuthResult.refused (reason : String) : AuthResult := ⟨false, none, none, some reason⟩

namespace Board

/-- An answer that depends on a change of the board, which stays as it was if that fails. -/
def answering (b : Board) (body : Body) : Except Fault Board → Outcome × Board
  | .ok b' => (.answer body, b')
  | .error f => (.fault f, b)

/-- A client tries to prove its identity. -/
def authenticate (b : Board) (check : Check) (session : String) (c : Connection) (token : String) :
    Outcome × Board :=
  if c.isIdentified then (.fault .alreadyAuthenticated, b)
  else match check session token with
    | .broken => (.broken, b)
    | .refused reason => (.answer (.authResult (.refused reason)), b)
    | .accepted who => b.answering (.authResult (.accepted who)) (b.identify c.id who)

/-- A client publishes to a channel. -/
def publish (b : Board) (notice : Stamp) (channel : String) (data : Json) : Outcome × Board :=
  match checkChannel channel with
  | .error f => (.fault f, b)
  | .ok () =>
    let (n, b) := b.toChannel channel (Envelope.new notice (.notify channel publishEvent data))
    (.answer (.publishAck channel n), b)

/-- Carries out the request of a message from a connection. -/
def dispatch (b : Board) (check : Check) (now : Nat) (draw : Draw) (l : LineNumber)
    (m : Envelope) : Outcome × Board :=
  match b.lines[l]? with
  | none => (.fault .closed, b)
  | some c =>
    let ifIdentified (act : Outcome × Board) : Outcome × Board :=
      if c.isIdentified then act else (.fault .notAuthenticated, b)
    match m.body with
    | .ping => (.answer (.pong m.time), b.touch l now)
    | .auth token => b.authenticate check draw.session c token
    | .subscribe channel =>
      ifIdentified <| b.answering (.subscribeAck channel) (b.subscribe c.id channel)
    | .unsubscribe channel =>
      ifIdentified <| b.answering (.unsubscribeAck channel) (b.unsubscribe c.id channel)
    | .publish channel data => ifIdentified <| b.publish draw.notice channel data
    -- messages of the kinds that only the service sends
    | other => (.fault (.unsupported other.kind), b)

/-- Carries out the request of a message and makes the reply to it, if the check of a token does
not break down. -/
def handle (b : Board) (check : Check) (now : Nat) (draw : Draw) (l : LineNumber)
    (m : Envelope) : Option Envelope × Board :=
  match b.dispatch check now draw l m with
  | (.answer body, b) => (some (Envelope.reply draw.reply m body), b)
  | (.fault f, b) => (some (Envelope.reply draw.reply m f.body), b)
  | (.broken, b) => (none, b)

/-- Handles a frame from a connection and offers the reply to its queue.  Says whether the handling
came to its end. -/
def handleFrame (b : Board) (check : Check) (now : Nat) (draw : Draw) (l : LineNumber)
    (frame : Bytes) : Bool × Board :=
  match Envelope.ofBytes draw.received frame with
  | .error failure =>
    (true, (b.offer l (Envelope.new draw.reply (Fault.malformed failure).body)).2)
  | .ok m =>
    match b.handle check now draw l m with
    | (some reply, b) => (true, (b.offer l reply).2)
    | (none, b) => (false, b)

end Board

end Switchboard
