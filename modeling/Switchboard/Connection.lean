/-
Switchboard/Connection.lean

One client's connection: whom it belongs to, what it listens to, when it
last gave a sign of life, and the messages that wait for it.  The identity
is set once and the closing is final.
-/
import Std.Data.ExtTreeSet
import Switchboard.Outbox

namespace Switchboard

/-- A connection. -/
structure Connection where
  id : ConnectionId
  outbox : Outbox
  identity : Option Identity
  /-- The time of the last sign of life. -/
  lastSeen : Nat
  closed : Bool
  subscriptions : Std.ExtTreeSet String

namespace Connection

/-- A new connection, made at the time given. -/
def new? (id : ConnectionId) (capacity now : Nat) : Option Connection :=
  (Outbox.new? capacity).map fun outbox => ⟨id, outbox, none, now, false, ∅⟩

/-- Puts a message into the queue. -/
def send (c : Connection) (m : Envelope) : Except Fault Connection :=
  if c.closed then .error .closed
  else do .ok { c with outbox := ← c.outbox.put m }

/-- Closes the connection, and says whether it was open. -/
def close (c : Connection) : Bool × Connection := (!c.closed, { c with closed := true })

/-- Binds the connection to an identity, which happens at most once. -/
def identify (c : Connection) (who : Identity) : Except Fault Connection :=
  match c.identity with
  | some _ => .error .alreadyAuthenticated
  | none => .ok { c with identity := some who }

def isIdentified (c : Connection) : Bool := c.identity.isSome

/-- The user that the connection belongs to. -/
def user? (c : Connection) : Option String := c.identity.map Identity.user

/-- Adds a channel, and says whether it was absent. -/
def join (c : Connection) (channel : String) : Bool × Connection :=
  (!c.subscriptions.contains channel,
    { c with subscriptions := c.subscriptions.insert channel })

/-- Removes a channel, and says whether it was there. -/
def leave (c : Connection) (channel : String) : Bool × Connection :=
  (c.subscriptions.contains channel,
    { c with subscriptions := c.subscriptions.erase channel })

/-- A sign of life. -/
def touch (c : Connection) (now : Nat) : Connection := { c with lastSeen := now }

/-- The time since the last sign of life. -/
def idle (c : Connection) (now : Nat) : Nat := now - c.lastSeen

/-- Is there nothing to wait for any more: closed, or longer without a sign of life than
allowed? -/
def isStale (c : Connection) (allowed now : Nat) : Bool := c.closed || allowed < c.idle now

end Connection

end Switchboard
