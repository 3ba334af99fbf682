/-
Switchboard/Board/Delivery.lean

Delivering messages: to one connection, or to all that belong to everyone,
to a channel or to a user.  A connection that cannot take the message is
passed over; the answer is the number of those that took it.
-/
import Switchboard.Board.Basic

namespace Switchboard.Board

/-- Puts a message into the queue of a connection. -/
def send (b : Board) (l : LineNumber) (m : Envelope) : Except Fault Board :=
  match b.lines[l]? with
  | none => .error .closed
  | some c => do
    let c ← c.send m
    .ok (b.modify l fun _ => c)

/-- Offers a message to a connection, and says whether it took it. -/
def offer (b : Board) (l : LineNumber) (m : Envelope) : Bool × Board :=
  match b.send l m with
  | .ok b' => (true, b')
  | .error _ => (false, b)

/-- Offers a message to several connections in turn. -/
def offerAll (m : Envelope) : List LineNumber → Board → Nat × Board
  | [], b => (0, b)
  | l :: ls, b =>
    let (took, b) := b.offer l m
    let (n, b) := offerAll m ls b
    ((if took then 1 else 0) + n, b)

/-- Has the connection of that number an identity? -/
def isIdentified (b : Board) (l : LineNumber) : Bool :=
  match b.lines[l]? with
  | some c => c.isIdentified
  | none => false

/-- The registered connections that have an identity. -/
def everyone (b : Board) : List LineNumber := b.registered.values.filter b.isIdentified

/-- The registered connections listed under a channel. -/
def subscribers (b : Board) (channel : String) : List LineNumber :=
  match b.channels[channel]? with
  | some members => members.toList.filterMap b.find?
  | none => []

/-- The registered connections listed under a user. -/
def ofUser (b : Board) (user : String) : List LineNumber :=
  match b.users[user]? with
  | some ids => ids.filterMap b.find?
  | none => []

/-- Delivers to everyone who has an identity. -/
def broadcast (b : Board) (m : Envelope) : Nat × Board := offerAll m b.everyone b

/-- Delivers to the subscribers of a channel. -/
def toChannel (b : Board) (channel : String) (m : Envelope) : Nat × Board :=
  offerAll m (b.subscribers channel) b

/-- Delivers to the connections of a user. -/
def toUser (b : Board) (user : String) (m : Envelope) : Nat × Board :=
  offerAll m (b.ofUser user) b

end Switchboard.Board
