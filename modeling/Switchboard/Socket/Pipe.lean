/-
Switchboard/Socket/Pipe.lean

The way from the service to a client.  A client that takes what comes has it
at once; for one that has stopped, frames are held back until it goes on, and
as soon as more bytes are held than the pipe has room for, whoever writes has
to wait.  Once the way is broken off, what is sent is lost.
-/
import Switchboard.Socket.Frame

namespace Switchboard

/-- The way to a client. -/
structure Pipe where
  /-- The bytes that it has room for. -/
  room : Nat
  /-- What the client has received. -/
  received : List Outgoing
  /-- What is on its way. -/
  held : List Outgoing
  /-- Does the client take what comes? -/
  taking : Bool
  /-- Is the way broken off, so that nothing can be sent any more? -/
  gone : Bool
deriving DecidableEq

namespace Pipe

/-- The way to a client that takes what comes. -/
def fresh (room : Nat) : Pipe := ⟨room, [], [], true, false⟩

/-- The bytes of several frames. -/
def sizeOf (fs : List Outgoing) : Nat := fs.foldl (fun n f => n + f.size) 0

/-- Sends a frame. -/
def put (p : Pipe) (f : Outgoing) : Pipe :=
  if p.gone then p
  else if p.taking then { p with received := p.received ++ [f] }
  else { p with held := p.held ++ [f] }

/-- Is more held than there is room for? -/
def isOverfull (p : Pipe) : Bool := p.room < sizeOf p.held

/-- The longest front of the frames that fits into the room given. -/
def fitting : Nat → List Outgoing → List Outgoing
  | _, [] => []
  | n, f :: fs => if f.size ≤ n then f :: fitting (n - f.size) fs else []

/-- Gives up what has found no room. -/
def cut (p : Pipe) : Pipe := { p with held := fitting p.room p.held }

/-- The client stops taking what comes. -/
def stop (p : Pipe) : Pipe := { p with taking := false }

/-- The client takes what comes again, and first of all what is held. -/
def resume (p : Pipe) : Pipe :=
  { p with taking := true, received := p.received ++ p.held, held := [] }

/-- The way is broken off, and what is held is lost. -/
def vanish (p : Pipe) : Pipe := { p with gone := true, held := [] }

end Pipe

end Switchboard
