/-
Switchboard/Socket/Basic.lean

A socket: the client's end, and the two pumps that serve it.

The reader takes the client's frames until its deadline; the writer carries
the queue of the connection to the client and probes it at fixed times, and
while a frame finds no room it waits.  Each of them ends for its own reasons,
and the closing of the connection ends both: the reader at once, and the writer
when it has taken its leave.  A pump that would have to wait until a time that
the clock cannot tell breaks down, and closes nothing.
-/
import Switchboard.Board.Basic
import Switchboard.Socket.Pipe

namespace Switchboard

/-- The pump from the client. -/
inductive Reader where
  /-- It reads, and gives up at the deadline. -/
  | reading (deadline : Nat)
  | ended
deriving DecidableEq, Repr

/-- The pump to the client. -/
inductive Writer where
  /-- It can write, and the next probe is due at that time. -/
  | ready (probe : Nat)
  /-- A frame waits for room, until the deadline. -/
  | blocked (deadline probe : Nat)
  /-- The farewell waits for room, until the deadline. -/
  | parting (deadline : Nat)
  /-- The way to the client is to be closed, for which the writer waits until the deadline. -/
  | closing (deadline : Nat)
  | ended
deriving DecidableEq, Repr

/-- The last thing that a writer sends. -/
inductive Parting where
  /-- A farewell without a code. -/
  | farewell
  /-- The answer to the client's farewell. -/
  | answer (farewell : Option Farewell)
  /-- Nothing, as the client's end has broken off. -/
  | silence
deriving DecidableEq, Repr

/-- A socket. -/
structure Socket where
  /-- The number of the connection that it serves, unless none could be made. -/
  line : Option LineNumber
  reader : Reader
  writer : Writer
  parting : Parting
  pipe : Pipe
  /-- Does the client answer probes as they come? -/
  answersProbes : Bool
  /-- Is all over, and the client told so? -/
  finished : Bool
deriving DecidableEq

/-- A reader with a deadline, which breaks down if the clock cannot tell it. -/
def Reader.upTo (p : Policy) (deadline : Nat) : Reader :=
  if deadline < p.host.horizon then .reading deadline else .ended

/-- A writer that is to probe first at the time given.  With no interval there is nothing to go by,
and it breaks down, as it does if the clock cannot tell the time. -/
def Writer.first (p : Policy) (probe : Nat) : Writer :=
  if p.probeEvery = 0 ∨ p.host.horizon ≤ probe then .ended else .ready probe

namespace Socket

/-- Have both pumps ended? -/
def pumpsEnded (k : Socket) : Bool := k.reader == .ended && k.writer == .ended

/-- A socket without a connection: the client sees the end of the stream and nothing else. -/
def still (p : Policy) (answersProbes : Bool) : Socket :=
  ⟨none, .ended, .ended, .silence, (Pipe.fresh p.host.room).put .ended, answersProbes, true⟩

/-- A new socket for a connection.  Its first probe is due one interval on. -/
def fresh (p : Policy) (l : LineNumber) (now : Nat) (answersProbes : Bool) : Socket where
  line := some l
  reader := .upTo p (now + p.readWait)
  writer := .first p (now + p.probeEvery)
  parting := .farewell
  pipe := Pipe.fresh p.host.room
  answersProbes := answersProbes
  finished := false

end Socket

end Switchboard
