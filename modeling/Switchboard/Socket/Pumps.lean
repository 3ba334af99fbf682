/-
Switchboard/Socket/Pumps.lean

What the two pumps of a socket do at a given time, on their own: no frame
comes in and no time passes.

The reader's deadline comes first: once it is reached the connection is
closed, and no reader outlives that.  Then the writer: if it waits for room
it goes on when there is some; if the connection is closed it takes its leave;
else it sends the probes that are due, those it has missed one right after the
other, and then what is in the queue.  Last of all it fails if it has waited
until its deadline.

To take its leave, the writer sends a farewell, and then closes the way to the
client.  Either can make it wait for room once more, but neither for longer
than a frame may take.
-/
import Switchboard.Envelope.Writer
import Switchboard.Socket.Basic

namespace Switchboard

/-- A connection and the socket that serves it. -/
structure Served where
  connection : Connection
  socket : Socket

namespace Served

/-! ### The reader -/

/-- The reader gives up once its deadline has come. -/
def lapse (now : Nat) (v : Served) : Served :=
  match v.socket.reader with
  | .reading deadline =>
    if deadline ≤ now then { v with connection := v.connection.close.2 } else v
  | .ended => v

/-- The reader ends once the connection is closed. -/
def endReader (v : Served) : Served :=
  if v.connection.closed then { v with socket := { v.socket with reader := .ended } } else v

/-- The reader's deadline follows the last sign of life. -/
def extend (p : Policy) (v : Served) : Served :=
  match v.socket.reader with
  | .reading _ =>
    { v with socket := { v.socket with reader := .upTo p (v.connection.lastSeen + p.readWait) } }
  | .ended => v

/-- A sign of life from the client, if anyone reads it. -/
def signOfLife (p : Policy) (now : Nat) (v : Served) : Served :=
  match v.socket.reader with
  | .reading _ => ({ v with connection := v.connection.touch now }).extend p
  | .ended => v

/-! ### The writer -/

/-- The writer ends, and nobody takes messages from the queue any more. -/
def endWriter (v : Served) : Served where
  connection := { v.connection with outbox := v.connection.outbox.abandon }
  socket := { v.socket with writer := .ended }

/-- The writer ends because a frame cannot be sent, and the connection is closed. -/
def failWriter (v : Served) : Served :=
  ({ v with connection := v.connection.close.2 }).endWriter

/-- The socket with another state of the way to the client. -/
def withPipe (v : Served) (pipe : Pipe) : Served := { v with socket := { v.socket with pipe } }

/-- The socket with another state of the writer. -/
def withWriter (v : Served) (writer : Writer) : Served :=
  { v with socket := { v.socket with writer } }

/-- Sends a frame.  If it finds no room, the writer waits; if the way is broken off, it fails. -/
def write (p : Policy) (now : Nat) (f : Outgoing) (v : Served) : Served :=
  match v.socket.writer with
  | .ready probe =>
    if v.socket.pipe.gone then v.failWriter
    else
      let v := v.withPipe (v.socket.pipe.put f)
      if v.socket.pipe.isOverfull then v.withWriter (.blocked (p.writeBy now) probe) else v
  | _ => v

/-- Is there nothing on the way to the client that still waits for room? -/
def isDone (v : Served) : Bool := v.socket.pipe.gone || !v.socket.pipe.isOverfull

/-- A writer that waits goes on as soon as there is room. -/
def release (v : Served) : Served :=
  match v.socket.writer with
  | .blocked _ probe =>
    if v.socket.pipe.gone then v.failWriter
    else if !v.socket.pipe.isOverfull then v.withWriter (.ready probe) else v
  -- once the farewell has room, nothing holds up the closing of the way
  | .parting _ | .closing _ => if v.isDone then v.endWriter else v
  | _ => v

/-- The writer ends, and gives up what has found no room. -/
def giveUp (v : Served) : Served := (v.withPipe v.socket.pipe.cut).endWriter

/-- The writer closes the way to the client, and waits for room before if it must. -/
def shut (p : Policy) (now : Nat) (v : Served) : Served :=
  if v.isDone then v.endWriter
  else if p.writeWait = 0 then v.giveUp
  else v.withWriter (.closing (p.writeBy now))

/-- The writer sends a farewell, for which it waits for room if it must, and closes the way. -/
def sayFarewell (p : Policy) (now : Nat) (v : Served) : Served :=
  let v := v.withPipe (v.socket.pipe.put (.close none))
  if v.isDone then v.endWriter else v.withWriter (.parting (p.writeBy now))

/-- A writer that does not wait takes its leave once the connection is closed. -/
def part (p : Policy) (now : Nat) (v : Served) : Served :=
  match v.socket.writer with
  | .ready _ =>
    if v.connection.closed then
      match v.socket.parting with
      | .farewell => v.sayFarewell p now
      -- after the client's farewell, or its breaking off, no other can be sent
      | .answer f => (v.withPipe (v.socket.pipe.put (.close f))).shut p now
      | .silence => v.shut p now
    else v
  | _ => v

/-- A writer that has waited until its deadline gives up what has found no room.  If that is a
frame, it fails; if it is the farewell, the way is still to be closed. -/
def expire (p : Policy) (now : Nat) (v : Served) : Served :=
  match v.socket.writer with
  | .blocked deadline _ =>
    if deadline ≤ now then (v.withPipe v.socket.pipe.cut).failWriter else v
  | .parting deadline => if deadline ≤ now then v.shut p now else v
  | .closing deadline => if deadline ≤ now then v.giveUp else v
  | _ => v

/-! ### Probes -/

/-- The client answers the probes that have come to it, if it is one that does. -/
def answerProbe (p : Policy) (now : Nat) (v : Served) : Served :=
  if v.socket.answersProbes && v.socket.pipe.taking && !v.socket.pipe.gone then
    v.signOfLife p now
  else v

/-- Sends a probe and sets the time of the next. -/
def probe (p : Policy) (now : Nat) (v : Served) : Served :=
  match v.socket.writer with
  | .ready due => ((v.withWriter (.ready (due + p.probeEvery))).write p now .ping).answerProbe p now
  | _ => v

/-- Sends so many probes. -/
def probes (p : Policy) (now : Nat) : Nat → Served → Served
  | 0, v => v
  | n + 1, v => (v.probe p now).probes p now n

/-- The number of probes that are due. -/
def probesDue (p : Policy) (now : Nat) (v : Served) : Nat :=
  match v.socket.writer with
  | .ready due => if now < due then 0 else (now - due) / p.probeEvery + 1
  | _ => 0

/-- The client's own probe is answered.  If the answer cannot be sent, nothing more is read. -/
def echo (p : Policy) (content : Bytes) (v : Served) : Served :=
  let v := (v.withPipe (v.socket.pipe.put (.pong content))).extend p
  match v.socket.reader with
  | .reading _ =>
    if v.socket.pipe.gone then
      ⟨v.connection.close.2, { v.socket with parting := .silence }⟩
    else v
  | .ended => v

/-! ### Messages -/

/-- Sends the first message of the queue. -/
def message (p : Policy) (now : Nat) (v : Served) : Served :=
  match v.socket.writer, v.connection.outbox.take? with
  | .ready _, some (m, outbox) =>
    ({ v with connection := { v.connection with outbox } }).write p now (.text m.wire)
  | _, _ => v

/-- Sends so many messages of the queue. -/
def messages (p : Policy) (now : Nat) : Nat → Served → Served
  | 0, v => v
  | n + 1, v => (v.message p now).messages p now n

/-! ### Both -/

/-- The reader does what is due. -/
def runReader (now : Nat) (v : Served) : Served := (v.lapse now).endReader

/-- The writer does what is due. -/
def runWriter (p : Policy) (now : Nat) (v : Served) : Served :=
  let v := v.release.part p now
  -- probes come before messages when both are due
  let v := v.probes p now (v.probesDue p now)
  (v.messages p now v.connection.outbox.size).expire p now

/-- Both do what is due. -/
def run (p : Policy) (now : Nat) (v : Served) : Served :=
  -- the writer may have closed the connection, and then the reader ends as well
  ((v.runReader now).runWriter p now).endReader

end Served

end Switchboard
