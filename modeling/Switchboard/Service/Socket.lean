/-
Switchboard/Service/Socket.lean

Clients at their sockets: they come, send frames, stop and go on taking
what comes to them, break off and vanish, and the way to them may break off
without their knowing.

A client's connection is registered for as long as one of its pumps runs.
Only a pong and a ping message are signs of life; every frame that is read
has the deadline follow the last of these.
-/
import Switchboard.Service.Basic

namespace Switchboard.Service

/-! ### Coming -/

/-- A client comes.  If no connection can be made for it, its stream ends at once; if the end has
begun, its connection is closed. -/
def join (s : Service) (answersProbes : Bool) : Service :=
  let d := s.draw
  let s := { s with drawn := s.drawn + 1 }
  match s.board.open? d.connection s.policy.queueCapacity s.clock with
  | none => { s with sockets := s.sockets ++ [Socket.still s.policy answersProbes] }
  | some (l, board) =>
    let socket := Socket.fresh s.policy l s.clock answersProbes
    let board := (board.register l).2
    -- a writer that breaks down at once takes no messages
    let board := if socket.writer = .ended
      then board.modify l fun c => { c with outbox := c.outbox.abandon } else board
    { s with board, sockets := s.sockets ++ [socket] }

/-- A client comes, and what follows. -/
def accept (s : Service) (answersProbes : Bool) : Service := (s.join answersProbes).settle

/-! ### Frames -/

/-- Closes a connection, with what its writer is to send last. -/
def hangUp (s : Service) (k : SocketNumber) (parting : Parting) : Service :=
  s.modifyServed k fun v => ⟨v.connection.close.2, { v.socket with parting }⟩

/-- Handles a message from a client.  If the handling breaks down, the reader does too. -/
def takeMessage (s : Service) (k : SocketNumber) (l : LineNumber) (content : Bytes) : Service :=
  let (done, board) := s.board.handleFrame s.check s.clock s.draw l content
  let s := { s with board, drawn := s.drawn + 1 }
  s.modifyServed k fun v =>
    if done then v.extend s.policy else { v with socket := { v.socket with reader := .ended } }

/-- Takes in a frame that can be read. -/
def take (s : Service) (k : SocketNumber) (l : LineNumber) : Incoming → Service
  | .text content | .binary content => s.takeMessage k l content
  | .ping content => s.modifyServed k (·.echo s.policy content)
  | .pong _ => s.modifyServed k (·.signOfLife s.policy s.clock)
  | .close farewell => s.hangUp k (.answer (farewell.map Farewell.answer))

/-- Takes in a frame, if anyone reads it.  One that cannot be read closes the connection. -/
def hear (s : Service) (k : SocketNumber) (f : Incoming) : Service :=
  match s.served? k with
  | none => s
  | some (l, v) =>
    match v.socket.reader with
    | .ended => s
    | .reading _ =>
      if f.unreadable s.policy.maxFrame then s.hangUp k .farewell else s.take k l f

/-- A client sends a frame, and what follows. -/
def receive (s : Service) (k : SocketNumber) (f : Incoming) : Service := (s.hear k f).settle

/-- The client's end breaks off: if anyone reads, the connection is closed. -/
def breakOff (s : Service) (k : SocketNumber) : Service :=
  match s.served? k with
  | none => s
  | some (_, v) =>
    match v.socket.reader with
    | .ended => s
    | .reading _ => s.hangUp k .silence

/-- A client sends no more, and what follows. -/
def endOfFrames (s : Service) (k : SocketNumber) : Service := (s.breakOff k).settle

/-- A client vanishes, and what follows. -/
def vanish (s : Service) (k : SocketNumber) : Service :=
  ((s.modifyServed k fun v => v.withPipe v.socket.pipe.vanish).breakOff k).settle

/-- The way to a client breaks off, of which nobody knows but whoever writes, and what follows. -/
def sever (s : Service) (k : SocketNumber) : Service :=
  (s.modifyServed k fun v => v.withPipe v.socket.pipe.vanish).settle

/-! ### Taking what comes -/

/-- A client stops taking what comes to it. -/
def stop (s : Service) (k : SocketNumber) : Service :=
  { s with sockets := s.sockets.modify k fun socket => { socket with pipe := socket.pipe.stop } }

/-- A client takes what comes to it again, with the probes among it, and what follows. -/
def resume (s : Service) (k : SocketNumber) : Service :=
  (s.modifyServed k fun v =>
    -- one answer is enough for all the probes that were held
    let probed := v.socket.pipe.held.contains .ping
    let v := v.withPipe v.socket.pipe.resume
    if probed then v.answerProbe s.policy s.clock else v).settle

/-- What a client has received since it was last asked. -/
def received (s : Service) (k : SocketNumber) : List Outgoing :=
  match s.sockets[k]? with
  | some socket => if socket.pipe.gone then [] else socket.pipe.received
  | none => []

/-- Forgets what the clients have received so far. -/
def forget (s : Service) : Service :=
  { s with sockets := s.sockets.map fun k => { k with pipe := { k.pipe with received := [] } } }

end Switchboard.Service
