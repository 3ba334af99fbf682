/-
Switchboard/Service/Basic.lean

The running service: the board, the sockets that serve its connections, the
sweepers and the clock.

The clock stands still while the service works.  Whatever happens to it, by
a call or by a frame, is followed at once by all that it brings about, so
that between two events nothing is left to do but to wait.
-/
import Switchboard.Board.Removal
import Switchboard.Request
import Switchboard.Socket.Pumps

namespace Switchboard

/-- A sweeper: the time of its next sweep, unless it has ended. -/
structure Sweeper where
  due : Option Nat
deriving DecidableEq, Repr

/-- A sweeper that begins its work at the time given, with its first sweep one interval on.  With no
interval it ends at once, as it does if the clock cannot tell the time of its first sweep. -/
def Sweeper.first (p : Policy) (now : Nat) : Sweeper :=
  ⟨if p.sweepEvery = 0 ∨ p.host.horizon ≤ now + p.sweepEvery then none
    else some (now + p.sweepEvery)⟩

/-- The service. -/
structure Service where
  board : Board
  check : Check
  /-- What is drawn fresh, in order. -/
  supply : Nat → Draw
  /-- How often something has been drawn. -/
  drawn : Nat
  /-- The time. -/
  clock : Nat
  sweepers : List Sweeper
  sockets : List Socket

/-- The number of a socket, by order of opening. -/
abbrev SocketNumber := Nat

namespace Service

/-- A service that nobody has come to yet. -/
def start (policy : Policy) (check : Check) (supply : Nat → Draw) : Service :=
  ⟨Board.empty policy, check, supply, 0, 0, [], []⟩

def policy (s : Service) : Policy := s.board.policy

/-- What is drawn next. -/
def draw (s : Service) : Draw := s.supply s.drawn

/-- A socket and the connection that it serves. -/
def served? (s : Service) (k : SocketNumber) : Option (LineNumber × Served) := do
  let socket ← s.sockets[k]?
  let l ← socket.line
  let c ← s.board.lines[l]?
  some (l, ⟨c, socket⟩)

/-- The service with a socket and its connection changed. -/
def putServed (s : Service) (k : SocketNumber) (l : LineNumber) (v : Served) : Service :=
  { s with
    board := s.board.modify l fun _ => v.connection
    sockets := s.sockets.set k v.socket }

/-- Changes a socket and its connection. -/
def modifyServed (s : Service) (k : SocketNumber) (f : Served → Served) : Service :=
  match s.served? k with
  | some (l, v) => s.putServed k l (f v)
  | none => s

/-! ### What follows at once -/

/-- A sweeper does what is due.  Once the end has begun it does not go on. -/
def sweepOne (now : Nat) (w : Sweeper) (b : Board) : Sweeper × Board :=
  if b.closing then (⟨none⟩, b)
  else match w.due with
    | some due =>
      -- the next sweep is counted from this one and not from the clock
      if due ≤ now then (⟨some (due + b.policy.sweepEvery)⟩, (b.sweep now).2) else (w, b)
    | none => (w, b)

/-- Several sweepers do what is due, in turn. -/
def sweepAll (now : Nat) : List Sweeper → Board → List Sweeper × Board
  | [], b => ([], b)
  | w :: ws, b =>
    let (w, b) := sweepOne now w b
    let (ws, b) := sweepAll now ws b
    (w :: ws, b)

/-- The sweepers do what is due. -/
def runSweepers (s : Service) : Service :=
  let (sweepers, board) := sweepAll s.clock s.sweepers s.board
  { s with sweepers, board }

/-- A socket whose pumps have both ended is finished: its connection is closed and leaves the board,
whatever is registered under the name is closed too, and the client sees the end of the stream. -/
def finish (s : Service) (k : SocketNumber) : Service :=
  match s.served? k with
  | none => s
  | some (l, v) =>
    if v.socket.pumpsEnded && !v.socket.finished then
      let socket := { v.socket with pipe := v.socket.pipe.put .ended, finished := true }
      let s := s.putServed k l ⟨v.connection.close.2, socket⟩
      -- the name may by now lead to another connection, which is then closed too
      match s.board.unregister v.connection.id with
      | (some l', board) => { s with board := board.close l' }
      | (none, board) => { s with board }
    else s

/-- A socket does what is due. -/
def runSocket (s : Service) (k : SocketNumber) : Service :=
  (s.modifyServed k fun v => v.run s.policy s.clock).finish k

/-- Everyone does what is due. -/
def settle (s : Service) : Service :=
  (List.range s.sockets.length).foldl runSocket s.runSweepers

/-! ### Calls -/

/-- Carries out an operation on the board and what follows. -/
def act {α : Type} (s : Service) (f : Board → α × Board) : α × Service :=
  let (a, board) := f s.board
  (a, { s with board }.settle)

/-- A sweeper begins its work. -/
def startSweeper (s : Service) : Service :=
  settle { s with sweepers := s.sweepers ++ [.first s.policy s.clock] }

/-- Has the sweeper ended that began last? -/
def sweeperEnded (s : Service) : Bool :=
  match s.sweepers.getLast? with
  | some w => w.due.isNone
  | none => false

end Service

end Switchboard
