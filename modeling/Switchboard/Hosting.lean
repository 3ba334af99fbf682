/-
Switchboard/Hosting.lean

One life of the service on its own host: it starts with a sweeper at work,
plain requests are answered, perhaps one client comes to a socket and has
each of its messages answered, and then the signal to end is given.
-/
import Switchboard.Http
import Switchboard.Service.Clock

namespace Switchboard.Hosting

/-- What is asked of the service. -/
structure Visit where
  /-- The paths that are read. -/
  paths : List String
  /-- The messages of a client, if one comes. -/
  messages : Option (List String)

/-- Does it take the network to carry a visit out? -/
def Visit.needsNetwork (v : Visit) : Bool := !v.paths.isEmpty || v.messages.isSome

/-- What the life of the service has shown. -/
structure Record where
  answers : List HttpResponse
  /-- What the client received, if one came. -/
  received : Option (List Outgoing)
  /-- The counts right before the signal. -/
  before : Stats
  /-- The counts at the end. -/
  after : Stats
  /-- The service as it has come to its end. -/
  final : Service

/-- The words of a system without a network. -/
def unreachable : Trouble := .system "Network is unreachable (os error 101)"

/-- The answer to the reading of a path. -/
def read (s : Service) (path : String) : HttpResponse :=
  HttpRequest.answer s.board.stats ⟨"GET", path, []⟩

/-- Sends the messages of a client one after the other. -/
def converse (k : SocketNumber) (s : Service) (messages : List String) : Service :=
  messages.foldl (fun s m => s.receive k (.text (Utf8.ofString m))) s

/-- The life of a service that is started for a visit, on a host that may have a network. -/
def run (s : Service) (networked : Bool) (v : Visit) : Except Trouble Record :=
  if v.needsNetwork && !networked then .error unreachable
  else
    let s := s.startSweeper
    let answers := v.paths.map (read s)
    let k := s.sockets.length
    let s := match v.messages with
      | some messages => converse k (s.accept true) messages
      | none => s
    let before := s.board.stats
    let s := (s.act Board.shutdown).2
    .ok ⟨answers, v.messages.map fun _ => s.received k, before, s.board.stats, s⟩

end Switchboard.Hosting
