/-
Switchboard/Proofs/Service/Run.lean

Runs of the service.

An `Event` is whatever can happen to a service: a call to its board, a
sweeper that begins its work, what clients do at their sockets, and the
passing of time.  A run is a list of events, in any order, from a service
that nobody has come to yet.  As for the board, one thing is asked of it:
whoever comes has a name that no connection has had before.
-/
import Switchboard.Proofs.Board.Run
import Switchboard.Service.Clock

namespace Switchboard.Service

/-- What happens to a service. -/
inductive Event where
  /-- An operation on the board. -/
  | call (c : Board.Call)
  /-- A sweeper begins its work. -/
  | sweeper
  | accept (answersProbes : Bool)
  | receive (k : SocketNumber) (f : Incoming)
  | endOfFrames (k : SocketNumber)
  | vanish (k : SocketNumber)
  /-- The way to a client breaks off. -/
  | sever (k : SocketNumber)
  | stop (k : SocketNumber)
  | resume (k : SocketNumber)
  /-- What the clients have received so far is forgotten. -/
  | forget
  | elapse (milliseconds : Nat)

/-- The service after an event. -/
def after (s : Service) : Event → Service
  | .call c => (s.act fun b => ((), b.after c)).2
  | .sweeper => s.startSweeper
  | .accept answersProbes => s.accept answersProbes
  | .receive k f => s.receive k f
  | .endOfFrames k => s.endOfFrames k
  | .vanish k => s.vanish k
  | .sever k => s.sever k
  | .stop k => s.stop k
  | .resume k => s.resume k
  | .forget => s.forget
  | .elapse milliseconds => s.elapse milliseconds

/-- Whoever comes has a name that is new. -/
def Event.Fresh (s : Service) : Event → Prop
  | .call c => c.Fresh s.board
  | .accept _ => s.board.Unused s.draw.connection
  | _ => True

instance (s : Service) : (e : Event) → Decidable (e.Fresh s)
  | .call c => inferInstanceAs (Decidable (c.Fresh s.board))
  | .accept _ => inferInstanceAs (Decidable (s.board.Unused s.draw.connection))
  | .sweeper | .receive .. | .endOfFrames _ | .vanish _ | .sever _ | .stop _ | .resume _
  | .forget | .elapse _ => inferInstanceAs (Decidable True)

/-- The service after several events. -/
def run (s : Service) (es : List Event) : Service := es.foldl after s

/-- Whoever comes in the course of several events has a name that is new. -/
def FreshRun : Service → List Event → Prop
  | _, [] => True
  | s, e :: es => e.Fresh s ∧ FreshRun (s.after e) es

instance : (s : Service) → (es : List Event) → Decidable (FreshRun s es)
  | _, [] => inferInstanceAs (Decidable True)
  | s, e :: es =>
    have := instDecidableFreshRun (s.after e) es
    inferInstanceAs (Decidable (e.Fresh s ∧ FreshRun (s.after e) es))

variable {s : Service} {es es' : List Event}

theorem run_append (s : Service) (es es' : List Event) : s.run (es ++ es') = (s.run es).run es' :=
  List.foldl_append

theorem freshRun_append : FreshRun s (es ++ es') ↔ FreshRun s es ∧ FreshRun (s.run es) es' := by
  induction es generalizing s with
  | nil => exact ⟨fun h => ⟨trivial, h⟩, fun h => h.2⟩
  | cons e es ih =>
    -- the events that come after are those of the service after the first
    show e.Fresh s ∧ FreshRun (s.after e) (es ++ es') ↔ _
    rw [ih]
    exact and_assoc.symm

theorem run_concat (s : Service) (es : List Event) (e : Event) :
    s.run (es ++ [e]) = (s.run es).after e := run_append s es [e]

theorem freshRun_concat {e : Event} :
    FreshRun s (es ++ [e]) ↔ FreshRun s es ∧ e.Fresh (s.run es) :=
  freshRun_append.trans (and_congr_right fun _ => and_iff_left trivial)

end Switchboard.Service
