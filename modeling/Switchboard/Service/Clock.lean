/-
Switchboard/Service/Clock.lean

The passing of time.  The clock goes from one time at which something is due
to the next, so that everything happens at its own time, however long the
wait.
-/
import Switchboard.Service.Socket

namespace Switchboard

/-- The times at which a reader has something to do. -/
def Reader.due : Reader → List Nat
  | .reading deadline => [deadline]
  | .ended => []

/-- The times at which a writer has something to do. -/
def Writer.due : Writer → List Nat
  | .ready probe => [probe]
  | .blocked deadline _ | .parting deadline | .closing deadline => [deadline]
  | .ended => []

namespace Service

/-- The times at which something is due. -/
def due (s : Service) : List Nat :=
  s.sweepers.flatMap (·.due.toList) ++ s.sockets.flatMap fun k => k.reader.due ++ k.writer.due

/-- The first time after the present at which something is due. -/
def nextDue (s : Service) : Option Nat := (s.due.filter (s.clock < ·)).min?

/-- The clock comes to a time, and everyone does what is due. -/
def arrive (s : Service) (now : Nat) : Service := { s with clock := now }.settle

/-- Comes to a time by way of the times in between at which something is due, of which there are not
more than milliseconds. -/
def passTo (target : Nat) : (milliseconds : Nat) → Service → Service
  | 0, s => s.arrive target
  | n + 1, s =>
    match s.nextDue with
    -- what is due at the time itself is done on arrival there
    | some t => if t < target then (s.arrive t).passTo target n else s.arrive target
    | none => s.arrive target

/-- Lets time pass. -/
def elapse (s : Service) (milliseconds : Nat) : Service :=
  s.passTo (s.clock + milliseconds) milliseconds

end Service

end Switchboard
