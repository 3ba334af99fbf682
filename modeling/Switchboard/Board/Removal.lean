/-
Switchboard/Board/Removal.lean

Removing many connections at once: the stale ones in a sweep, and all of
them when the service ends.  Whatever is removed is closed.
-/
import Switchboard.Board.Basic

namespace Switchboard.Board

/-- Takes a connection out of the indices and closes it. -/
def remove (b : Board) (id : ConnectionId) (l : LineNumber) : Board := (b.drop id l).close l

/-- Is the connection of that number stale? -/
def isStale (b : Board) (now : Nat) (l : LineNumber) : Bool :=
  match b.lines[l]? with
  | some c => c.isStale b.policy.staleAfter now
  | none => false

/-- The registered connections that are stale, by name and number. -/
def stale (b : Board) (now : Nat) : List (ConnectionId × LineNumber) :=
  b.registered.toList.filter fun r => b.isStale now r.2

/-- Removes the stale connections and says how many there were. -/
def sweep (b : Board) (now : Nat) : Nat × Board :=
  let gone := b.stale now
  (gone.length, gone.foldl (fun b r => b.remove r.1 r.2) b)

/-- Begins the end: closes every registered connection, empties the indices and says how many
there were. -/
def shutdown (b : Board) : Nat × Board :=
  let all := b.registered.values
  -- the indices are emptied first, so that whoever is closed is found nowhere any more
  (all.length,
    all.foldl close { b with registered := ∅, users := ∅, channels := ∅, closing := true })

end Switchboard.Board
