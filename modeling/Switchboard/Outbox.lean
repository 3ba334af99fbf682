/-
Switchboard/Outbox.lean

The messages that wait for a client: a bounded queue, first in, first out.
A message that finds no room is dropped, so that a slow client holds up
nobody.  Once nobody takes messages any more, what waited is gone and
nothing is accepted.
-/
import Switchboard.Fault

namespace Switchboard

/-- A bounded queue of messages. -/
structure Outbox where
  capacity : Nat
  waiting : List Envelope
  /-- Does anyone still take messages from it? -/
  attended : Bool

namespace Outbox

/-- The greatest capacity that a queue can have. -/
def greatestCapacity : Nat := 0x1FFFFFFFFFFFFFFF

/-- An empty queue, unless no queue has that capacity. -/
def new? (capacity : Nat) : Option Outbox :=
  if 0 < capacity ∧ capacity ≤ greatestCapacity then some ⟨capacity, [], true⟩ else none

/-- Puts a message at the end. -/
def put (o : Outbox) (m : Envelope) : Except Fault Outbox :=
  if !o.attended then .error .closed
  else if o.capacity ≤ o.waiting.length then .error .full
  else .ok { o with waiting := o.waiting ++ [m] }

/-- Takes the first message. -/
def take? (o : Outbox) : Option (Envelope × Outbox) :=
  match o.waiting with
  | m :: rest => some (m, { o with waiting := rest })
  | [] => none

/-- Nobody takes messages any more. -/
def abandon (o : Outbox) : Outbox := { o with waiting := [], attended := false }

/-- The number of messages that wait. -/
def size (o : Outbox) : Nat := o.waiting.length

end Outbox

end Switchboard
