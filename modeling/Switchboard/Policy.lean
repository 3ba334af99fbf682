/-
Switchboard/Policy.lean

The rules by which the switchboard treats its connections: how much may wait
for a client, how large a frame may be, and the times of probing, waiting
and sweeping.  Times are in milliseconds.

They are carried out on a host, which has limits of its own: the way to a
client has room for so much, and there are times so late that the clock cannot
tell them.  Whoever is to wait until such a time breaks down, but for a write,
which waits for thirty years instead.
-/

namespace Switchboard

/-- What the host of a switchboard can do. -/
structure Host where
  /-- The bytes that the way to a client has room for. -/
  room : Nat
  /-- The first time that the clock cannot tell. -/
  horizon : Nat
deriving DecidableEq

/-- A host with a clock of 63 bits for the seconds, which has been up for an hour. -/
def Host.standard : Host where
  room := 16384
  horizon := (Nat.pow 2 63 - 3600) * 1000

/-- Delivery, liveness and sweeping. -/
structure Policy where
  /-- The number of messages that may wait for one client. -/
  queueCapacity : Nat
  /-- The time between two probes of a client. -/
  probeEvery : Nat
  /-- The time that a client may stay without a sign of life before it is no longer read from. -/
  readWait : Nat
  /-- The time that the writing of one frame may take. -/
  writeWait : Nat
  /-- The time between two sweeps. -/
  sweepEvery : Nat
  /-- The time without a sign of life beyond which a sweep removes a connection. -/
  staleAfter : Nat
  /-- The bytes of the largest frame that is accepted. -/
  maxFrame : Nat
  /-- The host that all this is carried out on. -/
  host : Host := .standard
deriving DecidableEq

namespace Policy

/-- The same rules on another host. -/
def on (p : Policy) (host : Host) : Policy := { p with host }

/-- The milliseconds of a number of seconds. -/
def seconds (s : Nat) : Nat := s * 1000

/-- Thirty years, which is how long a write waits if the clock cannot tell how long it may. -/
def longest : Nat := seconds (30 * 365 * 24 * 60 * 60)

/-- Until when a write may wait that begins now. -/
def writeBy (p : Policy) (now : Nat) : Nat :=
  if now + p.writeWait < p.host.horizon then now + p.writeWait
  else now + Nat.min p.writeWait longest

/-- The policy of a switchboard that is told nothing else. -/
def standard : Policy where
  queueCapacity := 256
  probeEvery := seconds 30
  readWait := seconds 60
  writeWait := seconds 10
  sweepEvery := seconds 30
  staleAfter := seconds 60
  maxFrame := 512 * 1024

end Policy

end Switchboard
