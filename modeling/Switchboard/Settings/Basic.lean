/-
Switchboard/Settings/Basic.lean

What an operator sets, and the policy that follows from it.  Settings under
which no client could be served are rejected with a reason.  The stale age
is a multiple of the probe interval; a product past the longest duration
that can be represented has no policy at all.
-/
import Switchboard.Policy
import Switchboard.Tokens

namespace Switchboard

/-- The settings; intervals and waits in seconds. -/
structure Settings where
  /-- The address to listen at. -/
  bind : String
  queueCapacity : Nat
  probeSeconds : Nat
  readWaitSeconds : Nat
  writeWaitSeconds : Nat
  sweepSeconds : Nat
  /-- The number of probe intervals without a sign of life after which a connection is stale. -/
  staleMultiplier : Nat
  maxFrameBytes : Nat
  /-- The table of accepted tokens, as text. -/
  tokens : String
deriving DecidableEq

namespace Settings

/-- The settings of an operator who sets nothing. -/
def standard : Settings where
  bind := "127.0.0.1:8080"
  queueCapacity := 256
  probeSeconds := 30
  readWaitSeconds := 60
  writeWaitSeconds := 10
  sweepSeconds := 30
  staleMultiplier := 2
  maxFrameBytes := 512 * 1024
  tokens := ""

/-- The seconds of the longest duration. -/
def longestDuration : Nat := 0xFFFFFFFFFFFFFFFF

/-- What the settings come to. -/
inductive Outcome where
  | policy (p : Policy)
  | rejected (trouble : Trouble)
  /-- The stale age is longer than the longest duration. -/
  | overflow

/-- What is wrong with the settings, if anything is; of several faults the first. -/
def objection? (s : Settings) : Option String :=
  if s.queueCapacity = 0 then some "queue capacity must be positive"
  else if s.probeSeconds = 0 ∨ s.sweepSeconds = 0 then some "intervals must be positive"
  else if s.readWaitSeconds ≤ s.probeSeconds then some "pong wait must exceed the ping interval"
  else if s.staleMultiplier < 2 then some "stale multiplier must be at least 2"
  else none

/-- The policy that follows. -/
def outcome (s : Settings) : Outcome :=
  match s.objection? with
  | some reason => .rejected (.settings reason)
  | none =>
    if longestDuration < s.probeSeconds * s.staleMultiplier then .overflow
    else .policy
      { queueCapacity := s.queueCapacity
        probeEvery := Policy.seconds s.probeSeconds
        readWait := Policy.seconds s.readWaitSeconds
        writeWait := Policy.seconds s.writeWaitSeconds
        sweepEvery := Policy.seconds s.sweepSeconds
        staleAfter := Policy.seconds (s.probeSeconds * s.staleMultiplier)
        maxFrame := s.maxFrameBytes }

/-- The tokens that are accepted. -/
def tokenTable (s : Settings) : Except Trouble TokenTable := TokenTable.ofText s.tokens

end Settings

end Switchboard
