/-
Switchboard/Main.lean

The command line.  Where the service comes to run it serves one client on
its own standard streams: every line that comes in is a text frame of that
client, every text frame that goes out is a line, and the client answers
probes.  The end of the input is the client's end.
-/
import Std.Time.Zoned
import Switchboard.Startup
import Switchboard.Service.Clock

namespace Switchboard.Main

/-- The environment variables of the options, as far as they are set. -/
def environment : IO (List (String × String)) :=
  Opt.all.filterMapM fun o => do
    return (← IO.getEnv o.variableName).map (o.variableName, ·)

/-- The moment from which others count, in place of one that the calendar does not reach. -/
def epoch : Instant :=
  ((Date.ofNumbers? 1970 1 1).bind fun date => Instant.ofNumbers? date 0 0 0 0).get (by decide)

/-- The moment of a time stamp. -/
def momentOf (t : Std.Time.Timestamp) : Instant :=
  let d := Std.Time.DateTime.ofTimestamp t Std.Time.TimeZone.ZoneRules.UTC
  let moment? := do
    let date ← Date.ofNumbers? d.year.toInt d.month.val.toNat d.day.val.toNat
    Instant.ofNumbers? date d.hour.val.toNat d.minute.val.toNat d.second.val.toNat
      d.nanosecond.val.toNat
  moment?.getD epoch

/-- Bits by chance, a hundred and twenty-eight of them. -/
def chance : IO Nat := do
  return (← IO.getRandomBytes 16).toList.foldl (fun n b => n * 256 + b.toNat) 0

/-- Draws what the next event needs. -/
def draw : IO Draw := do
  let t ← Std.Time.Timestamp.now
  let millis := t.toMillisecondsSinceUnixEpoch.toInt.toNat
  let serial ← chance
  let stamp (k : Nat) : Stamp := ⟨(Uuid.atTime millis (serial + k)).text, momentOf t⟩
  return ⟨(Uuid.byChance (← chance)).value, stamp 0, stamp 1, stamp 2,
    (Uuid.byChance (← chance)).text⟩

/-- The service with a fresh draw for its next event. -/
def supplied (s : Service) : IO Service := do
  let d ← draw
  return { s with supply := fun _ => d }

/-- Writes what the client has received, and says whether there may be more. -/
def deliver (k : SocketNumber) (s : Service) : IO (Bool × Service) := do
  let frames := s.received k
  for f in frames do
    if let .text content := f then IO.println content
  return (!frames.contains .ended, s.forget)

/-- A line without the character that ends it. -/
def withoutNewline (cs : List Char) : List Char :=
  if cs.getLast? = some '\n' then cs.dropLast else cs

/-- Serves the client line by line.  The clock of the service shows the time since `began`. -/
partial def serve (began : Nat) (k : SocketNumber) (input : IO.FS.Stream) (s : Service) :
    IO Unit := do
  let line ← input.getLine
  let s := s.elapse ((← IO.monoMsNow) - began - s.clock)
  let s ← supplied s
  let s :=
    if line.isEmpty then s.endOfFrames k
    else s.receive k (.text (Utf8.encode (withoutNewline line.toList)))
  let (more, s) ← deliver k s
  if more then serve began k input s

/-- Runs a service that is ready. -/
def run (r : Ready) : IO Unit := do
  let began ← IO.monoMsNow
  let d ← draw
  let s := (Service.start r.policy r.tokens.check fun _ => d).startSweeper
  let k := s.sockets.length
  let (more, s) ← deliver k (s.accept true)
  if more then serve began k (← IO.getStdin) s

end Switchboard.Main

open Switchboard in
/-- Starts from the command line and the environment. -/
def main (arguments : List String) : IO UInt32 := do
  match Startup.ofArguments arguments (← Main.environment) with
  | .ended e =>
    if let some words := e.words then IO.eprint words
    return e.status.toUInt32
  | .ready r =>
    Main.run r
    return 0
