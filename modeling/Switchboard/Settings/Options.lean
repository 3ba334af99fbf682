/-
Switchboard/Settings/Options.lean

The command line.  Every setting is an option with a value, `--name value`
or `--name=value`, and has an environment variable that counts where the
option is not given.

A value in an argument of its own is looked at only when the next option
comes or the line ends, so an unknown argument right behind it is reported
first.  An argument that begins with a dash is never taken as such a value.
-/
import Switchboard.Settings.Basic

namespace Switchboard

open Text

/-- Why a command line is not carried out. -/
inductive UsageError where
  | unknownArgument
  /-- An option lacks its value. -/
  | missingValue
  /-- A value cannot be read. -/
  | badValue
  /-- An option is given twice. -/
  | repeated
  /-- A value is given to a flag that takes none. -/
  | unwantedValue
  /-- Only the help is asked for. -/
  | help
  /-- Only the version is asked for. -/
  | version
deriving DecidableEq, Repr

/-- The options. -/
inductive Opt where
  | bind
  | queueCapacity
  | probeSeconds
  | readWaitSeconds
  | writeWaitSeconds
  | sweepSeconds
  | staleMultiplier
  | maxFrameBytes
  | tokens
deriving DecidableEq, Repr

namespace Opt

/-- Every option, in the order in which they are listed. -/
def all : List Opt :=
  [.bind, .queueCapacity, .probeSeconds, .readWaitSeconds, .writeWaitSeconds, .sweepSeconds,
    .staleMultiplier, .maxFrameBytes, .tokens]

/-- The name of an option, without its dashes. -/
def name : Opt → String
  | .bind => "bind"
  | .queueCapacity => "queue-capacity"
  | .probeSeconds => "ping-interval-secs"
  | .readWaitSeconds => "pong-wait-secs"
  | .writeWaitSeconds => "write-wait-secs"
  | .sweepSeconds => "reaper-interval-secs"
  | .staleMultiplier => "stale-multiplier"
  | .maxFrameBytes => "max-message-bytes"
  | .tokens => "tokens"

/-- The environment variable of an option. -/
def variableName : Opt → String
  | .bind => "HUB_BIND"
  | .queueCapacity => "HUB_QUEUE_CAPACITY"
  | .probeSeconds => "HUB_PING_INTERVAL_SECS"
  | .readWaitSeconds => "HUB_PONG_WAIT_SECS"
  | .writeWaitSeconds => "HUB_WRITE_WAIT_SECS"
  | .sweepSeconds => "HUB_REAPER_INTERVAL_SECS"
  | .staleMultiplier => "HUB_STALE_MULTIPLIER"
  | .maxFrameBytes => "HUB_MAX_MESSAGE_BYTES"
  | .tokens => "HUB_TOKENS"

def ofName? (s : String) : Option Opt := all.find? (·.name == s)

end Opt

/-! ### Values -/

/-- The number that a text of digits writes; there is at least one. -/
def digitsOnly? (cs : List Char) : Option Nat :=
  if cs.isEmpty || !cs.all Char.isDigit then none
  else some (cs.foldl (fun n c => n * 10 + (c.toNat - 48)) 0)

/-- A number up to a bound, perhaps behind a plus sign. -/
def unsigned? (bound : Nat) (cs : List Char) : Option Nat := do
  let n ← digitsOnly? (match cs with
    | '+' :: rest => rest
    | _ => cs)
  if n ≤ bound then some n else none

/-- A number of 64 bits. -/
def count64? (cs : List Char) : Option Nat := unsigned? 0xFFFFFFFFFFFFFFFF cs

/-- A number of 32 bits.  It is read as a number with a sign, so a zero may have a minus too. -/
def count32? (cs : List Char) : Option Nat :=
  match cs with
  | '-' :: rest => do
    let n ← digitsOnly? rest
    if n = 0 then some 0 else none
  | _ => unsigned? 0xFFFFFFFF cs

namespace Settings

/-- The settings with one set to the value that a text writes. -/
def set (s : Settings) (o : Opt) (value : String) : Except UsageError Settings :=
  let cs := value.toList
  let put (n : Option Nat) (f : Nat → Settings) : Except UsageError Settings :=
    match n with
    | some n => .ok (f n)
    | none => .error .badValue
  match o with
  | .bind => .ok { s with bind := value }
  | .tokens => .ok { s with tokens := value }
  | .queueCapacity => put (count64? cs) fun n => { s with queueCapacity := n }
  | .probeSeconds => put (count64? cs) fun n => { s with probeSeconds := n }
  | .readWaitSeconds => put (count64? cs) fun n => { s with readWaitSeconds := n }
  | .writeWaitSeconds => put (count64? cs) fun n => { s with writeWaitSeconds := n }
  | .sweepSeconds => put (count64? cs) fun n => { s with sweepSeconds := n }
  | .staleMultiplier => put (count32? cs) fun n => { s with staleMultiplier := n }
  | .maxFrameBytes => put (count64? cs) fun n => { s with maxFrameBytes := n }

/-! ### The command line -/

/-- An option that is under way. -/
inductive Pending where
  | none
  /-- Its value may be the next argument. -/
  | awaiting (o : Opt)
  /-- Its value has been seen but not looked at. -/
  | holding (o : Opt) (value : String)

/-- The command line so far: the settings, and the options that they come from. -/
structure Line where
  settings : Settings
  given : List Opt

/-- Takes in an option with its value. -/
def Line.take (l : Line) (o : Opt) (value : String) : Except UsageError Line :=
  if o ∈ l.given then .error .repeated
  else do .ok ⟨← l.settings.set o value, o :: l.given⟩

/-- Takes in the option that is under way. -/
def Line.settle (l : Line) : Pending → Except UsageError Line
  | .none => .ok l
  | .awaiting _ => .error .missingValue
  | .holding o value => l.take o value

/-- What a flag of one letter asks for, once the option under way is taken in. -/
def Line.shortFlag (l : Line) (p : Pending) (c : Char) : UsageError :=
  let ask (e : UsageError) : UsageError :=
    match l.settle p with
    | .ok _ => e
    | .error e' => e'
  if c = 'h' then ask .help else if c = 'V' then ask .version else .unknownArgument

/-- What the flag of that name asks for, if there is one. -/
def flagOfName? (name : String) : Option UsageError :=
  if name = "help" then some .help else if name = "version" then some .version else none

/-- The name and the attached value of an argument with two dashes. -/
def nameAndValue (cs : List Char) : String × Option String :=
  match TokenTable.splitAt? '=' cs with
  | some (name, value) => (String.ofList name, some (String.ofList value))
  | none => (String.ofList cs, none)

/-- Takes in an argument that begins with two dashes. -/
def Line.long (l : Line) (p : Pending) (cs : List Char) : Except UsageError (Line × Pending) :=
  let (name, value) := nameAndValue cs
  match Opt.ofName? name, value with
  | some o, some value => do .ok (← (← l.settle p).take o value, .none)
  | some o, none => do .ok (← l.settle p, .awaiting o)
  | none, _ =>
    match flagOfName? name with
    | some e => do
      if value.isSome then .error .unwantedValue
      else
        let _ ← l.settle p
        .error e
    | none => .error .unknownArgument

/-- Reads the arguments in turn.  Behind a lone `--` nothing may come. -/
def readArguments (l : Line) (p : Pending) : List String → Except UsageError Line
  | [] => l.settle p
  | a :: rest =>
    match a.toList with
    | ['-', '-'] => if rest.isEmpty then l.settle p else .error .unknownArgument
    | '-' :: '-' :: name => do
      let (l, p) ← l.long p name
      readArguments l p rest
    | '-' :: c :: _ => .error (l.shortFlag p c)
    | _ =>
      match p with
      | .awaiting o => readArguments l (.holding o a) rest
      | _ => .error .unknownArgument

/-- Fills in from the environment what the arguments leave open. -/
def readVariables (environment : List (String × String)) (l : Line) :
    List Opt → Except UsageError Settings
  | [] => .ok l.settings
  | o :: rest =>
    match environment.lookup o.variableName with
    | some value =>
      if o ∈ l.given then readVariables environment l rest
      else do
        let s ← l.settings.set o value
        readVariables environment { l with settings := s } rest
    | none => readVariables environment l rest

/-- The settings of a command line in an environment. -/
def ofArguments (arguments : List String) (environment : List (String × String)) :
    Except UsageError Settings := do
  let l ← readArguments ⟨standard, []⟩ .none arguments
  readVariables environment l Opt.all

end Settings

end Switchboard
