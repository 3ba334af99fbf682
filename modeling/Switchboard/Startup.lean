/-
Switchboard/Startup.lean

Starting the service from a command line: settings, policy, tokens and the
address, in this order.  The first thing that is wrong ends the process,
with a status that tells misuse of the command line from a refusal.
-/
import Switchboard.Settings.Options

namespace Switchboard

open Text

/-! ### The address -/

/-- Why an address cannot be listened at. -/
inductive AddressFault where
  /-- There is no colon that would set off a number. -/
  | noNumber
  /-- What is set off is not a number of 16 bits. -/
  | badNumber
  /-- The host is a name that cannot be looked up. -/
  | unknownHost
deriving DecidableEq, Repr

/-- An address: a host and a number on it. -/
structure Address where
  host : String
  number : Nat
deriving DecidableEq

def AddressFault.message : AddressFault → String
  | .noNumber => "invalid socket address"
  | .badNumber => "invalid port value"
  | .unknownHost => "failed to lookup address information: Temporary failure in name resolution"

/-- Is there no name to look up: is a host given by its number, of four parts or in brackets, or is
it this one? -/
def needsNoLookup (host : List Char) : Bool :=
  host == "localhost".toList
    || (!host.isEmpty && host.all fun c => c.isDigit || c == '.')
    || host.head? == some '[' && host.getLast? == some ']'

/-- The address that a text writes: what is before the last colon, and the number after it. -/
def Address.ofText (s : String) : Except AddressFault Address :=
  match TokenTable.splitAt? ':' s.toList.reverse with
  | none => .error .noNumber
  | some (number, host) =>
    match unsigned? 0xFFFF number.reverse with
    | some n =>
      if needsNoLookup host.reverse then .ok ⟨String.ofList host.reverse, n⟩ else .error .unknownHost
    | none => .error .badNumber

/-! ### Start -/

/-- How a process ends: its status, and its last words if the outcome has any. -/
structure Exit where
  status : Nat
  words : Option String
deriving DecidableEq

/-- A service that is ready to run. -/
structure Ready where
  policy : Policy
  tokens : TokenTable
  address : Address

/-- What comes of a command line. -/
inductive Startup where
  | ready (r : Ready)
  | ended (e : Exit)

namespace Startup

/-- The end after a refusal: the last words name what was refused and why. -/
def refusal (what : String) : Startup := .ended ⟨1, some ("Error: " ++ what ++ "\n")⟩

/-- The end after misuse of the command line, or after the help or the version. -/
def usage : UsageError → Startup
  | .help | .version => .ended ⟨0, none⟩
  | _ => .ended ⟨2, none⟩

/-- The end of a process that breaks down. -/
def breakdown : Startup := .ended ⟨101, none⟩

/-- A trouble as the last words show it. -/
def troubleWords : Trouble → String
  | .settings reason => "Config(" ++ quoted reason ++ ")"
  | .system reason => "Io(" ++ reason ++ ")"
  | .json failure =>
    "Json(Error(" ++ quoted failure.cause.message ++ ", line: " ++ number (failure.place.elim 0 (·.line)) ++
      ", column: " ++ number (failure.place.elim 0 (·.column)) ++ "))"
where
  number (n : Nat) : String := String.ofList (decimal n)

/-- What a fault of the address is as a trouble with the system. -/
def addressTrouble (f : AddressFault) : Trouble :=
  .system <| match f with
    | .unknownHost =>
      "Custom \x7b kind: Uncategorized, error: " ++ quoted f.message ++ " \x7d"
    | _ => "Error \x7b kind: InvalidInput, message: " ++ quoted f.message ++ " \x7d"

/-- Starts with a policy. -/
def withPolicy (s : Settings) (policy : Policy) : Startup :=
  match s.tokenTable with
  | .error t => refusal (troubleWords t)
  | .ok tokens =>
    match Address.ofText s.bind with
    | .error f => refusal (troubleWords (addressTrouble f))
    | .ok address => .ready ⟨policy, tokens, address⟩

/-- Starts from a command line and an environment. -/
def ofArguments (arguments : List String) (environment : List (String × String)) : Startup :=
  match Settings.ofArguments arguments environment with
  | .error e => usage e
  | .ok s =>
    match s.outcome with
    | .rejected t => refusal (troubleWords t)
    | .overflow => breakdown
    | .policy p => withPolicy s p

/-- The end of a process that is interrupted once it runs, or that does not come to run. -/
def interrupted : Startup → Exit
  | .ready _ => ⟨0, none⟩
  | .ended e => e

end Startup

end Switchboard
