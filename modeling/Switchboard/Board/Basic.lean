/-
Switchboard/Board/Basic.lean

The board: every connection that was ever made, and three indices over the
registered ones, by connection, by user and by channel.

Connections are numbered in the order of their making, and the number stands
for the connection itself; its name is a label that another connection may
carry too.  The indices speak of names, and what a name leads to is the
connection that was registered under it last.
-/
import Std.Data.ExtTreeMap
import Switchboard.Connection
import Switchboard.Policy

namespace Switchboard

/-- The number of a connection, by order of making. -/
abbrev LineNumber := Nat

/-- The connections by user. -/
abbrev UserIndex := Std.ExtTreeMap String (List ConnectionId)

/-- The connections by channel. -/
abbrev ChannelIndex := Std.ExtTreeMap String (Std.ExtTreeSet ConnectionId)

/-- The state of the switchboard. -/
structure Board where
  policy : Policy
  /-- Every connection ever made. -/
  lines : List Connection
  /-- The registered connections by their names. -/
  registered : Std.ExtTreeMap ConnectionId LineNumber
  users : UserIndex
  channels : ChannelIndex
  /-- Has the end begun?  From then on nothing is registered. -/
  closing : Bool

/-- The counts of the three indices. -/
structure Stats where
  connections : Nat
  users : Nat
  channels : Nat
deriving DecidableEq, Repr

/-! ### The indices -/

/-- The index without one connection of a user; no user without connections is kept. -/
def UserIndex.leave (users : UserIndex) (user : String) (id : ConnectionId) : UserIndex :=
  match users[user]? with
  | none => users
  | some ids =>
    let ids := ids.filter (· != id)
    if ids.isEmpty then users.erase user else users.insert user ids

/-- The index with one connection more of a user, behind those it has. -/
def UserIndex.join (users : UserIndex) (user : String) (id : ConnectionId) : UserIndex :=
  users.insert user ((users[user]?).getD [] ++ [id])

/-- The index without one member of a channel; no channel without members is kept. -/
def ChannelIndex.leave (channels : ChannelIndex) (channel : String) (id : ConnectionId) :
    ChannelIndex :=
  match channels[channel]? with
  | none => channels
  | some members =>
    let members := members.erase id
    if members.isEmpty then channels.erase channel else channels.insert channel members

/-- The index with one member more of a channel. -/
def ChannelIndex.join (channels : ChannelIndex) (channel : String) (id : ConnectionId) :
    ChannelIndex :=
  channels.insert channel (((channels[channel]?).getD ∅).insert id)

/-- The bytes of the longest name that a channel may have. -/
def longestChannel : Nat := 128

/-- Refuses the names that no channel may have. -/
def checkChannel (channel : String) : Except Fault Unit :=
  if channel.isEmpty ∨ longestChannel < (Utf8.ofString channel).length then
    .error (.invalidChannel channel)
  else .ok ()

namespace Board

/-- A board without connections. -/
def empty (policy : Policy) : Board := ⟨policy, [], ∅, ∅, ∅, false⟩

/-! ### Lines -/

/-- The board with one connection changed. -/
def modify (b : Board) (l : LineNumber) (f : Connection → Connection) : Board :=
  { b with lines := b.lines.modify l f }

/-- The board with a new connection, and its number. -/
def open? (b : Board) (id : ConnectionId) (capacity now : Nat) : Option (LineNumber × Board) :=
  (Connection.new? id capacity now).map fun c =>
    (b.lines.length, { b with lines := b.lines ++ [c] })

/-- Closes a connection; where it is registered it stays so. -/
def close (b : Board) (l : LineNumber) : Board := b.modify l fun c => c.close.2

/-- A sign of life of a connection. -/
def touch (b : Board) (l : LineNumber) (now : Nat) : Board := b.modify l fun c => c.touch now

/-- The number of the connection registered under a name. -/
def find? (b : Board) (id : ConnectionId) : Option LineNumber := b.registered[id]?

/-- The registered connection of a name, with its number. -/
def find (b : Board) (id : ConnectionId) : Except Fault (LineNumber × Connection) :=
  match b.registered[id]? with
  | none => .error (.notFound id)
  | some l =>
    match b.lines[l]? with
    | none => .error (.notFound id)
    | some c => .ok (l, c)

/-! ### Registration -/

/-- Registers a connection under its name, or closes it if the end has begun. -/
def register (b : Board) (l : LineNumber) : Bool × Board :=
  match b.lines[l]? with
  | none => (false, b)
  | some c =>
    if b.closing then (false, b.close l)
    else (true, { b with registered := b.registered.insert c.id l })

/-- Takes a connection out of the indices: by its name, and where its own identity and
subscriptions say that it is listed. -/
def drop (b : Board) (id : ConnectionId) (l : LineNumber) : Board :=
  match b.lines[l]? with
  | none => { b with registered := b.registered.erase id }
  | some c =>
    { b with
      registered := b.registered.erase id
      users := match c.user? with
        | some user => b.users.leave user id
        | none => b.users
      channels := c.subscriptions.toList.foldl (fun index ch => index.leave ch id) b.channels }

/-- Takes the connection of a name out of the indices, and says which one it was.  The connection
itself stays as it is. -/
def unregister (b : Board) (id : ConnectionId) : Option LineNumber × Board :=
  match b.registered[id]? with
  | none => (none, b)
  | some l => (some l, b.drop id l)

/-! ### Identity and subscriptions -/

/-- Binds a registered connection to an identity and lists it under the user. -/
def identify (b : Board) (id : ConnectionId) (who : Identity) : Except Fault Board := do
  let (l, c) ← b.find id
  let c ← c.identify who
  .ok { b.modify l (fun _ => c) with users := b.users.join who.user id }

/-- Subscribes a registered connection to a channel, which comes to be if it was not there. -/
def subscribe (b : Board) (id : ConnectionId) (channel : String) : Except Fault Board := do
  checkChannel channel
  let (l, _) ← b.find id
  .ok { b.modify l (fun c => (c.join channel).2) with channels := b.channels.join channel id }

/-- Takes a subscription back; a channel without subscribers ceases to be. -/
def unsubscribe (b : Board) (id : ConnectionId) (channel : String) : Except Fault Board := do
  checkChannel channel
  let (l, _) ← b.find id
  .ok { b.modify l (fun c => (c.leave channel).2) with channels := b.channels.leave channel id }

/-! ### Counts -/

def stats (b : Board) : Stats := ⟨b.registered.size, b.users.size, b.channels.size⟩

/-- The number of a channel's subscribers. -/
def subscriberCount (b : Board) (channel : String) : Nat :=
  match b.channels[channel]? with
  | some members => members.size
  | none => 0

/-- The number of a user's connections. -/
def connectionCount (b : Board) (user : String) : Nat :=
  match b.users[user]? with
  | some ids => ids.length
  | none => 0

end Board

end Switchboard
