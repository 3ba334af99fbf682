/-
Switchboard/Envelope/Shape.lean

From the data of a message to its body.  A body's data is a record, of whose
members the unknown ones do not matter, or a list of the members' values in
the order in which the shape declares them.

Members are looked at in the order of their names, which is the order in
which a record holds them, and only then is a missing one noticed, in the
order of the declaration.
-/
import Switchboard.Envelope.Basic
import Switchboard.Instant.Reader
import Switchboard.Json.Problem

namespace Switchboard

open Json (Mismatch Found Wanted found)

/-! ### Single values -/

namespace Json

def readString : Json → Except Mismatch String
  | .text s => .ok s
  | v => .error (.wrongType (found v) .text)

def readFlag : Json → Except Mismatch Bool
  | .flag b => .ok b
  | v => .error (.wrongType (found v) .flag)

/-- A natural number that fits 64 bits. -/
def readCount : Json → Except Mismatch Nat
  | .integer n =>
    if 0 ≤ n then .ok n.toNat else .error (.wrongValue (.integer n) .count)
  | v => .error (.wrongType (found v) .count)

def readOptionalString : Json → Except Mismatch (Option String)
  | .null => .ok none
  | v => some <$> readString v

/-- The moment that a text writes. -/
def instantOfText (s : String) : Except Mismatch Instant :=
  match Instant.ofChars s.toList with
  | .ok t => .ok t
  | .error f => .error (.badInstant f)

def readInstant : Json → Except Mismatch Instant
  | .text s => instantOfText s
  | v => .error (.wrongType (found v) .instant)

/-- One of a closed vocabulary, by its word. -/
def choiceOfText {α : Type} (names : List String) (ofName? : String → Option α) (s : String) :
    Except Mismatch α :=
  match ofName? s with
  | some a => .ok a
  | none => .error (.unknownChoice s names)

/-- One of a closed vocabulary: its word, or a record with the word as the one name and null as
its value. -/
def readChoice {α : Type} (names : List String) (ofName? : String → Option α) :
    Json → Except Mismatch α
  | .text s => choiceOfText names ofName? s
  | .record [(s, v)] => do
    let a ← choiceOfText names ofName? s
    match v with
    | .null => .ok a
    | v => .error (.wrongType (found v) .unit)
  | .record _ => .error (.wrongValue .map .choiceMap)
  | v => .error (.wrongType (found v) .choice)

def readKind : Json → Except Mismatch Kind := readChoice (Kind.all.map Kind.name) Kind.ofName?

def readCode : Json → Except Mismatch Code := readChoice (Code.all.map Code.name) Code.ofName?

end Json

/-! ### Shapes -/

/-- How to read a structure: its name, the number of its parts, and the two forms it may take. -/
structure Shape (α : Type) where
  name : String
  parts : Nat
  ofMembers : Members → Except Mismatch α
  /-- Reads the items and says which are left over. -/
  ofItems : List Json → Except Mismatch (α × List Json)

namespace Shape

/-- A value of that shape. -/
def read {α : Type} (s : Shape α) : Json → Except Mismatch α
  | .record ms => s.ofMembers ms
  | .list items => do
    let (a, left) ← s.ofItems items
    if left.isEmpty then .ok a else .error (.wrongLength items.length .fewerItems)
  | v => .error (.wrongType (found v) (.shape s.name))

/-- A member, if it is there. -/
def member? {α : Type} (name : String) (read : Json → Except Mismatch α) (ms : Members) :
    Except Mismatch (Option α) :=
  match ms.find? name with
  | some v => some <$> read v
  | none => .ok none

/-- A member that has to be there. -/
def required {α : Type} (name : String) : Option α → Except Mismatch α
  | some a => .ok a
  | none => .error (.missingMember name)

/-- An item that has to be there: the one of that index of a shape of so many parts. -/
def item {α : Type} (name : String) (parts index : Nat) (read : Json → Except Mismatch α) :
    List Json → Except Mismatch (α × List Json)
  | v :: rest => do
    let a ← read v
    .ok (a, rest)
  | [] => .error (.wrongLength index (.parts name parts))

/-- An item that may be left out. -/
def itemOr {α : Type} (absent : α) (read : Json → Except Mismatch α) :
    List Json → Except Mismatch (α × List Json)
  | v :: rest => do
    let a ← read v
    .ok (a, rest)
  | [] => .ok (absent, [])

/-- A shape with a single part. -/
def single {α : Type} (name part : String) (read : Json → Except Mismatch α) : Shape α where
  name := name
  parts := 1
  ofMembers ms := do required part (← member? part read ms)
  ofItems := item name 1 0 read

/-- A pair of parts that both have to be there, the first also first by name. -/
def pair {α β : Type} (name part : String) (read : Json → Except Mismatch α) (part' : String)
    (read' : Json → Except Mismatch β) : Shape (α × β) where
  name := name
  parts := 2
  ofMembers ms := do
    let a ← member? part read ms
    let b ← member? part' read' ms
    .ok (← required part a, ← required part' b)
  ofItems items := do
    let (a, items) ← item name 2 0 read items
    let (b, items) ← item name 2 1 read' items
    .ok ((a, b), items)

/-! ### The shapes of the bodies -/

def pong : Shape Instant := single "PongPayload" "timestamp" Json.readInstant

def auth : Shape String := single "AuthPayload" "token" Json.readString

def channel : Shape String := single "ChannelPayload" "channel" Json.readString

def publishAck : Shape (String × Nat) :=
  pair "PublishAckPayload" "channel" Json.readString "subscriberCount" Json.readCount

def error : Shape (Code × String) :=
  pair "ErrorPayload" "code" Json.readCode "message" Json.readString

def authResult : Shape AuthResult where
  name := "AuthResultPayload"
  parts := 4
  ofMembers ms := do
    let message ← member? "message" Json.readOptionalString ms
    let session ← member? "sessionId" Json.readOptionalString ms
    let success ← member? "success" Json.readFlag ms
    let user ← member? "userId" Json.readOptionalString ms
    .ok ⟨← required "success" success, user.join, session.join, message.join⟩
  ofItems items := do
    let (success, items) ← item "AuthResultPayload" 4 0 Json.readFlag items
    let (user, items) ← itemOr none Json.readOptionalString items
    let (session, items) ← itemOr none Json.readOptionalString items
    let (message, items) ← itemOr none Json.readOptionalString items
    .ok (⟨success, user, session, message⟩, items)

/-- The data of a publish may be left out and is null then. -/
def publish : Shape (String × Json) where
  name := "PublishPayload"
  parts := 2
  ofMembers ms := do
    let channel ← member? "channel" Json.readString ms
    .ok (← required "channel" channel, (ms.find? "data").getD .null)
  ofItems items := do
    let (channel, items) ← item "PublishPayload" 2 0 Json.readString items
    let (data, items) ← itemOr .null .ok items
    .ok ((channel, data), items)

/-- The data of a notification may be left out and is null then. -/
def notify : Shape (String × String × Json) where
  name := "NotifyPayload"
  parts := 3
  ofMembers ms := do
    let channel ← member? "channel" Json.readString ms
    let event ← member? "event" Json.readString ms
    .ok (← required "channel" channel, ← required "event" event, (ms.find? "data").getD .null)
  ofItems items := do
    let (channel, items) ← item "NotifyPayload" 3 0 Json.readString items
    let (event, items) ← item "NotifyPayload" 3 1 Json.readString items
    let (data, items) ← itemOr .null .ok items
    .ok ((channel, event, data), items)

end Shape

/-- The body of a kind that has this data.  Absent data is read as an empty record; a ping's data
does not matter. -/
def Body.ofData (kind : Kind) (data : Option Json) : Except Mismatch Body :=
  let data := data.getD (.record [])
  match kind with
  | .ping => .ok .ping
  | .pong => .pong <$> Shape.pong.read data
  | .auth => .auth <$> Shape.auth.read data
  | .authResult => .authResult <$> Shape.authResult.read data
  | .subscribe => .subscribe <$> Shape.channel.read data
  | .subscribeAck => .subscribeAck <$> Shape.channel.read data
  | .unsubscribe => .unsubscribe <$> Shape.channel.read data
  | .unsubscribeAck => .unsubscribeAck <$> Shape.channel.read data
  | .publish => (fun p => .publish p.1 p.2) <$> Shape.publish.read data
  | .publishAck => (fun p => .publishAck p.1 p.2) <$> Shape.publishAck.read data
  | .notify => (fun p => .notify p.1 p.2.1 p.2.2) <$> Shape.notify.read data
  | .error => (fun p => .error p.1 p.2) <$> Shape.error.read data

end Switchboard
