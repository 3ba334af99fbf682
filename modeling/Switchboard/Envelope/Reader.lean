/-
Switchboard/Envelope/Reader.lean

From the bytes of a frame to a message.  The envelope is read in one pass:
its members may come in any order, unknown ones are passed over, a known one
may come only once.  The body is read afterwards from the value that came as
data, so a complaint about the body has no place in the text.
-/
import Switchboard.Envelope.Shape
import Switchboard.Json.Reader
import Switchboard.Json.Skip

namespace Switchboard.Envelope

open Json

/-! ### Values of a known type -/

/-- The value at the front is not what was wanted.  A scalar is taken in first; a bracket is
not. -/
def wrongType (want : Wanted) (b : UInt8) (rest : Bytes) : Problem :=
  if b = openList then here (.mismatch (.wrongType .sequence want)) (b :: rest)
  else if b = openRecord then here (.mismatch (.wrongType .map want)) (b :: rest)
  else match readScalar b rest with
    | .ok (v, rest) => here (.mismatch (.wrongType (found v) want)) rest
    | .error p => p

/-- A string, and what is made of it. -/
def stringWith {α : Type} (want : Wanted) (make : String → Except Mismatch α) (bs : Bytes) :
    Except Problem (α × Bytes) :=
  match skipSpace bs with
  | [] => .error (next .endInValue [])
  | b :: rest =>
    if b = quote then do
      let (s, rest) ← readText rest
      match make s with
      | .ok a => .ok (a, rest)
      | .error m => .error (here (.mismatch m) rest)
    else .error (wrongType want b rest)

def string (bs : Bytes) : Except Problem (String × Bytes) := stringWith .text .ok bs

def instant (bs : Bytes) : Except Problem (Instant × Bytes) := stringWith .instant instantOfText bs

/-- Null, or a value. -/
def optional {α : Type} (read : Bytes → Except Problem (α × Bytes)) (bs : Bytes) :
    Except Problem (Option α × Bytes) :=
  match skipSpace bs with
  | 110 :: rest => do .ok (none, ← word ull rest)
  | _ => do
    let (a, rest) ← read bs
    .ok (some a, rest)

/-- The word for a kind. -/
def kindOfText : String → Except Mismatch Kind :=
  choiceOfText (Kind.all.map Kind.name) Kind.ofName?

/-- Null where nothing else may stand. -/
def unit (bs : Bytes) : Except Problem Bytes :=
  match skipSpace bs with
  | [] => .error (next .endInValue [])
  | b :: rest => if b = 110 then word ull rest else .error (wrongType .unit b rest)

/-- The word for a kind as the name of a member, behind the opening brace. -/
def kindName (bs : Bytes) : Except Problem (Kind × Bytes) :=
  match skipSpace bs with
  | [] => .error (next .endInValue [])
  | b :: rest =>
    if b = quote then stringWith .choiceName kindOfText (b :: rest)
    else if b = closeRecord then .error (next .expectedValue (b :: rest))
    else .error (next .keyNotText (b :: rest))

/-- A kind: its word, or a record with the word as the one name and null as its value. -/
def kindValue (bs : Bytes) : Except Problem (Kind × Bytes) :=
  match skipSpace bs with
  | [] => .error (next .endInValue [])
  | b :: rest =>
    if b = quote then stringWith .choiceName kindOfText (b :: rest)
    else if b = openRecord then do
      let (k, rest) ← kindName rest
      let rest ← unit (← readColon rest)
      match skipSpace rest with
      | [] => .error (here .endInRecord [])
      | c :: after =>
        if c = closeRecord then .ok (k, after) else .error (here .expectedValue (c :: after))
    else .error (next .expectedValue (b :: rest))

/-- The data: null, or any value within the depth that the envelope leaves. -/
def dataValue (bs : Bytes) : Except Problem (Option Json × Bytes) :=
  optional (readValue (depthLimit - 1)) bs

/-! ### The envelope -/

/-- The members read so far. -/
structure Draft where
  id : Option (Option String)
  kind : Option Kind
  time : Option Instant
  data : Option (Option Json)
  requestId : Option (Option String)
  error : Option (Option String)

/-- Nothing read yet. -/
def Draft.empty : Draft := ⟨none, none, none, none, none, none⟩

/-- The name of the envelope in complaints. -/
def shapeName : String := "InboundEnvelope"

/-- Behind the end of the record, if it comes next: where a complaint about the record as a whole
is placed. -/
def behindRecord (bs : Bytes) : Bytes :=
  match skipSpace bs with
  | b :: rest => if b = closeRecord then rest else b :: rest
  | [] => []

/-- Behind the end of the list, or behind the comma, if one of them comes next. -/
def behindList (bs : Bytes) : Bytes :=
  match skipSpace bs with
  | b :: rest =>
    if b = closeList then rest else if b = comma then skipSpace rest else b :: rest
  | [] => []

/-- Takes in a member that must not have come before. -/
def once {α : Type} (name : String) (old : Option α) (read : Bytes → Except Problem (α × Bytes))
    (put : α → Draft) (bs : Bytes) : Except Problem (Draft × Bytes) :=
  match old with
  | some _ => .error (here (.mismatch (.duplicateMember name)) (behindRecord bs))
  | none => do
    let (a, rest) ← read (← readColon bs)
    .ok (put a, rest)

/-- Takes in a member, from behind its name. -/
def Draft.step : MemberStep Draft := fun d name bs =>
  if name = "id" then once name d.id (optional string) (fun a => { d with id := some a }) bs
  else if name = "type" then once name d.kind kindValue (fun a => { d with kind := some a }) bs
  else if name = "timestamp" then once name d.time instant (fun a => { d with time := some a }) bs
  else if name = "data" then once name d.data dataValue (fun a => { d with data := some a }) bs
  else if name = "requestId" then
    once name d.requestId (optional string) (fun a => { d with requestId := some a }) bs
  else if name = "error" then
    once name d.error (optional string) (fun a => { d with error := some a }) bs
  else do .ok (d, ← skipValue (← readColon bs))

/-- The next item of a list, if there is one. -/
def nextPart {α : Type} (first : Bool) (read : Bytes → Except Problem (α × Bytes)) (bs : Bytes) :
    Except Problem (Option α × Bytes) := do
  match ← nextItem first bs with
  | .close _ => .ok (none, bs)
  | .part rest =>
    let (a, rest) ← read rest
    .ok (some a, rest)

/-- The end of the list. -/
def endList (bs : Bytes) : Except Problem Bytes :=
  match skipSpace bs with
  | [] => .error (next .endInList [])
  | b :: rest =>
    if b = closeList then .ok rest
    else if b = comma then
      match skipSpace rest with
      | [] => .error (next .trailingCharacters [])
      | c :: after =>
        if c = closeList then .error (next .trailingComma (c :: after))
        else .error (next .trailingCharacters (c :: after))
    else .error (next .trailingCharacters (b :: rest))

/-- The envelope as a list of its members' values, behind the opening bracket. -/
def draftOfList (bs : Bytes) : Except Problem (Draft × Bytes) := do
  let (id, bs) ← nextPart true (optional string) bs
  let (kind, bs) ← nextPart id.isNone kindValue bs
  match kind with
  | none => .error (here (.mismatch (.wrongLength 1 (.parts shapeName 6))) (behindList bs))
  | some kind =>
    let (time, bs) ← nextPart false instant bs
    let (data, bs) ← nextPart false dataValue bs
    let (requestId, bs) ← nextPart false (optional string) bs
    let (error, bs) ← nextPart false (optional string) bs
    .ok (⟨id, some kind, time, data, requestId, error⟩, ← endList bs)

/-- The envelope, as a record or as a list. -/
def readDraft (bs : Bytes) : Except Problem ((Kind × Draft) × Bytes) :=
  match skipSpace bs with
  | [] => .error (next .endInValue [])
  | b :: rest => do
    let (d, rest) ←
      if b = openRecord then foldMembers Draft.step Draft.empty rest
      else if b = openList then draftOfList rest
      else .error (wrongType (.shape shapeName) b rest)
    match d.kind with
    | some k => .ok ((k, d), rest)
    | none => .error (here (.mismatch (.missingMember "type")) rest)

/-- The message with what the draft has, and the stamp for the name and time that it lacks. -/
def ofDraft (stamp : Stamp) (d : Draft) (body : Body) : Envelope where
  id := d.id.join.getD stamp.id
  time := d.time.getD stamp.time
  body := body
  requestId := d.requestId.join
  error := d.error.join

/-- The message of a frame. -/
def ofBytes (stamp : Stamp) (bs : Bytes) : Except Failure Envelope := do
  let (k, d) ← readWith readDraft bs
  match Body.ofData k d.data.join with
  | .ok body => .ok (ofDraft stamp d body)
  | .error m => .error m.report

end Switchboard.Envelope
