/-
Switchboard/Json/Reader.lean

Reading JSON values off the front of the bytes that are left.

Lists and records are read by two loops, `foldItems` and `foldMembers`, that
know the commas and closing marks and leave each part to the caller.  The
value reader descends at most `depth` levels of brackets: the depth is what
it recurses on, so going one level too far is a problem of the text and not
of the reader.
-/
import Switchboard.Json.Lexeme

namespace Switchboard.Json

/-! ### Lists and records -/

/-- What comes before an item: the closing bracket, or an item. -/
inductive Ahead where
  | close (rest : Bytes)
  | part (rest : Bytes)

/-- Looks for the next item of a list.  `first` says that none has been read yet. -/
def nextItem (first : Bool) (bs : Bytes) : Except Problem Ahead :=
  match skipSpace bs with
  | [] => .error (next .endInList [])
  | b :: rest =>
    if b = closeList then .ok (.close rest)
    else if first then .ok (.part (b :: rest))
    else if b = comma then
      match skipSpace rest with
      | [] => .error (next .endInValue [])
      | c :: after =>
        if c = closeList then .error (next .trailingComma (c :: after)) else .ok (.part (c :: after))
    else .error (next .expectedCommaOrBracket (b :: rest))

/-- Looks for the next member of a record and stands behind the quote that opens its name. -/
def nextMember (first : Bool) (bs : Bytes) : Except Problem Ahead :=
  match skipSpace bs with
  | [] => .error (next .endInRecord [])
  | b :: rest =>
    if b = closeRecord then .ok (.close rest)
    else if first then
      if b = quote then .ok (.part rest) else .error (next .keyNotText (b :: rest))
    else if b = comma then
      match skipSpace rest with
      | [] => .error (next .endInValue [])
      | c :: after =>
        if c = quote then .ok (.part after)
        else if c = closeRecord then .error (next .trailingComma (c :: after))
        else .error (next .keyNotText (c :: after))
    else .error (next .expectedCommaOrBrace (b :: rest))

/-- The colon between a name and its value. -/
def readColon (bs : Bytes) : Except Problem Bytes :=
  match skipSpace bs with
  | [] => .error (next .endInRecord [])
  | b :: rest => if b = colon then .ok rest else .error (next .expectedColon (b :: rest))

/-- A way to take in one more item. -/
abbrev ItemStep (σ : Type) := σ → Bytes → Except Problem (σ × Bytes)

/-- A way to take in one more member, from behind its name. -/
abbrev MemberStep (σ : Type) := σ → String → Bytes → Except Problem (σ × Bytes)

/-- Takes in items until the bracket closes.  Each takes a byte or more, so `fuel` bytes are
enough. -/
def foldItemsFrom {σ : Type} (step : ItemStep σ) :
    Nat → Bool → σ → Bytes → Except Problem (σ × Bytes)
  | 0, _, _, bs => .error (here .endInList bs)
  | fuel + 1, first, acc, bs => do
    match ← nextItem first bs with
    | .close rest => .ok (acc, rest)
    | .part rest =>
      let (acc, rest) ← step acc rest
      foldItemsFrom step fuel false acc rest

/-- The items of a list, behind its opening bracket. -/
def foldItems {σ : Type} (step : ItemStep σ) (init : σ) (bs : Bytes) :
    Except Problem (σ × Bytes) :=
  foldItemsFrom step (bs.length + 1) true init bs

/-- Takes in members until the brace closes. -/
def foldMembersFrom {σ : Type} (step : MemberStep σ) :
    Nat → Bool → σ → Bytes → Except Problem (σ × Bytes)
  | 0, _, _, bs => .error (here .endInRecord bs)
  | fuel + 1, first, acc, bs => do
    match ← nextMember first bs with
    | .close rest => .ok (acc, rest)
    | .part rest =>
      let (name, rest) ← readText rest
      let (acc, rest) ← step acc name rest
      foldMembersFrom step fuel false acc rest

/-- The members of a record, behind its opening brace. -/
def foldMembers {σ : Type} (step : MemberStep σ) (init : σ) (bs : Bytes) :
    Except Problem (σ × Bytes) :=
  foldMembersFrom step (bs.length + 1) true init bs

/-! ### Values -/

/-- One more item of a list under way, the last one first. -/
def pushItem (read : Bytes → Except Problem (Json × Bytes)) : ItemStep (List Json) :=
  fun acc bs => do
    let (v, rest) ← read bs
    .ok (v :: acc, rest)

/-- One more member of a record under way; the last of a name counts. -/
def pushMember (read : Bytes → Except Problem (Json × Bytes)) : MemberStep Members :=
  fun acc name bs => do
    let (v, rest) ← read (← readColon bs)
    .ok (Members.insert name v acc, rest)

/-- A value that is not in brackets, by its first byte. -/
def readScalar (b : UInt8) (rest : Bytes) : Except Problem (Json × Bytes) :=
  if b = 110 then do .ok (.null, ← word ull rest)
  else if b = 116 then do .ok (.flag true, ← word rue rest)
  else if b = 102 then do .ok (.flag false, ← word alse rest)
  else if b = minus then readNumber true rest
  else if isDigit b then readNumber false (b :: rest)
  else if b = quote then do
    let (s, rest) ← readText rest
    .ok (.text s, rest)
  else .error (next .expectedValue (b :: rest))

/-- A value, at most `depth` levels of brackets deep. -/
def readValue (depth : Nat) (bs : Bytes) : Except Problem (Json × Bytes) :=
  match skipSpace bs with
  | [] => .error (next .endInValue [])
  | b :: rest =>
    if b = openList then
      match depth with
      | 0 => .error (next .tooDeep (b :: rest))
      | depth + 1 => do
        let (items, rest) ← foldItems (pushItem fun bs => readValue depth bs) [] rest
        .ok (.list items.reverse, rest)
    else if b = openRecord then
      match depth with
      | 0 => .error (next .tooDeep (b :: rest))
      | depth + 1 => do
        let (members, rest) ← foldMembers (pushMember fun bs => readValue depth bs) [] rest
        .ok (.record members, rest)
    else readScalar b rest

/-- The levels of brackets that a text may have. -/
def depthLimit : Nat := 127

/-- Nothing but blanks may be left. -/
def readEnd (bs : Bytes) : Except Problem Unit :=
  match skipSpace bs with
  | [] => .ok ()
  | b :: rest => .error (next .trailingCharacters (b :: rest))

/-- Reads a whole text with a reader for what it holds. -/
def readWith {α : Type} (read : Bytes → Except Problem (α × Bytes)) (bs : Bytes) :
    Except Failure α :=
  match (do
    let (a, rest) ← read bs
    readEnd rest
    return a) with
  | .ok a => .ok a
  | .error p => .error (p.report bs)

/-- The value that a text holds. -/
def ofBytes (bs : Bytes) : Except Failure Json := readWith (readValue depthLimit) bs

end Switchboard.Json
