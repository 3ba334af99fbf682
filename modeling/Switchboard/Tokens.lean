/-
Switchboard/Tokens.lean

Proof of identity by token.  Whoever asks gets a verdict; the table decides
by what it lists, and draws a fresh session where an entry names none.
-/
import Switchboard.Fault
import Switchboard.Text.Blank

namespace Switchboard

/-- What becomes of a token. -/
inductive Verdict where
  | accepted (who : Identity)
  | refused (reason : String)
  /-- The check itself breaks down. -/
  | broken

/-- A check of tokens, given a session name to use where it needs a fresh one. -/
abbrev Check := (freshSession : String) → (token : String) → Verdict

/-- The owner that an entry gives to its token. -/
structure Owner where
  user : String
  session : Option String
deriving DecidableEq

/-- The tokens that are known, each with its owner; of a token listed twice the last entry
counts. -/
structure TokenTable where
  owners : List (String × Owner)

namespace TokenTable

open Text

/-- No token is known. -/
def empty : TokenTable := ⟨[]⟩

/-- The table with an entry more, which takes the place of an entry for the same token. -/
def insert (t : TokenTable) (token : String) (owner : Owner) : TokenTable :=
  ⟨t.owners.filter (·.1 != token) ++ [(token, owner)]⟩

def find? (t : TokenTable) (token : String) : Option Owner := t.owners.lookup token

/-- The number of tokens known. -/
def size (t : TokenTable) : Nat := t.owners.length

def isEmpty (t : TokenTable) : Bool := t.owners.isEmpty

/-- The part before the first such character and the part after it. -/
def splitAt? (c : Char) (cs : List Char) : Option (List Char × List Char) :=
  match cs.span (· != c) with
  | (front, _ :: back) => some (front, back)
  | (_, []) => none

/-- The parts between commas. -/
def splitCommas : List Char → List (List Char)
  | [] => [[]]
  | c :: cs =>
    if c = ',' then [] :: splitCommas cs
    else match splitCommas cs with
      | p :: ps => (c :: p) :: ps
      | [] => [[c]]

/-- The owner `user` or `user:session`. -/
def ownerOf (cs : List Char) : Owner :=
  match splitAt? ':' cs with
  | some (user, session) => ⟨String.ofList user, some (String.ofList session)⟩
  | none => ⟨String.ofList cs, none⟩

/-- The entry `token=owner`, if neither its token nor its user is empty. -/
def entry? (cs : List Char) : Option (String × Owner) := do
  let (token, owner) ← splitAt? '=' cs
  let owner := ownerOf owner
  if token.isEmpty || owner.user.isEmpty then none else some (String.ofList token, owner)

/-- The entries of a list, trimmed, with the blank ones left out. -/
def entries (s : String) : List (List Char) :=
  ((splitCommas s.toList).map trim).filter (!·.isEmpty)

/-- The table that a comma-separated list writes, or what is wrong with its first bad entry. -/
def ofText (s : String) : Except Trouble TokenTable :=
  (entries s).foldlM (fun t e =>
    match entry? e with
    | some (token, owner) => .ok (t.insert token owner)
    | none => .error (.settings ("invalid token entry '" ++ String.ofList e ++ "'"))) empty

/-- The verdict on a token. -/
def check (t : TokenTable) : Check := fun freshSession token =>
  match t.find? token with
  | some owner => .accepted ⟨owner.user, owner.session.getD freshSession⟩
  | none => .refused "invalid token"

end TokenTable

end Switchboard
