/-
Switchboard/Json/Value.lean

JSON values.  Numbers are of two sorts: integers that fit 64 bits, with or
without a sign, and doubles.  The members of a record are kept in ascending
order of their names, one member a name.
-/
import Switchboard.Double.Basic

namespace Switchboard

/-- A JSON value. -/
inductive Json where
  | null
  | flag (b : Bool)
  | integer (n : Int)
  | double (d : Double)
  | text (s : String)
  | list (items : List Json)
  | record (members : List (String × Json))

/-- The members of a record. -/
abbrev Members := List (String × Json)

namespace Members

/-- The members with one more; it takes the place of a member of the same name. -/
def insert (name : String) (v : Json) : Members → Members
  | [] => [(name, v)]
  | (k, w) :: rest =>
    if name < k then (name, v) :: (k, w) :: rest
    else if name = k then (name, v) :: rest
    else (k, w) :: insert name v rest

/-- The members listed, each inserted in turn. -/
def ofList (ms : List (String × Json)) : Members := ms.foldl (fun acc m => insert m.1 m.2 acc) []

/-- The value of a member. -/
def find? (name : String) (ms : Members) : Option Json := ms.lookup name

end Members

namespace Json

/-- A record of the members listed, in any order. -/
def ofMembers (ms : List (String × Json)) : Json := .record (Members.ofList ms)

/-- The integers that are kept as integers. -/
def FitsInteger (n : Int) : Prop := -0x8000000000000000 ≤ n ∧ n < 0x10000000000000000

instance (n : Int) : Decidable (FitsInteger n) := inferInstanceAs (Decidable (_ ∧ _))

/-! ### Equality of contents -/

mutual

/-- Are two values equal, doubles as numbers?  Only the two zeros are equal and yet two. -/
def same : Json → Json → Bool
  | .null, .null => true
  | .flag a, .flag b => a == b
  | .integer a, .integer b => a == b
  | .double a, .double b => a.sameNumber b
  | .text a, .text b => a == b
  | .list a, .list b => sameItems a b
  | .record a, .record b => sameMembers a b
  | _, _ => false

/-- Equality item by item. -/
def sameItems : List Json → List Json → Bool
  | [], [] => true
  | a :: as, b :: bs => same a b && sameItems as bs
  | _, _ => false

/-- Equality member by member, with the names. -/
def sameMembers : List (String × Json) → List (String × Json) → Bool
  | [], [] => true
  | (j, a) :: as, (k, b) :: bs => j == k && same a b && sameMembers as bs
  | _, _ => false

end

end Json

end Switchboard
