/-
Switchboard/Instant/Basic.lean

Moments in universal time as the calendar names them: a date of the
proleptic Gregorian calendar and a time of day down to nanoseconds.  The
second may be 60, a leap second.  The bounds are part of the types, so every
`Date` and every `Instant` names a moment.
-/

namespace Switchboard

/-! ### Dates -/

namespace Date

/-- The first year that has dates. -/
def minYear : Int := -262143

/-- The last year that has dates. -/
def maxYear : Int := 262142

def isLeapYear (y : Int) : Bool := y % 4 == 0 && (y % 100 != 0 || y % 400 == 0)

/-- The number of days of a month. -/
def daysIn (y : Int) (m : Nat) : Nat :=
  if m = 2 then (if isLeapYear y then 29 else 28)
  else if m = 4 ∨ m = 6 ∨ m = 9 ∨ m = 11 then 30 else 31

/-- The calendar has this day. -/
def Valid (y : Int) (m d : Nat) : Prop :=
  minYear ≤ y ∧ y ≤ maxYear ∧ 1 ≤ m ∧ m ≤ 12 ∧ 1 ≤ d ∧ d ≤ daysIn y m

instance (y : Int) (m d : Nat) : Decidable (Valid y m d) :=
  inferInstanceAs (Decidable (_ ∧ _))

end Date

/-- A day of the calendar. -/
structure Date where
  year : Int
  month : Nat
  day : Nat
  valid : Date.Valid year month day
deriving DecidableEq

namespace Date

/-- The day with these numbers, if the calendar has it. -/
def ofNumbers? (y : Int) (m d : Nat) : Option Date :=
  if h : Valid y m d then some ⟨y, m, d, h⟩ else none

/-- The day after, unless the calendar ends. -/
def next? (t : Date) : Option Date :=
  (ofNumbers? t.year t.month (t.day + 1)).or <|
    (ofNumbers? t.year (t.month + 1) 1).or <| ofNumbers? (t.year + 1) 1 1

/-- The day before, unless the calendar begins. -/
def previous? (t : Date) : Option Date :=
  (ofNumbers? t.year t.month (t.day - 1)).or <|
    (ofNumbers? t.year (t.month - 1) (daysIn t.year (t.month - 1))).or <|
      ofNumbers? (t.year - 1) 12 31

end Date

/-! ### Instants -/

/-- A moment in universal time. -/
structure Instant where
  date : Date
  hour : Nat
  minute : Nat
  /-- The second, 60 in a leap second. -/
  second : Nat
  nano : Nat
  hour_lt : hour < 24
  minute_lt : minute < 60
  second_le : second ≤ 60
  nano_lt : nano < 1000000000
deriving DecidableEq

namespace Instant

/-- The moment with these numbers, if they are in their ranges. -/
def ofNumbers? (date : Date) (hour minute second nano : Nat) : Option Instant :=
  if h : hour < 24 ∧ minute < 60 ∧ second ≤ 60 ∧ nano < 1000000000 then
    some ⟨date, hour, minute, second, nano, h.1, h.2.1, h.2.2.1, h.2.2.2⟩
  else none

/-- The minutes of a day. -/
def dayMinutes : Int := 1440

/-- The moment that a clock `offset` minutes ahead of universal time shows as `local`, if the
calendar reaches that far. -/
def ofLocal? (shown : Instant) (offset : Int) : Option Instant := do
  let minutes : Int := (shown.hour * 60 + shown.minute : Nat) - offset
  let date ←
    if minutes < 0 then shown.date.previous?
    else if dayMinutes ≤ minutes then shown.date.next?
    else some shown.date
  let m := (minutes % dayMinutes).toNat
  ofNumbers? date (m / 60) (m % 60) shown.second shown.nano

/-- Why a text is not a moment. -/
inductive Fault where
  /-- The text ends too soon. -/
  | short
  /-- A character stands where another kind is needed. -/
  | invalid
  /-- A number is outside its range. -/
  | outOfRange
  /-- More follows after a complete moment. -/
  | trailing
  /-- Universal time would leave the calendar. -/
  | impossible
deriving DecidableEq, Repr

/-- The words for it. -/
def Fault.message : Fault → String
  | .short => "premature end of input"
  | .invalid => "input contains invalid characters"
  | .outOfRange => "input is out of range"
  | .trailing => "trailing input"
  | .impossible => "no possible date and time matching input"

end Instant

end Switchboard
