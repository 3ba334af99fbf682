/-
Switchboard/Double/Shortest.lean

A double as text: the fewest digits that still read back as this double, and
of those the nearest to it.  The digits are searched for by their number: on
the grid of `n`-digit decimals only the two neighbours of the value can read
back, so one of them is taken or `n` grows.
-/
import Switchboard.Double.Basic
import Switchboard.Text.Digits

namespace Switchboard.Double

open Text

/-! ### The digits -/

/-- An interval of reals around a value, over a common unit: the reals that round to it. -/
structure Room where
  low : Nat
  value : Nat
  high : Nat
  /-- Do the ends belong to it? -/
  closed : Bool

/-- The reals that round to a double, in quarters of its unit.  Below a power of two the
neighbour is only half as far. -/
def room (d : Double) : Room where
  low := 4 * d.mantissa -
    (if 2 * d.mantissa = mantissaBound ∧ d.exponent > minExponent then 1 else 2)
  value := 4 * d.mantissa
  high := 4 * d.mantissa + 2
  closed := d.mantissa % 2 == 0

/-- Does the real `x / unit` lie in the interval? -/
def Room.contains (r : Room) (unit x : Nat) : Bool :=
  if r.closed then r.low * unit ≤ x && x ≤ r.high * unit
  else r.low * unit < x && x < r.high * unit

/-- Of the grid `k * step` the point that reads back: the lower neighbour of the value, or the
upper one where it alone lies in the interval or is nearer (or as near and even).  All numbers
are over the common denominator `unit`. -/
def Room.onGrid? (r : Room) (unit step : Nat) : Option Nat :=
  let v := r.value * unit
  let k := v / step
  let low := r.contains unit (k * step)
  let high := r.contains unit ((k + 1) * step)
  let below := v - k * step
  let above := (k + 1) * step - v
  if low && high then
    some (if below < above || (below == above && k % 2 == 0) then k else k + 1)
  else if low then some k
  else if high then some (k + 1)
  else none

/-- The decimal exponent of the first digit of `n / d`: the greatest `e` with `10 ^ e ≤ n / d`,
looked for downwards from `top`. -/
def leading (n d : Nat) : Nat → Int → Int
  | 0, top => top
  | fuel + 1, top =>
    if d * Nat.pow 10 top.toNat ≤ n * Nat.pow 10 (-top).toNat then top else leading n d fuel (top - 1)

/-- The decimal digits of a positive magnitude, fewest first: tries `count` more digit counts, from
`n` digits on.  The answer is the digits as a number and the exponent of its last digit. -/
def searchDigits (d : Double) (first : Int) : Nat → Nat → Nat × Int
  | 0, n => (d.num * Nat.pow 10 n / d.den, -(n : Int))
  | count + 1, n =>
    let last := first - (n - 1 : Nat)
    -- the quarter unit is `2 ^ (exponent - 2)`, and the grid step `10 ^ last`
    let quarter := d.exponent - 2
    let unit := Nat.pow 2 quarter.toNat * Nat.pow 10 (-last).toNat
    let step := Nat.pow 10 last.toNat * Nat.pow 2 (-quarter).toNat
    match (room d).onGrid? unit step with
    | some k => (k, last)
    | none => searchDigits d first count (n + 1)

/-- A number without the zeros at its end, and how many there were. -/
def stripZeros : Nat → Nat → Nat × Nat
  | 0, n => (n, 0)
  | fuel + 1, n =>
    if n % 10 = 0 then
      let (m, z) := stripZeros fuel (n / 10)
      (m, z + 1)
    else (n, 0)

/-- The shortest digits of a positive magnitude and the decimal exponent of the first of them. -/
def shortest (d : Double) : List Char × Int :=
  let top : Int := ((d.num / d.den).log2 / 3 : Nat) + 1
  let (k, last) := searchDigits d (leading d.num d.den 400 top) 17 1
  let ds := decimal (stripZeros 20 k).1
  (ds, last + ((decimal k).length - 1 : Nat))

/-! ### The text -/

/-- The least exponent of the first digit that is written without an exponent part. -/
def leastPlain : Int := -5

/-- The greatest such exponent. -/
def greatestPlain : Int := 15

/-- Digits with the exponent of the first of them, written out: plain and always with a
fraction in the plain range, else with one digit before the point and a signed exponent. -/
def layout (ds : List Char) (e : Int) : List Char :=
  if leastPlain ≤ e ∧ e ≤ greatestPlain then
    if e < 0 then '0' :: '.' :: List.replicate (-e - 1).toNat '0' ++ ds
    else
      let whole := e.toNat + 1
      if ds.length ≤ whole then ds ++ List.replicate (whole - ds.length) '0' ++ ['.', '0']
      else ds.take whole ++ '.' :: ds.drop whole
  else
    let tail := match ds with
      | d :: r => if r.isEmpty then [d] else d :: '.' :: r
      | [] => []
    tail ++ 'e' :: (if e < 0 then '-' else '+') :: decimal e.natAbs

/-- The text of a double. -/
def text (d : Double) : List Char :=
  let body := if d.isZero then ['0', '.', '0'] else
    let (ds, e) := shortest d
    layout ds e
  if d.negative then '-' :: body else body

end Switchboard.Double
