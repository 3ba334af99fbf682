/-
Switchboard/Double/Basic.lean

Finite numbers of the binary64 format, held exactly: a sign and
`mantissa * 2 ^ exponent`.  All arithmetic goes the same way: compute the
exact quotient of two natural numbers, then round it once to the nearest
double, a tie to the even mantissa.
-/

namespace Switchboard

/-- The finite double `± mantissa * 2 ^ exponent`.  Of the several ways to write a value the one
with the greatest mantissa below `2 ^ 53` is used, as far as the least exponent allows. -/
structure Double where
  negative : Bool
  mantissa : Nat
  exponent : Int
deriving DecidableEq, Repr

namespace Double

/-- The exponent of the smallest positive double. -/
def minExponent : Int := -1074

/-- The greatest exponent of a finite double. -/
def maxExponent : Int := 971

/-- The number of mantissas: each is below it. -/
def mantissaBound : Nat := 0x20000000000000

/-- Zero, of either sign. -/
def zero (negative : Bool) : Double := ⟨negative, 0, minExponent⟩

def isZero (d : Double) : Bool := d.mantissa == 0

/-- Equality of the numbers: the two zeros are one. -/
def sameNumber (a b : Double) : Bool := a == b || (a.isZero && b.isZero)

/-! ### The magnitude as an exact fraction -/

/-- The numerator of the magnitude. -/
def num (d : Double) : Nat := d.mantissa * Nat.pow 2 d.exponent.toNat

/-- The denominator of the magnitude, a power of two. -/
def den (d : Double) : Nat := Nat.pow 2 (-d.exponent).toNat

/-! ### Rounding -/

/-- The quotient `n / d` to the nearest natural number, a tie to the even one. -/
def divNearest (n d : Nat) : Nat :=
  let q := n / d
  let r := n % d
  if 2 * r > d ∨ (2 * r = d ∧ q % 2 = 1) then q + 1 else q

/-- The exponent at which the mantissa of `n / d` fills the mantissa's 53 bits, or the least
exponent if that is greater. -/
def exponentFor (n d : Nat) : Int :=
  let guess : Int := (Nat.log2 n : Int) - (Nat.log2 d : Int) - 52
  let fills := d * Nat.pow 2 (guess + 52).toNat ≤ n * Nat.pow 2 (-(guess + 52)).toNat
  max minExponent (if fills then guess else guess - 1)

/-- The double nearest to `± n / d`; none if that lies past the greatest one. -/
def ofRatio? (negative : Bool) (n d : Nat) : Option Double :=
  if n = 0 then some (zero negative)
  else
    let e := exponentFor n d
    let m := divNearest (n * Nat.pow 2 (-e).toNat) (d * Nat.pow 2 e.toNat)
    -- rounding up may need one bit more
    let (m, e) := if m = mantissaBound then (m / 2, e + 1) else (m, e)
    if e > maxExponent then none else some ⟨negative, m, e⟩

/-- The double nearest to a natural number. -/
def ofNat? (n : Nat) : Option Double := ofRatio? false n 1

/-- The product of two magnitudes. -/
def mul? (a b : Double) : Option Double := ofRatio? false (a.num * b.num) (a.den * b.den)

/-- The quotient of two magnitudes. -/
def div? (a b : Double) : Option Double := ofRatio? false (a.num * b.den) (a.den * b.num)

end Double

end Switchboard
