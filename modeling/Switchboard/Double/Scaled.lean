/-
Switchboard/Double/Scaled.lean

A decimal `s * 10 ^ e` read in a few floating steps: `s` is rounded, and
then multiplied or divided by a rounded power of ten.  Each step rounds, so
the result may be a neighbour of the nearest double.
-/
import Switchboard.Double.Basic

namespace Switchboard.Double

/-- The greatest power of ten that is used in one step. -/
def greatestStep : Nat := 308

/-- The double nearest to `10 ^ k`. -/
def powerOfTen? (k : Nat) : Option Double := ofNat? (Nat.pow 10 k)

/-- The double `f / 10 ^ k`, by steps of at most `10 ^ 308`.  A magnitude that has become zero stays
so. -/
def scaleDown? (f : Double) (k : Nat) : Option Double :=
  if k ≤ greatestStep then do f.div? (← powerOfTen? k)
  else if f.isZero then some f
  else do
    let g ← f.div? (← powerOfTen? greatestStep)
    scaleDown? g (k - greatestStep)
termination_by k
decreasing_by simp only [greatestStep] at *; omega

/-- The double `f * 10 ^ k`; none if the result, or the power itself, is past the greatest
double. -/
def scaleUp? (f : Double) (k : Nat) : Option Double :=
  if k ≤ greatestStep then do f.mul? (← powerOfTen? k)
  else if f.isZero then some f
  else none

/-- The magnitude `s * 10 ^ e`; none if it is out of range. -/
def ofDecimal? (s : Nat) (e : Int) : Option Double := do
  let f ← ofNat? s
  if 0 ≤ e then scaleUp? f e.toNat else scaleDown? f (-e).toNat

end Switchboard.Double
