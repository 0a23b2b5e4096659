/-!
This module contains the numbers of stored documents and their value as a double. A whole number that fits
a 64 bit word is kept exactly; every other number is a significand scaled by a power of ten.
-/

namespace LexiconAudit

inductive Json.Number where
  | integer (n : Int)
  | decimal (negative : Bool) (significand : UInt64) (exponent : Int)
  deriving DecidableEq, Repr, Inhabited

namespace Json.Number

def maxExponent : Nat := 308

def powerOfTen (n : Nat) : Float :=
  Float.ofScientific 1 false n

/--
Scale a double by a power of ten. There is none when the result is out of range; a result that is too
small becomes zero.
-/
def scale? (x : Float) (exponent : Int) : Option Float :=
  if exponent.natAbs ≤ maxExponent then
    if exponent < 0 then
      some (x / powerOfTen exponent.natAbs)
    else
      let y := x * powerOfTen exponent.natAbs
      if y.isInf then none else some y
  else if x == 0 then
    some x
  else if exponent < 0 then
    scale? (x / powerOfTen maxExponent) (exponent + maxExponent)
  else
    none
termination_by exponent.natAbs
decreasing_by simp only [maxExponent] at *; omega

/--
The double that a number stands for: its significand as a double, scaled by its power of ten. Each of the
two steps rounds.
-/
def toFloat? : Number → Option Float
  | integer n => some (Float.ofInt n)
  | decimal negative significand exponent =>
    (scale? significand.toFloat exponent).map fun x => if negative then -x else x

end Json.Number

end LexiconAudit
