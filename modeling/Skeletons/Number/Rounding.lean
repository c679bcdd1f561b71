import Skeletons.Number

namespace Skeletons

/-- The quotient rounded to the nearest whole number; a half goes to the even neighbour. -/
def roundDiv (numerator denominator : Nat) : Nat :=
  let quotient := numerator / denominator
  let twice := 2 * (numerator % denominator)
  if twice < denominator then quotient
  else if denominator < twice then quotient + 1
  else quotient + quotient % 2

namespace Number

def ratioBelowPower (numerator denominator : Nat) (exponent : Int) : Bool :=
  if 0 ≤ exponent then decide (numerator < denominator * Nat.pow 2 exponent.toNat)
  else decide (numerator * Nat.pow 2 (-exponent).toNat < denominator)

def unitExponent (numerator denominator : Nat) : Int :=
  let estimate : Int := numerator.log2 - denominator.log2
  let order := if ratioBelowPower numerator denominator estimate then estimate - 1 else estimate
  max (order - 52) (-1074)

/-- The magnitude of the number nearest to `numerator / denominator`, a tie going to the even
    fraction and anything beyond the greatest finite number to infinity. -/
def nearestMagnitude (numerator denominator : Nat) : Nat :=
  if numerator = 0 then 0
  else
    let exponent := unitExponent numerator denominator
    let fraction :=
      if 0 ≤ exponent then roundDiv numerator (denominator * Nat.pow 2 exponent.toNat)
      else roundDiv (numerator * Nat.pow 2 (-exponent).toNat) denominator
    min ((exponent + 1074).toNat * exponentWeight + fraction) infinityMagnitude

def ofRatio (negative : Bool) (numerator denominator : Nat) : Number :=
  ofMagnitude negative (nearestMagnitude numerator denominator)

def ofNat (n : Nat) : Number := ofRatio false n 1

def ofInt (n : Int) : Number := ofRatio (decide (n < 0)) n.natAbs 1

end Number

end Skeletons
