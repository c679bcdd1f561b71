import Skeletons.Decimal

namespace Skeletons

namespace Number

/-- A finite non-zero number as whole multiples of a common unit, with the interval of reals that
    round to it, whose ends belong to it when the significand is even. The number is `value /
    unit`. -/
structure Interval where
  lower : Nat
  value : Nat
  upper : Nat
  unit : Nat
  closed : Bool

/-- The interval of `x`, multiplied by `10 ^ (-grid)`. The gap below a power of two is half as wide
    as the gap above it. -/
def interval (x : Number) (grid : Int) : Interval :=
  let m := x.significand
  let q := x.exponent - 2
  let scale := Nat.pow 2 q.toNat * Nat.pow 10 (-grid).toNat
  let narrow := m == Number.exponentWeight && decide (-1074 < x.exponent)
  { lower := (4 * m - if narrow then 1 else 2) * scale
    value := 4 * m * scale
    upper := (4 * m + 2) * scale
    unit := Nat.pow 2 (-q).toNat * Nat.pow 10 grid.toNat
    closed := m % 2 == 0 }

def Interval.contains (range : Interval) (point : Nat) : Bool :=
  let point := point * range.unit
  if range.closed then decide (range.lower ≤ point ∧ point ≤ range.upper)
  else decide (range.lower < point ∧ point < range.upper)

/-- The whole number in the interval that is nearest to the value, if there is one; of two equally
    near ones the even one. -/
def Interval.nearest? (range : Interval) : Option Nat :=
  let below := range.value / range.unit
  let above := below + 1
  let rounded := roundDiv range.value range.unit
  match range.contains below, range.contains above with
  | true, true => some rounded
  | true, false => some below
  | false, true => some above
  | false, false => none

def leadingZeros : Nat → Nat → Nat → Nat
  | 0, _, _ => 0
  | limit + 1, numerator, denominator =>
    if denominator ≤ numerator then 0 else leadingZeros limit (10 * numerator) denominator + 1

def decimalOrder (x : Number) : Int :=
  let range := x.interval 0
  if range.unit ≤ range.value then (decimalDigits (range.value / range.unit)).length
  else 1 - leadingZeros 400 range.value range.unit

/-- The hit on the first grid from `count` digits on. Seventeen digits always suffice. -/
def firstHit (x : Number) (order : Int) : Nat → Nat → Decimal
  | 0, _ => ⟨x.isNegative, 0, 0⟩
  | tries + 1, count =>
    let grid := order - count
    match (x.interval grid).nearest? with
    | some digits => ⟨x.isNegative, digits, grid⟩
    | none => firstHit x order tries (count + 1)

/-- The shortest decimal that reads back as a finite number. Grids of one, two, … digits are tried
    in turn. On each, only the two neighbours of the number itself can lie in the interval first, so
    the first grid with a hit gives the fewest digits. -/
def shortest (x : Number) : Decimal :=
  if x.magnitude = 0 then ⟨x.isNegative, 0, 0⟩
  else (firstHit x x.decimalOrder 17 1).trimmed

end Number

end Skeletons
