import Skeletons.Decimal

namespace Skeletons

namespace Number

def greatestPower : Nat := 308

def powerOfTen (n : Nat) : Number := .ofNat (Nat.pow 10 n)

/-- A number times a power of ten, or `none` beyond the greatest number. A power too small for one step is
    divided out in several, of which `steps` reach zero from every whole number of a word. -/
def scale? (x : Number) (power : Int) (steps : Nat) : Option Number :=
  if power.natAbs ≤ greatestPower then
    if 0 ≤ power then
      let scaled := x * powerOfTen power.natAbs
      if scaled.isFinite then some scaled else none
    else some (x / powerOfTen power.natAbs)
  else if x.magnitude = 0 then some x
  else if 0 ≤ power then none
  else match steps with
    | 0 => some .zero
    | steps + 1 => scale? (x / powerOfTen greatestPower) (power + greatestPower) steps

end Number

namespace Decimal

def appendDigits (value : Nat) : List Char → Nat × Nat
  | [] => (value, 0)
  | c :: rest =>
    let next := 10 * value + (c.toNat - '0'.toNat)
    if next ≤ Number.maxCount then appendDigits next rest else (value, rest.length + 1)

def greatestExponent : Nat := 0x7fffffff

namespace Spelling

/-- The number of a spelling without its sign, or `none` beyond the greatest number. As many digits
    as a word holds are taken as a whole number, and powers of ten do the rest. Every step rounds,
    so the outcome may lie beside the number nearest to the decimal; `Decimal.toNumber` gives the
    latter. -/
def stepwise? (spelling : Spelling) : Option Number := do
  let (whole, wholeLeft) := appendDigits 0 spelling.whole
  let fraction := spelling.fraction.getD []
  let (significand, fractionLeft) := appendDigits whole fraction
  let power ← match spelling.power with
    | none => some 0
    | some text => readExponent? text
  if greatestExponent < power.natAbs then
    if significand ≠ 0 ∧ 0 < power then none else return .zero
  else
    let exponent : Int := power + wholeLeft - (fraction.length - fractionLeft : Nat)
    Number.scale? (.ofNat significand) exponent 2

end Spelling

end Decimal

end Skeletons
