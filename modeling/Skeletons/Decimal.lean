import Skeletons.Number.Rounding

namespace Skeletons

/-- The number `± digits * 10 ^ exponent`. -/
structure Decimal where
  negative : Bool
  digits : Nat
  exponent : Int
deriving DecidableEq, Inhabited

def decimalDigits (n : Nat) : List Char := Nat.toDigits 10 n

namespace Decimal

/-- Decimals of this order or more exceed every finite number; those of minus this order or less
    round to zero. -/
def orderLimit : Int := 400

def order (d : Decimal) : Int := (decimalDigits d.digits).length + d.exponent - 1

def toNumber (d : Decimal) : Number :=
  if d.digits = 0 ∨ d.order < -orderLimit then .ofMagnitude d.negative 0
  else if orderLimit < d.order then .ofMagnitude d.negative Number.infinityMagnitude
  else if 0 ≤ d.exponent then .ofRatio d.negative (d.digits * Nat.pow 10 d.exponent.toNat) 1
  else .ofRatio d.negative d.digits (Nat.pow 10 (-d.exponent).toNat)

def trimmed (d : Decimal) : Decimal :=
  let zeros := ((decimalDigits d.digits).reverse.takeWhile (· = '0')).length
  if d.digits = 0 then d
  else { d with digits := d.digits / Nat.pow 10 zeros, exponent := d.exponent + zeros }

def digitsValue? : List Char → Option Nat :=
  List.foldl (fun value c => value.bind fun value =>
    if c.isDigit then some (10 * value + (c.toNat - '0'.toNat)) else none) (some 0)

def signed : List Char → Bool × List Char
  | '-' :: rest => (true, rest)
  | '+' :: rest => (false, rest)
  | rest => (false, rest)

def readExponent? (text : List Char) : Option Int :=
  let (negative, digits) := signed text
  if digits.isEmpty then none
  else (digitsValue? digits).map fun n => if negative then -(n : Int) else n

/-- The parts of an unsigned decimal as it is written: digits before the point, digits after it
    if there is a point, and what follows the exponent letter if there is one. -/
structure Spelling where
  whole : List Char
  fraction : Option (List Char)
  power : Option (List Char)

def Spelling.ofText (text : List Char) : Spelling :=
  let isPower := fun c : Char => c = 'e' || c = 'E'
  let plain := text.takeWhile fun c => !isPower c
  let power := match text.dropWhile fun c => !isPower c with
    | [] => none
    | _ :: rest => some rest
  let fraction := match plain.dropWhile (· ≠ '.') with
    | [] => none
    | _ :: rest => some rest
  ⟨plain.takeWhile (· ≠ '.'), fraction, power⟩

def Spelling.value? (spelling : Spelling) (negative : Bool) : Option Decimal := do
  let fraction := spelling.fraction.getD []
  let digits ← digitsValue? (spelling.whole ++ fraction)
  let power ← match spelling.power with
    | none => some 0
    | some text => readExponent? text
  return ⟨negative, digits, power - fraction.length⟩

/-- Digits with the point in its place and no exponent; a whole number has no point. -/
def positional (d : Decimal) : List Char :=
  let digits := decimalDigits d.digits
  let sign := if d.negative then ['-'] else []
  if 0 ≤ d.exponent then
    sign ++ (if d.digits = 0 then digits else digits ++ List.replicate d.exponent.toNat '0')
  else
    let places := (-d.exponent).toNat
    let padded := List.replicate (places + 1 - digits.length) '0' ++ digits
    sign ++ padded.take (padded.length - places) ++ '.' :: padded.drop (padded.length - places)

def scientific (d : Decimal) : List Char :=
  let digits := decimalDigits d.digits
  let sign := if d.negative then ['-'] else []
  let fraction := if digits.length ≤ 1 then [] else '.' :: digits.drop 1
  let power := (if d.order < 0 then '-' else '+') :: decimalDigits d.order.natAbs
  sign ++ digits.take 1 ++ fraction ++ 'e' :: power

end Decimal

end Skeletons
