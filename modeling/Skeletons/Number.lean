namespace Skeletons

/-- A double-precision number, given by its bits. Equality of this type is equality of bits, so it
    tells `-0.0` from `0.0` and one NaN from another; numeric equality is `Number.same`. -/
structure Number where
  bits : UInt64
deriving DecidableEq, Inhabited

namespace Number

def signWeight : Nat := 0x8000000000000000

def exponentWeight : Nat := 0x10000000000000

def isNegative (x : Number) : Bool := decide (signWeight ≤ x.bits.toNat)

/-- The bits below the sign. Among numbers of one sign they grow with the absolute value. -/
def magnitude (x : Number) : Nat := x.bits.toNat % signWeight

/-- The magnitude of both infinities; every NaN lies above it. -/
def infinityMagnitude : Nat := 0x7ff0000000000000

def isNaN (x : Number) : Bool := decide (infinityMagnitude < x.magnitude)

def isFinite (x : Number) : Bool := decide (x.magnitude < infinityMagnitude)

def ofMagnitude (negative : Bool) (magnitude : Nat) : Number :=
  ⟨UInt64.ofNat ((if negative then signWeight else 0) + magnitude)⟩

def zero : Number := ⟨0⟩

def nan : Number := ⟨0x7ff8000000000000⟩

/-- The NaN that an invalid operation on two proper numbers produces: negative and quiet. -/
def invalid : Number := ⟨0xfff8000000000000⟩

/-- Place in the numeric order; both zeros have place `0`. -/
def rank (x : Number) : Int := if x.isNegative then -(x.magnitude : Int) else x.magnitude

/-- Place in the order of all bit patterns: negative NaN first, `-0.0` just below `0.0`, positive
    NaN last. -/
def totalRank (x : Number) : Int := if x.isNegative then -(x.magnitude : Int) - 1 else x.magnitude

/-- Numeric `≤`; nothing is comparable with a NaN. -/
def le (x y : Number) : Bool := !x.isNaN && !y.isNaN && decide (x.rank ≤ y.rank)

def lt (x y : Number) : Bool := !x.isNaN && !y.isNaN && decide (x.rank < y.rank)

/-- Numeric equality: the zeros are equal, a NaN equals nothing. -/
def same (x y : Number) : Bool := !x.isNaN && !y.isNaN && decide (x.rank = y.rank)

def totalLe (x y : Number) : Bool := decide (x.totalRank ≤ y.totalRank)

/-- A finite number is `± significand * 2 ^ exponent`. -/
def significand (x : Number) : Nat :=
  if x.magnitude < exponentWeight then x.magnitude
  else x.magnitude % exponentWeight + exponentWeight

def exponent (x : Number) : Int :=
  if x.magnitude < exponentWeight then -1074 else (x.magnitude / exponentWeight : Nat) - 1075

def wholePart (x : Number) : Nat :=
  if 0 ≤ x.exponent then x.significand * Nat.pow 2 x.exponent.toNat
  else x.significand / Nat.pow 2 (-x.exponent).toNat

def isWhole (x : Number) : Bool :=
  x.isFinite && (decide (0 ≤ x.exponent) || x.significand % Nat.pow 2 (-x.exponent).toNat == 0)

def toInt? (x : Number) : Option Int :=
  if x.isWhole then some (if x.isNegative then -(x.wholePart : Int) else x.wholePart) else none

def maxCount : Nat := 0xffffffffffffffff

/-- A count: cut to a whole number, held between `0` and `maxCount`; a NaN counts as `0`. -/
def toCount (x : Number) : Nat :=
  if x.isNaN || x.isNegative then 0
  else if x.isFinite then min x.wholePart maxCount
  else maxCount

/-- A count as `toCount` gives it, but of the nearest whole number, halves going up. -/
def toNearestCount (x : Number) : Nat :=
  if x.isNaN || x.isNegative then 0
  else if x.isFinite then
    if 0 ≤ x.exponent then min x.wholePart maxCount
    else
      let unit := Nat.pow 2 (-x.exponent).toNat
      min ((2 * x.significand + unit) / (2 * unit)) maxCount
  else maxCount

def toFloat (x : Number) : Float := Float.ofBits x.bits

def ofFloat (x : Float) : Number := ⟨x.toBits⟩

def quiet (x : Number) : Number := ⟨x.bits ||| 0x0008000000000000⟩

/-- An operation of two numbers: a NaN among the operands is handed on, the first one first, and an
    operation without a proper result gives `invalid`. -/
def lift (operation : Float → Float → Float) (x y : Number) : Number :=
  if x.isNaN then x.quiet
  else if y.isNaN then y.quiet
  else
    let result := operation x.toFloat y.toFloat
    if result.isNaN then invalid else ofFloat result

def add : Number → Number → Number := lift (· + ·)

def sub : Number → Number → Number := lift (· - ·)

def mul : Number → Number → Number := lift (· * ·)

def div : Number → Number → Number := lift (· / ·)

def neg (x : Number) : Number := ⟨x.bits ^^^ 0x8000000000000000⟩

instance : Add Number := ⟨add⟩
instance : Sub Number := ⟨sub⟩
instance : Mul Number := ⟨mul⟩
instance : Div Number := ⟨div⟩
instance : Neg Number := ⟨neg⟩

end Number

end Skeletons
