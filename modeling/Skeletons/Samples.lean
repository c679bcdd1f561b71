import Skeletons.Number.Rounding
import Skeletons.Skeleton.Builder

namespace Skeletons.Samples

def expectNumber (value : Value) : Except String Number :=
  match value.asNumber? with
  | some x => .ok x
  | none => .error ("expected a number, got " ++ value.typeName)

def expectList (value : Value) : Except String (List Value) :=
  match value.asList? with
  | some items => .ok items
  | none => .error ("expected a list, got " ++ value.typeName)

/-- The list of numbers that a muscle was given; the first item that is no number is reported. -/
def expectNumbers (value : Value) : Except String (List Number) := do
  (← expectList value).mapM expectNumber

def listOfNumbers (xs : List Number) : Value := .list (xs.map .number)

def onNumber (name : String) (f : Number → Number) : Execute where
  name := name
  apply value := do return .number (f (← expectNumber value))

def doubleThenIncrement : Build Skeleton := do
  let double ← Build.seq (onNumber "double" fun x => x * .ofNat 2)
  let increment ← Build.seq (onNumber "increment" fun x => x + .ofNat 1)
  Build.pipe double increment

def total (xs : List Number) : Number := xs.foldl (· + ·) .zero

def sumOfSquares : Build Skeleton := do
  let square := Build.seq (onNumber "square" fun x => x * x)
  let branches := [← square, ← square, ← square]
  Build.fork ⟨"identity", expectList⟩ branches
    ⟨"sum", fun parts => do return .number (total (← parts.mapM expectNumber))⟩

def absoluteValue : Build Skeleton := do
  let negate ← Build.seq (onNumber "negate" fun x => -x)
  let identity ← Build.seq ⟨"identity", .ok⟩
  Build.ifElse ⟨"negative", fun value => do return (← expectNumber value).lt .zero⟩ negate identity

/-- Two sorted lists merged into one. Of two heads that are numerically equal the one of the first list
    goes first; a head that is a NaN, or meets one, lets the second list go first. -/
def mergeSorted (xs ys : List Number) : List Number := List.merge xs ys Number.le

/-- The first half of a list and the rest; of an odd number the rest has one more. -/
def halves (xs : List Number) : List (List Number) :=
  [xs.take (xs.length / 2), xs.drop (xs.length / 2)]

def sortNumbers (xs : List Number) : List Number := xs.mergeSort Number.totalLe

def longerThan (threshold : Nat) : Condition where
  name := "longer-than-threshold"
  test value := .ok (match value.asList? with
    | some items => decide (max threshold 1 < items.length)
    | none => false)

def halve : Split where
  name := "halve"
  divide value := do return (halves (← expectNumbers value)).map listOfNumbers

def sort : Execute where
  name := "sort"
  apply value := do return listOfNumbers (sortNumbers (← expectNumbers value))

def mergeParts : Merge where
  name := "merge-sorted"
  combine parts := do
    let parts ← parts.mapM expectNumbers
    return listOfNumbers (parts.foldl mergeSorted [])

/-- Divides lists longer than `threshold` in halves, sorts what is left and merges on the way back. A
    threshold below one counts as one. -/
def mergeSort (threshold : Nat) : Build Skeleton := do
  let leaf ← Build.seq sort
  Build.divide (longerThan threshold) halve leaf mergeParts

end Skeletons.Samples
