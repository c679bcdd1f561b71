import Skeletons.Decimal.Stepwise
import Skeletons.Json

namespace Skeletons

namespace Numeral

/-- Gives a spelling with a sign its value; a number beyond all doubles has none. -/
abbrev Rule := Bool → Decimal.Spelling → Option Numeral

def isKept (n : Int) : Bool := decide (-Number.signWeight ≤ n ∧ n ≤ Number.maxCount)

/-- The whole number that a spelling is, if it is kept as one; `-0` is none. -/
def whole? (negative : Bool) (spelling : Decimal.Spelling) : Option Int := do
  let n ← if spelling.fraction.isNone ∧ spelling.power.isNone then Decimal.digitsValue? spelling.whole else none
  let signed := if negative then -(n : Int) else n
  if isKept signed ∧ ¬(negative ∧ n = 0) then some signed else none

def nearest : Rule := fun negative spelling =>
  match whole? negative spelling with
  | some n => some (.integer n)
  | none => do
    let x := (← spelling.value? negative).toNumber
    if x.isFinite then return .real x else none

def stepwise : Rule := fun negative spelling =>
  match whole? negative spelling with
  | some n => some (.integer n)
  | none => spelling.stepwise?.map fun x => .real (if negative then -x else x)

end Numeral

namespace Json

/-- The parts of a JSON text, well formed and nothing more: numbers are spelled, and containers nest
    as deep as they like. A text that is not sound is `none`. -/
inductive Form where
  | null
  | bool (value : Bool)
  | number (negative : Bool) (spelling : Decimal.Spelling)
  | text (value : Option String)
  | array (items : List Form)
  | object (members : List (Option String × Form))
deriving Inhabited

def depthLimit : Nat := 127

namespace Form

mutual

/-- The document of a form whose containers nest at most `depth` deep. -/
def toJson? (rule : Numeral.Rule) (depth : Nat) : Form → Option Json
  | .null => some .null
  | .bool b => some (.bool b)
  | .number negative spelling => (rule negative spelling).map .number
  | .text s => s.map .text
  | .array items =>
    if depth = 0 then none else (toJsonItems? rule (depth - 1) items).map .array
  | .object members =>
    if depth = 0 then none else (toJsonMembers? rule (depth - 1) members).map .object

def toJsonItems? (rule : Numeral.Rule) (depth : Nat) : List Form → Option (List Json)
  | [] => some []
  | item :: rest => do return (← toJson? rule depth item) :: (← toJsonItems? rule depth rest)

def toJsonMembers? (rule : Numeral.Rule) (depth : Nat) :
    List (Option String × Form) → Option (List (String × Json))
  | [] => some []
  | (name, form) :: rest => do
    return (← name, ← toJson? rule depth form) :: (← toJsonMembers? rule depth rest)

end

end Form

end Json

end Skeletons
