import Skeletons.Trace
import Skeletons.Value

namespace Skeletons

inductive Phase where
  | before
  | after
deriving DecidableEq, Inhabited

inductive Point where
  | condition
  | nested
  | merge
deriving DecidableEq, Inhabited

def Phase.name : Phase → String
  | .before => "before"
  | .after => "after"

def Phase.ofName? (name : String) : Option Phase :=
  [Phase.before, .after].find? fun phase => phase.name = name

def Point.name : Point → String
  | .condition => "condition"
  | .nested => "nested_skeleton"
  | .merge => "merge"

def Point.ofName? (name : String) : Option Point :=
  [Point.condition, .nested, .merge].find? fun point => point.name = name

/-- A report. The payload is the outcome of a condition, the number of a child, stage or iteration,
    or a recursion path. -/
structure Event where
  phase : Phase
  point : Point
  trace : Trace
  payload : Value
deriving Inhabited

def Event.isAt (event : Event) (phase : Phase) (point : Point) : Bool :=
  event.phase = phase && event.point = point

end Skeletons
