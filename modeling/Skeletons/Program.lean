import Skeletons.Instruction.Interpret
import Skeletons.Skeleton

namespace Skeletons

mutual

/-- The stack of a skeleton that `trace` leads to. Its parts are compiled under traces one frame longer. -/
def Skeleton.compile (trace : Trace) : Skeleton → Stack
  | .seq _ execute => [.seq execute trace]
  | .pipe _ first second =>
    report .before .nested trace (countPayload 0) :: first.compile (trace.nest first.frame)
      ++ report .after .nested trace (countPayload 0)
      :: report .before .nested trace (countPayload 1) :: second.compile (trace.nest second.frame)
      ++ [report .after .nested trace (countPayload 1)]
  | .ifElse _ condition whenTrue whenFalse =>
    [report .before .condition trace .null,
      .ifElse condition (whenTrue.compile (trace.nest whenTrue.frame))
        (whenFalse.compile (trace.nest whenFalse.frame)) trace]
  | .whileLoop _ condition body =>
    [report .before .condition trace .null,
      .whileLoop condition (body.compile (trace.nest body.frame)) trace 0]
  | .forLoop _ times body => [.forLoop times (body.compile (trace.nest body.frame)) trace 0]
  | .map _ split body merge =>
    [.seq split.asExecute trace, .split [body.compile (trace.nest body.frame)] merge trace none]
  | .fork _ split branches merge =>
    [.seq split.asExecute trace, .split (Skeleton.compileAll trace branches) merge trace none]
  | .divide _ condition split solve merge =>
    [report .before .condition trace (.list []),
      .divide condition split merge (solve.compile (trace.nest solve.frame)) trace []]

def Skeleton.compileAll (trace : Trace) : List Skeleton → List Stack
  | [] => []
  | branch :: rest => branch.compile (trace.nest branch.frame) :: Skeleton.compileAll trace rest

end

/-- A compiled skeleton: the identifier of its root and a stack that is only ever copied. -/
structure Program where
  root : UInt64
  template : Stack

namespace Program

def ofSkeleton (skeleton : Skeleton) : Program where
  root := skeleton.id
  template := skeleton.compile (Trace.nest [] skeleton.frame)

def instantiate (program : Program) : Stack := Stack.copy program.template

def rootText (program : Program) : String := s!"#{program.root}"

end Program

end Skeletons
