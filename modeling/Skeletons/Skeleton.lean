import Skeletons.Muscle
import Skeletons.Trace

namespace Skeletons

/-- A node of a tree of control patterns filled with muscles, with its identifier. -/
inductive Skeleton where
  | seq (id : UInt64) (execute : Execute)
  | pipe (id : UInt64) (first second : Skeleton)
  | ifElse (id : UInt64) (condition : Condition) (whenTrue whenFalse : Skeleton)
  | whileLoop (id : UInt64) (condition : Condition) (body : Skeleton)
  | forLoop (id : UInt64) (times : UInt64) (body : Skeleton)
  | map (id : UInt64) (split : Split) (body : Skeleton) (merge : Merge)
  | fork (id : UInt64) (split : Split) (branches : List Skeleton) (merge : Merge)
  | divide (id : UInt64) (condition : Condition) (split : Split) (solve : Skeleton)
      (merge : Merge)

namespace Skeleton

def id : Skeleton → UInt64
  | .seq id _ => id
  | .pipe id _ _ => id
  | .ifElse id _ _ _ => id
  | .whileLoop id _ _ => id
  | .forLoop id _ _ => id
  | .map id _ _ _ => id
  | .fork id _ _ _ => id
  | .divide id _ _ _ _ => id

def kind : Skeleton → Kind
  | .seq .. => .seq
  | .pipe .. => .pipe
  | .ifElse .. => .ifElse
  | .whileLoop .. => .whileLoop
  | .forLoop .. => .forLoop
  | .map .. => .map
  | .fork .. => .fork
  | .divide .. => .divide

def frame (skeleton : Skeleton) : Frame := ⟨skeleton.id, skeleton.kind, 0⟩

def children : Skeleton → List Skeleton
  | .seq .. => []
  | .pipe _ first second => [first, second]
  | .ifElse _ _ whenTrue whenFalse => [whenTrue, whenFalse]
  | .whileLoop _ _ body => [body]
  | .forLoop _ _ body => [body]
  | .map _ _ body _ => [body]
  | .fork _ _ branches _ => branches
  | .divide _ _ _ solve _ => [solve]

def muscleNames : Skeleton → List String
  | .seq _ execute => [execute.name]
  | .pipe .. => []
  | .ifElse _ condition _ _ => [condition.name]
  | .whileLoop _ condition _ => [condition.name]
  | .forLoop .. => []
  | .map _ split _ merge => [split.name, merge.name]
  | .fork _ split _ merge => [split.name, merge.name]
  | .divide _ condition split _ merge => [condition.name, split.name, merge.name]

end Skeleton

end Skeletons
