import Skeletons.Skeleton

namespace Skeletons

/-- A construction that draws identifiers from a supply; the state is the next one. Children are
    built before their parent, so they have smaller identifiers than it. -/
abbrev Build := StateM UInt64

namespace Build

def firstId : UInt64 := 1

def freshId : Build UInt64 := modifyGet fun next => (next, next + 1)

def seq (execute : Execute) : Build Skeleton := return .seq (← freshId) execute

def pipe (first second : Skeleton) : Build Skeleton := return .pipe (← freshId) first second

/-- Pipes stages from left to right; there is no pipeline without a stage. -/
def pipeline? : List Skeleton → Build (Option Skeleton)
  | [] => return none
  | first :: rest => return some (← rest.foldlM pipe first)

def ifElse (condition : Condition) (whenTrue whenFalse : Skeleton) : Build Skeleton :=
  return .ifElse (← freshId) condition whenTrue whenFalse

def whileLoop (condition : Condition) (body : Skeleton) : Build Skeleton :=
  return .whileLoop (← freshId) condition body

def forLoop (times : UInt64) (body : Skeleton) : Build Skeleton :=
  return .forLoop (← freshId) times body

def map (split : Split) (body : Skeleton) (merge : Merge) : Build Skeleton :=
  return .map (← freshId) split body merge

def fork (split : Split) (branches : List Skeleton) (merge : Merge) : Build Skeleton :=
  return .fork (← freshId) split branches merge

def divide (condition : Condition) (split : Split) (solve : Skeleton) (merge : Merge) :
    Build Skeleton :=
  return .divide (← freshId) condition split solve merge

end Build

end Skeletons
