import Skeletons.Event
import Skeletons.Muscle
import Skeletons.RecursionPath

namespace Skeletons

/-- One step of a compiled program. Instructions hold stacks of their own: the branches of a
    condition, the body of a loop, the templates of a split, the leaf of a division. -/
inductive Instruction where
  | seq (execute : Execute) (trace : Trace)
  | ifElse (condition : Condition) (whenTrue whenFalse : List Instruction) (trace : Trace)
  | choice (outcome : Bool) (whenTrue whenFalse : List Instruction) (trace : Trace)
  /-- Hands every element of a list to a task of its own. There is one template for all elements or one
      for each; with a path, the split is a recursion of a divide-and-conquer computation. -/
  | split (templates : List (List Instruction)) (merge : Merge) (trace : Trace)
      (path : Option RecursionPath)
  | divide (condition : Condition) (split : Split) (merge : Merge) (solve : List Instruction)
      (trace : Trace) (path : RecursionPath)
  | merge (merge : Merge) (trace : Trace)
  | signal (event : Event)
  | whileLoop (condition : Condition) (body : List Instruction) (trace : Trace)
      (iteration : UInt64)
  | forLoop (times : UInt64) (body : List Instruction) (trace : Trace) (iteration : UInt64)

/-- The remaining work of a task, what runs next first. -/
abbrev Stack := List Instruction

namespace Instruction

def trace : Instruction → Trace
  | .seq _ trace => trace
  | .ifElse _ _ _ trace => trace
  | .choice _ _ _ trace => trace
  | .split _ _ trace _ => trace
  | .divide _ _ _ _ trace _ => trace
  | .merge _ trace => trace
  | .signal event => event.trace
  | .whileLoop _ _ trace _ => trace
  | .forLoop _ _ trace _ => trace

def kindName : Instruction → String
  | .seq .. => "seq"
  | .ifElse .. => "if"
  | .choice .. => "choice"
  | .split .. => "split"
  | .divide .. => "dac"
  | .merge .. => "merge"
  | .signal .. => "event"
  | .whileLoop .. => "while"
  | .forLoop .. => "for"

end Instruction

mutual

/-- An instruction with another occurrence at `depth` of its trace and of every trace stored inside it.
    Traces that do not reach `depth` stay as they are. -/
def Instruction.retag (depth : Nat) (occurrence : UInt64) : Instruction → Instruction
  | .seq execute trace => .seq execute (trace.retag depth occurrence)
  | .ifElse condition whenTrue whenFalse trace =>
    .ifElse condition (Stack.retag depth occurrence whenTrue)
      (Stack.retag depth occurrence whenFalse) (trace.retag depth occurrence)
  | .choice outcome whenTrue whenFalse trace =>
    .choice outcome (Stack.retag depth occurrence whenTrue)
      (Stack.retag depth occurrence whenFalse) (trace.retag depth occurrence)
  | .split templates merge trace path =>
    .split (Stack.retagAll depth occurrence templates) merge (trace.retag depth occurrence) path
  | .divide condition split merge solve trace path =>
    .divide condition split merge (Stack.retag depth occurrence solve)
      (trace.retag depth occurrence) path
  | .merge merge trace => .merge merge (trace.retag depth occurrence)
  | .signal event => .signal { event with trace := event.trace.retag depth occurrence }
  | .whileLoop condition body trace iteration =>
    .whileLoop condition (Stack.retag depth occurrence body) (trace.retag depth occurrence)
      iteration
  | .forLoop times body trace iteration =>
    .forLoop times (Stack.retag depth occurrence body) (trace.retag depth occurrence) iteration

def Stack.retag (depth : Nat) (occurrence : UInt64) : List Instruction → List Instruction
  | [] => []
  | instruction :: rest =>
    instruction.retag depth occurrence :: Stack.retag depth occurrence rest

def Stack.retagAll (depth : Nat) (occurrence : UInt64) :
    List (List Instruction) → List (List Instruction)
  | [] => []
  | stack :: rest => Stack.retag depth occurrence stack :: Stack.retagAll depth occurrence rest

end

mutual

/-- An instruction built anew from its parts, down to every stack inside it. -/
def Instruction.copy : Instruction → Instruction
  | .seq execute trace => .seq execute trace
  | .ifElse condition whenTrue whenFalse trace =>
    .ifElse condition (Stack.copy whenTrue) (Stack.copy whenFalse) trace
  | .choice outcome whenTrue whenFalse trace =>
    .choice outcome (Stack.copy whenTrue) (Stack.copy whenFalse) trace
  | .split templates merge trace path => .split (Stack.copyAll templates) merge trace path
  | .divide condition split merge solve trace path =>
    .divide condition split merge (Stack.copy solve) trace path
  | .merge merge trace => .merge merge trace
  | .signal event => .signal event
  | .whileLoop condition body trace iteration =>
    .whileLoop condition (Stack.copy body) trace iteration
  | .forLoop times body trace iteration => .forLoop times (Stack.copy body) trace iteration

def Stack.copy : List Instruction → List Instruction
  | [] => []
  | instruction :: rest => instruction.copy :: Stack.copy rest

def Stack.copyAll : List (List Instruction) → List (List Instruction)
  | [] => []
  | stack :: rest => Stack.copy stack :: Stack.copyAll rest

end

end Skeletons
