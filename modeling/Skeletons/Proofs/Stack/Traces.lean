import Mathlib.Data.List.Forall2
import Skeletons.Proofs.Stack.Retrace

namespace Skeletons

/-- A trace and the same trace with another number at `depth`, if it reaches that far. -/
structure Trace.Renumbered (depth : Nat) (number : UInt64) (original copy : Trace) : Prop where
  length : copy.length = original.length
  there : ∀ frame : Frame, original[depth]? = some frame → copy[depth]? = some { frame with occurrence := number }
  elsewhere : ∀ place, place ≠ depth → copy[place]? = original[place]?

theorem Trace.renumbered_retag (trace : Trace) (depth : Nat) (number : UInt64) :
    trace.Renumbered depth number (trace.retag depth number) where
  length := trace.length_retag depth number
  there := by
    intro frame found
    rw [retag, List.getElem?_modify_eq, found]
    rfl
  elsewhere := by
    intro place apart
    rw [retag, List.getElem?_modify_ne _ _ apart.symm]

mutual

def Instruction.traces : Instruction → List Trace
  | .seq _ trace | .merge _ trace => [trace]
  | .signal event => [event.trace]
  | .ifElse _ whenTrue whenFalse trace | .choice _ whenTrue whenFalse trace =>
    trace :: (Stack.traces whenTrue ++ Stack.traces whenFalse)
  | .split templates _ trace _ => trace :: Stack.tracesAll templates
  | .divide _ _ _ body trace _ | .whileLoop _ body trace _ | .forLoop _ body trace _ =>
    trace :: Stack.traces body

def Stack.traces : List Instruction → List Trace
  | [] => []
  | instruction :: rest => instruction.traces ++ Stack.traces rest

def Stack.tracesAll : List (List Instruction) → List Trace
  | [] => []
  | stack :: rest => Stack.traces stack ++ Stack.tracesAll rest

end

section

variable (change : Trace → Trace)

mutual

theorem Instruction.traces_retrace : ∀ instruction : Instruction,
    (instruction.retrace change).traces = instruction.traces.map change
  | .seq _ _ | .merge _ _ | .signal _ => rfl
  | .ifElse _ whenTrue whenFalse _ | .choice _ whenTrue whenFalse _ => by
    simp only [Instruction.retrace, Instruction.traces, List.map_cons, List.map_append,
      Stack.traces_retrace whenTrue, Stack.traces_retrace whenFalse]
  | .split templates _ _ _ => by
    simp only [Instruction.retrace, Instruction.traces, List.map_cons, Stack.tracesAll_retraceAll templates]
  | .divide _ _ _ body _ _ | .whileLoop _ body _ _ | .forLoop _ body _ _ => by
    simp only [Instruction.retrace, Instruction.traces, List.map_cons, Stack.traces_retrace body]

theorem Stack.traces_retrace : ∀ stack : List Instruction,
    Stack.traces (Stack.retrace change stack) = (Stack.traces stack).map change
  | [] => rfl
  | instruction :: rest => by
    simp only [Stack.retrace, Stack.traces, List.map_append, Instruction.traces_retrace instruction,
      Stack.traces_retrace rest]

theorem Stack.tracesAll_retraceAll : ∀ templates : List (List Instruction),
    Stack.tracesAll (Stack.retraceAll change templates) = (Stack.tracesAll templates).map change
  | [] => rfl
  | stack :: rest => by
    simp only [Stack.retraceAll, Stack.tracesAll, List.map_append, Stack.traces_retrace stack,
      Stack.tracesAll_retraceAll rest]

end

end

/-- A copy of a stack with another number at `depth`: without their traces the two are equal, and trace by trace
    they differ in that number only. -/
structure Stack.Renumbered (depth : Nat) (number : UInt64) (original copy : Stack) : Prop where
  alike : Stack.untraced copy = Stack.untraced original
  traces : List.Forall₂ (Trace.Renumbered depth number) (Stack.traces original) (Stack.traces copy)

theorem Stack.renumbered_retag (depth : Nat) (number : UInt64) (stack : Stack) :
    Stack.Renumbered depth number stack (Stack.retag depth number stack) where
  alike := untraced_retag depth number stack
  traces := by
    rw [retag_eq_retrace, traces_retrace, List.forall₂_map_right_iff, List.forall₂_same]
    intro trace _
    exact trace.renumbered_retag depth number

end Skeletons
