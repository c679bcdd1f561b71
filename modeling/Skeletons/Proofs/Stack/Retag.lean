import Skeletons.Instruction

namespace Skeletons

namespace Trace

@[simp] theorem length_retag (trace : Trace) (depth : Nat) (occurrence : UInt64) :
    (trace.retag depth occurrence).length = trace.length :=
  List.length_modify _ trace depth

@[simp] theorem length_nest (trace : Trace) (frame : Frame) :
    (trace.nest frame).length = trace.length + 1 :=
  List.length_append

theorem retag_nest_of_lt (trace : Trace) (frame : Frame) (occurrence : UInt64) {depth : Nat}
    (reached : depth < trace.length) :
    (trace.nest frame).retag depth occurrence = (trace.retag depth occurrence).nest frame := by
  simp only [retag, nest]
  induction trace generalizing depth with
  | nil => cases reached
  | cons outer rest ih =>
    cases depth with
    | zero => rfl
    | succ depth =>
      simp only [List.cons_append, List.modify_succ_cons]
      rw [ih (Nat.lt_of_succ_lt_succ reached)]

theorem retag_nest_length (trace : Trace) (frame : Frame) (occurrence : UInt64) :
    (trace.nest frame).retag trace.length occurrence = trace.nest { frame with occurrence } := by
  simp only [retag, nest]
  induction trace with
  | nil => rfl
  | cons outer rest ih =>
    simp only [List.cons_append, List.length_cons, List.modify_succ_cons]
    rw [ih]

theorem retag_ne_nil {trace : Trace} (depth : Nat) (occurrence : UInt64) (traced : trace ≠ []) :
    trace.retag depth occurrence ≠ [] := by
  rw [← List.length_pos_iff] at traced ⊢
  rwa [length_retag]

theorem nest_ne_nil (trace : Trace) (frame : Frame) : trace.nest frame ≠ [] :=
  List.append_ne_nil_of_right_ne_nil trace (List.cons_ne_nil frame [])

end Trace

namespace Stack

theorem retag_append (depth : Nat) (occurrence : UInt64) (first second : Stack) :
    retag depth occurrence (first ++ second) =
      retag depth occurrence first ++ retag depth occurrence second := by
  induction first with
  | nil => rfl
  | cons instruction rest ih => exact congrArg (_ :: ·) ih

theorem retag_cons (depth : Nat) (occurrence : UInt64) (instruction : Instruction) (rest : Stack) :
    retag depth occurrence (instruction :: rest) =
      instruction.retag depth occurrence :: retag depth occurrence rest := rfl

theorem retagAll_eq_map (depth : Nat) (occurrence : UInt64) (templates : List Stack) :
    retagAll depth occurrence templates = templates.map (retag depth occurrence) := by
  induction templates with
  | nil => rfl
  | cons template rest ih => exact congrArg (_ :: ·) ih

end Stack

mutual

theorem Instruction.copy_eq : ∀ instruction : Instruction, instruction.copy = instruction
  | .seq _ _ | .merge _ _ | .signal _ => rfl
  | .ifElse _ whenTrue whenFalse _ | .choice _ whenTrue whenFalse _ => by
    rw [Instruction.copy, Stack.copy_eq whenTrue, Stack.copy_eq whenFalse]
  | .split templates _ _ _ => by rw [Instruction.copy, Stack.copyAll_eq templates]
  | .divide _ _ _ solve _ _ => by rw [Instruction.copy, Stack.copy_eq solve]
  | .whileLoop _ body _ _ | .forLoop _ body _ _ => by rw [Instruction.copy, Stack.copy_eq body]

theorem Stack.copy_eq : ∀ stack : List Instruction, Stack.copy stack = stack
  | [] => rfl
  | instruction :: rest => by rw [Stack.copy, Instruction.copy_eq instruction, Stack.copy_eq rest]

theorem Stack.copyAll_eq : ∀ templates : List (List Instruction), Stack.copyAll templates = templates
  | [] => rfl
  | stack :: rest => by rw [Stack.copyAll, Stack.copy_eq stack, Stack.copyAll_eq rest]

end

end Skeletons
