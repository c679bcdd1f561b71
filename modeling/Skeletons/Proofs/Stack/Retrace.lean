import Skeletons.Instruction.Interpret
import Skeletons.Proofs.Stack.Retag

namespace Skeletons

mutual

def Instruction.retrace (change : Trace → Trace) : Instruction → Instruction
  | .seq execute trace => .seq execute (change trace)
  | .ifElse condition whenTrue whenFalse trace =>
    .ifElse condition (Stack.retrace change whenTrue) (Stack.retrace change whenFalse) (change trace)
  | .choice outcome whenTrue whenFalse trace =>
    .choice outcome (Stack.retrace change whenTrue) (Stack.retrace change whenFalse) (change trace)
  | .split templates merge trace path =>
    .split (Stack.retraceAll change templates) merge (change trace) path
  | .divide condition split merge solve trace path =>
    .divide condition split merge (Stack.retrace change solve) (change trace) path
  | .merge merge trace => .merge merge (change trace)
  | .signal event => .signal { event with trace := change event.trace }
  | .whileLoop condition body trace iteration =>
    .whileLoop condition (Stack.retrace change body) (change trace) iteration
  | .forLoop times body trace iteration =>
    .forLoop times (Stack.retrace change body) (change trace) iteration

def Stack.retrace (change : Trace → Trace) : List Instruction → List Instruction
  | [] => []
  | instruction :: rest => instruction.retrace change :: Stack.retrace change rest

def Stack.retraceAll (change : Trace → Trace) : List (List Instruction) → List (List Instruction)
  | [] => []
  | stack :: rest => Stack.retrace change stack :: Stack.retraceAll change rest

end

mutual

theorem Instruction.retag_eq_retrace (depth : Nat) (occurrence : UInt64) : ∀ instruction : Instruction,
    instruction.retag depth occurrence = instruction.retrace (Trace.retag · depth occurrence)
  | .seq _ _ | .merge _ _ | .signal _ => rfl
  | .ifElse _ whenTrue whenFalse _ | .choice _ whenTrue whenFalse _ => by
    rw [Instruction.retag, Stack.retag_eq_retrace _ _ whenTrue, Stack.retag_eq_retrace _ _ whenFalse]
    rfl
  | .split templates _ _ _ => by
    rw [Instruction.retag, Stack.retagAll_eq_retraceAll _ _ templates]
    rfl
  | .divide _ _ _ solve _ _ => by
    rw [Instruction.retag, Stack.retag_eq_retrace _ _ solve]
    rfl
  | .whileLoop _ body _ _ | .forLoop _ body _ _ => by
    rw [Instruction.retag, Stack.retag_eq_retrace _ _ body]
    rfl

theorem Stack.retag_eq_retrace (depth : Nat) (occurrence : UInt64) : ∀ stack : List Instruction,
    Stack.retag depth occurrence stack = Stack.retrace (Trace.retag · depth occurrence) stack
  | [] => rfl
  | instruction :: rest => by
    rw [Stack.retag, Instruction.retag_eq_retrace _ _ instruction, Stack.retag_eq_retrace _ _ rest]
    rfl

theorem Stack.retagAll_eq_retraceAll (depth : Nat) (occurrence : UInt64) :
    ∀ templates : List (List Instruction),
      Stack.retagAll depth occurrence templates =
        Stack.retraceAll (Trace.retag · depth occurrence) templates
  | [] => rfl
  | stack :: rest => by
    rw [Stack.retagAll, Stack.retag_eq_retrace _ _ stack, Stack.retagAll_eq_retraceAll _ _ rest]
    rfl

end

section

variable (first second : Trace → Trace)

mutual

theorem Instruction.retrace_retrace : ∀ instruction : Instruction,
    (instruction.retrace first).retrace second = instruction.retrace fun trace => second (first trace)
  | .seq _ _ | .merge _ _ | .signal _ => rfl
  | .ifElse _ whenTrue whenFalse _ | .choice _ whenTrue whenFalse _ => by
    simp only [Instruction.retrace, Stack.retrace_retrace whenTrue, Stack.retrace_retrace whenFalse]
  | .split templates _ _ _ => by
    simp only [Instruction.retrace, Stack.retraceAll_retraceAll templates]
  | .divide _ _ _ solve _ _ => by simp only [Instruction.retrace, Stack.retrace_retrace solve]
  | .whileLoop _ body _ _ | .forLoop _ body _ _ => by
    simp only [Instruction.retrace, Stack.retrace_retrace body]

theorem Stack.retrace_retrace : ∀ stack : List Instruction,
    Stack.retrace second (Stack.retrace first stack) =
      Stack.retrace (fun trace => second (first trace)) stack
  | [] => rfl
  | instruction :: rest => by
    simp only [Stack.retrace, Instruction.retrace_retrace instruction, Stack.retrace_retrace rest]

theorem Stack.retraceAll_retraceAll : ∀ templates : List (List Instruction),
    Stack.retraceAll second (Stack.retraceAll first templates) =
      Stack.retraceAll (fun trace => second (first trace)) templates
  | [] => rfl
  | stack :: rest => by
    simp only [Stack.retraceAll, Stack.retrace_retrace stack, Stack.retraceAll_retraceAll rest]

end

end

namespace Stack

theorem retrace_eq_map (change : Trace → Trace) (stack : Stack) :
    retrace change stack = stack.map (Instruction.retrace change) := by
  induction stack with
  | nil => rfl
  | cons instruction rest ih => exact congrArg (_ :: ·) ih

theorem retraceAll_eq_map (change : Trace → Trace) (templates : List Stack) :
    retraceAll change templates = templates.map (retrace change) := by
  induction templates with
  | nil => rfl
  | cons template rest ih => exact congrArg (_ :: ·) ih

end Stack

namespace Trace

def blank (trace : Trace) : Trace := trace.map fun _ => default

@[simp] theorem length_blank (trace : Trace) : trace.blank.length = trace.length := List.length_map _

theorem blank_eq_replicate (trace : Trace) : trace.blank = List.replicate trace.length default :=
  List.map_const'

theorem blank_eq_blank_iff {first second : Trace} : first.blank = second.blank ↔ first.length = second.length := by
  constructor
  · intro same
    simpa only [length_blank] using congrArg List.length same
  · intro same
    rw [blank_eq_replicate, blank_eq_replicate, same]

@[simp] theorem blank_blank (trace : Trace) : trace.blank.blank = trace.blank :=
  blank_eq_blank_iff.mpr trace.length_blank

@[simp] theorem blank_retag (trace : Trace) (depth : Nat) (occurrence : UInt64) :
    (trace.retag depth occurrence).blank = trace.blank :=
  blank_eq_blank_iff.mpr (trace.length_retag depth occurrence)

@[simp] theorem isEmpty_blank (trace : Trace) : trace.blank.isEmpty = trace.isEmpty := List.isEmpty_map

end Trace

/-- An instruction of which only the lengths of its traces are left. Two instructions agree in it exactly when
    they are equal except for what their traces tell. -/
def Instruction.untraced (instruction : Instruction) : Instruction := instruction.retrace Trace.blank

def Stack.untraced (stack : Stack) : Stack := Stack.retrace Trace.blank stack

def Event.untraced (event : Event) : Event := { event with trace := event.trace.blank }

@[simp] theorem Event.untraced_untraced (event : Event) : event.untraced.untraced = event.untraced := by
  simp only [untraced, Trace.blank_blank]

def Child.untraced (child : Child) : Child := { child with stack := child.stack.untraced }

namespace Instruction

variable (execute : Execute) (condition : Condition) (split : Split) (merger : Merge) (first second : Stack)
  (templates : List Stack) (trace : Trace) (outcome : Bool)

@[simp] theorem untraced_seq : (seq execute trace).untraced = .seq execute trace.blank := rfl

@[simp] theorem untraced_ifElse :
    (ifElse condition first second trace).untraced =
      .ifElse condition (Stack.untraced first) (Stack.untraced second) trace.blank := rfl

@[simp] theorem untraced_choice :
    (choice outcome first second trace).untraced =
      .choice outcome (Stack.untraced first) (Stack.untraced second) trace.blank := rfl

@[simp] theorem untraced_split (path : Option RecursionPath) :
    (Instruction.split templates merger trace path).untraced =
      .split (templates.map Stack.untraced) merger trace.blank path := by
  simp only [untraced, retrace, Stack.retraceAll_eq_map]
  rfl

@[simp] theorem untraced_divide (path : RecursionPath) :
    (divide condition split merger first trace path).untraced =
      .divide condition split merger (Stack.untraced first) trace.blank path := rfl

@[simp] theorem untraced_merge : (merge merger trace).untraced = .merge merger trace.blank := rfl

@[simp] theorem untraced_signal (event : Event) : (signal event).untraced = .signal event.untraced := rfl

@[simp] theorem untraced_whileLoop (iteration : UInt64) :
    (whileLoop condition first trace iteration).untraced =
      .whileLoop condition (Stack.untraced first) trace.blank iteration := rfl

@[simp] theorem untraced_forLoop (times iteration : UInt64) :
    (forLoop times first trace iteration).untraced =
      .forLoop times (Stack.untraced first) trace.blank iteration := rfl

@[simp] theorem untraced_report (phase : Phase) (point : Point) (payload : Value) :
    (report phase point trace payload).untraced = report phase point trace.blank payload := rfl

end Instruction

namespace Stack

@[simp] theorem untraced_nil : untraced [] = [] := rfl

@[simp] theorem untraced_cons (instruction : Instruction) (rest : Stack) :
    untraced (instruction :: rest) = instruction.untraced :: untraced rest := rfl

@[simp] theorem untraced_append (first second : Stack) :
    untraced (first ++ second) = untraced first ++ untraced second := by
  simp only [untraced, retrace_eq_map, List.map_append]

@[simp] theorem untraced_untraced (stack : Stack) : stack.untraced.untraced = stack.untraced := by
  simp only [untraced, retrace_retrace, Trace.blank_blank]

@[simp] theorem untraced_retag (depth : Nat) (occurrence : UInt64) (stack : Stack) :
    untraced (Stack.retag depth occurrence stack) = untraced stack := by
  simp only [untraced, retag_eq_retrace, retrace_retrace, Trace.blank_retag]

end Stack

end Skeletons
