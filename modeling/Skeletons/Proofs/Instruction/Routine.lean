import Skeletons.Instruction.Routine
import Skeletons.Proofs.Stack.Retag

namespace Skeletons

theorem Trace.renumber_eq (trace : Trace) (depth : Nat) (occurrence : UInt64) :
    trace.renumber depth occurrence = .ok (trace.retag depth occurrence) := by
  unfold renumber
  by_cases reached : depth < trace.length
  · rw [if_pos reached, withOccurrenceAt, if_pos reached]
  · rw [if_neg reached, retag, List.modify_eq_self (Nat.not_lt.mp reached)]

mutual

theorem Instruction.renumber_eq (depth : Nat) (occurrence : UInt64) : ∀ instruction : Instruction,
    instruction.renumber depth occurrence = .ok (instruction.retag depth occurrence)
  | .seq _ trace | .merge _ trace => by
    rw [Instruction.renumber, trace.renumber_eq]
    rfl
  | .signal event => by
    rw [Instruction.renumber, event.trace.renumber_eq]
    rfl
  | .ifElse _ whenTrue whenFalse trace | .choice _ whenTrue whenFalse trace => by
    rw [Instruction.renumber, trace.renumber_eq, Stack.renumber_eq depth occurrence whenTrue,
      Stack.renumber_eq depth occurrence whenFalse]
    rfl
  | .split templates _ trace _ => by
    rw [Instruction.renumber, trace.renumber_eq, Stack.renumberAll_eq depth occurrence templates]
    rfl
  | .divide _ _ _ body trace _ | .whileLoop _ body trace _ | .forLoop _ body trace _ => by
    rw [Instruction.renumber, trace.renumber_eq, Stack.renumber_eq depth occurrence body]
    rfl

theorem Stack.renumber_eq (depth : Nat) (occurrence : UInt64) : ∀ stack : List Instruction,
    Stack.renumber depth occurrence stack = .ok (Stack.retag depth occurrence stack)
  | [] => rfl
  | instruction :: rest => by
    rw [Stack.renumber, Instruction.renumber_eq depth occurrence instruction,
      Stack.renumber_eq depth occurrence rest]
    rfl

theorem Stack.renumberAll_eq (depth : Nat) (occurrence : UInt64) :
    ∀ templates : List (List Instruction),
      Stack.renumberAll depth occurrence templates = .ok (Stack.retagAll depth occurrence templates)
  | [] => rfl
  | stack :: rest => by
    rw [Stack.renumberAll, Stack.renumber_eq depth occurrence stack,
      Stack.renumberAll_eq depth occurrence rest]
    rfl

end

theorem Stack.numbered_eq (depth : Nat) (occurrence : UInt64) (stack : Stack) :
    Stack.numbered depth occurrence stack = .ok (Stack.retag depth occurrence stack) := by
  rw [numbered, renumber_eq]
  rfl

namespace Split

theorem buildChild_eq (trace : Trace) (template : Stack) (index : Nat) (input : Value) :
    buildChild trace template index input = .ok (child trace template index input) := by
  rw [buildChild, Stack.copy_eq, Stack.numbered_eq]
  rfl

theorem buildChildren_eq (templates : List Stack) (trace : Trace) (start : Nat) (inputs : List Value) :
    buildChildren templates trace start inputs = .ok (children templates trace start inputs) := by
  induction inputs generalizing start with
  | nil => rfl
  | cons input rest ih =>
    simp only [buildChildren, buildChild_eq, ih]
    rfl

theorem buildRecursion_eq (template : Stack) (path : RecursionPath) (index : Nat) (input : Value) :
    buildRecursion template path index input = recursion template path index input := by
  unfold buildRecursion
  rw [Stack.copy_eq]
  cases template with
  | nil => rfl
  | cons top below =>
    cases top with
    | divide condition split merge solve trace old =>
      simp only [recursion, Stack.numbered_eq]
      by_cases untraced : trace.isEmpty
      · simp only [if_pos untraced]
        rfl
      · simp only [if_neg untraced]
        rfl
    | _ => rfl

theorem buildRecursions_eq (template : Stack) (path : RecursionPath) (start : Nat) (inputs : List Value) :
    buildRecursions template path start inputs = recursions template path start inputs := by
  induction inputs generalizing start with
  | nil => rfl
  | cons input rest ih => simp only [buildRecursions, recursions, buildRecursion_eq, ih]

theorem build_eq (templates : List Stack) (trace : Trace) (path : Option RecursionPath) (inputs : List Value) :
    build templates trace path inputs = spawn templates trace path inputs := by
  cases path with
  | none =>
    simp only [build, spawn, buildChildren_eq]
    split
    · rfl
    · rfl
  | some path =>
    rcases templates with _ | ⟨template, _ | ⟨second, rest⟩⟩
    · rfl
    · exact buildRecursions_eq template path 0 inputs
    · rfl

end Split

def Bench.settled (bench : Bench) : Except Failure Effect → Except Failure Value × Bench
  | .error failure => (.error failure, bench)
  | .ok effect =>
    (.ok effect.value,
      ⟨effect.pushed ++ bench.stack, bench.children ++ effect.children, bench.events ++ effect.events⟩)

namespace Working

variable {bench : Bench} {work : Working Value} {value : Value}

theorem settled_bind {α : Type} (result : Except Failure α) {act : α → Working Value}
    {next : α → Except Failure Effect}
    (each : ∀ answer, (act answer).run.run bench = bench.settled (next answer)) :
    (liftM result >>= act : Working Value).run.run bench = bench.settled (result >>= next) := by
  cases result with
  | error failure => rfl
  | ok answer => exact each answer

theorem settled_pushed {pushed : Stack}
    (acted : work.run.run bench = (.ok value, { bench with stack := pushed ++ bench.stack })) :
    work.run.run bench = bench.settled (.ok { value, pushed }) := by
  simp only [acted, Bench.settled, List.append_nil]

theorem settled_call (result : Except Failure Value) :
    (liftM result : Working Value).run.run bench = bench.settled (result >>= fun value => pure { value }) := by
  cases result with
  | error failure => rfl
  | ok value =>
    apply settled_pushed
    rfl

theorem settled_spawned {pushed : Stack} {children : List Child}
    (acted : work.run.run bench =
      (.ok value, { bench with stack := pushed ++ bench.stack, children := bench.children ++ children })) :
    work.run.run bench = bench.settled (.ok { value, pushed, children }) := by
  simp only [acted, Bench.settled, List.append_nil]

theorem settled_notified {event : Event}
    (acted : work.run.run bench = (.ok value, { bench with events := bench.events ++ [event] })) :
    work.run.run bench = bench.settled (.ok { value, events := [event] }) := by
  simp only [acted, Bench.settled, List.append_nil, List.nil_append]

end Working

open Working

/-- Carrying out an instruction act by act comes to its effect: a failure comes before the first act. -/
theorem Instruction.carryOut_eq (instruction : Instruction) (limit : Nat) (input : Value) (bench : Bench) :
    (instruction.carryOut limit input).run.run bench = bench.settled (instruction.effect limit input) := by
  cases instruction with
  | seq execute trace => exact settled_call (execute.call input)
  | ifElse condition whenTrue whenFalse trace =>
    apply settled_bind
    intro outcome
    apply settled_pushed
    rfl
  | choice outcome whenTrue whenFalse trace =>
    apply settled_pushed
    rfl
  | split templates merger trace path =>
    cases input with
    | list items =>
      by_cases deep : limit < trace.length + (path.getD []).length
      · simp only [carryOut, effect, if_pos deep]
        rfl
      · simp only [carryOut, effect, if_neg deep, Split.build_eq]
        apply settled_bind
        intro children
        apply settled_spawned
        cases path with
        | none => rfl
        | some path => rfl
    | _ => rfl
  | divide condition divider merger solve trace path =>
    apply settled_bind
    intro outcome
    cases outcome with
    | true =>
      apply settled_pushed
      rfl
    | false =>
      apply settled_pushed
      simp only [List.cons_append, List.append_assoc]
      rfl
  | merge merger trace =>
    cases input with
    | list results => exact settled_call (merger.call results)
    | _ => rfl
  | signal event =>
    apply settled_notified
    rfl
  | whileLoop condition body trace iteration =>
    simp only [carryOut, effect, Stack.copy_eq, Stack.numbered_eq]
    apply settled_bind
    intro outcome
    cases outcome with
    | false =>
      apply settled_pushed
      rfl
    | true =>
      apply settled_pushed
      simp only [List.cons_append, List.append_assoc]
      rfl
  | forLoop times body trace iteration =>
    simp only [carryOut, effect, Stack.copy_eq, Stack.numbered_eq]
    by_cases ended : times ≤ iteration
    · rw [if_pos ended, if_pos ended]
      apply settled_pushed
      rfl
    · rw [if_neg ended, if_neg ended]
      apply settled_pushed
      simp only [List.cons_append, List.append_assoc]
      rfl

theorem Instruction.interpret_eq (instruction : Instruction) (limit : Nat) (input : Value) (stack : Stack)
    (children : List Child) :
    instruction.interpret limit input stack children =
      match instruction.effect limit input with
      | .error failure => ⟨.error failure, stack, children, []⟩
      | .ok effect => ⟨.ok effect.value, effect.pushed ++ stack, children ++ effect.children, effect.events⟩ := by
  rw [interpret, carryOut_eq]
  cases instruction.effect limit input with
  | error failure => rfl
  | ok effect => rfl

end Skeletons
