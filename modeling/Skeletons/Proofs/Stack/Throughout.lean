import Skeletons.Proofs.Instruction.Effect
import Skeletons.Proofs.Stack.Everywhere

namespace Skeletons

def Instruction.Plain : Instruction → Prop
  | .forLoop .. | .merge .. => False
  | _ => True

section

variable (execute : Execute) (condition : Condition) (split : Split) (merger : Merge) (first second : Stack)
  (templates : List Stack) (trace : Trace) (outcome : Bool)

@[simp] theorem Instruction.plain_seq : (Instruction.seq execute trace).Plain := trivial

@[simp] theorem Instruction.plain_ifElse : (Instruction.ifElse condition first second trace).Plain := trivial

@[simp] theorem Instruction.plain_choice : (Instruction.choice outcome first second trace).Plain := trivial

@[simp] theorem Instruction.plain_split (path : Option RecursionPath) :
    (Instruction.split templates merger trace path).Plain := trivial

@[simp] theorem Instruction.plain_divide (path : RecursionPath) :
    (Instruction.divide condition split merger first trace path).Plain := trivial

@[simp] theorem Instruction.plain_signal (event : Event) : (Instruction.signal event).Plain := trivial

@[simp] theorem Instruction.plain_whileLoop (iteration : UInt64) :
    (Instruction.whileLoop condition first trace iteration).Plain := trivial

end

/-- A property that no instruction loses in a run, and that can only be wrong of a merge or of a loop's
    counter. -/
structure Instruction.Lasting (holds : Instruction → Prop) : Prop where
  plain {instruction : Instruction} : instruction.Plain → holds instruction
  fresh {times : UInt64} {body : Stack} {trace : Trace} : holds (.forLoop times body trace 0)
  next {times : UInt64} {body : Stack} {trace : Trace} {iteration : UInt64} :
    iteration < times → holds (.forLoop times body trace (iteration + 1))
  retag {instruction : Instruction} (depth : Nat) (occurrence : UInt64) :
    holds instruction → holds (instruction.retag depth occurrence)

namespace Stack

def Throughout (holds : Instruction → Prop) (stack : Stack) : Prop :=
  Stack.Everywhere (fun _ instruction => holds instruction) (fun _ _ => ()) () stack

variable {holds : Instruction → Prop}

@[simp] theorem throughout_nil : Throughout holds [] := Everywhere.nil

@[simp] theorem throughout_cons (instruction : Instruction) (rest : Stack) :
    Throughout holds (instruction :: rest) ↔
      (holds instruction ∧ ∀ part ∈ instruction.parts, Throughout holds part) ∧ Throughout holds rest := by
  rw [Throughout, Everywhere.cons_iff, Instruction.everywhere_iff]
  rfl

@[simp] theorem throughout_append (first second : Stack) :
    Throughout holds (first ++ second) ↔ Throughout holds first ∧ Throughout holds second :=
  Everywhere.append_iff

theorem Throughout.retag (lasting : Instruction.Lasting holds) {stack : Stack} (given : Throughout holds stack)
    (depth : Nat) (occurrence : UInt64) : Throughout holds (Stack.retag depth occurrence stack) :=
  Everywhere.retag (fun here => ⟨lasting.retag depth occurrence here, rfl⟩) given

end Stack

namespace Skeleton

variable {holds : Instruction → Prop}

mutual

theorem throughout_compile (lasting : Instruction.Lasting holds) :
    ∀ (skeleton : Skeleton) (trace : Trace), Stack.Throughout holds (skeleton.compile trace)
  | .seq _ _, _ => by simp [compile, Instruction.parts, lasting.plain]
  | .pipe _ first second, trace => by
    have upper := throughout_compile lasting first (trace.nest first.frame)
    have lower := throughout_compile lasting second (trace.nest second.frame)
    simp [compile, report, Instruction.parts, lasting.plain, upper, lower]
  | .ifElse _ _ whenTrue whenFalse, trace => by
    have positive := throughout_compile lasting whenTrue (trace.nest whenTrue.frame)
    have negative := throughout_compile lasting whenFalse (trace.nest whenFalse.frame)
    simp [compile, report, Instruction.parts, lasting.plain, positive, negative]
  | .whileLoop _ _ body, trace | .map _ _ body _, trace => by
    have repeated := throughout_compile lasting body (trace.nest body.frame)
    simp [compile, report, Instruction.parts, lasting.plain, repeated]
  | .forLoop _ _ body, trace => by
    have repeated := throughout_compile lasting body (trace.nest body.frame)
    simp [compile, Instruction.parts, lasting.fresh, repeated]
  | .divide _ _ _ solve _, trace => by
    have leaf := throughout_compile lasting solve (trace.nest solve.frame)
    simp [compile, report, Instruction.parts, lasting.plain, leaf]
  | .fork _ _ branches _, trace => by
    have each := throughout_compileAll lasting branches trace
    simpa [compile, Instruction.parts, lasting.plain] using each

theorem throughout_compileAll (lasting : Instruction.Lasting holds) :
    ∀ (branches : List Skeleton) (trace : Trace),
      ∀ template ∈ compileAll trace branches, Stack.Throughout holds template
  | [], _, _, member => nomatch member
  | branch :: rest, trace, template, member => by
    rcases List.mem_cons.mp member with rfl | among
    · exact throughout_compile lasting branch _
    · exact throughout_compileAll lasting rest trace template among

end

end Skeleton

namespace Stack

variable {holds : Instruction → Prop} {limit : Nat} {rest : Stack} {instruction : Instruction}
  {value : Value} {effect : Effect}

/-- What a step leaves to do has the property again, or it is a merge that the step has put on top. -/
theorem throughout_onward (lasting : Instruction.Lasting holds)
    (given : Throughout holds (instruction :: rest)) (leads : instruction.Leads limit value effect) :
    (Throughout holds (effect.pushed ++ rest) ∧ effect.children = []) ∨
      ∃ templates merge trace path,
        instruction = .split templates merge trace path ∧
          effect.pushed = merging merge trace (path.elim .null RecursionPath.payload) ∧
            effect.value = .list [] := by
  rw [throughout_cons] at given
  obtain ⟨⟨here, inside⟩, below⟩ := given
  cases leads with
  | split => exact .inr ⟨_, _, _, _, rfl, rfl, rfl⟩
  | seq | merge | signal | finished => exact .inl ⟨below, rfl⟩
  | ifElse | divided | left | solved =>
    refine .inl ⟨?_, rfl⟩
    simp_all [report, Instruction.parts, lasting.plain]
  | @choice outcome whenTrue whenFalse trace =>
    refine .inl ⟨?_, rfl⟩
    simp only [Instruction.parts, List.forall_mem_cons] at inside
    cases outcome with
    | false => exact (throughout_append _ _).mpr ⟨inside.2.1, below⟩
    | true => exact (throughout_append _ _).mpr ⟨inside.1, below⟩
  | @again condition body trace iteration =>
    refine .inl ⟨?_, rfl⟩
    have repeated : Throughout holds body := inside body (List.mem_singleton_self body)
    have tagged := repeated.retag lasting trace.length iteration
    simp [report, Instruction.parts, lasting.plain, repeated, tagged, below]
  | @counted times body trace iteration less =>
    refine .inl ⟨?_, rfl⟩
    have repeated : Throughout holds body := inside body (List.mem_singleton_self body)
    have tagged := repeated.retag lasting trace.length iteration
    simp [report, Instruction.parts, lasting.plain, lasting.next less, repeated, tagged, below]

theorem throughout_spawned (lasting : Instruction.Lasting holds)
    (given : Throughout holds (instruction :: rest)) (leads : instruction.Leads limit value effect) :
    ∀ child ∈ effect.children, Throughout holds child.stack := by
  intro child member
  rw [throughout_cons] at given
  obtain ⟨⟨_, inside⟩, _⟩ := given
  cases leads with
  | @split templates merge trace path parts children listed shallow built =>
    cases path with
    | none =>
      obtain ⟨index, part, rfl⟩ := Split.mem_spawn_none built member
      have template : Throughout holds (Split.templateAt templates index) :=
        Split.templateAt_of inside throughout_nil index
      have tagged := template.retag lasting trace.length (UInt64.ofNat index)
      simp [Split.child, report, Instruction.parts, lasting.plain, tagged]
    | some path =>
      obtain ⟨condition, split, merge, solve, trace, old, below, index, part, rfl, _, rfl⟩ :=
        Split.mem_spawn_some built member
      have template := inside _ (List.mem_singleton_self _)
      simp only [throughout_cons, Instruction.parts] at template
      have recurring : Throughout holds (.divide condition split merge solve trace
          (path.child (UInt64.ofNat index)) :: below) :=
        (throughout_cons _ _).mpr ⟨⟨lasting.plain trivial, template.1.2⟩, template.2⟩
      have tagged := recurring.retag lasting (trace.length - 1) (path.child (UInt64.ofNat index)).id
      simpa [Split.recursionFrom, report, Instruction.parts, lasting.plain] using tagged
  | _ => cases member

end Stack

end Skeletons
