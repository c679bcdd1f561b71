import Skeletons.Proofs.Instruction.Origin
import Skeletons.Proofs.Run.Behaviour

namespace Skeletons

namespace Stack

theorem throughout_of_mem {holds : Instruction → Prop} {stack : Stack}
    (each : ∀ instruction ∈ stack, holds instruction ∧ ∀ part ∈ instruction.parts, Throughout holds part) :
    Throughout holds stack :=
  fun instruction member => Instruction.everywhere_iff.mpr (each instruction member)

def Made (root : Skeleton) (stack : Stack) : Prop :=
  Throughout (fun instruction => ∃ node, instruction.MadeFor root node) stack

end Stack

theorem Skeleton.made_compile {root : Skeleton} (node : Skeleton) {trace : Trace} (stands : root.Stands node trace) :
    Stack.Made root (node.compile trace) := by
  have parts (part : Skeleton) (child : part ∈ node.children) :
      Stack.Made root (part.compile (trace.nest part.frame)) :=
    made_compile part (stands.part child)
  refine Stack.throughout_of_mem fun instruction member => ?_
  rcases compile_cases member with ⟨own, inside⟩ | ⟨part, child, within⟩
  · refine ⟨⟨node, .compiled stands own⟩, fun stack held => ?_⟩
    obtain ⟨part, child, rfl⟩ := inside stack held
    exact parts part child
  · exact Stack.Throughout.mem (parts part child) within
termination_by sizeOf node
decreasing_by exact sizeOf_part child

namespace Stack

variable {root : Skeleton} {limit : Nat} {instruction written : Instruction} {rest : Stack} {value : Value}
  {effect : Effect}

theorem Made.lent (inside : ∀ part ∈ instruction.parts, Made root part) (lends : instruction.Lends written) :
    (∃ node, written.MadeFor root node) ∧ ∀ part ∈ written.parts, Made root part := by
  obtain ⟨part, held, inner, among, copied⟩ := lends
  obtain ⟨⟨node, made⟩, within⟩ := Throughout.mem (inside part held) among
  refine ⟨⟨node, made.copied copied⟩, copied.throughout (fun depth occurrence here => ?_) within⟩
  obtain ⟨node, made⟩ := here
  exact ⟨node, made.copied (.renumbered depth occurrence .same)⟩

theorem Made.onward (given : Made root (instruction :: rest)) (leads : instruction.Leads limit value effect) :
    Made root (effect.pushed ++ rest) := by
  obtain ⟨⟨⟨node, made⟩, inside⟩, below⟩ := (throughout_cons _ _).mp given
  refine (throughout_append _ _).mpr ⟨throughout_of_mem fun written member => ?_, below⟩
  by_cases lends : instruction.Lends written
  · exact Made.lent inside lends
  · have writes := (leads.pushed_cases member).resolve_left lends
    refine ⟨⟨node, made.pushed leads member lends⟩, fun part held => ?_⟩
    rcases writes.parts part held with inherited | rfl
    · exact inside part inherited
    · exact (throughout_cons _ _).mpr ⟨⟨⟨node, made⟩, inside⟩, throughout_nil⟩

theorem Made.spawned (given : Made root (instruction :: rest)) (leads : instruction.Leads limit value effect) :
    ∀ child ∈ effect.children, Made root child.stack := by
  intro child spawned
  obtain ⟨⟨⟨node, made⟩, inside⟩, _⟩ := (throughout_cons _ _).mp given
  refine throughout_of_mem fun written member => ?_
  by_cases lends : instruction.Lends written
  · exact Made.lent inside lends
  · obtain ⟨_, empty, _⟩ := (leads.spawned_cases made.place.2 spawned member).resolve_left lends
    refine ⟨⟨node, made.spawned leads spawned member lends⟩, fun part held => ?_⟩
    rw [empty] at held
    cases held

theorem Made.kept (root : Skeleton) (limit : Nat) : Kept limit fun _ stack => Made root stack where
  below given := ((throughout_cons _ _).mp given).2
  onward := Made.onward
  spawned := Made.spawned

end Stack

end Skeletons
