import Skeletons.Proofs.Program.Nesting
import Skeletons.Proofs.Stack.Coherent

namespace Skeletons

theorem Task.Lineage.coherent {limit : Nat} {skeleton : Skeleton} {input : Value} {above : Nat} {task : Task}
    (lineage : ((Program.ofSkeleton skeleton).task input).Lineage limit above task) :
    Stack.Throughout (Instruction.Coherent skeleton) task.stack ∧
      ∀ child ∈ task.children, Stack.Throughout (Instruction.Coherent skeleton) child.stack := by
  have idle : ((Program.ofSkeleton skeleton).task input).Idle := rfl
  refine lineage.keeps (Stack.coherent_kept skeleton limit) idle ?_
  rw [Program.task, Program.instantiate_ofSkeleton]
  exact Skeleton.coherent_compile skeleton (Trace.nest [] skeleton.frame) .root

namespace Program

/-- Of every instruction that a task or a child of it still has to run, or that stands anywhere inside one, the
    trace leads from the root to a node of the tree. It begins, with its occurrences, the traces of all
    instructions inside, which are longer; only the split of a division holds that division alone, at its own
    trace. -/
theorem traces_coherent {limit above : Nat} {skeleton : Skeleton} {input : Value} {task : Task}
    (lineage : ((ofSkeleton skeleton).task input).Lineage limit above task) {stack : Stack}
    (held : stack = task.stack ∨ ∃ child ∈ task.children, stack = child.stack) {instruction : Instruction}
    (reached : instruction ∈ stack ∨ ∃ outer ∈ stack, outer.Inside instruction) :
    (∃ node, skeleton.Path instruction.trace.labels node) ∧
      (∀ inner, instruction.Inside inner →
        instruction.trace.Encloses inner.trace ∨
          instruction.Recursive ∧ instruction.parts = [[inner]] ∧ inner.trace = instruction.trace) ∧
      (instruction.Recursive →
        ∃ condition split merge solve path,
          instruction.parts = [[.divide condition split merge solve instruction.trace path]]) := by
  have coherent : Stack.Throughout (Instruction.Coherent skeleton) stack := by
    rcases held with rfl | ⟨child, member, rfl⟩
    · exact lineage.coherent.1
    · exact lineage.coherent.2 child member
  have here : instruction.Coherent skeleton ∧
      ∀ part ∈ instruction.parts, Stack.Throughout (Instruction.Coherent skeleton) part := by
    rcases reached with member | ⟨outer, member, inside⟩
    · exact coherent.mem member
    · exact Stack.Throughout.inside (coherent.mem member).2 inside
  exact ⟨here.1.path, fun inner inside => Stack.Throughout.encloses here.1 here.2 inside, here.1.recurs⟩

theorem traces_coherent_dividedLists :
    ∃ task division leaf,
      ((ofSkeleton dividedLists).task (.list [.list [.null]])).Lineage 64 1 task ∧ division ∈ task.stack ∧
        division.Inside leaf ∧ (∃ node, dividedLists.Path leaf.trace.labels node) ∧
          division.trace.Encloses leaf.trace := by
  have start := @Task.Lineage.self 64 ((ofSkeleton dividedLists).task (.list [.list [.null]]))
  have once := Task.Lineage.child (start.steps 5) (List.mem_singleton_self _)
  obtain ⟨task, division, lineage, member, simple, leaf, inside⟩ : ∃ task division,
      ((ofSkeleton dividedLists).task (.list [.list [.null]])).Lineage 64 1 task ∧ division ∈ task.stack ∧
        ¬ division.Recursive ∧ ∃ leaf, division.Inside leaf := by
    refine ⟨_, _, once, List.mem_cons_of_mem _ (List.mem_singleton_self _), not_false, ?_⟩
    exact ⟨_, .deeper (.direct (List.mem_singleton_self _) (List.mem_cons_of_mem _ (List.mem_singleton_self _)))
      (List.mem_singleton_self _) (List.mem_singleton_self _)⟩
  have here := traces_coherent lineage (.inl rfl) (.inl member)
  have below := traces_coherent lineage (.inl rfl) (.inr ⟨division, member, inside⟩)
  refine ⟨task, division, leaf, lineage, member, inside, below.1, ?_⟩
  rcases here.2.1 leaf inside with encloses | ⟨recursive, _⟩
  · exact encloses
  · exact absurd recursive simple

end Program

end Skeletons
