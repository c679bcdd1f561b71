import Skeletons.Proofs.Program
import Skeletons.Proofs.Skeleton.Total
import Skeletons.Proofs.Stack.Counter
import Skeletons.Proofs.Task.Sound

namespace Skeletons

theorem Skeleton.exists_ends (skeleton : Skeleton) (bounded : skeleton.Bounded) (limit : Nat) (trace : Trace)
    (input : Value) : ∃ outcome events, (skeleton.behaviour limit trace input).Ends outcome events := by
  obtain ⟨outcome, evaluates⟩ := Skeleton.total_evaluates limit skeleton trace.length input bounded
  rw [← Skeleton.outcomes_behaviour] at evaluates
  exact ⟨outcome, evaluates⟩

theorem Task.Lineage.counted {limit : Nat} {skeleton : Skeleton} {input : Value} {above : Nat} {task : Task}
    (lineage : ((Program.ofSkeleton skeleton).task input).Lineage limit above task) :
    task.stack.Counted := by
  have idle : ((Program.ofSkeleton skeleton).task input).Idle := rfl
  refine (lineage.keeps (Stack.Counted.kept limit) idle ?_).1
  rw [Program.task, Program.instantiate_ofSkeleton]
  exact Skeleton.throughout_compile Instruction.Counted.lasting skeleton _

namespace Program

/-- A program without loops that test a condition comes to an end, whatever its muscles answer. Loops with
    a number of rounds, also inside others, never count beyond it, and counting on never wraps,
    whoever schedules the tasks. -/
theorem run_halts (skeleton : Skeleton) (bounded : skeleton.Bounded) (limit : Nat) (input : Value) :
    (∃ budget run, (ofSkeleton skeleton).instantiate.run limit budget input = some run) ∧
      ∀ above task, ((ofSkeleton skeleton).task input).Lineage limit above task →
        task.stack.Counted ∧
          ∀ times body trace iteration rest,
            task.stack = .forLoop times body trace iteration :: rest → ¬ times ≤ iteration →
              (iteration + 1).toNat = iteration.toNat + 1 := by
  refine ⟨?_, fun above task lineage => ⟨lineage.counted, ?_⟩⟩
  · have halts := skeleton.exists_ends bounded limit (Trace.nest [] skeleton.frame) input
    obtain ⟨outcome, events, ended⟩ := halts
    have alike := behaviour_instantiate skeleton limit input
    obtain ⟨budget, came⟩ :=
      (Stack.run_ends_iff _ limit input outcome events).mpr ((Process.ends_congr alike _ _).mpr ended)
    exact ⟨budget, ⟨outcome, events⟩, came⟩
  · intro times body trace iteration rest _ unended
    exact Stack.toNat_succ_of_lt (UInt64.not_le.mp unended)

def endlessDivision : Skeleton :=
  .forLoop 3 18446744073709551615 (.divide 2 ⟨"always", fun _ => .ok true⟩
    ⟨"double", fun value => .ok [.list [value, value], .list [value, value]]⟩ (.seq 1 ⟨"keep", .ok⟩)
    ⟨"gather", fun results => .ok (.list results)⟩)

theorem run_halts_endlessDivision :
    endlessDivision.Bounded ∧
      (∃ budget run, (ofSkeleton endlessDivision).instantiate.run 64 budget .null = some run) ∧
        ((ofSkeleton endlessDivision).task .null).stack.Counted := by
  have bounded : endlessDivision.Bounded := by decide
  have halts := run_halts endlessDivision bounded 64 .null
  exact ⟨bounded, halts.1, (halts.2 0 _ .self).1⟩

end Program

end Skeletons
