import Skeletons.Proofs.Program

namespace Skeletons.Program

/-- What the runs of a program on an input come to: nothing if it goes on forever. -/
def outcomes (limit : Nat) (program : Program) (input : Value) : Outcomes Value :=
  fun outcome => ∃ budget events, program.instantiate.run limit budget input = some ⟨outcome, events⟩

theorem outcomes_ofSkeleton (limit : Nat) (skeleton : Skeleton) (input : Value) :
    (ofSkeleton skeleton).outcomes limit input = skeleton.Evaluates limit 1 input := by
  have leveled : (Trace.nest [] skeleton.frame).length = 1 := Trace.length_nest [] skeleton.frame
  rw [← leveled, ← Skeleton.outcomes_behaviour, ← Process.outcomes_congr (behaviour_instantiate skeleton limit input)]
  funext outcome
  apply propext
  unfold outcomes
  rw [exists_comm]
  exact exists_congr fun events => Stack.run_ends_iff _ limit input outcome events

theorem outcomes_unique {limit : Nat} {program : Program} {input : Value} {first second : Except Failure Value}
    (reached : program.outcomes limit input first) (also : program.outcomes limit input second) : first = second := by
  obtain ⟨budget, events, ended⟩ := reached
  obtain ⟨more, told, finished⟩ := also
  have one := (Stack.run_ends_iff _ limit input first events).mp ⟨budget, ended⟩
  have other := (Stack.run_ends_iff _ limit input second told).mp ⟨more, finished⟩
  exact (one.unique other).1

end Skeletons.Program
