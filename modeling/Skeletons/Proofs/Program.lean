import Skeletons.Proofs.Skeleton.Outcome
import Skeletons.Proofs.Skeleton.Simulation

namespace Skeletons

namespace Program

variable (skeleton : Skeleton) (limit : Nat) (input : Value)

theorem behaviour_instantiate :
    (ofSkeleton skeleton).instantiate.behaviour limit input ≈
      skeleton.behaviour limit (Trace.nest [] skeleton.frame) input := by
  rw [instantiate_ofSkeleton]
  exact Skeleton.behaviour_compile limit skeleton _ input (Trace.nest_ne_nil [] _)

/-- A run of a compiled program ends with an outcome exactly when evaluating the tree from level one has
    that outcome; in particular one of them goes on forever exactly when the other one does. -/
theorem run_iff_evaluates (outcome : Except Failure Value) :
    (∃ budget events,
      (ofSkeleton skeleton).instantiate.run limit budget input = some ⟨outcome, events⟩) ↔
      skeleton.Evaluates limit 1 input outcome := by
  have leveled : (Trace.nest [] skeleton.frame).length = 1 := Trace.length_nest [] skeleton.frame
  rw [← leveled, ← Skeleton.outcomes_behaviour, exists_comm,
    ← Process.outcomes_congr (behaviour_instantiate skeleton limit input)]
  exact exists_congr fun events => Stack.run_ends_iff _ limit input outcome events

/-- The events of a compiled program are the log of its tree, whether the run ends, with which outcome it
    ends, or goes on forever and reports ever more of it. -/
theorem run_events :
    (∀ outcome events,
      (∃ budget, (ofSkeleton skeleton).instantiate.run limit budget input = some ⟨outcome, events⟩) ↔
        (skeleton.behaviour limit (Trace.nest [] skeleton.frame) input).Ends outcome events) ∧
      ∀ events,
        (∃ budget,
          events <+: ((ofSkeleton skeleton).instantiate.watch limit budget input).events) ↔
          ∃ effort,
            events <+: ((skeleton.behaviour limit (Trace.nest [] skeleton.frame) input).within
              effort).events := by
  have alike := behaviour_instantiate skeleton limit input
  refine ⟨fun outcome events => ?_, fun events => ⟨?_, ?_⟩⟩
  · rw [Stack.run_ends_iff]
    exact Process.ends_congr alike outcome events
  · intro given
    obtain ⟨budget, begun⟩ := given
    obtain ⟨effort, told⟩ := alike.1 budget
    exact ⟨effort, begun.trans (Account.events_prefix told)⟩
  · intro given
    obtain ⟨effort, begun⟩ := given
    obtain ⟨budget, told⟩ := alike.2 effort
    exact ⟨budget, begun.trans (Account.events_prefix told)⟩

end Program

end Skeletons
