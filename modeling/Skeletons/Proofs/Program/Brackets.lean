import Skeletons.Proofs.Process.Brackets
import Skeletons.Proofs.Program
import Skeletons.Proofs.Program.Nesting

namespace Skeletons

namespace Process

theorem bracketed_nested (trace : Trace) (payload : Value) {run : Process Value} (given : run.Bracketed) :
    (nested trace payload run).Bracketed :=
  given.enclosed fun _ => ⟨rfl, rfl, rfl, rfl, fun _ => rfl, nofun, fun other => absurd rfl other⟩

theorem bracketed_decided_bind {α : Type} (trace : Trace) (payload : Value) (condition : Condition)
    (input : Value) {next : Bool → Process α} (given : ∀ outcome, (next outcome).Bracketed) :
    (note [⟨.before, .condition, trace, payload⟩] >>= fun _ =>
      decided trace condition input >>= next).Bracketed := by
  have test : (note [⟨.before, .condition, trace, payload⟩] >>= fun _ =>
      decided trace condition input).Bracketed := by
    have pair : ∀ outcome, Event.Pair ⟨.before, .condition, trace, payload⟩ []
        ⟨.after, .condition, trace, .bool outcome⟩ :=
      fun outcome => ⟨rfl, rfl, rfl, rfl, fun other => absurd rfl other, fun _ => ⟨outcome, rfl⟩, fun _ => rfl⟩
    exact .adjoined pair ⟨_, pair true⟩
  rw [← bind_assoc]
  exact test.bind given

theorem bracketed_merged (trace : Trace) (payload : Value) (merge : Merge) (results : List Value) :
    (merged trace payload merge results).Bracketed := by
  have pair : Event.Pair ⟨.before, .merge, trace, payload⟩ [] ⟨.after, .merge, trace, payload⟩ :=
    ⟨rfl, rfl, rfl, rfl, fun _ => rfl, nofun, fun _ => rfl⟩
  exact .adjoined (fun _ => pair) ⟨_, pair⟩

theorem bracketed_whileRound (trace : Trace) (condition : Condition) {body : UInt64 → Value → Process Value}
    (given : ∀ round value, (body round value).Bracketed) (state : UInt64 × Value) :
    (whileRound trace condition body state).Bracketed := by
  refine bracketed_decided_bind trace .null condition state.2 fun outcome => ?_
  cases outcome with
  | false => exact .pure _
  | true => exact (bracketed_nested trace _ (given state.1 state.2)).bind fun next => .pure _

theorem bracketed_scatter (limit : Nat) (trace : Trace) {branches : List (UInt64 → Value → Process Value)}
    (merge : Merge) (given : ∀ branch ∈ branches, ∀ occurrence value, (branch occurrence value).Bracketed)
    (parts : List Value) : (scatter limit trace branches merge parts).Bracketed := by
  rw [scatter]
  split
  · exact .fail _
  split
  · exact .fail _
  · refine Bracketed.bind (.mapM (fun item => bracketed_nested trace _ ?_) _) fun results => ?_
    · rw [branchAt_eq_getD, List.getD_eq_getElem?_getD]
      cases found : branches[branchIndex branches.length item.2]? with
      | none => exact .pure item.1
      | some branch => exact given branch (List.mem_of_getElem? found) _ item.1
    · exact bracketed_merged trace .null merge results

theorem bracketed_divide (limit : Nat) (condition : Condition) (split : Split) (merge : Merge)
    {solve : Trace → Value → Process Value} (given : ∀ trace value, (solve trace value).Bracketed)
    (trace : Trace) (path : RecursionPath) (input : Value) :
    (divide limit condition split merge solve trace path input).Bracketed := by
  -- A recursion has another trace, but one of the same length.
  generalize leveled : trace.length = level
  induction path using RecursionPath.inductionWithin limit level generalizing trace input with
  | step path ih =>
    rw [divide]
    refine bracketed_decided_bind trace path.payload condition input fun outcome => ?_
    cases outcome with
    | false => exact bracketed_nested trace _ (given trace input)
    | true =>
      refine Bracketed.bind (.ofResult _) fun parts => ?_
      by_cases deep : limit < trace.length + path.length
      · rw [if_pos deep]
        exact .fail _
      · rw [if_neg deep]
        rw [leveled] at deep
        refine Bracketed.bind (.mapM (fun item => ih (not_lt.mp deep) _ _ _ ?_) _) fun results => ?_
        · rw [Trace.length_retag, leveled]
        · exact bracketed_merged trace _ merge results

end Process

namespace Skeleton

open Process

mutual

theorem bracketed_behaviour (limit : Nat) : ∀ (skeleton : Skeleton) (trace : Trace) (value : Value),
    (skeleton.behaviour limit trace value).Bracketed
  | .seq _ execute, trace, value => .ofResult _
  | .pipe _ first second, trace, value => by
    have upper := bracketed_nested trace (countPayload 0)
      (bracketed_behaviour limit first (trace.nest first.frame) value)
    refine upper.bind fun middle => bracketed_nested trace (countPayload 1) ?_
    exact bracketed_behaviour limit second (trace.nest second.frame) middle
  | .ifElse _ condition whenTrue whenFalse, trace, value => by
    refine bracketed_decided_bind trace .null condition value fun outcome => bracketed_nested trace _ ?_
    cases outcome with
    | false => exact bracketed_behaviour limit whenFalse _ value
    | true => exact bracketed_behaviour limit whenTrue _ value
  | .whileLoop _ condition body, trace, value => by
    refine .iterate (fun state => bracketed_whileRound trace condition (fun round value => ?_) state) (0, value)
    exact bracketed_behaviour limit body _ value
  | .forLoop _ times body, trace, value => by
    refine .foldlM (fun value round => bracketed_nested trace _ ?_) _ value
    exact bracketed_behaviour limit body _ value
  | .map _ split body merge, trace, value => by
    refine Bracketed.bind (.ofResult _) fun parts => bracketed_scatter limit trace merge ?_ parts
    intro branch member occurrence value
    cases List.mem_singleton.mp member
    exact bracketed_behaviour limit body _ value
  | .fork _ split branches merge, trace, value =>
    Bracketed.bind (.ofResult _) fun parts =>
      bracketed_scatter limit trace merge (bracketed_behaviours limit branches trace) parts
  | .divide _ condition split solve merge, trace, value =>
    bracketed_divide limit condition split merge
      (fun trace value => bracketed_behaviour limit solve (trace.nest solve.frame) value) trace [] value

theorem bracketed_behaviours (limit : Nat) : ∀ (branches : List Skeleton) (trace : Trace),
    ∀ branch ∈ behaviours limit trace branches, ∀ occurrence value, (branch occurrence value).Bracketed
  | [], _, _, member, _, _ => nomatch member
  | branch :: rest, trace, one, member, occurrence, value => by
    rcases List.mem_cons.mp member with rfl | among
    · exact bracketed_behaviour limit branch _ value
    · exact bracketed_behaviours limit rest trace one among occurrence value

end

end Skeleton

namespace Program

theorem bracketed_instantiate (skeleton : Skeleton) (limit : Nat) (input : Value) :
    ((ofSkeleton skeleton).instantiate.behaviour limit input).Bracketed :=
  .of_le (Skeleton.bracketed_behaviour limit skeleton _ input) (behaviour_instantiate skeleton limit input).1

/-- The log of a program that ends with a value is a well-nested sequence of pairs of events. That of a program
    that fails is the beginning of such a sequence, and so is what any program has reported at any moment. -/
theorem run_paired (skeleton : Skeleton) (limit : Nat) (input : Value) :
    (∀ budget value events,
      (ofSkeleton skeleton).instantiate.run limit budget input = some ⟨.ok value, events⟩ →
        Event.Paired events) ∧
      (∀ budget failure events,
        (ofSkeleton skeleton).instantiate.run limit budget input = some ⟨.error failure, events⟩ →
          ∃ rest, Event.Paired (events ++ rest)) ∧
        ∀ budget, ∃ rest,
          Event.Paired (((ofSkeleton skeleton).instantiate.watch limit budget input).events ++ rest) := by
  have bracketed := bracketed_instantiate skeleton limit input
  have started : ∀ budget, ∃ rest,
      Event.Paired (((ofSkeleton skeleton).instantiate.watch limit budget input).events ++ rest) := by
    intro budget
    obtain ⟨rest, whole⟩ := (bracketed budget).started
    exact ⟨rest, whole.paired⟩
  refine ⟨fun budget value events ended => ?_, fun budget failure events ended => ?_, started⟩
  · have known := (Stack.run_eq_some_iff _ _ _ _ _ _).mp ended
    have complete := bracketed budget
    rw [known] at complete
    exact (complete.complete rfl).paired
  · have known := (Stack.run_eq_some_iff _ _ _ _ _ _).mp ended
    have told : ((ofSkeleton skeleton).instantiate.watch limit budget input).events = events :=
      congrArg Account.events known
    exact told ▸ started budget

theorem run_paired_dividedLists :
    ∃ events failed : List Event,
      (ofSkeleton dividedLists).instantiate.run 2 30 (.list [.list [.null]]) =
        some ⟨.ok (.list [.list [.list [.null]]]), events⟩ ∧ Event.Paired events ∧
      (ofSkeleton dividedLists).instantiate.run 1 30 (.list [.list [.null]]) =
        some ⟨.error (.configuration (.depthExceeded 1)), failed⟩ ∧
      ∃ rest, Event.Paired (failed ++ rest) := by
  have whole : ∃ events, (ofSkeleton dividedLists).instantiate.run 2 30 (.list [.list [.null]]) =
      some ⟨.ok (.list [.list [.list [.null]]]), events⟩ := ⟨_, rfl⟩
  have broken : ∃ events, (ofSkeleton dividedLists).instantiate.run 1 30 (.list [.list [.null]]) =
      some ⟨.error (.configuration (.depthExceeded 1)), events⟩ := ⟨_, rfl⟩
  obtain ⟨events, ended⟩ := whole
  obtain ⟨failed, stopped⟩ := broken
  exact ⟨events, failed, ended, (run_paired dividedLists 2 _).1 30 _ events ended, stopped,
    (run_paired dividedLists 1 _).2.1 30 _ failed stopped⟩

end Program

end Skeletons
