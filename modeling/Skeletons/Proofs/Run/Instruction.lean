import Skeletons.Proofs.Run.Append
import Skeletons.Proofs.Skeleton.Behaviour

namespace Skeletons

open Process

theorem Process.nested_congr (trace : Trace) (payload : Value) {run other : Process Value}
    (alike : run ≈ other) : nested trace payload run ≈ nested trace payload other :=
  Process.bind_congr (Setoid.refl _) fun _ => Process.bind_congr alike fun _ => Setoid.refl _

namespace Stack

variable (limit : Nat) (rest : Stack) (value : Value)

theorem behaviour_nil_trails : (behaviour limit [] value).Trails (pure value) := by
  rw [behaviour_nil]
  exact later_trails _

theorem behaviour_cons_trails (instruction : Instruction) :
    (behaviour limit (instruction :: rest) value).Trails
      (instruction.perform limit value >>= fun next => behaviour limit (next.1 ++ rest) next.2) := by
  rw [behaviour_cons]
  exact later_trails _

theorem behaviour_report_eq (phase : Phase) (point : Point) (trace : Trace) (payload : Value) :
    behaviour limit (report phase point trace payload :: rest) value =
      (note [⟨phase, point, trace, payload⟩] >>= fun _ => behaviour limit rest value).later := by
  rw [behaviour_cons]
  refine congrArg later ?_
  simp only [Instruction.perform, report, Instruction.effect, liftM_pure, pure_bind, bind_assoc,
    Effect.received, List.nil_append]

theorem behaviour_report (phase : Phase) (point : Point) (trace : Trace) (payload : Value) :
    (behaviour limit (report phase point trace payload :: rest) value).Trails
      (note [⟨phase, point, trace, payload⟩] >>= fun _ => behaviour limit rest value) := by
  rw [behaviour_report_eq]
  exact later_trails _

theorem behaviour_seq (execute : Execute) (trace : Trace) :
    behaviour limit (.seq execute trace :: rest) value ≈
      (do let next ← execute.call value; behaviour limit rest next) := by
  refine Setoid.trans (behaviour_cons_trails limit rest value _).alike (alike_of_eq ?_)
  simp only [Instruction.perform, Instruction.effect, liftM_bind, liftM_pure, pure_bind, bind_assoc,
    Effect.received, List.nil_append, note_nil_bind]

theorem behaviour_seq_split (split : Split) (trace : Trace) :
    behaviour limit (.seq split.asExecute trace :: rest) value ≈
      (do let parts ← split.call value; behaviour limit rest (.list parts)) := by
  refine Setoid.trans (behaviour_seq limit rest value split.asExecute trace) (alike_of_eq ?_)
  simp only [Execute.call, Split.asExecute, Split.call]
  cases split.divide value with
  | error text => rfl
  | ok parts => rfl

theorem behaviour_nested (trace : Trace) (payload : Value) (body : Stack) :
    (behaviour limit (report .before .nested trace payload :: body
        ++ report .after .nested trace payload :: rest) value).Trails
      (nested trace payload (behaviour limit body value) >>= behaviour limit rest) := by
  refine (behaviour_report limit _ value .before .nested trace payload).trans ?_
  simp only [nested, bind_assoc, pure_bind]
  refine Trails.bind (Trails.refl _) fun _ => ?_
  refine (behaviour_append limit body _ value).trans ?_
  refine Trails.bind (Trails.refl _) fun next => ?_
  exact behaviour_report limit rest next .after .nested trace payload

theorem behaviour_nested_last (trace : Trace) (payload : Value) (body : Stack) :
    behaviour limit (report .before .nested trace payload :: body
        ++ [report .after .nested trace payload]) value ≈
      nested trace payload (behaviour limit body value) := by
  refine Setoid.trans (behaviour_nested limit [] value trace payload body).alike ?_
  refine Setoid.trans (Trails.bind (Trails.refl _) (behaviour_nil_trails limit)).alike ?_
  exact alike_of_eq (bind_pure _)

theorem behaviour_choice (outcome : Bool) (whenTrue whenFalse : Stack) (trace : Trace) :
    behaviour limit [.choice outcome whenTrue whenFalse trace] value ≈
      behaviour limit (if outcome then whenTrue else whenFalse) value := by
  refine Setoid.trans (behaviour_cons_trails limit [] value _).alike (alike_of_eq ?_)
  simp only [Instruction.perform, Instruction.effect, liftM_pure, pure_bind, Effect.received,
    List.append_nil, note_nil_bind]

theorem behaviour_ifElse (condition : Condition) (whenTrue whenFalse : Stack) (trace : Trace) :
    behaviour limit [.ifElse condition whenTrue whenFalse trace] value ≈
      (do
        let outcome ← decided trace condition value
        nested trace (.bool outcome) (behaviour limit (if outcome then whenTrue else whenFalse) value)) := by
  refine Setoid.trans (behaviour_cons_trails limit [] value _).alike ?_
  simp only [Instruction.perform, Instruction.effect, liftM_bind, liftM_pure, pure_bind, bind_assoc,
    Effect.received, note_nil_bind, decided, List.append_nil]
  refine Process.bind_congr (Setoid.refl _) fun outcome => ?_
  refine Setoid.trans (behaviour_report limit _ value .after .condition trace (.bool outcome)).alike ?_
  refine Process.bind_congr (Setoid.refl _) fun _ => ?_
  refine Setoid.trans (behaviour_nested_last limit value trace (.bool outcome)
    [.choice outcome whenTrue whenFalse trace]) ?_
  exact nested_congr trace (.bool outcome)
    (behaviour_choice limit value outcome whenTrue whenFalse trace)

end Stack

end Skeletons
