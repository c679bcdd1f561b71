import Skeletons.Proofs.Run.Split
import Skeletons.Proofs.Stack.Retag

namespace Skeletons

open Process

namespace Split

def recursionOf (condition : Condition) (split : Split) (merge : Merge) (solve : Stack) (trace : Trace)
    (path : RecursionPath) (index : Nat) (part : Value) : Child :=
  let subPath := path.child (UInt64.ofNat index)
  let depth := trace.length - 1
  { index
    stack := [
      report .before .condition (trace.retag depth subPath.id) subPath.payload,
      .divide condition split merge (Stack.retag depth subPath.id solve)
        (trace.retag depth subPath.id) subPath]
    input := part }

theorem recursions_eq_map (condition : Condition) (split : Split) (merge : Merge) (solve : Stack)
    {trace : Trace} (traced : trace ≠ []) (old path : RecursionPath) (start : Nat) (parts : List Value) :
    recursions [.divide condition split merge solve trace old] path start parts =
      .ok ((parts.zipIdx start).map fun (part, index) =>
        recursionOf condition split merge solve trace path index part) := by
  have filled : trace.isEmpty = false := by simpa using traced
  induction parts generalizing start with
  | nil => rfl
  | cons part rest ih =>
    simp only [recursions, recursion, filled, Bool.false_eq_true, if_false, ih]
    rfl

end Split

namespace Stack

variable (limit : Nat)

theorem perform_divide (condition : Condition) (split : Split) (merge : Merge) (solve : Stack)
    (trace : Trace) (path : RecursionPath) (value : Value) :
    (Instruction.divide condition split merge solve trace path).perform limit value =
      (do
        let outcome ← condition.call value
        return (report .after .condition trace (.bool outcome) ::
          if outcome then
            [.seq split.asExecute trace,
              .split [[.divide condition split merge solve trace path]] merge trace (some path)]
          else
            report .before .nested trace path.payload :: solve
              ++ [report .after .nested trace path.payload], value)) := by
  simp only [Instruction.perform, Instruction.effect, liftM_bind, bind_assoc]
  refine congrArg (_ >>= ·) (funext fun outcome => ?_)
  cases outcome with
  | false =>
    simp only [Bool.false_eq_true, if_false, liftM_pure, pure_bind, note_nil_bind, Effect.received,
      List.cons_append]
  | true => simp only [if_true, liftM_pure, pure_bind, note_nil_bind, Effect.received]

/-- A division whose leaf is compiled for its trace behaves like the recursion, whatever the trace is
    numbered with. -/
theorem behaviour_divide (condition : Condition) (split : Split) (merge : Merge) (solve : Trace → Stack)
    {meaning : Trace → Value → Process Value}
    (tagged : ∀ (trace : Trace) (occurrence : UInt64), trace ≠ [] →
      Stack.retag (trace.length - 1) occurrence (solve trace) =
        solve (trace.retag (trace.length - 1) occurrence))
    (alike : ∀ trace value, behaviour limit (solve trace) value ≈ meaning trace value)
    (trace : Trace) (traced : trace ≠ []) (path : RecursionPath) (value : Value) :
    behaviour limit [report .before .condition trace path.payload,
        .divide condition split merge (solve trace) trace path] value ≈
      divide limit condition split merge meaning trace path value := by
  -- A recursion has another trace, but one of the same length.
  generalize leveled : trace.length = level
  induction path using RecursionPath.inductionWithin limit level generalizing trace value with
  | step path ih =>
    rw [divide]
    refine Setoid.trans (behaviour_report limit _ value .before .condition trace path.payload).alike ?_
    refine Process.bind_congr (Setoid.refl _) fun _ => ?_
    refine Setoid.trans (behaviour_cons_trails limit [] value _).alike ?_
    simp only [perform_divide, decided, bind_assoc, pure_bind, List.append_nil]
    refine Process.bind_congr (Setoid.refl _) fun outcome => ?_
    refine Setoid.trans (behaviour_report limit _ value .after .condition trace _).alike ?_
    refine Process.bind_congr (Setoid.refl _) fun _ => ?_
    cases outcome with
    | false =>
      refine Setoid.trans (behaviour_nested_last limit value trace path.payload (solve trace)) ?_
      exact nested_congr trace path.payload (alike trace value)
    | true =>
      simp only [if_true]
      refine Setoid.trans (behaviour_seq_split limit _ value split trace) ?_
      refine Process.bind_congr (Setoid.refl _) fun parts => ?_
      refine Setoid.trans (behaviour_split_list limit _ merge trace (some path) parts) ?_
      simp only [Option.getD_some, Option.elim_some, Split.spawn]
      split
      · exact Setoid.refl _
      · rename_i shallow
        rw [Split.recursions_eq_map condition split merge (solve trace) traced]
        change liftM (pure _) >>= _ ≈ _
        rw [liftM_pure, pure_bind, List.mapM_map]
        refine Process.bind_congr (mapM_congr _ fun item member => ?_) fun results => Setoid.refl _
        simp only [Split.recursionOf, Function.comp_apply, tagged trace _ traced]
        refine ih (leveled ▸ not_lt.mp shallow) _ _ ?_ _ ?_
        · simpa [Trace.retag] using traced
        · rw [Trace.length_retag, leveled]

end Stack

end Skeletons
