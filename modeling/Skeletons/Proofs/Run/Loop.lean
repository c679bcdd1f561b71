import Skeletons.Proofs.Run.Instruction

namespace Skeletons

open Process

theorem Process.whileRound_congr (trace : Trace) (condition : Condition)
    {body other : UInt64 → Value → Process Value} (alike : ∀ round value, body round value ≈ other round value)
    (state : UInt64 × Value) :
    whileRound trace condition body state ≈ whileRound trace condition other state := by
  refine Process.bind_congr (Setoid.refl _) fun _ => Process.bind_congr (Setoid.refl _) fun outcome => ?_
  cases outcome with
  | false => exact Setoid.refl _
  | true => exact Process.bind_congr (nested_congr trace _ (alike state.1 state.2)) fun _ => Setoid.refl _

namespace Stack

variable (limit : Nat)

def whileFrom (condition : Condition) (body : Stack) (trace : Trace) (state : UInt64 × Value) :
    Process Value :=
  behaviour limit [report .before .condition trace .null, .whileLoop condition body trace state.1] state.2

def afterTest (condition : Condition) (body : Stack) (trace : Trace) (round : UInt64) (outcome : Bool) :
    Stack :=
  report .after .condition trace (.bool outcome) ::
    if outcome then
      report .before .nested trace (countPayload round.toNat) :: Stack.retag trace.length round body
        ++ report .after .nested trace (countPayload round.toNat)
        :: [report .before .condition trace .null, .whileLoop condition body trace (round + 1)]
    else []

theorem perform_whileLoop (condition : Condition) (body : Stack) (trace : Trace) (round : UInt64)
    (value : Value) :
    (Instruction.whileLoop condition body trace round).perform limit value =
      (do
        let outcome ← condition.call value
        return (afterTest condition body trace round outcome, value)) := by
  simp only [Instruction.perform, Instruction.effect, liftM_bind, bind_assoc]
  refine congrArg (_ >>= ·) (funext fun outcome => ?_)
  cases outcome with
  | false =>
    simp only [Bool.false_eq_true, if_false, liftM_pure, pure_bind, note_nil_bind, Effect.received,
      afterTest]
  | true =>
    simp only [if_true, liftM_pure, pure_bind, note_nil_bind, Effect.received, afterTest,
      List.cons_append]

theorem whileFrom_trails (condition : Condition) (body : Stack) (trace : Trace)
    (state : UInt64 × Value) :
    (whileFrom limit condition body trace state).Trails
      (whileRound trace condition (fun round => behaviour limit (Stack.retag trace.length round body)) state
        >>= Sum.elim (whileFrom limit condition body trace) pure).later := by
  rw [whileFrom, behaviour_report_eq]
  refine Trails.later ?_
  simp only [whileRound, decided, bind_assoc, pure_bind]
  refine Trails.bind (Trails.refl _) fun _ => ?_
  refine (behaviour_cons_trails limit [] state.2 _).trans ?_
  simp only [perform_whileLoop, bind_assoc, pure_bind, List.append_nil]
  refine Trails.bind (Trails.refl _) fun outcome => ?_
  refine (behaviour_report limit _ state.2 .after .condition trace _).trans ?_
  refine Trails.bind (Trails.refl _) fun _ => ?_
  cases outcome with
  | false => exact behaviour_nil_trails limit state.2
  | true =>
    simp only [if_true, bind_assoc, pure_bind]
    exact behaviour_nested limit _ state.2 trace _ _

theorem behaviour_whileLoop (condition : Condition) (body : Stack) (trace : Trace)
    {meaning : UInt64 → Value → Process Value}
    (alike : ∀ round value, behaviour limit (Stack.retag trace.length round body) value ≈ meaning round value)
    (value : Value) :
    behaviour limit [report .before .condition trace .null, .whileLoop condition body trace 0] value ≈
      iterate (whileRound trace condition meaning) (0, value) := by
  refine Setoid.trans ?_ (iterate_congr (whileRound_congr trace condition alike) (0, value))
  exact alike_iterate (whileFrom_trails limit condition body trace) (0, value)

theorem perform_forLoop (times : UInt64) (body : Stack) (trace : Trace) (round : UInt64) (value : Value) :
    (Instruction.forLoop times body trace round).perform limit value =
      pure (if times ≤ round then []
        else report .before .nested trace (countPayload round.toNat) :: Stack.retag trace.length round body
          ++ report .after .nested trace (countPayload round.toNat)
          :: [.forLoop times body trace (round + 1)], value) := by
  simp only [Instruction.perform, Instruction.effect]
  split
  · simp only [liftM_pure, pure_bind, note_nil_bind, Effect.received]
  · simp only [liftM_pure, pure_bind, note_nil_bind, Effect.received, List.cons_append]

/-- The counter of a counted loop does not wrap: a round is only begun below the number of rounds. -/
theorem behaviour_forLoop_from (times : UInt64) (body : Stack) (trace : Trace)
    {meaning : UInt64 → Value → Process Value}
    (alike : ∀ round value, behaviour limit (Stack.retag trace.length round body) value ≈ meaning round value)
    (left : Nat) (round : UInt64) (counted : round.toNat + left = times.toNat) (value : Value) :
    behaviour limit [.forLoop times body trace round] value ≈
      (List.range' round.toNat left).foldlM (fun value round =>
        nested trace (countPayload round) (meaning (UInt64.ofNat round) value)) value := by
  induction left generalizing round value with
  | zero =>
    have ended : times ≤ round := UInt64.le_iff_toNat_le.mpr (by omega)
    refine Setoid.trans (behaviour_cons_trails limit [] value _).alike ?_
    simp only [perform_forLoop, pure_bind, ended, if_true, List.nil_append]
    exact (behaviour_nil_trails limit value).alike
  | succ left ih =>
    have unended : ¬ times ≤ round := fun ended => by
      have := UInt64.le_iff_toNat_le.mp ended
      omega
    have next : (round + 1).toNat = round.toNat + 1 := by
      have bound := times.toNat_lt
      rw [UInt64.toNat_add, UInt64.toNat_one]
      omega
    refine Setoid.trans (behaviour_cons_trails limit [] value _).alike ?_
    simp only [perform_forLoop, pure_bind, unended, if_false, List.append_nil]
    refine Setoid.trans (behaviour_nested limit _ value trace _ _).alike ?_
    rw [List.range'_succ, List.foldlM_cons, UInt64.ofNat_toNat, ← next]
    refine Process.bind_congr (nested_congr trace _ (alike round value)) fun value => ?_
    exact ih (round + 1) (by omega) value

theorem behaviour_forLoop (times : UInt64) (body : Stack) (trace : Trace)
    {meaning : UInt64 → Value → Process Value}
    (alike : ∀ round value, behaviour limit (Stack.retag trace.length round body) value ≈ meaning round value)
    (value : Value) :
    behaviour limit [.forLoop times body trace 0] value ≈
      (List.range times.toNat).foldlM (fun value round =>
        nested trace (countPayload round) (meaning (UInt64.ofNat round) value)) value := by
  rw [List.range_eq_range']
  exact behaviour_forLoop_from limit times body trace alike times.toNat 0 (Nat.zero_add _) value

end Stack

end Skeletons
