import Skeletons.Proofs.Process.Outcome
import Skeletons.Proofs.Skeleton.Behaviour
import Skeletons.Proofs.Stack.Retag

namespace Skeletons

open Process

namespace Process

@[simp] theorem outcomes_nested (trace : Trace) (payload : Value) (run : Process Value) :
    (nested trace payload run).outcomes = run.outcomes := by
  simp only [nested, outcomes_note_bind, outcomes_bind run, outcomes_pure, bind_pure]

theorem outcomes_decided (trace : Trace) (condition : Condition) (input : Value) :
    (decided trace condition input).outcomes = liftM (condition.call input) := by
  simp only [decided, outcomes_bind (liftM _), outcomes_note_bind, outcomes_ofResult, outcomes_pure,
    bind_pure]

theorem outcomes_merged (trace : Trace) (payload : Value) (merge : Merge) (results : List Value) :
    (merged trace payload merge results).outcomes = liftM (merge.call results) := by
  simp only [merged, outcomes_bind (liftM _), outcomes_note_bind, outcomes_ofResult, outcomes_pure,
    bind_pure]

theorem outcomes_whileRound (trace : Trace) (condition : Condition)
    (body : UInt64 → Value → Process Value) (round : UInt64) (value : Value) :
    (whileRound trace condition body (round, value)).outcomes =
      (do
        let outcome ← condition.call value
        if outcome then
          let next ← (body round value).outcomes
          return .inl (round + 1, next)
        else return .inr value) := by
  simp only [whileRound, outcomes_note_bind, outcomes_bind (decided _ _ _), outcomes_decided]
  refine congrArg (_ >>= ·) (funext fun outcome => ?_)
  cases outcome with
  | false => exact outcomes_pure _
  | true => simp only [if_true, outcomes_bind (nested _ _ _), outcomes_nested, outcomes_pure]

theorem outcomes_whileLoop_unroll (trace : Trace) (condition : Condition)
    (body : UInt64 → Value → Process Value) (round : UInt64) (value : Value) :
    (iterate (whileRound trace condition body) (round, value)).outcomes =
      (do
        let outcome ← condition.call value
        if outcome then
          let next ← (body round value).outcomes
          (iterate (whileRound trace condition body) (round + 1, next)).outcomes
        else return value) := by
  rw [outcomes_iterate, outcomes_whileRound, bind_assoc]
  refine congrArg (_ >>= ·) (funext fun outcome => ?_)
  cases outcome with
  | false => simp only [Bool.false_eq_true, if_false, pure_bind, Sum.elim_inr]
  | true => simp only [if_true, bind_assoc, pure_bind, Sum.elim_inl]

theorem whileRound_cases {trace : Trace} {condition : Condition} {body : UInt64 → Value → Process Value}
    {round : UInt64} {value : Value} {result : Except Failure ((UInt64 × Value) ⊕ Value)}
    (came : (whileRound trace condition body (round, value)).outcomes result) :
    (∃ failure, condition.call value = .error failure ∧ result = .error failure) ∨
      (condition.call value = .ok false ∧ result = .ok (.inr value)) ∨
      (∃ failure, condition.call value = .ok true ∧ (body round value).outcomes (.error failure) ∧
        result = .error failure) ∨
      ∃ next, condition.call value = .ok true ∧ (body round value).outcomes (.ok next) ∧
        result = .ok (.inl (round + 1, next)) := by
  rw [outcomes_whileRound] at came
  rcases came with ⟨failure, asked, same⟩ | ⟨outcome, asked, came⟩
  · exact Or.inl ⟨failure, Eq.symm asked, same⟩
  · have told : condition.call value = .ok outcome := Eq.symm asked
    cases outcome with
    | false => exact Or.inr (Or.inl ⟨told, came⟩)
    | true =>
      rcases came with ⟨failure, failed, same⟩ | ⟨next, reached, same⟩
      · exact Or.inr (Or.inr (Or.inl ⟨failure, told, failed, same⟩))
      · exact Or.inr (Or.inr (Or.inr ⟨next, told, reached, same⟩))

/-- A loop has an outcome exactly when repeating its body leads there, whatever the rounds are numbered
    with. -/
theorem outcomes_whileLoop (trace : Trace) (condition : Condition) {body : UInt64 → Value → Process Value}
    {meaning : Value → Outcomes Value} (alike : ∀ round value, (body round value).outcomes = meaning value)
    (round : UInt64) (value : Value) :
    (iterate (whileRound trace condition body) (round, value)).outcomes =
      Outcomes.RepeatWhile condition meaning value := by
  funext outcome
  refine propext ⟨?_, fun repeated => ?_⟩
  · intro given
    obtain ⟨events, effort, ended⟩ := given
    induction effort generalizing round value events with
    | zero => cases ended
    | succ effort ih =>
      rcases (Account.bind_ended_iff _ _ outcome events).mp ended with ⟨failure, failed, rfl⟩ |
        ⟨result, early, late, came, rest, _⟩
      · rcases whileRound_cases ⟨events, effort, failed⟩ with ⟨_, told, same⟩ | ⟨_, same⟩ |
          ⟨_, told, broken, same⟩ | ⟨_, _, _, same⟩
        · cases same
          exact .untold told
        · cases same
        · cases same
          exact .failed told (alike round value ▸ broken)
        · cases same
      · rcases whileRound_cases ⟨early, effort, came⟩ with ⟨_, _, same⟩ | ⟨told, same⟩ |
          ⟨_, _, _, same⟩ | ⟨next, told, reached, same⟩
        · cases same
        · cases same
          cases rest
          exact .ended told
        · cases same
        · cases same
          exact .again told (alike round value ▸ reached) (ih (round + 1) next late rest)
  · induction repeated generalizing round with
    | untold told =>
      rw [outcomes_whileLoop_unroll, told]
      exact Or.inl ⟨_, rfl, rfl⟩
    | ended told =>
      rw [outcomes_whileLoop_unroll, told]
      exact Or.inr ⟨false, rfl, rfl⟩
    | @failed value failure told broken =>
      rw [outcomes_whileLoop_unroll, told, alike]
      exact Or.inr ⟨true, rfl, Or.inl ⟨failure, broken, rfl⟩⟩
    | @again value next outcome told reached repeated ih =>
      rw [outcomes_whileLoop_unroll, told, alike]
      exact Or.inr ⟨true, rfl, Or.inr ⟨next, reached, ih (round + 1)⟩⟩

theorem outcomes_branchAt {branches : List (UInt64 → Value → Process Value)}
    {meanings : List (Value → Outcomes Value)} (counted : branches.length = meanings.length)
    (alike : ∀ index occurrence value,
      (branches.getD index (fun _ value => pure value) occurrence value).outcomes =
        meanings.getD index (fun value => pure value) value)
    (index : Nat) (occurrence : UInt64) (value : Value) :
    (branchAt branches index occurrence value).outcomes = Outcomes.branchAt meanings index value := by
  match branches, meanings, counted with
  | [], [], _ => exact outcomes_pure value
  | [only], [meaning], _ => exact alike 0 occurrence value
  | first :: second :: rest, meaning :: other :: more, _ => exact alike index occurrence value

theorem outcomes_scatter (limit : Nat) (trace : Trace) {branches : List (UInt64 → Value → Process Value)}
    {meanings : List (Value → Outcomes Value)} (counted : branches.length = meanings.length)
    (alike : ∀ index occurrence value,
      (branches.getD index (fun _ value => pure value) occurrence value).outcomes =
        meanings.getD index (fun value => pure value) value) (merge : Merge) (parts : List Value) :
    (scatter limit trace branches merge parts).outcomes =
      Outcomes.scatter limit trace.length meanings merge parts := by
  rw [scatter, Outcomes.scatter, counted]
  split
  · exact outcomes_fail _
  · split
    · exact outcomes_fail _
    · simp only [outcomes_bind, outcomes_mapM, outcomes_nested, outcomes_merged,
        outcomes_branchAt counted alike]

theorem outcomes_divide (limit : Nat) (condition : Condition) (split : Split) (merge : Merge)
    {solve : Trace → Value → Process Value} {level : Nat} {meaning : Value → Outcomes Value}
    (alike : ∀ (trace : Trace) (value : Value), trace.length = level →
      (solve trace value).outcomes = meaning value)
    (trace : Trace) (leveled : trace.length = level) (path : RecursionPath) (value : Value) :
    (divide limit condition split merge solve trace path value).outcomes =
      Outcomes.divide limit level condition split merge meaning path.length value := by
  induction path using RecursionPath.inductionWithin limit level generalizing trace value with
  | step path ih =>
    rw [divide, Outcomes.divide, leveled]
    simp only [outcomes_note_bind, outcomes_bind (decided _ _ _), outcomes_decided]
    refine congrArg (_ >>= ·) (funext fun outcome => ?_)
    cases outcome with
    | false => simp only [Bool.false_eq_true, if_false, outcomes_nested, alike trace value leveled]
    | true =>
      simp only [if_true, outcomes_bind (liftM _), outcomes_ofResult]
      refine congrArg (_ >>= ·) (funext fun parts => ?_)
      split
      · exact outcomes_fail _
      · rename_i shallow
        simp only [outcomes_bind, outcomes_mapM, outcomes_merged]
        refine congrArg (· >>= _) ?_
        have each : ∀ item : Value × Nat,
            (divide limit condition split merge solve
              (trace.retag (level - 1) (path.child (UInt64.ofNat item.2)).id)
              (path.child (UInt64.ofNat item.2)) item.1).outcomes =
            Outcomes.divide limit level condition split merge meaning (path.length + 1) item.1 := by
          intro item
          have deeper : (path.child (UInt64.ofNat item.2)).length = path.length + 1 := List.length_append
          rw [← deeper]
          exact ih (not_lt.mp shallow) _ _ (by rw [Trace.length_retag, leveled]) _
        rw [funext each]
        conv_rhs => rw [← List.zipIdx_map_fst 0 parts, List.mapM_map]
        rfl

end Process

namespace Skeleton

variable (limit : Nat)

theorem length_evaluations (level : Nat) (branches : List Skeleton) :
    (evaluations limit level branches).length = branches.length := by
  induction branches with
  | nil => rfl
  | cons branch rest ih => simp only [evaluations, List.length_cons, ih]

mutual

theorem outcomes_behaviour : ∀ (skeleton : Skeleton) (trace : Trace) (value : Value),
    (skeleton.behaviour limit trace value).outcomes = skeleton.Evaluates limit trace.length value
  | .seq _ execute, trace, value => outcomes_ofResult (execute.call value)
  | .pipe _ first second, trace, value => by
    simp only [behaviour, Evaluates, outcomes_bind, outcomes_nested, outcomes_behaviour first,
      outcomes_behaviour second, Trace.length_nest]
  | .ifElse _ condition whenTrue whenFalse, trace, value => by
    simp only [behaviour, Evaluates, outcomes_note_bind, outcomes_bind (decided _ _ _), outcomes_decided,
      outcomes_nested]
    refine congrArg (_ >>= ·) (funext fun outcome => ?_)
    cases outcome with
    | false => exact (outcomes_behaviour whenFalse _ value).trans (by rw [Trace.length_nest]; rfl)
    | true => exact (outcomes_behaviour whenTrue _ value).trans (by rw [Trace.length_nest]; rfl)
  | .whileLoop _ condition body, trace, value => by
    refine outcomes_whileLoop trace condition (fun round value => ?_) 0 value
    rw [outcomes_behaviour body, Trace.length_nest]
  | .forLoop _ times body, trace, value => by
    simp only [behaviour, Evaluates, outcomes_foldlM, outcomes_nested, outcomes_behaviour body,
      Trace.length_nest]
  | .map _ split body merge, trace, value => by
    simp only [behaviour, Evaluates, outcomes_bind, outcomes_ofResult]
    refine congrArg (_ >>= ·) (funext fun parts => ?_)
    refine outcomes_scatter limit trace rfl (fun index occurrence value => ?_) merge parts
    match index with
    | 0 => exact (outcomes_behaviour body _ value).trans (by rw [Trace.length_nest]; rfl)
    | index + 1 => exact outcomes_pure value
  | .fork _ split branches merge, trace, value => by
    simp only [behaviour, Evaluates, outcomes_bind, outcomes_ofResult]
    refine congrArg (_ >>= ·) (funext fun parts => ?_)
    refine outcomes_scatter limit trace ?_ (outcomes_behaviours branches trace) merge parts
    rw [length_behaviours, length_evaluations]
  | .divide _ condition split solve merge, trace, value => by
    refine outcomes_divide limit condition split merge (fun trace value leveled => ?_) trace rfl [] value
    rw [outcomes_behaviour solve, Trace.length_nest, leveled]

theorem outcomes_behaviours : ∀ (branches : List Skeleton) (trace : Trace) (index : Nat)
    (occurrence : UInt64) (value : Value),
    ((behaviours limit trace branches).getD index (fun _ value => pure value) occurrence value).outcomes =
      (evaluations limit trace.length branches).getD index (fun value => pure value) value
  | [], _, _, _, value => outcomes_pure value
  | branch :: _, _, 0, _, value => (outcomes_behaviour branch _ value).trans (by rw [Trace.length_nest]; rfl)
  | _ :: rest, trace, index + 1, occurrence, value => outcomes_behaviours rest trace index occurrence value

end

end Skeleton

end Skeletons
