import Skeletons.Failure
import Skeletons.Skeleton

namespace Skeletons

/-- The outcomes that a computation may have. -/
def Outcomes (α : Type) : Type := Except Failure α → Prop

namespace Outcomes

variable {α β γ : Type}

def ofResult (result : Except Failure α) : Outcomes α := fun outcome => outcome = result

def fail (failure : Failure) : Outcomes α := ofResult (.error failure)

instance : Monad Outcomes where
  pure value := ofResult (.ok value)
  bind first next outcome :=
    (∃ failure, first (.error failure) ∧ outcome = .error failure) ∨
      ∃ value, first (.ok value) ∧ next value outcome

instance : MonadLift (Except Failure) Outcomes := ⟨ofResult⟩

inductive RepeatWhile (condition : Condition) (body : Value → Outcomes Value) :
    Value → Except Failure Value → Prop where
  | untold {value : Value} {failure : Failure} :
    condition.call value = .error failure → RepeatWhile condition body value (.error failure)
  | ended {value : Value} :
    condition.call value = .ok false → RepeatWhile condition body value (.ok value)
  | failed {value : Value} {failure : Failure} :
    condition.call value = .ok true → body value (.error failure) →
      RepeatWhile condition body value (.error failure)
  | again {value next : Value} {outcome : Except Failure Value} :
    condition.call value = .ok true → body value (.ok next) →
      RepeatWhile condition body next outcome → RepeatWhile condition body value outcome

def branchAt (branches : List (Value → Outcomes Value)) (index : Nat) : Value → Outcomes Value :=
  match branches with
  | [only] => only
  | several => several.getD index fun value => pure value

def scatter (limit level : Nat) (branches : List (Value → Outcomes Value)) (merge : Merge)
    (parts : List Value) : Outcomes Value :=
  if limit < level then fail (.configuration (.depthExceeded limit))
  else if branches.length ≠ 1 ∧ parts.length ≠ branches.length then
    fail (.configuration (.arityMismatch branches.length parts.length))
  else do
    let results ← parts.zipIdx.mapM fun (part, index) => branchAt branches index part
    merge.call results

def divide (limit level : Nat) (condition : Condition) (split : Split) (merge : Merge)
    (solve : Value → Outcomes Value) (depth : Nat) (input : Value) : Outcomes Value := do
  let outcome ← condition.call input
  if outcome then
    let parts ← split.call input
    if limit < level + depth then fail (.configuration (.depthExceeded limit))
    else
      let results ← parts.mapM (divide limit level condition split merge solve (depth + 1))
      merge.call results
  else solve input
termination_by limit + 1 - (level + depth)

end Outcomes

mutual

/-- The outcomes of a skeleton at a nesting level on an input, where splits may nest `limit` deep. -/
def Skeleton.Evaluates (limit level : Nat) : Skeleton → Value → Outcomes Value
  | .seq _ execute, input => execute.call input
  | .pipe _ first second, input => do
    let middle ← first.Evaluates limit (level + 1) input
    second.Evaluates limit (level + 1) middle
  | .ifElse _ condition whenTrue whenFalse, input => do
    let outcome ← condition.call input
    if outcome then whenTrue.Evaluates limit (level + 1) input
    else whenFalse.Evaluates limit (level + 1) input
  | .whileLoop _ condition body, input =>
    Outcomes.RepeatWhile condition (body.Evaluates limit (level + 1)) input
  | .forLoop _ times body, input =>
    (List.range times.toNat).foldlM (fun value _ => body.Evaluates limit (level + 1) value) input
  | .map _ split body merge, input => do
    let parts ← split.call input
    Outcomes.scatter limit level [body.Evaluates limit (level + 1)] merge parts
  | .fork _ split branches merge, input => do
    let parts ← split.call input
    Outcomes.scatter limit level (Skeleton.evaluations limit level branches) merge parts
  | .divide _ condition split solve merge, input =>
    Outcomes.divide limit level condition split merge (solve.Evaluates limit (level + 1)) 0 input

def Skeleton.evaluations (limit level : Nat) : List Skeleton → List (Value → Outcomes Value)
  | [] => []
  | branch :: rest => branch.Evaluates limit (level + 1) :: Skeleton.evaluations limit level rest

end

end Skeletons
