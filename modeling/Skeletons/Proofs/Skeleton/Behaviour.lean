import Skeletons.Instruction.Interpret
import Skeletons.Proofs.Process.Iterate
import Skeletons.Skeleton

namespace Skeletons

/-- What holds at a path if it holds one step below it, as far as a limit lets divisions go, holds at every
    path. -/
@[elab_as_elim]
theorem RecursionPath.inductionWithin (limit level : Nat) {motive : RecursionPath → Prop}
    (step : ∀ path : RecursionPath,
      (level + path.length ≤ limit → ∀ index, motive (path.child index)) → motive path)
    (path : RecursionPath) : motive path := by
  induction left : limit + 1 - (level + path.length) using Nat.strongRecOn generalizing path with
  | ind left ih =>
    apply step
    intro shallow index
    refine ih _ ?_ (path.child index) rfl
    rw [← left, child, List.length_append, List.length_singleton]
    omega

namespace Process

def nested (trace : Trace) (payload : Value) (run : Process Value) : Process Value := do
  note [⟨.before, .nested, trace, payload⟩]
  let value ← run
  note [⟨.after, .nested, trace, payload⟩]
  return value

def decided (trace : Trace) (condition : Condition) (input : Value) : Process Bool := do
  let outcome ← condition.call input
  note [⟨.after, .condition, trace, .bool outcome⟩]
  return outcome

def merged (trace : Trace) (payload : Value) (merge : Merge) (results : List Value) : Process Value := do
  note [⟨.before, .merge, trace, payload⟩]
  let value ← merge.call results
  note [⟨.after, .merge, trace, payload⟩]
  return value

def whileRound (trace : Trace) (condition : Condition) (body : UInt64 → Value → Process Value)
    (state : UInt64 × Value) : Process ((UInt64 × Value) ⊕ Value) := do
  note [⟨.before, .condition, trace, .null⟩]
  let outcome ← decided trace condition state.2
  if outcome then
    let next ← nested trace (countPayload state.1.toNat) (body state.1 state.2)
    return .inl (state.1 + 1, next)
  else return .inr state.2

def branchAt (branches : List (UInt64 → Value → Process Value)) (index : Nat) :
    UInt64 → Value → Process Value :=
  match branches with
  | [only] => only
  | several => several.getD index fun _ value => pure value

def scatter (limit : Nat) (trace : Trace) (branches : List (UInt64 → Value → Process Value))
    (merge : Merge) (parts : List Value) : Process Value :=
  if limit < trace.length then fail (.configuration (.depthExceeded limit))
  else if branches.length ≠ 1 ∧ parts.length ≠ branches.length then
    fail (.configuration (.arityMismatch branches.length parts.length))
  else do
    let results ← parts.zipIdx.mapM fun (part, index) =>
      nested trace (countPayload index) (branchAt branches index (UInt64.ofNat index) part)
    merged trace .null merge results

/-- The division at `path`. A recursion stands under the same trace, with the number of its path as the
    occurrence of the innermost node. -/
def divide (limit : Nat) (condition : Condition) (split : Split) (merge : Merge)
    (solve : Trace → Value → Process Value) (trace : Trace) (path : RecursionPath) (input : Value) :
    Process Value := do
  note [⟨.before, .condition, trace, path.payload⟩]
  let outcome ← decided trace condition input
  if outcome then
    let parts ← split.call input
    if limit < trace.length + path.length then fail (.configuration (.depthExceeded limit))
    else
      let results ← parts.zipIdx.mapM fun (part, index) =>
        let subPath := path.child (UInt64.ofNat index)
        divide limit condition split merge solve (trace.retag (trace.length - 1) subPath.id) subPath part
      merged trace path.payload merge results
  else nested trace path.payload (solve trace input)
termination_by limit + 1 - (trace.length + path.length)
decreasing_by
  simp only [Trace.retag, RecursionPath.child, List.length_modify, List.length_append,
    List.length_singleton]
  omega

end Process

def Skeleton.frameAt (skeleton : Skeleton) (occurrence : UInt64) : Frame :=
  { skeleton.frame with occurrence }

mutual

/-- What a skeleton that `trace` leads to does to a value, each event under the trace of its node. -/
def Skeleton.behaviour (limit : Nat) (trace : Trace) : Skeleton → Value → Process Value
  | .seq _ execute, input => execute.call input
  | .pipe _ first second, input => do
    let middle ← Process.nested trace (countPayload 0)
      (first.behaviour limit (trace.nest first.frame) input)
    Process.nested trace (countPayload 1) (second.behaviour limit (trace.nest second.frame) middle)
  | .ifElse _ condition whenTrue whenFalse, input => do
    Process.note [⟨.before, .condition, trace, .null⟩]
    let outcome ← Process.decided trace condition input
    Process.nested trace (.bool outcome)
      (if outcome then whenTrue.behaviour limit (trace.nest whenTrue.frame) input
      else whenFalse.behaviour limit (trace.nest whenFalse.frame) input)
  | .whileLoop _ condition body, input =>
    Process.iterate (Process.whileRound trace condition fun round =>
      body.behaviour limit (trace.nest (body.frameAt round))) (0, input)
  | .forLoop _ times body, input =>
    (List.range times.toNat).foldlM (fun value round =>
      Process.nested trace (countPayload round)
        (body.behaviour limit (trace.nest (body.frameAt (UInt64.ofNat round))) value)) input
  | .map _ split body merge, input => do
    let parts ← split.call input
    Process.scatter limit trace
      [fun occurrence => body.behaviour limit (trace.nest (body.frameAt occurrence))] merge parts
  | .fork _ split branches merge, input => do
    let parts ← split.call input
    Process.scatter limit trace (Skeleton.behaviours limit trace branches) merge parts
  | .divide _ condition split solve merge, input =>
    Process.divide limit condition split merge
      (fun trace => solve.behaviour limit (trace.nest solve.frame)) trace [] input

def Skeleton.behaviours (limit : Nat) (trace : Trace) :
    List Skeleton → List (UInt64 → Value → Process Value)
  | [] => []
  | branch :: rest =>
    (fun occurrence => branch.behaviour limit (trace.nest (branch.frameAt occurrence)))
      :: Skeleton.behaviours limit trace rest

end

theorem Skeleton.length_behaviours (limit : Nat) (trace : Trace) (branches : List Skeleton) :
    (Skeleton.behaviours limit trace branches).length = branches.length := by
  induction branches with
  | nil => rfl
  | cons branch rest ih => simp only [Skeleton.behaviours, List.length_cons, ih]

end Skeletons
