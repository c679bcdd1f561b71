import Skeletons.Task

namespace Skeletons

structure Run where
  outcome : Except Failure Value
  events : List Event

/-- A finished stretch of a run, with all events so far, latest first. -/
structure Logged (α : Type) where
  outcome : Except Failure α
  log : List Event

/-- Runs children one after another and gathers their values; the first failure ends it. -/
def gather (run : Child → List Event → Option (Logged Value)) :
    List Child → List Event → Option (Logged (List Value))
  | [], log => some ⟨.ok [], log⟩
  | child :: rest, log =>
    match run child log with
    | none => none
    | some ⟨.error failure, log⟩ => some ⟨.error failure, log⟩
    | some ⟨.ok value, log⟩ =>
      match gather run rest log with
      | some ⟨.ok values, log⟩ => some ⟨.ok (value :: values), log⟩
      | other => other

namespace Stack

/-- Runs a stack on a value, adding events to the front of `log`. A loop need not end, so a budget
    bounds the number of steps on any path; `none` says that it ran out, which is neither a value
    nor a failure. -/
def runFrom (limit : Nat) : Nat → Stack → Value → List Event → Option (Logged Value)
  | 0, _, _, _ => none
  | _ + 1, [], value, log => some ⟨.ok value, log⟩
  | budget + 1, instruction :: rest, value, log =>
    match instruction.effect limit value with
    | .error failure => some ⟨.error failure, log⟩
    | .ok effect =>
      let log := effect.events.reverse ++ log
      match effect.children with
      | [] => runFrom limit budget (effect.pushed ++ rest) effect.value log
      | children =>
        let runChild := fun (child : Child) log => runFrom limit budget child.stack child.input log
        match gather runChild children log with
        | none => none
        | some ⟨.error failure, log⟩ => some ⟨.error failure, log⟩
        | some ⟨.ok results, log⟩ =>
          runFrom limit budget (effect.pushed ++ rest) (.list results) log

def run (stack : Stack) (limit budget : Nat) (input : Value) : Option Run :=
  (runFrom limit budget stack input []).map fun done => ⟨done.outcome, done.log.reverse⟩

end Stack

/-- More steps than any run takes in practice. -/
def ampleBudget : Nat := 1000000000000000

end Skeletons
