import Skeletons.Instruction.Routine

namespace Skeletons

def defaultDepthLimit : Nat := 64

structure Task where
  stack : Stack
  value : Value
  children : List Child := []

inductive Progress where
  | more
  | split
  | done
deriving DecidableEq, Inhabited

def Progress.name : Progress → String
  | .more => "Continue"
  | .split => "Split"
  | .done => "Done"

structure Stepped where
  result : Except Failure Progress
  task : Task
  events : List Event := []

namespace Task

def ofChild (child : Child) : Task where
  stack := child.stack
  value := child.input

def isDone (task : Task) : Bool := task.stack.isEmpty && task.children.isEmpty

def progress (task : Task) : Progress :=
  if !task.children.isEmpty then .split else if task.stack.isEmpty then .done else .more

/-- One step: takes the top instruction off the stack and interprets it. A task with pending children
    refuses; a failed instruction is gone and leaves no value behind. -/
def step (task : Task) (limit : Nat) : Stepped :=
  if !task.children.isEmpty then
    { result := .error (.structural (.unresolvedChildren task.children.length)), task }
  else
    match task.stack with
    | [] => { result := .ok .done, task }
    | instruction :: rest =>
      let after := instruction.interpret limit task.value rest task.children
      match after.result with
      | .error failure =>
        { result := .error failure
          task := ⟨after.stack, .null, after.children⟩
          events := after.events }
      | .ok value =>
        let task : Task := ⟨after.stack, value, after.children⟩
        { result := .ok task.progress, task, events := after.events }

/-- Steps until the task is done, split or failed, at most `budget` times; `none` when that was not
    enough. Earlier events come in `log`, latest first. -/
def advanceFrom (limit : Nat) : Nat → Task → List Event → Option Stepped
  | 0, _, _ => none
  | budget + 1, task, log =>
    let stepped := task.step limit
    let log := stepped.events.reverse ++ log
    match stepped.result with
    | .ok .more => advanceFrom limit budget stepped.task log
    | _ => some { stepped with events := log.reverse }

def advance (task : Task) (limit budget : Nat) : Option Stepped := task.advanceFrom limit budget []

def takeChildren (task : Task) : List Child × Task := (task.children, { task with children := [] })

/-- Goes on after a split with the results of the children in the order of their indices. A task that
    still holds children refuses, and nothing changes. -/
def resume (task : Task) (results : List Value) : Bool × Task :=
  if task.children.isEmpty then (true, { task with value := .list results }) else (false, task)

end Task

end Skeletons
