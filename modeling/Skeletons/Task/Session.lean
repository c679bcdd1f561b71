import Skeletons.Run

namespace Skeletons

structure Scene where
  task : Task
  pool : List Child := []
  results : List (Nat × Value) := []

/-- The current scene, and the scenes around it with the index of the child that was entered,
    innermost first. A child that was taken can be run at once, or entered: then it is the task of
    the session until the session leaves it again. -/
structure Session where
  current : Scene
  outer : List (Nat × Scene) := []

inductive Session.Command where
  | step
  | run
  | isDone
  | take
  | child (index : Nat)
  | enter (index : Nat)
  | leave
  | finish
  | resume (results : List Value)
  | dump
  | push (instruction : Instruction)
  | pushBottom (instruction : Instruction)
  | pushStack (stack : Stack)
  | pop
  | peek
  | length
  | copy

inductive Session.Reply where
  | progress (result : Except Failure Progress)
  | outcome (result : Except Failure Value)
  | flag (value : Bool)
  | children (children : List Child)
  | stack (stack : Stack)
  | instruction (instruction : Option Instruction)
  | length (count : Nat)
  | copied (before after : Stack)
  | silence

namespace Scene

def insertResult (index : Nat) (value : Value) : List (Nat × Value) → List (Nat × Value)
  | [] => [(index, value)]
  | (other, held) :: rest =>
    if index < other then (index, value) :: (other, held) :: rest
    else if index = other then (index, value) :: rest
    else (other, held) :: insertResult index value rest

def store (scene : Scene) (index : Nat) (value : Value) : Scene :=
  { scene with results := insertResult index value scene.results }

def draw? (scene : Scene) (index : Nat) : Option (Child × Scene) := do
  let child ← scene.pool.find? (·.index = index)
  return (child, { scene with pool := scene.pool.filter (·.index ≠ index) })

def withStack (scene : Scene) (stack : Stack) : Scene :=
  { scene with task := { scene.task with stack } }

end Scene

/-- Carries out a command: the reply, the events on the way and the session after it. `none` when a named
    child is not there, when there is nothing to leave, or when `budget` steps were not enough. -/
def Session.perform (limit budget : Nat) (session : Session) (command : Command) :
    Option (Reply × List Event × Session) :=
  let scene := session.current
  let stack := scene.task.stack
  let go (reply : Reply) (scene : Scene) := some (reply, [], { session with current := scene })
  match command with
  | .step =>
    let stepped := scene.task.step limit
    some (.progress stepped.result, stepped.events,
      { session with current := { scene with task := stepped.task } })
  | .run => do
    let stepped ← scene.task.advance limit budget
    return (.progress stepped.result, stepped.events,
      { session with current := { scene with task := stepped.task } })
  | .isDone => go (.flag scene.task.isDone) scene
  | .take =>
    let (children, task) := scene.task.takeChildren
    go (.children children) { scene with task, pool := scene.pool ++ children }
  | .child index => do
    let (child, scene) ← scene.draw? index
    let run ← child.stack.run limit budget child.input
    let scene := match run.outcome with
      | .ok value => scene.store index value
      | .error _ => scene
    return (.outcome run.outcome, run.events, { session with current := scene })
  | .enter index => do
    let (child, scene) ← scene.draw? index
    return (.silence, [], ⟨⟨Task.ofChild child, [], []⟩, (index, scene) :: session.outer⟩)
  | .leave =>
    match session.outer with
    | [] => none
    | (index, outer) :: rest => some (.silence, [], ⟨outer.store index scene.task.value, rest⟩)
  | .finish =>
    let (resumed, task) := scene.task.resume (scene.results.map (·.2))
    go (.flag resumed) { scene with task, results := [] }
  | .resume results =>
    let (resumed, task) := scene.task.resume results
    go (.flag resumed) { scene with task }
  | .dump => go (.stack stack) scene
  | .push instruction => go .silence (scene.withStack (instruction :: stack))
  | .pushBottom instruction => go .silence (scene.withStack (stack ++ [instruction]))
  | .pushStack other => go .silence (scene.withStack (other ++ stack))
  | .pop => go (.instruction stack.head?) (scene.withStack stack.tail)
  | .peek => go (.instruction stack.head?) scene
  | .length => go (.length stack.length) scene
  | .copy => go (.copied stack (Stack.copy stack)) (scene.withStack (Stack.copy stack))

end Skeletons
