import Skeletons.Proofs.Task.Alone

namespace Skeletons

/-- A task on an engine, at its place among its siblings. A task that splits hands its children over and waits; a
    child that ends reports to its parent, which keeps the value in the slot of the child, or ends with the failure
    of the child and gives up the others. -/
inductive Work where
  | ready (place : Nat) (task : Task)
  /-- Waits on the children that have not reported yet. The slots are for the values of all children. -/
  | waiting (place : Nat) (task : Task) (pending : List Work) (slots : List (Option Value))
  | done (place : Nat) (outcome : Except Failure Value)

namespace Work

def place : Work → Nat
  | .ready place _ => place
  | .waiting place _ _ _ => place
  | .done place _ => place

def ofChild (child : Child) : Work := .ready child.index (Task.ofChild child)

def outOfRange (place count : Nat) : Failure :=
  .structural (.described s!"child index {place} out of range {count}")

def withoutResult (place : Nat) : Failure :=
  .structural (.described s!"child {place} finished without a result")

/-- A step of one task of a tree of tasks, and the events of it. -/
inductive Step (limit : Nat) : Work → List Event → Work → Prop where
  | more {place : Nat} {task : Task} :
    (task.step limit).result = .ok .more →
      Step limit (.ready place task) (task.step limit).events (.ready place (task.step limit).task)
  | ended {place : Nat} {task : Task} :
    (task.step limit).result = .ok .done →
      Step limit (.ready place task) (task.step limit).events
        (.done place (.ok (task.step limit).task.value))
  | failed {place : Nat} {task : Task} {failure : Failure} :
    (task.step limit).result = .error failure →
      Step limit (.ready place task) (task.step limit).events (.done place (.error failure))
  | split {place : Nat} {task : Task} :
    (task.step limit).result = .ok .split →
      Step limit (.ready place task) (task.step limit).events
        (.waiting place (task.step limit).task.takeChildren.2
          ((task.step limit).task.takeChildren.1.map ofChild)
          (List.replicate (task.step limit).task.takeChildren.1.length none))
  | child {place : Nat} {task : Task} {before after : List Work} {work next : Work}
      {slots : List (Option Value)} {events : List Event} :
    Step limit work events next →
      Step limit (.waiting place task (before ++ work :: after) slots) events
        (.waiting place task (before ++ next :: after) slots)
  | reported {place index : Nat} {task : Task} {before after : List Work}
      {slots : List (Option Value)} {value : Value} :
    index < slots.length →
      Step limit (.waiting place task (before ++ .done index (.ok value) :: after) slots) []
        (.waiting place task (before ++ after) (slots.set index (some value)))
  | misplaced {place index : Nat} {task : Task} {before after : List Work}
      {slots : List (Option Value)} {value : Value} :
    slots.length ≤ index →
      Step limit (.waiting place task (before ++ .done index (.ok value) :: after) slots) []
        (.done place (.error (outOfRange index slots.length)))
  | broken {place index : Nat} {task : Task} {before after : List Work}
      {slots : List (Option Value)} {failure : Failure} :
    Step limit (.waiting place task (before ++ .done index (.error failure) :: after) slots) []
      (.done place (.error failure))
  | resumed {place : Nat} {task : Task} {results : List Value} :
    (task.resume results).1 = true →
      Step limit (.waiting place task [] (results.map some)) [] (.ready place (task.resume results).2)
  | missing {place index : Nat} {task : Task} {slots : List (Option Value)} :
    slots.findIdx? Option.isNone = some index →
      Step limit (.waiting place task [] slots) [] (.done place (.error (withoutResult index)))
  | refused {place : Nat} {task : Task} {results : List Value} :
    (task.resume results).1 = false →
      Step limit (.waiting place task [] (results.map some)) []
        (.done place (.error (.structural .notResumed)))

inductive Steps (limit : Nat) (first : Work) : List Event → Work → Prop where
  | none : Steps limit first [] first
  | step {work next : Work} {log events : List Event} :
    Steps limit first log work → Step limit work events next → Steps limit first (log ++ events) next

theorem Step.place_eq {limit : Nat} {work next : Work} {events : List Event}
    (step : Step limit work events next) : next.place = work.place := by
  cases step <;> rfl

end Work

end Skeletons
