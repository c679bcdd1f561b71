import Skeletons.Task

namespace Skeletons

/-- A task on an engine, together with the tasks it waits on. A job waits in a queue for a permit,
    runs one stretch of its task while it holds the permit, gives it back, and then has either ended
    or waits on one job for each child of a split. -/
inductive Job where
  | queued (task : Task)
  | running (task : Task)
  /-- Holds no permit and waits on the jobs of its children, which stand in the order of their indices. -/
  | waiting (task : Task) (children : List Job)
  | finished (outcome : Except Failure Value)

structure Change (α : Type) where
  after : α
  /-- How many permits were taken, given back, and left with stretches whose jobs are given up. -/
  taken : Nat := 0
  returned : Nat := 0
  abandoned : Nat := 0
  events : List Event := []

def Change.map {α β : Type} (change : Change α) (f : α → β) : Change β :=
  { change with after := f change.after }

inductive Transition where
  | start
  | stop
  | settle
deriving DecidableEq

namespace Job

/-- What the outcomes of children come to: the first failure, or every value once all have ended. -/
def verdict : List Job → Option (Except Failure (List Value))
  | [] => some (.ok [])
  | .finished (.error failure) :: _ => some (.error failure)
  | .finished (.ok value) :: rest =>
    (verdict rest).map fun outcome => outcome.map (value :: ·)
  | _ :: rest =>
    match verdict rest with
    | some (.error failure) => some (.error failure)
    | _ => none

mutual

def permits : Job → Nat
  | .running _ => 1
  | .waiting _ children => permitsOf children
  | _ => 0

def permitsOf : List Job → Nat
  | [] => 0
  | job :: rest => permits job + permitsOf rest

end

def afterStretch (stepped : Stepped) : Job :=
  match stepped.result with
  | .error failure => .finished (.error failure)
  | .ok .split =>
    let (children, task) := stepped.task.takeChildren
    .waiting task (children.map fun child => .queued (Task.ofChild child))
  | .ok _ => .finished (.ok stepped.task.value)

/-- A job whose children came to a verdict. A failure gives up the children that are still at work. -/
def afterChildren (task : Task) (children : List Job) (outcome : Except Failure (List Value)) :
    Change Job :=
  match outcome with
  | .error failure => { after := .finished (.error failure), abandoned := permitsOf children }
  | .ok results =>
    let (resumed, task) := task.resume results
    if resumed then { after := .queued task }
    else { after := .finished (.error (.structural .notResumed)) }

mutual

/-- Lets the first job of a tree that can do so go through a transition. Stretches are bounded by
    `budget`. -/
def advance? (limit budget : Nat) (transition : Transition) : Job → Option (Change Job)
  | .queued task => if transition = .start then some { after := .running task, taken := 1 } else none
  | .running task =>
    if transition = .stop then
      (task.advance limit budget).map fun stepped =>
        { after := afterStretch stepped, returned := 1, events := stepped.events }
    else none
  | .waiting task children =>
    match verdict children with
    | some outcome => if transition = .settle then some (afterChildren task children outcome) else none
    | none =>
      (advanceFirst? limit budget transition children).map fun change =>
        change.map (.waiting task)
  | .finished _ => none

def advanceFirst? (limit budget : Nat) (transition : Transition) :
    List Job → Option (Change (List Job))
  | [] => none
  | job :: rest =>
    match advance? limit budget transition job with
    | some change => some (change.map (· :: rest))
    | none =>
      (advanceFirst? limit budget transition rest).map fun change => change.map (job :: ·)

end

end Job

end Skeletons
