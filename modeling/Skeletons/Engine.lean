import Skeletons.Engine.Job
import Skeletons.Program
import Skeletons.Run

namespace Skeletons

/-- How many stretches run at a time, and how deep splits may nest. No workers count as one. -/
structure Engine where
  workers : Nat
  depthLimit : Nat := defaultDepthLimit

/-- A pool at work: free permits, permits held by stretches of jobs that were given up, the roots of
    the trees of jobs, and all events so far, latest first. A task that waits on its children holds
    no permit. -/
structure Pool where
  free : Nat
  abandoned : Nat := 0
  jobs : List Job
  log : List Event := []

namespace Pool

def ofTasks (engine : Engine) (tasks : List Task) : Pool where
  free := max engine.workers 1
  jobs := tasks.map .queued

def afterChange (pool : Pool) (change : Change (List Job)) : Pool where
  free := pool.free + change.returned - change.taken
  abandoned := pool.abandoned + change.abandoned
  jobs := change.after
  log := change.events.reverse ++ pool.log

/-- One transition: a job whose children came to a verdict goes on first, then queued jobs start while
    permits are free, then a running stretch ends. `none` when every job has ended. -/
def step? (pool : Pool) (limit budget : Nat) : Option Pool :=
  let attempt := fun transition =>
    (Job.advanceFirst? limit budget transition pool.jobs).map pool.afterChange
  match attempt .settle, if 0 < pool.free then attempt .start else none with
  | some next, _ => some next
  | none, some next => some next
  | none, none =>
    match attempt .stop with
    | some next => some next
    | none =>
      if 0 < pool.abandoned then
        some { pool with free := pool.free + pool.abandoned, abandoned := 0 }
      else none

def settle (limit budget : Nat) : Nat → Pool → Option Pool
  | 0, _ => none
  | steps + 1, pool =>
    match pool.step? limit budget with
    | none => some pool
    | some next => settle limit budget steps next

def outcomes? (pool : Pool) : Option (List (Except Failure Value)) :=
  pool.jobs.mapM fun
    | .finished outcome => some outcome
    | _ => none

end Pool

namespace Engine

/-- Runs a program on all inputs at once: the outcomes in the order of the inputs, and the events. -/
def runAll (engine : Engine) (program : Program) (budget : Nat) (inputs : List Value) :
    Option (List (Except Failure Value) × List Event) := do
  let tasks := inputs.map fun input => Task.mk program.instantiate input []
  let pool ← (Pool.ofTasks engine tasks).settle engine.depthLimit budget budget
  let outcomes ← pool.outcomes?
  return (outcomes, pool.log.reverse)

def runEach (engine : Engine) (program : Program) (budget : Nat) (inputs : List Value) :
    Option (List (Except Failure Value) × List Event) := do
  let runs ← inputs.mapM fun input => engine.runAll program budget [input]
  return (runs.flatMap (·.1), runs.flatMap (·.2))

end Engine

end Skeletons
