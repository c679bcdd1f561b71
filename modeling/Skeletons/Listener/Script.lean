import Skeletons.Listener.Registry
import Skeletons.Program
import Skeletons.Run

namespace Skeletons

mutual

/-- A listener with a label, the kind of skeleton it is written for and what it does on every event. -/
inductive Scripted where
  | mk (label : String) (kind : Option Kind) (actions : List Action)

inductive Action where
  | add (listener : Scripted) (skeleton : Skeleton)
  | addGeneral (listener : Scripted)
  /-- Removes the listener that was last registered under a label. -/
  | remove (label : String)
  | size
  | notify (event : Event)
  | run (skeleton : Skeleton) (input : Value)

end

def Scripted.label : Scripted → String
  | .mk label _ _ => label

def Scripted.kind : Scripted → Option Kind
  | .mk _ kind _ => kind

def Scripted.actions : Scripted → List Action
  | .mk _ _ actions => actions

inductive Answer where
  | added (id : Nat)
  | refused (error : BadListener)
  | removed (found : Bool)
  | size (count : Nat) (text : String)
  | notified
  | ran (outcome : Except Failure Value)

inductive Note where
  | heard (label : String) (event : Event)
  | acted (label : String) (answer : Answer)

structure Stage where
  registry : Registry Scripted := {}
  labels : List (String × Nat) := []
  notes : List Note := []

namespace Stage

def note (stage : Stage) (note : Note) : Stage := { stage with notes := note :: stage.notes }

def hear (act : Stage → Action → Option (Answer × Stage)) (event : Event) (stage : Stage)
    (listener : Scripted) : Option Stage :=
  listener.actions.foldlM (fun stage action => do
    let (answer, stage) ← act stage action
    return stage.note (.acted listener.label answer)) (stage.note (.heard listener.label event))

/-- Carries out an action; `none` when the budget for nesting or for steps ran out. -/
def perform : Nat → Stage → Action → Option (Answer × Stage)
  | 0, _, _ => none
  | budget + 1, stage, action =>
    match action with
    | .add listener skeleton =>
      match stage.registry.add skeleton listener.kind listener with
      | .ok (id, registry) =>
        some (.added id, { stage with registry, labels := (listener.label, id) :: stage.labels })
      | .error error => some (.refused error, stage)
    | .addGeneral listener =>
      let (id, registry) := stage.registry.addGeneral listener
      some (.added id, { stage with registry, labels := (listener.label, id) :: stage.labels })
    | .remove label =>
      match stage.labels.lookup label with
      | some id =>
        let (found, registry) := stage.registry.remove id
        some (.removed found, { stage with registry })
      | none => some (.removed false, stage)
    | .size => some (.size stage.registry.size stage.registry.describe, stage)
    | .notify event => do
      let stage ← deliver registry (hear (perform budget)) event stage
      return (.notified, stage)
    | .run skeleton input => do
      let run ← (Program.ofSkeleton skeleton).instantiate.run defaultDepthLimit ampleBudget input
      let stage ← run.events.foldlM
        (fun stage event => deliver registry (hear (perform budget)) event stage) stage
      return (.ran run.outcome, stage)

end Stage

end Skeletons
