import Mathlib.Algebra.BigOperators.Group.List.Basic
import Skeletons.Proofs.Engine.Gathering
import Skeletons.Proofs.Engine.Job

namespace Skeletons

namespace Work

/-- How the work on a task stands to the run of the task alone, after the given events. -/
inductive Runs (limit : Nat) : Task → Work → Multiset Event → Prop where
  | ready {start task : Task} {place : Nat} {log : List Event} :
    start.Passes limit task log → Runs limit start (.ready place task) log
  | ended {start : Task} {place : Nat} {value : Value} {log : List Event} :
    start.Ends limit (.ok value) log → Runs limit start (.done place (.ok value)) log
  | failed {start origin : Task} {place : Nat} {failure : Failure} {told : List Event}
      {log : Multiset Event} :
    start.Spawns limit origin → origin.Ends limit (.error failure) told →
      Runs limit start (.done place (.error failure)) log
  | waiting {start task : Task} {place : Nat} {log : List Event} {pending : List Work}
      {slots : List (Option Value)} {parts : List (Multiset Event)} :
    start.Passes limit task log → (task.step limit).result = .ok .split →
      slots.length = (task.step limit).task.takeChildren.1.length →
      parts.length = (task.step limit).task.takeChildren.1.length →
      (pending.map Work.place).Nodup →
      (∀ index : Nat, index ∈ pending.map Work.place ↔ slots[index]? = some none) →
      (∀ (index : Nat) (child : Child) (value : Value) (part : Multiset Event),
        (task.step limit).task.takeChildren.1[index]? = some child → slots[index]? = some (some value) →
          parts[index]? = some part →
            ∃ told : List Event, (Task.ofChild child).Ends limit (.ok value) told ∧ part = told) →
      (∀ (work : Work) (child : Child) (part : Multiset Event), work ∈ pending →
        (task.step limit).task.takeChildren.1[work.place]? = some child → parts[work.place]? = some part →
          Runs limit (Task.ofChild child) work part) →
      Runs limit start (.waiting place (task.step limit).task.takeChildren.2 pending slots)
        ((log ++ (task.step limit).events : List Event) + parts.sum)

namespace Runs

variable {limit : Nat} {start : Task}

theorem of_gathering (place : Nat) {task : Task} {log : List Event} {pending : List Work}
    {slots : List (Option Value)} {parts : List (Multiset Event)} (passes : start.Passes limit task log)
    (split : (task.step limit).result = .ok .split)
    (gathering : Gathering limit (Runs limit) (task.step limit).task.takeChildren.1 pending slots parts) :
    Runs limit start (.waiting place (task.step limit).task.takeChildren.2 pending slots)
      ((log ++ (task.step limit).events : List Event) + parts.sum) :=
  .waiting passes split gathering.slotted gathering.parted gathering.distinct gathering.vacant
    gathering.filled gathering.running

theorem gathering {place : Nat} {waiter : Task} {pending : List Work} {slots : List (Option Value)}
    {events : Multiset Event} (runs : Runs limit start (.waiting place waiter pending slots) events) :
    ∃ task log parts, start.Passes limit task log ∧ (task.step limit).result = .ok .split ∧
      waiter = (task.step limit).task.takeChildren.2 ∧
      Gathering limit (Runs limit) (task.step limit).task.takeChildren.1 pending slots parts ∧
      events = (log ++ (task.step limit).events : List Event) + parts.sum := by
  cases runs with
  | @waiting _ task _ log _ _ parts passes split slotted parted distinct vacant filled running =>
    exact ⟨task, log, parts, passes, split, rfl, ⟨slotted, parted, distinct, vacant, filled, running⟩, rfl⟩

theorem ended_inv {place : Nat} {value : Value} {events : Multiset Event}
    (runs : Runs limit start (.done place (.ok value)) events) :
    ∃ told : List Event, start.Ends limit (.ok value) told ∧ events = told := by
  cases runs with
  | ended alone => exact ⟨_, alone, rfl⟩

theorem failed_inv {place : Nat} {failure : Failure} {events : Multiset Event}
    (runs : Runs limit start (.done place (.error failure)) events) :
    ∃ origin told, start.Spawns limit origin ∧ origin.Ends limit (.error failure) told := by
  cases runs with
  | failed spawns alone => exact ⟨_, _, spawns, alone⟩

theorem step {work next : Work} {events : Multiset Event} {told : List Event} (idle : start.Idle)
    (runs : Runs limit start work events) (step : Step limit work told next) :
    Runs limit start next (events + told) := by
  induction step generalizing start events with
  | more went =>
    cases runs with
    | ready passes => exact .ready (passes.more went)
  | @ended place task done =>
    cases runs with
    | ready passes =>
      have last := (Task.ends_iff_of_done done).mpr ⟨rfl, rfl⟩
      exact .ended (passes.ends_iff.mpr ⟨_, last, rfl⟩)
  | @failed place task failure failed =>
    cases runs with
    | ready passes =>
      have last := (Task.ends_iff_of_error (passes.idle idle) failed).mpr ⟨rfl, rfl⟩
      exact .failed .self (passes.ends_iff.mpr ⟨_, last, rfl⟩)
  | @split place task split =>
    cases runs with
    | @ready _ _ _ log passes =>
      have gathering : Gathering limit (Runs limit) (task.step limit).task.takeChildren.1 _ _ _ :=
        Gathering.start (Task.split_places split) fun child _ => .ready .here
      have waits := of_gathering place passes split gathering
      rw [List.sum_eq_zero fun _ member => List.eq_of_mem_replicate member, add_zero,
        ← Multiset.coe_add] at waits
      exact waits
  | @child place waiter before after work next slots told inner ih =>
    obtain ⟨task, log, parts, passes, split, rfl, gathering, rfl⟩ := runs.gathering
    obtain ⟨later, advanced, same⟩ := gathering.advance inner.place_eq fun _ _ run => ih rfl run
    rw [add_assoc, ← same]
    exact of_gathering place passes split advanced
  | @reported place index waiter before after slots value within =>
    obtain ⟨task, log, parts, passes, split, rfl, gathering, rfl⟩ := runs.gathering
    rw [Multiset.coe_nil, add_zero]
    exact of_gathering place passes split (gathering.report fun _ _ run => run.ended_inv)
  | @misplaced place index waiter before after slots value beyond =>
    obtain ⟨task, log, parts, passes, split, rfl, gathering, rfl⟩ := runs.gathering
    obtain ⟨_, _, found, _, _⟩ := gathering.exists_child
    have within := (List.getElem?_eq_some_iff.mp found).1
    rw [← gathering.slotted] at within
    exact absurd within (Nat.not_lt.mpr beyond)
  | @broken place index waiter before after slots failure =>
    obtain ⟨task, log, parts, passes, split, rfl, gathering, rfl⟩ := runs.gathering
    obtain ⟨child, _, found, _, run⟩ := gathering.exists_child
    obtain ⟨origin, _, spawns, alone⟩ := run.failed_inv
    have handed := Task.Spawns.child .self passes split (List.mem_of_getElem? found)
    exact .failed (handed.trans spawns) alone
  | @resumed place waiter results accepted =>
    obtain ⟨task, log, parts, passes, split, rfl, gathering, rfl⟩ := runs.gathering
    obtain ⟨told, came, same⟩ := gathering.complete
    rw [same, Multiset.coe_nil, add_zero, Multiset.coe_add]
    exact .ready (passes.resumed split came)
  | @missing place index waiter slots found =>
    obtain ⟨task, log, parts, passes, split, rfl, gathering, rfl⟩ := runs.gathering
    obtain ⟨within, empty, _⟩ := List.findIdx?_eq_some_iff_getElem.mp found
    have vacant : slots[index]? = some none := by
      rw [List.getElem?_eq_getElem within, Option.isNone_iff_eq_none.mp empty]
    cases (gathering.vacant index).mpr vacant
  | @refused place waiter results rejected =>
    obtain ⟨task, log, parts, passes, split, rfl, gathering, rfl⟩ := runs.gathering
    cases rejected

theorem steps {work : Work} {told : List Event} (idle : start.Idle)
    (steps : Steps limit (.ready 0 start) told work) : Runs limit start work told := by
  induction steps with
  | none => exact .ready .here
  | step _ last ih =>
    rw [← Multiset.coe_add]
    exact ih.step idle last

end Runs

theorem Steps.of_alone_ok {limit : Nat} {start : Task} (idle : start.Idle) {told events : List Event}
    {place : Nat} {value : Value} {outcome : Except Failure Value}
    (completed : Steps limit (.ready 0 start) told (.done place outcome))
    (alone : start.Ends limit (.ok value) events) : outcome = .ok value ∧ told.Perm events := by
  have runs := Runs.steps idle completed
  match outcome with
  | .ok other =>
    obtain ⟨log, ended, same⟩ := runs.ended_inv
    obtain ⟨equal, rfl⟩ := alone.unique ended
    exact ⟨equal.symm, Multiset.coe_eq_coe.mp same⟩
  | .error failure =>
    obtain ⟨origin, log, spawns, failed⟩ := runs.failed_inv
    obtain ⟨_, _, well⟩ := spawns.ends_ok alone
    cases (well.unique failed).1

end Work

namespace Program

/-- However the tasks of a compiled program are scheduled: where the sequential run ends well, so does every
    completed run of the engine, with the same value and the same events; where it fails, no run of the engine
    ends well; and an engine fails with the failure of the run of one of its tasks alone, never because it
    lost track of a child. -/
theorem schedule_independent (skeleton : Skeleton) (limit : Nat) (input : Value)
    {outcome : Except Failure Value} {told : List Event}
    (completed : Work.Steps limit (.ready 0 ((ofSkeleton skeleton).task input)) told (.done 0 outcome)) :
    (∀ budget value events,
      (ofSkeleton skeleton).instantiate.run limit budget input = some ⟨.ok value, events⟩ →
        outcome = .ok value ∧ told.Perm events) ∧
      (∀ budget failure events,
        (ofSkeleton skeleton).instantiate.run limit budget input = some ⟨.error failure, events⟩ →
          ∀ value, outcome ≠ .ok value) ∧
      ∀ failure, outcome = .error failure →
        (∀ violation, failure ≠ .structural violation) ∧
          ∃ origin budget events, ((ofSkeleton skeleton).task input).Spawns limit origin ∧
            origin.stack.run limit budget origin.value = some ⟨.error failure, events⟩ := by
  have sound := sound_task skeleton input
  have runs := Work.Runs.steps sound.idle completed
  refine ⟨fun budget value events alone => ?_, fun budget failure events alone value => ?_,
    fun failure failed => ?_⟩
  · exact completed.of_alone_ok sound.idle ⟨budget, alone⟩
  · intro same
    subst same
    obtain ⟨log, ended, _⟩ := runs.ended_inv
    have broken : ((ofSkeleton skeleton).task input).Ends limit (.error failure) events := ⟨budget, alone⟩
    cases (ended.unique broken).1
  · subst failed
    obtain ⟨origin, log, spawns, budget, alone⟩ := runs.failed_inv
    have raises : Task.Raises limit origin failure :=
      Task.raises_of_ends (spawns.idle sound.idle) ⟨budget, alone⟩
    exact ⟨(raises.admits (spawns.sound sound)).not_structural, origin, budget, log, spawns, alone⟩

def keepEach : Skeleton :=
  .map 1 ⟨"items", fun | .list items => .ok items | _ => .error "no list"⟩ (.seq 2 ⟨"keep", .ok⟩)
    ⟨"collect", fun parts => .ok (.list parts)⟩

theorem schedule_independent_keepEach : ∃ told events : List Event,
    Work.Steps 1 (.ready 0 ((ofSkeleton keepEach).task (.list [.bool true, .null]))) told
      (.done 0 (.ok (.list [.bool true, .null]))) ∧
    (ofSkeleton keepEach).instantiate.run 1 9 (.list [.bool true, .null]) =
      some ⟨.ok (.list [.bool true, .null]), events⟩ ∧ told.Perm events := by
  have engine : ∃ told, Engine.runAll ⟨2, 1⟩ (ofSkeleton keepEach) 10 [.list [.bool true, .null]] =
      some ([.ok (.list [.bool true, .null])], told) := ⟨_, rfl⟩
  have alone : ∃ events, (ofSkeleton keepEach).instantiate.run 1 9 (.list [.bool true, .null]) =
      some ⟨.ok (.list [.bool true, .null]), events⟩ := ⟨_, rfl⟩
  obtain ⟨told, ran⟩ := engine
  obtain ⟨events, ended⟩ := alone
  obtain ⟨_, same, completed⟩ := Engine.steps_of_runAll ran
  cases same
  exact ⟨told, events, completed, ended, ((schedule_independent keepEach 1 _ completed).1 9 _ _ ended).2⟩

end Program

end Skeletons
