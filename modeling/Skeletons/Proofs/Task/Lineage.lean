import Skeletons.Proofs.Instruction.Effect
import Skeletons.Proofs.Task.Alone

namespace Skeletons

/-- A property of stacks, by the number of tasks above the one that they belong to, that no instruction
    gives up. -/
structure Stack.Kept (limit : Nat) (inv : Nat → Stack → Prop) : Prop where
  below {above : Nat} {instruction : Instruction} {rest : Stack} :
    inv above (instruction :: rest) → inv above rest
  onward {above : Nat} {instruction : Instruction} {rest : Stack} {value : Value} {effect : Effect} :
    inv above (instruction :: rest) → instruction.Leads limit value effect →
      inv above (effect.pushed ++ rest)
  spawned {above : Nat} {instruction : Instruction} {rest : Stack} {value : Value} {effect : Effect} :
    inv above (instruction :: rest) → instruction.Leads limit value effect →
      ∀ child ∈ effect.children, inv (above + 1) child.stack

namespace Task

/-- The tasks that a task may become, and those of its children, with the number of tasks above each. -/
inductive Lineage (limit : Nat) (start : Task) : Nat → Task → Prop where
  | self : Lineage limit start 0 start
  | step {above : Nat} {task : Task} :
    Lineage limit start above task → Lineage limit start above (task.step limit).task
  | take {above : Nat} {task : Task} :
    Lineage limit start above task → Lineage limit start above task.takeChildren.2
  | resume {above : Nat} {task : Task} (results : List Value) :
    Lineage limit start above task → Lineage limit start above (task.resume results).2
  | child {above : Nat} {task : Task} {child : Child} :
    Lineage limit start above task → child ∈ task.children →
      Lineage limit start (above + 1) (ofChild child)

theorem step_of_pending {task : Task} (pending : task.children ≠ []) (limit : Nat) :
    task.step limit =
      { result := .error (.structural (.unresolvedChildren task.children.length)), task } := by
  have held : (!task.children.isEmpty) = true := by simpa using pending
  rw [step, if_pos held]

theorem step_task_cases (limit : Nat) (task : Task) :
    (task.step limit).task = task ∨
      ∃ instruction rest, task.stack = instruction :: rest ∧
        ((task.step limit).task = ⟨rest, .null, []⟩ ∨
          ∃ effect, instruction.Leads limit task.value effect ∧
            (task.step limit).task = ⟨effect.pushed ++ rest, effect.value, effect.children⟩) := by
  by_cases pending : task.children = []
  · obtain ⟨stack, value, children⟩ := task
    cases pending
    match stack with
    | [] => exact Or.inl rfl
    | instruction :: rest =>
      refine Or.inr ⟨instruction, rest, rfl, ?_⟩
      rw [step_cons]
      cases came : instruction.effect limit value with
      | error failure => exact Or.inl rfl
      | ok effect => exact Or.inr ⟨effect, Instruction.leads_of_effect came, rfl⟩
  · exact Or.inl (by rw [step_of_pending pending])

theorem Lineage.keeps {limit : Nat} {inv : Nat → Stack → Prop} (kept : Stack.Kept limit inv) {start : Task}
    (idle : start.Idle) (begun : inv 0 start.stack) {above : Nat} {task : Task}
    (lineage : Lineage limit start above task) :
    inv above task.stack ∧ ∀ child ∈ task.children, inv (above + 1) child.stack := by
  induction lineage with
  | self =>
    refine ⟨begun, fun child member => ?_⟩
    rw [idle] at member
    cases member
  | @step above task _ ih =>
    rcases step_task_cases limit task with same | ⟨instruction, rest, top, failed | ⟨effect, leads, after⟩⟩
    · rwa [same]
    · have held := ih.1
      rw [top] at held
      rw [failed]
      exact ⟨kept.below held, fun _ member => nomatch member⟩
    · have held := ih.1
      rw [top] at held
      rw [after]
      exact ⟨kept.onward held leads, kept.spawned held leads⟩
  | take _ ih => exact ⟨ih.1, fun _ member => nomatch member⟩
  | @resume above task results _ ih =>
    rw [Task.resume]
    split
    · exact ih
    · exact ih
  | child _ member ih => exact ⟨ih.2 _ member, fun _ impossible => nomatch impossible⟩

theorem Lineage.steps {limit : Nat} {start task : Task} {above : Nat}
    (lineage : Lineage limit start above task) (count : Nat) :
    Lineage limit start above ((fun task => (Task.step task limit).task)^[count] task) := by
  induction count with
  | zero => exact lineage
  | succ count ih =>
    rw [Function.iterate_succ_apply']
    exact ih.step

end Task

end Skeletons
