import Skeletons.Proofs.Listener.Attended
import Skeletons.Proofs.Task.Calls

namespace Skeletons

variable {limit : Nat}

namespace Task

def above (below : Stack) (task : Task) : Task := { task with stack := task.stack ++ below }

end Task

def Progress.above (below : Stack) : Progress → Progress
  | .done => if below.isEmpty then .done else .more
  | other => other

def Stepped.above (below : Stack) (stepped : Stepped) : Stepped where
  result := stepped.result.map (Progress.above below)
  task := stepped.task.above below
  events := stepped.events

namespace Task

theorem progress_above (below : Stack) (task : Task) :
    (task.above below).progress = task.progress.above below := by
  obtain ⟨stack, value, children⟩ := task
  cases children with
  | cons child siblings => rfl
  | nil =>
    cases stack with
    | cons instruction rest => rfl
    | nil => rfl

theorem step_above (below : Stack) {task : Task} (busy : task.isDone = false) :
    (task.above below).step limit = (task.step limit).above below := by
  by_cases pending : task.children = []
  · obtain ⟨stack, value, children⟩ := task
    cases pending
    cases stack with
    | nil => cases busy
    | cons instruction rest =>
      rw [step_cons, above, List.cons_append, step_cons]
      cases instruction.effect limit value with
      | error failure => rfl
      | ok effect =>
        dsimp only
        rw [← List.append_assoc]
        exact congrArg (fun progress => Stepped.mk (.ok progress) _ effect.events)
          (progress_above below ⟨effect.pushed ++ rest, effect.value, effect.children⟩)
  · have held : (task.above below).children ≠ [] := pending
    rw [step_of_pending pending, step_of_pending held]
    rfl

theorem resume_above (below : Stack) (task : Task) (results : List Value) :
    ((task.above below).resume results).2 = (task.resume results).2.above below := by
  rw [resume, resume]
  split
  · rename_i free
    have same : task.children.isEmpty := free
    rw [if_pos same]
    rfl
  · rename_i held
    have same : ¬ task.children.isEmpty := held
    rw [if_neg same]

/-- Whether a task has something left to do whenever some calls make it step. -/
def Busy (limit : Nat) : Task → List Call → Prop
  | _, [] => True
  | task, call :: rest => (call = .step → task.isDone = false) ∧ Busy limit (task.call limit call) rest

theorem after_above (below : Stack) {task : Task} {calls : List Call} (busy : task.Busy limit calls) :
    (task.above below).after limit calls = (task.after limit calls).above below := by
  induction calls generalizing task with
  | nil => rfl
  | cons call rest ih =>
    have called : (task.above below).call limit call = (task.call limit call).above below := by
      cases call with
      | step => exact congrArg Stepped.task (step_above below (busy.1 rfl))
      | take => rfl
      | resume results => exact resume_above below task results
    exact (congrArg (after limit · rest) called).trans (ih busy.2)

theorem eq_of_isDone {task : Task} (done : task.isDone = true) : task = ⟨[], task.value, []⟩ := by
  obtain ⟨stack, value, children⟩ := task
  simp only [isDone, Bool.and_eq_true, List.isEmpty_iff] at done
  obtain ⟨rfl, rfl⟩ := done
  rfl

end Task

/-- Below another stack, a stack is what comes next. Before any listeners, a run of both ends as the first does
    when that one fails, and otherwise as the second one does on the value of the first, after the events of
    both in turn. A task with both steps as a task with the first alone until that one is done, whatever
    its splits are given back; then it has the second left, and the value of the first. -/
theorem Stack.continues {L σ : Type} (registry : σ → Registry L) (call : Event → σ → L → Option σ) (limit : Nat)
    (first second : Stack) (input : Value) (state : σ) :
    (∀ outcome events last,
      (∃ budget, Stack.attended registry call limit budget (first ++ second) input state =
          some (⟨outcome, events⟩, last)) ↔
        (∃ failure, outcome = .error failure ∧
          ∃ budget, first.attended registry call limit budget input state =
            some (⟨.error failure, events⟩, last)) ∨
          ∃ value middle early late, events = early ++ late ∧
            (∃ budget, first.attended registry call limit budget input state =
              some (⟨.ok value, early⟩, middle)) ∧
            ∃ budget, second.attended registry call limit budget value middle =
              some (⟨outcome, late⟩, last)) ∧
      ∀ calls, (Task.mk first input []).Busy limit calls →
        let alone := (Task.mk first input []).after limit calls
        let both := (Task.mk (first ++ second) input []).after limit calls
        both = alone.above second ∧
          (alone.isDone = false → both.step limit = (alone.step limit).above second) ∧
            (alone.isDone = true → both = ⟨second, alone.value, []⟩) := by
  constructor
  · intro outcome events last
    have joined := Process.ends_congr (behaviour_append limit first second input).alike outcome events
    simp only [Stack.attended_ends_iff, joined, Process.ends_bind]
    constructor
    · rintro ⟨⟨failure, failed, rfl⟩ | ⟨value, early, late, reached, ended, rfl⟩, delivered⟩
      · exact .inl ⟨failure, rfl, failed, delivered⟩
      · rw [List.foldlM_append] at delivered
        obtain ⟨middle, before, after⟩ := Option.bind_eq_some_iff.mp delivered
        exact .inr ⟨value, middle, early, late, rfl, ⟨reached, before⟩, ended, after⟩
    · rintro (⟨failure, rfl, failed, delivered⟩ |
        ⟨value, middle, early, late, rfl, ⟨reached, before⟩, ended, after⟩)
      · exact ⟨.inl ⟨failure, failed, rfl⟩, delivered⟩
      · refine ⟨.inr ⟨value, early, late, reached, ended, rfl⟩, ?_⟩
        rw [List.foldlM_append]
        exact Option.bind_eq_some_iff.mpr ⟨middle, before, after⟩
  · intro calls busy alone both
    have same : both = alone.above second := Task.after_above second busy
    refine ⟨same, fun left => ?_, fun done => ?_⟩
    · rw [same, Task.step_above second left]
    · rw [same, Task.eq_of_isDone done]
      rfl

theorem Stack.continues_keptItems :
    let first := (Program.ofSkeleton Program.keptItems).instantiate
    let second : Stack := [.merge Program.collect []]
    let calls : List Task.Call := [.step, .step, .take, .resume [.bool true], .step, .step, .step]
    (Task.mk first (.list [.null]) []).Busy 64 calls ∧
      (Task.mk (first ++ second) (.list [.null]) []).after 64 calls = ⟨second, .list [.bool true], []⟩ := by
  intro first second calls
  have busy : (Task.mk first (.list [.null]) []).Busy 64 calls :=
    ⟨fun _ => rfl, fun _ => rfl, nofun, nofun, fun _ => rfl, fun _ => rfl, fun _ => rfl, trivial⟩
  have continued := Stack.continues id succession 64 first second (.list [.null]) {}
  exact ⟨busy, (continued.2 calls busy).2.2 rfl⟩

end Skeletons
