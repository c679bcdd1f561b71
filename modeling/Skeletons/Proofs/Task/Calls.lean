import Mathlib.Data.List.Induction
import Skeletons.Proofs.Task.Lineage

namespace Skeletons

inductive Task.Call where
  | step
  | take
  | resume (results : List Value)

namespace Task

def call (limit : Nat) (task : Task) : Call → Task
  | .step => (task.step limit).task
  | .take => task.takeChildren.2
  | .resume results => (task.resume results).2

def after (limit : Nat) (task : Task) (calls : List Call) : Task := calls.foldl (call limit) task

/-- The results that the last of some resumes brought, none if there was none. -/
def installed (calls : List Call) : List Value :=
  calls.foldl (fun results call => match call with | .resume others => others | _ => results) []

theorem after_append (limit : Nat) (task : Task) (first second : List Call) :
    task.after limit (first ++ second) = (task.after limit first).after limit second := List.foldl_append

@[simp] theorem after_snoc (limit : Nat) (task : Task) (calls : List Call) (last : Call) :
    task.after limit (calls ++ [last]) = (task.after limit calls).call limit last := List.foldl_append

@[simp] theorem installed_step (calls : List Call) : installed (calls ++ [.step]) = installed calls :=
  List.foldl_append

@[simp] theorem installed_take (calls : List Call) : installed (calls ++ [.take]) = installed calls :=
  List.foldl_append

@[simp] theorem installed_resume (calls : List Call) (results : List Value) :
    installed (calls ++ [.resume results]) = results := List.foldl_append

theorem installed_cases (calls : List Call) :
    .resume (installed calls) ∈ calls ∨ (∀ results, .resume results ∉ calls) ∧ installed calls = [] := by
  induction calls using List.reverseRecOn with
  | nil => exact .inr ⟨fun _ => List.not_mem_nil, rfl⟩
  | append_singleton calls last ih =>
    cases last with
    | resume results => simp
    | step | take => simpa using ih

theorem advanceFrom_after {limit budget : Nat} {task : Task} {log : List Event} {stepped : Stepped}
    (came : task.advanceFrom limit budget log = some stepped) :
    ∃ count, stepped.task = task.after limit (List.replicate count .step) := by
  induction budget generalizing task log with
  | zero => cases came
  | succ budget ih =>
    rw [advanceFrom] at came
    split at came
    · obtain ⟨count, same⟩ := ih came
      exact ⟨count + 1, same⟩
    · cases came
      exact ⟨1, rfl⟩

end Task

end Skeletons
