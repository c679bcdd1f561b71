import Skeletons.Proofs.Task.Lineage

namespace Skeletons

theorem Instruction.carryOut_failed {instruction : Instruction} {limit : Nat} {input : Value} {bench : Bench}
    {failure : Failure} (failed : ((instruction.carryOut limit input).run.run bench).1 = .error failure) :
    ((instruction.carryOut limit input).run.run bench).2 = bench := by
  rw [carryOut_eq] at failed ⊢
  cases came : instruction.effect limit input with
  | error _ => rfl
  | ok effect =>
    rw [came] at failed
    cases failed

theorem Instruction.interpret_failed {instruction : Instruction} {limit : Nat} {input : Value} {stack : Stack}
    {children : List Child} {failure : Failure}
    (failed : (instruction.interpret limit input stack children).result = .error failure) :
    instruction.interpret limit input stack children = ⟨.error failure, stack, children, []⟩ := by
  let after := (instruction.carryOut limit input).run.run ⟨stack, children, []⟩
  have untouched : after.2 = ⟨stack, children, []⟩ := carryOut_failed failed
  show Interpreted.mk after.1 after.2.stack after.2.children after.2.events = _
  rw [untouched]
  exact congrArg (Interpreted.mk · stack children []) failed

namespace Task

variable {task : Task} {limit : Nat} {failure : Failure}

theorem step_failed (free : task.children = []) (failed : (task.step limit).result = .error failure) :
    ∃ instruction rest, task.stack = instruction :: rest ∧
      task.step limit = { result := .error failure, task := ⟨rest, .null, []⟩, events := [] } := by
  obtain ⟨stack, value, children⟩ := task
  cases free
  cases stack with
  | nil => cases failed
  | cons instruction rest =>
    refine ⟨instruction, rest, rfl, ?_⟩
    rw [step_cons] at failed ⊢
    cases came : instruction.effect limit value with
    | error other =>
      rw [came] at failed
      cases failed
      rfl
    | ok effect =>
      rw [came] at failed
      cases failed

/-- An instruction that fails leaves the stack and the children as they were and reports nothing, whatever else
    is on the stack. So a step that fails has taken the top off the stack and the value away, and nothing else
    has changed; a step that is refused changes nothing at all. -/
theorem failures_atomic :
    (∀ (instruction : Instruction) (limit : Nat) (input : Value) (stack : Stack) (children : List Child)
      (failure : Failure), (instruction.interpret limit input stack children).result = .error failure →
        instruction.interpret limit input stack children = ⟨.error failure, stack, children, []⟩) ∧
      (∀ (task : Task) (limit : Nat) (failure : Failure), task.children = [] →
        (task.step limit).result = .error failure →
          ∃ instruction rest, task.stack = instruction :: rest ∧
            task.step limit = { result := .error failure, task := ⟨rest, .null, task.children⟩, events := [] }) ∧
        ∀ (task : Task) (limit : Nat), task.children ≠ [] →
          task.step limit =
            { result := .error (.structural (.unresolvedChildren task.children.length)), task, events := [] } := by
  refine ⟨?_, ?_, ?_⟩
  · intro instruction limit input stack children failure failed
    exact Instruction.interpret_failed failed
  · intro task limit failure free failed
    obtain ⟨instruction, rest, top, same⟩ := step_failed free failed
    rw [free]
    exact ⟨instruction, rest, top, same⟩
  · intro task limit pending
    exact step_of_pending pending limit

theorem failures_atomic_brokenRecursion :
    let collect : Merge := ⟨"collect", fun results => .ok (.list results)⟩
    let broken : Instruction := .split [[.merge collect []]] collect [] (some [])
    let loop : Instruction := .whileLoop ⟨"never", fun _ => .error "no test"⟩ [] [] 0
    let child : Child := ⟨0, [broken], .null⟩
    broken.interpret 1 (.list [.null, .null]) [loop] [child] =
        ⟨.error (.structural .templateHead), [loop], [child], []⟩ ∧
      (Task.mk [loop, broken] .null []).step 1 =
        { result := .error (.muscle "never" "no test"), task := ⟨[broken], .null, []⟩, events := [] } ∧
      (Task.mk [loop] .null [child]).step 1 =
        { result := .error (.structural (.unresolvedChildren 1)), task := ⟨[loop], .null, [child]⟩,
          events := [] } := by
  intro collect broken loop child
  refine ⟨failures_atomic.1 broken 1 _ [loop] [child] _ rfl, ?_, failures_atomic.2.2 ⟨[loop], .null, [child]⟩ 1 nofun⟩
  obtain ⟨_, _, top, stepped⟩ := failures_atomic.2.1 ⟨[loop, broken], .null, []⟩ 1 (.muscle "never" "no test") rfl rfl
  cases top
  exact stepped

end Task

end Skeletons
