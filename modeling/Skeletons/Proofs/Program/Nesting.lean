import Skeletons.Proofs.Stack.Place
import Skeletons.Proofs.Task.Sound

namespace Skeletons

theorem Task.Lineage.placed {limit : Nat} {skeleton : Skeleton} {input : Value} {above : Nat} {task : Task}
    (lineage : ((Program.ofSkeleton skeleton).task input).Lineage limit above task) :
    Stack.Placed limit skeleton.divisions above task.stack := by
  have idle : ((Program.ofSkeleton skeleton).task input).Idle := rfl
  refine (lineage.keeps (Stack.Placed.kept limit skeleton.divisions) idle ?_).1
  rw [Program.task, Program.instantiate_ofSkeleton]
  refine (Skeleton.placed_compile skeleton (Trace.nest [] skeleton.frame) ⟨0, 0⟩ ?_ ?_).placed (Nat.zero_le _)
  · simp
  · exact fun _ => (Nat.zero_add _).le

namespace Program

/-- The number of tasks above a task is bounded, whoever schedules the tasks, by the limit times the number of
    divisions that a split may stand inside, and once more. A split that would hand out tasks beyond that
    fails instead. -/
theorem nesting_bounded {skeleton : Skeleton} {limit above : Nat} {input : Value} {task : Task}
    (lineage : ((ofSkeleton skeleton).task input).Lineage limit above task) :
    above ≤ limit * (skeleton.divisions + 1) ∧
      ∀ templates merge trace path rest parts,
        task.stack = .split templates merge trace path :: rest → task.value = .list parts →
          task.children = [] → limit * (skeleton.divisions + 1) ≤ above →
            (task.step limit).result = .error (.configuration (.depthExceeded limit)) := by
  refine ⟨lineage.placed.1, fun templates merge trace path rest parts top listed free full => ?_⟩
  have placed := lineage.placed
  obtain ⟨stack, value, children⟩ := task
  cases top
  cases listed
  cases free
  obtain ⟨around, ⟨here, _⟩, _⟩ := placed.cons_cases
  obtain ⟨reached, few⟩ := here.reaches
  dsimp only at reached few
  have divided := Nat.mul_le_mul_left limit few
  have deep : limit < trace.length + (path.getD []).length := by
    rw [Nat.mul_add, Nat.mul_one] at full
    omega
  rw [Task.step_cons, Stack.effect_split, if_pos deep]

def items : Split := ⟨"items", fun value => .ok (value.asList?.getD [])⟩

def collect : Merge := ⟨"collect", fun results => .ok (.list results)⟩

def keptItems : Skeleton := .map 2 items (.seq 1 ⟨"keep", .ok⟩) collect

def nestedLists : Skeleton := .map 3 items keptItems collect

theorem nesting_bounded_nestedLists :
    ∃ task, ((ofSkeleton nestedLists).task (.list [.list [.null]])).Lineage 1 1 task ∧
      1 ≤ 1 * (nestedLists.divisions + 1) ∧
        (task.step 1).result = .error (.configuration (.depthExceeded 1)) := by
  have start := @Task.Lineage.self 1 ((ofSkeleton nestedLists).task (.list [.list [.null]]))
  have inner := (Task.Lineage.child (start.steps 2) (List.mem_singleton_self _)).steps 2
  have bounded := nesting_bounded inner
  exact ⟨_, inner, bounded.1, bounded.2 _ _ _ _ _ _ rfl rfl rfl le_rfl⟩

def dividedLists : Skeleton :=
  .divide 3 ⟨"is list", fun value => .ok value.asList?.isSome⟩ items
    (.map 2 ⟨"alone", fun value => .ok [value]⟩ (.seq 1 ⟨"keep", .ok⟩) collect) collect

/-- The limit itself does not bound the tasks above a task: the split in the leaf does not count the path of
    the division around it, and the program ends without a failure. -/
theorem nesting_exceeds_limit :
    (∃ task, ((ofSkeleton dividedLists).task (.list [.list [.null]])).Lineage 2 3 task) ∧
      ∃ run, (ofSkeleton dividedLists).instantiate.run 2 30 (.list [.list [.null]]) = some run ∧
        run.outcome = .ok (.list [.list [.list [.null]]]) := by
  constructor
  · have start := @Task.Lineage.self 2 ((ofSkeleton dividedLists).task (.list [.list [.null]]))
    have once := Task.Lineage.child (start.steps 5) (List.mem_singleton_self _)
    have twice := Task.Lineage.child (once.steps 5) (List.mem_singleton_self _)
    have thrice := Task.Lineage.child (twice.steps 6) (List.mem_singleton_self _)
    exact ⟨_, thrice⟩
  · exact ⟨_, rfl, rfl⟩

end Program

end Skeletons
