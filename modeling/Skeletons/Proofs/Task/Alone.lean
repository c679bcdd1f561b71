import Skeletons.Proofs.Instruction.Routine
import Skeletons.Proofs.Run.Behaviour
import Skeletons.Task

namespace Skeletons

open Process

namespace Task

def behaviour (limit : Nat) (task : Task) : Process Value := task.stack.behaviour limit task.value

/-- Whether the stack of a task, run alone, ends with an outcome after reporting some events. -/
def Ends (limit : Nat) (task : Task) (outcome : Except Failure Value) (events : List Event) : Prop :=
  ∃ budget, task.stack.run limit budget task.value = some ⟨outcome, events⟩

def Idle (task : Task) : Prop := task.children = []

theorem ends_iff (limit : Nat) (task : Task) (outcome : Except Failure Value) (events : List Event) :
    task.Ends limit outcome events ↔ (task.behaviour limit).Ends outcome events :=
  Stack.run_ends_iff task.stack limit task.value outcome events

theorem Ends.unique {limit : Nat} {task : Task} {first second : Except Failure Value}
    {events told : List Event} (ended : task.Ends limit first events) (other : task.Ends limit second told) :
    first = second ∧ events = told :=
  Process.Ends.unique ((ends_iff ..).mp ended) ((ends_iff ..).mp other)

end Task

def gathered (limit : Nat) (children : List Child) : Process (List Value) :=
  children.mapM fun child => (Task.ofChild child).behaviour limit

def Stepped.behaviour (limit : Nat) (stepped : Stepped) : Process Value := do
  note stepped.events
  match stepped.result with
  | .error failure => fail failure
  | .ok .done => pure stepped.task.value
  | .ok .more => stepped.task.behaviour limit
  | .ok .split =>
    let results ← gathered limit stepped.task.takeChildren.1
    let (resumed, task) := stepped.task.takeChildren.2.resume results
    if resumed then task.behaviour limit else fail (.structural .notResumed)

namespace Task

theorem step_nil (limit : Nat) (value : Value) :
    (Task.mk [] value []).step limit = { result := .ok .done, task := ⟨[], value, []⟩ } := rfl

theorem step_cons (limit : Nat) (instruction : Instruction) (rest : Stack) (value : Value) :
    (Task.mk (instruction :: rest) value []).step limit =
      match instruction.effect limit value with
      | .error failure => { result := .error failure, task := ⟨rest, .null, []⟩ }
      | .ok effect =>
        let task : Task := ⟨effect.pushed ++ rest, effect.value, effect.children⟩
        { result := .ok task.progress, task, events := effect.events } := by
  simp only [step, Instruction.interpret_eq, List.isEmpty_nil, Bool.not_true, Bool.false_eq_true, if_false]
  cases instruction.effect limit value with
  | error failure => rfl
  | ok effect => rfl

theorem behaviour_trails (limit : Nat) {task : Task} (idle : task.Idle) :
    (task.behaviour limit).Trails ((task.step limit).behaviour limit).later := by
  obtain ⟨stack, value, children⟩ := task
  cases idle
  cases stack with
  | nil =>
    refine (Trails.of_eq (Stack.behaviour_nil limit value)).trans (Trails.of_eq (congrArg later ?_))
    rw [step_nil, Stepped.behaviour, note_nil_bind]
  | cons instruction rest =>
    refine (Trails.of_eq (Stack.behaviour_cons limit instruction rest value)).trans (Trails.later ?_)
    rw [step_cons, Instruction.perform]
    cases instruction.effect limit value with
    | error failure =>
      apply Trails.of_eq
      rw [Stepped.behaviour, note_nil_bind, liftM_error, fail_bind, fail_bind]
    | ok effect =>
      obtain ⟨next, pushed, children, events⟩ := effect
      have lifted : (liftM (Except.ok ⟨next, pushed, children, events⟩ : Except Failure Effect) :
        Process Effect) = pure ⟨next, pushed, children, events⟩ := rfl
      simp only [lifted, Stepped.behaviour, bind_assoc, pure_bind]
      cases children with
      | nil =>
        simp only [Effect.received, pure_bind]
        cases pushed ++ rest with
        | nil =>
          -- The task has ended, while its stack still has to be found empty.
          rw [Stack.behaviour_nil]
          exact Trails.bind (Trails.refl _) fun _ => later_trails _
        | cons => exact Trails.refl _
      | cons child others =>
        apply Trails.of_eq
        simp only [Effect.received, bind_map_left]
        rfl

theorem behaviour_step (limit : Nat) {task : Task} (idle : task.Idle) :
    task.behaviour limit ≈ (task.step limit).behaviour limit :=
  ((behaviour_trails limit idle).trans (later_trails _)).alike

/-- The tasks that a task becomes when it is run alone, and the events until then. -/
inductive Passes (limit : Nat) (start : Task) : Task → List Event → Prop where
  | here : Passes limit start start []
  | more {task : Task} {log : List Event} :
    Passes limit start task log → (task.step limit).result = .ok .more →
      Passes limit start (task.step limit).task (log ++ (task.step limit).events)
  | resumed {task : Task} {log told : List Event} {results : List Value} :
    Passes limit start task log → (task.step limit).result = .ok .split →
      (gathered limit (task.step limit).task.takeChildren.1).Ends (.ok results) told →
      Passes limit start ((task.step limit).task.takeChildren.2.resume results).2
        (log ++ (task.step limit).events ++ told)

/-- The tasks of the tree below a task: itself, and what any of them hands out when it is run alone. -/
inductive Spawns (limit : Nat) (start : Task) : Task → Prop where
  | self : Spawns limit start start
  | child {parent task : Task} {log : List Event} {child : Child} :
    Spawns limit start parent → Passes limit parent task log → (task.step limit).result = .ok .split →
      child ∈ (task.step limit).task.takeChildren.1 → Spawns limit start (ofChild child)

theorem idle_of_ok {limit : Nat} {task : Task} {progress : Progress}
    (went : (task.step limit).result = .ok progress) : task.Idle := by
  obtain ⟨stack, value, children⟩ := task
  cases children with
  | nil => rfl
  | cons child others => cases went

theorem idle_of_more {limit : Nat} {task : Task} (went : (task.step limit).result = .ok .more) :
    (task.step limit).task.Idle := by
  have idle := idle_of_ok went
  obtain ⟨stack, value, children⟩ := task
  cases idle
  match stack with
  | [] => cases went
  | instruction :: rest =>
    rw [step_cons] at went ⊢
    cases told : instruction.effect limit value with
    | error failure =>
      simp only [told] at went
      cases went
    | ok effect =>
      simp only [told, progress] at went ⊢
      split at went
      · cases went
      · rename_i none
        simpa [Idle] using none

theorem Passes.idle {limit : Nat} {start task : Task} {log : List Event} (idle : start.Idle)
    (passes : Passes limit start task log) : task.Idle := by
  induction passes with
  | here => exact idle
  | more _ went _ => exact idle_of_more went
  | resumed _ _ _ _ => rfl

theorem Spawns.idle {limit : Nat} {start origin : Task} (idle : start.Idle)
    (spawns : Spawns limit start origin) : origin.Idle := by
  cases spawns with
  | self => exact idle
  | child => rfl

theorem Spawns.trans {limit : Nat} {start middle origin : Task} (first : Spawns limit start middle)
    (second : Spawns limit middle origin) : Spawns limit start origin := by
  induction second with
  | self => exact first
  | child _ passes split member ih => exact .child ih passes split member

section Ends

variable {limit : Nat} {task : Task} {outcome : Except Failure Value} {events : List Event}

theorem ends_iff_of_error (idle : task.Idle) {failure : Failure}
    (failed : (task.step limit).result = .error failure) :
    task.Ends limit outcome events ↔ outcome = .error failure ∧ events = (task.step limit).events := by
  rw [ends_iff, ends_congr (behaviour_step limit idle), Stepped.behaviour, failed]
  exact ends_note_ofResult _ (.error failure) outcome events

theorem ends_iff_of_done (done : (task.step limit).result = .ok .done) :
    task.Ends limit outcome events ↔
      outcome = .ok (task.step limit).task.value ∧ events = (task.step limit).events := by
  rw [ends_iff, ends_congr (behaviour_step limit (idle_of_ok done)), Stepped.behaviour, done]
  exact ends_note_ofResult _ (.ok (task.step limit).task.value) outcome events

theorem ends_iff_of_more (went : (task.step limit).result = .ok .more) :
    task.Ends limit outcome events ↔
      ∃ late, (task.step limit).task.Ends limit outcome late ∧
        events = (task.step limit).events ++ late := by
  rw [ends_iff, ends_congr (behaviour_step limit (idle_of_ok went)), Stepped.behaviour, ends_note_bind, went]
  simp only [ends_iff]

theorem ends_iff_of_split (split : (task.step limit).result = .ok .split) :
    task.Ends limit outcome events ↔
      (∃ failure told, (gathered limit (task.step limit).task.takeChildren.1).Ends (.error failure) told ∧
        outcome = .error failure ∧ events = (task.step limit).events ++ told) ∨
      ∃ results told late,
        (gathered limit (task.step limit).task.takeChildren.1).Ends (.ok results) told ∧
          ((task.step limit).task.takeChildren.2.resume results).2.Ends limit outcome late ∧
          events = (task.step limit).events ++ told ++ late := by
  rw [ends_iff, ends_congr (behaviour_step limit (idle_of_ok split)), Stepped.behaviour, ends_note_bind,
    split]
  simp only [ends_bind, ends_iff]
  constructor
  · intro given
    rcases given with ⟨_, ⟨failure, failed, same⟩ | ⟨results, told, late, came, rest, rfl⟩, rfl⟩
    · exact Or.inl ⟨failure, _, failed, same, rfl⟩
    · exact Or.inr ⟨results, told, late, came, rest, (List.append_assoc ..).symm⟩
  · intro given
    rcases given with ⟨failure, told, failed, same, rfl⟩ | ⟨results, told, late, came, rest, rfl⟩
    · exact ⟨told, Or.inl ⟨failure, failed, same⟩, rfl⟩
    · exact ⟨told ++ late, Or.inr ⟨results, told, late, came, rest, rfl⟩, List.append_assoc ..⟩

theorem Passes.ends_iff {start : Task} {log : List Event} (passes : Passes limit start task log) :
    start.Ends limit outcome events ↔ ∃ late, task.Ends limit outcome late ∧ events = log ++ late := by
  induction passes generalizing outcome events with
  | here => simp only [List.nil_append, exists_eq_right']
  | more _ went ih =>
    simp only [ih, ends_iff_of_more went]
    constructor
    · intro given
      obtain ⟨_, ⟨late, ended, rfl⟩, rfl⟩ := given
      exact ⟨late, ended, (List.append_assoc ..).symm⟩
    · intro given
      obtain ⟨late, ended, rfl⟩ := given
      exact ⟨_, ⟨late, ended, rfl⟩, List.append_assoc ..⟩
  | @resumed task log told results _ split came ih =>
    simp only [ih, ends_iff_of_split split]
    constructor
    · intro given
      rcases given with ⟨_, ⟨failure, other, failed, _, _⟩ | ⟨others, other, late, came', rest, rfl⟩, rfl⟩
      · cases (came.unique failed).1
      · obtain ⟨same, rfl⟩ := came.unique came'
        cases same
        exact ⟨late, rest, by simp only [List.append_assoc]⟩
    · intro given
      obtain ⟨late, rest, rfl⟩ := given
      exact ⟨_, Or.inr ⟨results, told, late, came, rest, rfl⟩, by simp only [List.append_assoc]⟩

end Ends

theorem gathered_ends_ok {limit : Nat} {children : List Child} {results : List Value} {told : List Event}
    (came : (gathered limit children).Ends (.ok results) told) {child : Child} (member : child ∈ children) :
    ∃ value events, (ofChild child).Ends limit (.ok value) events := by
  induction children generalizing results told with
  | nil => cases member
  | cons first others ih =>
    rw [gathered, List.mapM_cons, ends_bind] at came
    rcases came with ⟨_, _, impossible⟩ | ⟨value, early, late, reached, rest, _⟩
    · cases impossible
    · rcases List.mem_cons.mp member with rfl | among
      · exact ⟨value, early, (Task.ends_iff ..).mpr reached⟩
      · rw [ends_bind] at rest
        rcases rest with ⟨_, _, impossible⟩ | ⟨values, between, _, more, _, _⟩
        · cases impossible
        · exact ih more among

theorem Spawns.ends_ok {limit : Nat} {start origin : Task}
    (spawns : Spawns limit start origin) {value : Value} {events : List Event}
    (ended : start.Ends limit (.ok value) events) :
    ∃ value events, origin.Ends limit (.ok value) events := by
  induction spawns with
  | self => exact ⟨value, events, ended⟩
  | child _ passes split member ih =>
    obtain ⟨_, _, above⟩ := ih
    obtain ⟨_, below, _⟩ := passes.ends_iff.mp above
    rcases (ends_iff_of_split split).mp below with
      ⟨_, _, _, impossible, _⟩ | ⟨_, _, _, came, _, _⟩
    · cases impossible
    · exact gathered_ends_ok came member

/-- Whether a step fails with a failure somewhere in the tree of tasks below a task. -/
def Raises (limit : Nat) (start : Task) (failure : Failure) : Prop :=
  ∃ origin task log, Spawns limit start origin ∧ Passes limit origin task log ∧
    (task.step limit).result = .error failure

section Raises

variable {limit : Nat} {failure : Failure}

theorem Passes.trans {start middle task : Task} {log late : List Event}
    (first : Passes limit start middle log) (second : Passes limit middle task late) :
    Passes limit start task (log ++ late) := by
  induction second with
  | here => exact (List.append_nil log).symm ▸ first
  | more _ went ih =>
    rw [← List.append_assoc]
    exact .more ih went
  | resumed _ split came ih =>
    rw [← List.append_assoc, ← List.append_assoc]
    exact .resumed ih split came

theorem Spawns.after {start middle origin : Task} {log : List Event} (first : Passes limit start middle log)
    (spawns : Spawns limit middle origin) : origin = middle ∨ Spawns limit start origin := by
  induction spawns with
  | self => exact Or.inl rfl
  | child _ passes split member ih =>
    rcases ih with rfl | below
    · exact Or.inr (.child .self (first.trans passes) split member)
    · exact Or.inr (.child below passes split member)

theorem Raises.after {start middle : Task} {log : List Event} (first : Passes limit start middle log)
    (raises : Raises limit middle failure) : Raises limit start failure := by
  obtain ⟨origin, task, late, spawns, passes, failed⟩ := raises
  rcases Spawns.after first spawns with rfl | below
  · exact ⟨start, task, _, .self, first.trans passes, failed⟩
  · exact ⟨origin, task, late, below, passes, failed⟩

theorem Raises.of_child {start : Task} (split : (start.step limit).result = .ok .split) {child : Child}
    (member : child ∈ (start.step limit).task.takeChildren.1) (raises : Raises limit (ofChild child) failure) :
    Raises limit start failure := by
  obtain ⟨origin, task, late, spawns, passes, failed⟩ := raises
  exact ⟨origin, task, late, (Spawns.child .self .here split member).trans spawns, passes, failed⟩

theorem exists_failed_child {budget : Nat} {children : List Child} {told : List Event}
    (failed : (gathered limit children).within budget = ⟨some (.error failure), told⟩) :
    ∃ child ∈ children, ∃ events,
      ((ofChild child).behaviour limit).within budget = ⟨some (.error failure), events⟩ := by
  induction children generalizing told with
  | nil => cases failed
  | cons child others ih =>
    rw [gathered, List.mapM_cons, within_bind, Account.bind_ended_iff] at failed
    rcases failed with ⟨reason, first, same⟩ | ⟨value, early, late, _, rest, _⟩
    · cases same
      exact ⟨child, List.mem_cons_self .., told, first⟩
    · rw [within_bind, Account.bind_ended_iff] at rest
      rcases rest with ⟨reason, below, same⟩ | ⟨_, _, _, _, impossible, _⟩
      · cases same
        obtain ⟨one, among, failed⟩ := ih below
        exact ⟨one, List.mem_cons_of_mem child among, failed⟩
      · cases impossible

theorem raises_of_within (budget : Nat) {task : Task} (idle : task.Idle) {events : List Event}
    (failed : (task.behaviour limit).within budget = ⟨some (.error failure), events⟩) :
    Raises limit task failure := by
  induction budget generalizing task events with
  | zero => cases failed
  | succ budget ih =>
    have known := (behaviour_trails limit idle).lags (budget + 1)
    have stepped : ((task.step limit).behaviour limit).within budget = ⟨some (.error failure), events⟩ :=
      (Account.eq_of_le known (congrArg Account.outcome failed)).trans failed
    obtain ⟨late, further⟩ := Account.after_ended stepped
    cases stood : (task.step limit).result with
    | error reason =>
      rw [stood] at further
      cases further
      exact ⟨task, task, [], .self, .here, stood⟩
    | ok progress =>
      rw [stood] at further
      cases progress with
      | done => cases further
      | more => exact Raises.after (.more .here stood) (ih (idle_of_more stood) further)
      | split =>
        rcases (Account.bind_ended_iff _ _ _ _).mp further with ⟨reason, first, equal⟩ |
          ⟨results, told, rest, came, last, _⟩
        · cases equal
          obtain ⟨child, member, _, below⟩ := exists_failed_child first
          exact .of_child stood member (ih rfl below)
        · exact Raises.after (.resumed .here stood ⟨budget, came⟩) (ih rfl last)

theorem raises_of_ends {task : Task} (idle : task.Idle) {events : List Event}
    (failed : task.Ends limit (.error failure) events) : Raises limit task failure := by
  obtain ⟨budget, known⟩ := (ends_iff ..).mp failed
  exact raises_of_within budget idle known

end Raises

end Task

end Skeletons
