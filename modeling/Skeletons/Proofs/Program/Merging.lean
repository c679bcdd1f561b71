import Skeletons.Proofs.Program.Nesting
import Skeletons.Proofs.Stack.Throughout
import Skeletons.Proofs.Task.Calls

namespace Skeletons

def Instruction.NotMerge : Instruction → Prop
  | .merge .. => False
  | _ => True

theorem Instruction.NotMerge.lasting : Instruction.Lasting Instruction.NotMerge where
  plain {instruction} plain := by
    cases instruction with
    | merge => exact plain
    | _ => trivial
  fresh := trivial
  next _ := trivial
  retag {instruction} _ _ other := by
    cases instruction with
    | merge => exact other
    | _ => trivial

abbrev Stack.Mergeless (stack : Stack) : Prop := Stack.Throughout Instruction.NotMerge stack

namespace Task

variable {limit : Nat} {start task : Task} {merge : Merge} {trace : Trace} {path : Option RecursionPath}
  {rest : Stack} {calls before early late later : List Call}

/-- A task whose next step splits, with the merge of the split on top afterwards. -/
structure Splits (limit : Nat) (task : Task) (merge : Merge) (trace : Trace) (path : Option RecursionPath)
    (rest : Stack) : Prop where
  idle : task.children = []
  top : ∃ templates, task.stack = .split templates merge trace path :: rest
  pushed : (task.step limit).task.stack =
    Stack.merging merge trace (path.elim .null RecursionPath.payload) ++ rest
  emptied : (task.step limit).task.value = .list []
  below : rest.Mergeless

/-- The calls after which a task that split holds no children any more: none if it never held any, else
    all calls up to the first that takes them. -/
def Relieves (held : Task) (calls : List Call) : Prop :=
  held.children = [] ∧ calls = [] ∨
    held.children ≠ [] ∧ ∃ refused, calls = refused ++ [.take] ∧ .take ∉ refused

/-- Where a task stands after some calls: no split waits for its merge, or one does that holds its children
    still, or holds none and is about to report its merge or to run it. -/
inductive Stage (limit : Nat) (start : Task) : List Call → Task → Prop where
  | free {calls : List Call} {task : Task} :
    task.children = [] → task.stack.Mergeless → Stage limit start calls task
  | held {before early : List Call} {merge : Merge} {trace : Trace} {path : Option RecursionPath} {rest : Stack} :
    (start.after limit before).Splits limit merge trace path rest →
      (start.after limit (before ++ [.step])).children ≠ [] → .take ∉ early →
        Stage limit start (before ++ .step :: early) (start.after limit (before ++ [.step]))
  | ready {before early late : List Call} {merge : Merge} {trace : Trace} {path : Option RecursionPath}
      {rest : Stack} :
    (start.after limit before).Splits limit merge trace path rest →
      (start.after limit (before ++ [.step])).Relieves early → .step ∉ late →
        Stage limit start (before ++ .step :: (early ++ late))
          ⟨Stack.merging merge trace (path.elim .null RecursionPath.payload) ++ rest,
            .list (installed late), []⟩
  | merging {before early late later : List Call} {merge : Merge} {trace : Trace}
      {path : Option RecursionPath} {rest : Stack} :
    (start.after limit before).Splits limit merge trace path rest →
      (start.after limit (before ++ [.step])).Relieves early → .step ∉ late → .step ∉ later →
        Stage limit start (before ++ .step :: (early ++ late ++ .step :: later))
          ⟨.merge merge trace ::
              report .after .merge trace (path.elim .null RecursionPath.payload) :: rest,
            .list (installed (late ++ later)), []⟩

theorem resume_of_pending (pending : task.children ≠ []) (results : List Value) :
    task.resume results = (false, task) := by
  rw [resume, if_neg]
  simpa using pending

theorem Stage.free_step (idle : task.children = []) (mergeless : task.stack.Mergeless)
    (came : start.after limit calls = task) :
    Stage limit start (calls ++ [.step]) (task.step limit).task := by
  rcases step_task_cases limit task with same | ⟨instruction, rest, top, failed | ⟨effect, leads, after⟩⟩
  · rw [same]
    exact .free idle mergeless
  · rw [top] at mergeless
    rw [failed]
    exact .free rfl ((Stack.throughout_cons _ _).mp mergeless).2
  · rw [top] at mergeless
    rcases Stack.throughout_onward Instruction.NotMerge.lasting mergeless leads with
      ⟨kept, childless⟩ | ⟨templates, merge, trace, path, rfl, pushed, emptied⟩
    · rw [after]
      exact .free childless kept
    · have below := ((Stack.throughout_cons _ _).mp mergeless).2
      have splits : (start.after limit calls).Splits limit merge trace path rest := by
        rw [came]
        refine ⟨idle, ⟨templates, top⟩, ?_, ?_, below⟩
        · rw [after, pushed]
        · rw [after, emptied]
      have held : (task.step limit).task = start.after limit (calls ++ [.step]) := by
        rw [after_snoc, came]
        rfl
      -- A split into no parts holds nothing, and may go on to its merge at once.
      by_cases childless : effect.children = []
      · have free : (start.after limit (calls ++ [.step])).children = [] := by rw [← held, after, childless]
        have ready : Stage limit start (calls ++ .step :: ([] ++ [])) _ :=
          .ready splits (.inl ⟨free, rfl⟩) List.not_mem_nil
        rw [after, pushed, emptied, childless]
        exact ready
      · have pending : (start.after limit (calls ++ [.step])).children ≠ [] := by rwa [← held, after]
        rw [held]
        exact .held splits pending List.not_mem_nil

theorem Stage.held_call (splits : (start.after limit before).Splits limit merge trace path rest)
    (pending : (start.after limit (before ++ [.step])).children ≠ []) (untaken : .take ∉ early) (next : Call) :
    Stage limit start (before ++ .step :: (early ++ [next]))
      ((start.after limit (before ++ [.step])).call limit next) := by
  cases next with
  | step =>
    have unchanged := congrArg Stepped.task (step_of_pending pending limit)
    rw [call, unchanged]
    exact .held splits pending (by simpa using untaken)
  | resume results =>
    rw [call, resume_of_pending pending]
    exact .held splits pending (by simpa using untaken)
  | take =>
    have relieved : (start.after limit (before ++ [.step])).Relieves (early ++ [.take]) :=
      .inr ⟨pending, early, rfl, untaken⟩
    have ready : Stage limit start (before ++ .step :: ((early ++ [.take]) ++ [])) _ :=
      .ready splits relieved List.not_mem_nil
    have emptied : ((start.after limit before).step limit).task.value = .list (installed []) := splits.emptied
    rw [List.append_nil, ← splits.pushed, ← emptied] at ready
    rw [after_snoc]
    exact ready

theorem Stage.ready_call (splits : (start.after limit before).Splits limit merge trace path rest)
    (relieved : (start.after limit (before ++ [.step])).Relieves early) (still : .step ∉ late) (next : Call) :
    Stage limit start (before ++ .step :: (early ++ (late ++ [next])))
      (call limit ⟨Stack.merging merge trace (path.elim .null RecursionPath.payload) ++ rest,
        .list (installed late), []⟩ next) := by
  cases next with
  | step =>
    have merging : Stage limit start (before ++ .step :: (early ++ late ++ .step :: [])) _ :=
      .merging splits relieved still List.not_mem_nil
    rw [List.append_nil, List.append_assoc] at merging
    exact merging
  | take =>
    have ready : Stage limit start (before ++ .step :: (early ++ (late ++ [.take]))) _ :=
      .ready splits relieved (by simpa using still)
    rwa [installed_take] at ready
  | resume results =>
    have ready : Stage limit start (before ++ .step :: (early ++ (late ++ [.resume results]))) _ :=
      .ready splits relieved (by simpa using still)
    rwa [installed_resume] at ready

theorem Stage.merging_call (splits : (start.after limit before).Splits limit merge trace path rest)
    (relieved : (start.after limit (before ++ [.step])).Relieves early) (still : .step ∉ late)
    (later_still : .step ∉ later) (next : Call) :
    Stage limit start (before ++ .step :: (early ++ late ++ .step :: (later ++ [next])))
      (call limit ⟨.merge merge trace :: report .after .merge trace (path.elim .null RecursionPath.payload) :: rest,
        .list (installed (late ++ later)), []⟩ next) := by
  cases next with
  | step =>
    have mergeless : Stack.Mergeless (report .after .merge trace (path.elim .null RecursionPath.payload) :: rest) :=
      (Stack.throughout_cons _ _).mpr ⟨⟨trivial, fun _ none => nomatch none⟩, splits.below⟩
    rw [call, step_cons]
    split
    · exact .free rfl mergeless
    · rename_i effect came
      obtain ⟨value, _, same⟩ := exists_of_bind_ok came
      cases same
      exact .free rfl mergeless
  | take =>
    have merging : Stage limit start (before ++ .step :: (early ++ late ++ .step :: (later ++ [.take]))) _ :=
      .merging splits relieved still (by simpa using later_still)
    rwa [← List.append_assoc late, installed_take] at merging
  | resume results =>
    have merging : Stage limit start
        (before ++ .step :: (early ++ late ++ .step :: (later ++ [.resume results]))) _ :=
      .merging splits relieved still (by simpa using later_still)
    rwa [← List.append_assoc late, installed_resume] at merging

theorem Stage.call (stage : Stage limit start calls task) (came : start.after limit calls = task)
    (next : Call) : Stage limit start (calls ++ [next]) (task.call limit next) := by
  cases stage with
  | free idle mergeless =>
    cases next with
    | step => exact free_step idle mergeless came
    | take => exact .free rfl mergeless
    | resume results =>
      rw [Task.call, resume, if_pos (by simpa using idle)]
      exact .free idle mergeless
  | held splits pending untaken => simpa using held_call splits pending untaken next
  | ready splits relieved still => simpa using ready_call splits relieved still next
  | merging splits relieved still later_still =>
    simpa using merging_call splits relieved still later_still next

theorem Stage.merge_cases {below : Stack} (stage : Stage limit start calls task)
    (top : task.stack = .merge merge trace :: below) (idle : task.children = []) :
    ∃ before early late later path rest,
      calls = before ++ .step :: (early ++ late ++ .step :: later) ∧
        (start.after limit before).Splits limit merge trace path rest ∧
        (start.after limit (before ++ [.step])).Relieves early ∧ .step ∉ late ∧ .step ∉ later ∧
        task.value = .list (installed (late ++ later)) ∧
        (.resume (installed (late ++ later)) ∈ late ++ later ∨
          (∀ results, .resume results ∉ late ++ later) ∧ installed (late ++ later) = []) := by
  cases stage with
  | free _ mergeless =>
    rw [top] at mergeless
    have none := ((Stack.throughout_cons _ _).mp mergeless).1.1
    exact none.elim
  | held _ pending _ => exact absurd idle pending
  | ready _ _ _ => cases top
  | @merging before early late later _ _ path rest splits relieved still later_still =>
    cases top
    have brought := installed_cases (late ++ later)
    exact ⟨before, early, late, later, path, rest, rfl, splits, relieved, still, later_still, rfl, brought⟩

theorem stage (limit : Nat) {start : Task} (idle : start.children = []) (mergeless : start.stack.Mergeless)
    (calls : List Call) : Stage limit start calls (start.after limit calls) := by
  induction calls using List.reverseRecOn with
  | nil => exact .free idle mergeless
  | append_singleton calls next ih =>
    rw [after_snoc]
    exact ih.call rfl next

end Task

namespace Program

open Skeletons.Task

theorem mergeless_task (skeleton : Skeleton) (input : Value) :
    ((ofSkeleton skeleton).task input).stack.Mergeless := by
  rw [task, instantiate_ofSkeleton]
  exact Skeleton.throughout_compile Instruction.NotMerge.lasting skeleton _

/-- While a task holds children, every step and every resume is refused and changes nothing. Any merge that a
    task comes to is the merge of a split before, on whose children nothing is held any more; its input is
    what the last resume since then brought, or no results if there was none. -/
theorem merge_input (skeleton : Skeleton) (limit : Nat) (input : Value) (calls : List Call) :
    let start := (ofSkeleton skeleton).task input
    let task := start.after limit calls
    (task.children ≠ [] →
      (task.step limit).result = .error (.structural (.unresolvedChildren task.children.length)) ∧
        (task.step limit).task = task ∧ ∀ results, task.resume results = (false, task)) ∧
    (∀ budget stepped, task.advance limit budget = some stepped →
      ∃ count, stepped.task = start.after limit (calls ++ List.replicate count .step)) ∧
    ∀ merge trace below, task.stack = .merge merge trace :: below → task.children = [] →
      ∃ before early late later path rest,
        calls = before ++ .step :: (early ++ late ++ .step :: later) ∧
          (start.after limit before).Splits limit merge trace path rest ∧
          (start.after limit (before ++ [.step])).Relieves early ∧ .step ∉ late ∧ .step ∉ later ∧
          task.value = .list (installed (late ++ later)) ∧
          (.resume (installed (late ++ later)) ∈ late ++ later ∨
            (∀ results, .resume results ∉ late ++ later) ∧ installed (late ++ later) = []) := by
  intro start task
  refine ⟨fun pending => ?_, ?_, ?_⟩
  · have refused := step_of_pending pending limit
    exact ⟨congrArg Stepped.result refused, congrArg Stepped.task refused, resume_of_pending pending⟩
  · intro budget stepped came
    obtain ⟨count, same⟩ := advanceFrom_after came
    refine ⟨count, ?_⟩
    rw [same, after_append]
  · intro merge trace below top idle
    exact (Task.stage limit rfl (mergeless_task skeleton input) calls).merge_cases top idle

theorem merge_input_keptItems :
    let start := (ofSkeleton keptItems).task (.list [.null])
    let held := start.after 64 [.step, .step]
    let merging := start.after 64 [.step, .step, .take, .resume [.null], .step]
    (held.step 64).result = .error (.structural (.unresolvedChildren 1)) ∧
      (∃ stepped count, start.advance 64 3 = some stepped ∧
        stepped.task = start.after 64 (List.replicate count .step)) ∧
      (∃ trace below, merging.stack = .merge collect trace :: below) ∧
        ∃ late later, merging.value = .list (installed (late ++ later)) := by
  intro start held merging
  have refused := (merge_input keptItems 64 (.list [.null]) [.step, .step]).1 (List.cons_ne_nil _ _)
  obtain ⟨count, run⟩ := (merge_input keptItems 64 (.list [.null]) []).2.1 3 _ rfl
  obtain ⟨_, _, late, later, _, _, _, _, _, _, _, given, _⟩ :=
    (merge_input keptItems 64 (.list [.null]) [.step, .step, .take, .resume [.null], .step]).2.2 _ _ _ rfl rfl
  exact ⟨refused.1, ⟨_, count, rfl, run⟩, ⟨_, _, rfl⟩, late, later, given⟩

/-- Once its children are taken a task does not wait for their results, nor does it count them. -/
theorem merge_without_results :
    let start := (ofSkeleton keptItems).task (.list [.null, .null, .null])
    let split := start.after 64 [.step, .step]
    split.children.length = 3 ∧
      (split.takeChildren.2.step 64).result = .ok .more ∧
      (∃ trace below, start.after 64 [.step, .step, .take, .step] =
        ⟨.merge collect trace :: below, .list [], []⟩) ∧
      ∃ trace below, start.after 64 [.step, .step, .take, .resume [.null], .step] =
        ⟨.merge collect trace :: below, .list [.null], []⟩ :=
  ⟨rfl, rfl, ⟨_, _, rfl⟩, _, _, rfl⟩

end Program

end Skeletons
