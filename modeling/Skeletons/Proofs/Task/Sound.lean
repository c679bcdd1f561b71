import Skeletons.Proofs.Stack.Sound
import Skeletons.Proofs.Task.Alone

namespace Skeletons

variable {limit : Nat} {root : Skeleton}

theorem Skeleton.admits_of_call {α : Type} {name : String} {answer : Except String α} {failure : Failure}
    (named : root.Names name) (failed : muscleResult name answer = .error failure) :
    root.Admits limit failure := by
  cases answer with
  | ok value => cases failed
  | error text =>
    cases failed
    exact .muscle text named

theorem Skeleton.Admits.not_structural {failure : Failure} (admits : root.Admits limit failure)
    (violation : Violation) : failure ≠ .structural violation := by
  intro same
  subst same
  cases admits

structure Effect.Sound (root : Skeleton) (rest : Stack) (effect : Effect) : Prop where
  onward : ∃ listed, Stack.Sound root listed (effect.pushed ++ rest) ∧ effect.value.Fits listed
  below : ∀ child ∈ effect.children, Stack.Sound root false child.stack

/-- An instruction that belongs to a tree leads to an effect that does, or fails for a reason that the tree
    accounts for. -/
def Instruction.Behaves (limit : Nat) (root : Skeleton) (rest : Stack) (value : Value)
    (instruction : Instruction) : Prop :=
  match instruction.effect limit value with
  | .error failure => root.Admits limit failure
  | .ok effect => effect.Sound root rest

namespace Stack.Sound

variable {rest : Stack} {value : Value}

theorem effect_of_pushed {effect : Effect} (childless : effect.children = [])
    (pushed : Stack.Sound root false (effect.pushed ++ rest)) : effect.Sound root rest where
  onward := ⟨false, pushed, Value.fits_false _⟩
  below child member := by
    rw [childless] at member
    cases member

theorem behaves_seq {execute : Execute} {trace : Trace} (named : root.Names execute.name)
    (below : Stack.Sound root false rest) :
    (Instruction.seq execute trace).Behaves limit root rest value := by
  rw [Instruction.Behaves, Instruction.effect]
  cases answered : execute.call value with
  | error failure => exact Skeleton.admits_of_call named answered
  | ok next => exact effect_of_pushed rfl below

theorem behaves_parts {split : Split} {trace : Trace} (named : root.Names split.name)
    (below : Stack.Sound root true rest) :
    (Instruction.seq split.asExecute trace).Behaves limit root rest value := by
  rw [Instruction.Behaves, Instruction.effect]
  cases divided : split.divide value with
  | error text =>
    have failed : split.asExecute.call value = .error (.muscle split.name text) := by
      simp only [Execute.call, Split.asExecute, divided]
      rfl
    rw [failed]
    exact .muscle text named
  | ok parts =>
    have answered : split.asExecute.call value = .ok (.list parts) := by
      simp only [Execute.call, Split.asExecute, divided]
      rfl
    rw [answered]
    refine ⟨⟨true, below, Value.fits_list true parts⟩, fun child member => ?_⟩
    cases member

theorem behaves_ifElse {condition : Condition} {whenTrue whenFalse : Stack} {trace : Trace}
    (named : root.Names condition.name) (positive : Stack.Sound root false whenTrue)
    (negative : Stack.Sound root false whenFalse) (below : Stack.Sound root false rest) :
    (Instruction.ifElse condition whenTrue whenFalse trace).Behaves limit root rest value := by
  rw [Instruction.Behaves, Instruction.effect]
  cases answered : condition.call value with
  | error failure => exact Skeleton.admits_of_call named answered
  | ok outcome =>
    exact effect_of_pushed rfl (.signal (.signal (.choice positive negative (.signal below))))

theorem behaves_choice {outcome : Bool} {whenTrue whenFalse : Stack} {trace : Trace}
    (positive : Stack.Sound root false whenTrue) (negative : Stack.Sound root false whenFalse)
    (below : Stack.Sound root false rest) :
    (Instruction.choice outcome whenTrue whenFalse trace).Behaves limit root rest value := by
  refine effect_of_pushed rfl ?_
  cases outcome with
  | false => exact negative.append below
  | true => exact positive.append below

theorem behaves_whileLoop {condition : Condition} {body : Stack} {trace : Trace} {iteration : UInt64}
    (named : root.Names condition.name) (repeated : Stack.Sound root false body)
    (below : Stack.Sound root false rest) :
    (Instruction.whileLoop condition body trace iteration).Behaves limit root rest value := by
  rw [Instruction.Behaves, Instruction.effect]
  cases answered : condition.call value with
  | error failure => exact Skeleton.admits_of_call named answered
  | ok outcome =>
    cases outcome with
    | false => exact effect_of_pushed rfl (.signal below)
    | true =>
      refine effect_of_pushed rfl ?_
      simp only [List.cons_append, List.append_assoc]
      refine .signal (.signal ((repeated.retag _ _).append ?_))
      exact .signal (.signal (.whileLoop named repeated below))

theorem behaves_forLoop {times : UInt64} {body : Stack} {trace : Trace} {iteration : UInt64}
    (repeated : Stack.Sound root false body) (below : Stack.Sound root false rest) :
    (Instruction.forLoop times body trace iteration).Behaves limit root rest value := by
  rw [Instruction.Behaves, Instruction.effect]
  by_cases ended : times ≤ iteration
  · rw [if_pos ended]
    exact effect_of_pushed rfl below
  · rw [if_neg ended]
    refine effect_of_pushed rfl ?_
    simp only [List.cons_append, List.append_assoc]
    exact .signal ((repeated.retag _ _).append (.signal (.forLoop repeated below)))

theorem behaves_divide {condition : Condition} {split : Split} {merge : Merge} {solve : Stack}
    {trace : Trace} {path : RecursionPath} (tested : root.Names condition.name)
    (divided : root.Names split.name) (merged : root.Names merge.name) (traced : trace ≠ [])
    (leaf : Stack.Sound root false solve) (below : Stack.Sound root false rest) :
    (Instruction.divide condition split merge solve trace path).Behaves limit root rest value := by
  rw [Instruction.Behaves, Instruction.effect]
  cases answered : condition.call value with
  | error failure => exact Skeleton.admits_of_call tested answered
  | ok outcome =>
    cases outcome with
    | false =>
      refine effect_of_pushed rfl ?_
      simp only [List.cons_append, List.append_assoc]
      exact .signal (.signal (leaf.append (.signal below)))
    | true =>
      exact effect_of_pushed rfl
        (.signal (.parts divided (.recursion tested divided merged traced leaf below)))

theorem behaves_merge {merge : Merge} {trace : Trace} (named : root.Names merge.name)
    (below : Stack.Sound root false rest) (listed : value.Fits true) :
    (Instruction.merge merge trace).Behaves limit root rest value := by
  obtain ⟨results, rfl⟩ := listed rfl
  rw [Instruction.Behaves, Instruction.effect]
  cases answered : merge.call results with
  | error failure => exact Skeleton.admits_of_call named answered
  | ok next => exact effect_of_pushed rfl below

theorem behaves_spawning {templates : List Stack} {merge : Merge} {trace : Trace}
    {path : Option RecursionPath} (named : root.Names merge.name) (below : Stack.Sound root false rest)
    (listed : value.Fits true)
    (refused : ∀ items failure, Split.spawn templates trace path items = .error failure →
      root.Admits limit failure)
    (spawned : ∀ items children, Split.spawn templates trace path items = .ok children →
      ∀ child ∈ children, Stack.Sound root false child.stack) :
    (Instruction.split templates merge trace path).Behaves limit root rest value := by
  obtain ⟨items, rfl⟩ := listed rfl
  rw [Instruction.Behaves, effect_split]
  by_cases deep : limit < trace.length + (path.getD []).length
  · rw [if_pos deep]
    exact .depth
  · rw [if_neg deep]
    cases came : Split.spawn templates trace path items with
    | error failure => exact refused items failure came
    | ok children =>
      refine ⟨⟨true, .signal (.merge named (.signal below)), Value.fits_list true []⟩, ?_⟩
      exact spawned items children came

theorem behaves_split {templates : List Stack} {merge : Merge} {trace : Trace}
    (sound : ∀ template ∈ templates, Stack.Sound root false template)
    (counted : templates.length ≠ 1 → root.Forks templates.length) (named : root.Names merge.name)
    (below : Stack.Sound root false rest) (listed : value.Fits true) :
    (Instruction.split templates merge trace none).Behaves limit root rest value := by
  refine behaves_spawning named below listed ?_ ?_
  · intro items failure refused
    rw [Split.spawn] at refused
    split at refused
    · rename_i mismatch
      cases refused
      exact .arity (counted mismatch.1) mismatch.1 mismatch.2
    · cases refused
  · intro items children spawned child member
    rw [Split.spawn] at spawned
    split at spawned
    · cases spawned
    · cases spawned
      rw [Split.children_eq_map] at member
      obtain ⟨⟨part, index⟩, _, rfl⟩ := List.mem_map.mp member
      exact ((Split.templateAt_of sound .nil index).retag _ _).enclosed _ _ false

theorem behaves_recursion {condition : Condition} {split : Split} {merge : Merge} {solve : Stack}
    {trace : Trace} {path : RecursionPath} (tested : root.Names condition.name)
    (divided : root.Names split.name) (merged : root.Names merge.name) (traced : trace ≠ [])
    (leaf : Stack.Sound root false solve) (below : Stack.Sound root false rest)
    (listed : value.Fits true) :
    (Instruction.split [[.divide condition split merge solve trace path]] merge trace
      (some path)).Behaves limit root rest value := by
  refine behaves_spawning merged below listed ?_ ?_
  · intro items failure refused
    rw [Split.spawn, Split.recursions_eq_map _ _ _ _ traced] at refused
    cases refused
  · intro items children spawned child member
    rw [Split.spawn, Split.recursions_eq_map _ _ _ _ traced] at spawned
    cases spawned
    obtain ⟨⟨part, index⟩, _, rfl⟩ := List.mem_map.mp member
    have retraced := Trace.retag_ne_nil (trace.length - 1) (path.child (UInt64.ofNat index)).id traced
    exact .signal (.divide tested divided merged retraced (leaf.retag _ _) .nil)

theorem behaves {listed : Bool} {instruction : Instruction}
    (sound : Stack.Sound root listed (instruction :: rest)) (fits : value.Fits listed) :
    instruction.Behaves limit root rest value := by
  cases sound with
  | seq named below => exact behaves_seq named below
  | parts named below => exact behaves_parts named below
  | ifElse named positive negative below => exact behaves_ifElse named positive negative below
  | choice positive negative below => exact behaves_choice positive negative below
  | split templates counted named below => exact behaves_split templates counted named below fits
  | recursion tested divided merged traced leaf below =>
    exact behaves_recursion tested divided merged traced leaf below fits
  | divide tested divided merged traced leaf below =>
    exact behaves_divide tested divided merged traced leaf below
  | merge named below => exact behaves_merge named below fits
  | signal below => exact ⟨⟨listed, below, fits⟩, fun _ impossible => nomatch impossible⟩
  | whileLoop named repeated below => exact behaves_whileLoop named repeated below
  | forLoop repeated below => exact behaves_forLoop repeated below

end Stack.Sound

namespace Task

structure Sound (root : Skeleton) (task : Task) : Prop where
  idle : task.Idle
  onward : ∃ listed, Stack.Sound root listed task.stack ∧ task.value.Fits listed

theorem sound_ofChild {child : Child} (sound : Stack.Sound root false child.stack) :
    (ofChild child).Sound root where
  idle := rfl
  onward := ⟨false, sound, Value.fits_false _⟩

theorem Sound.step_cases (limit : Nat) {task : Task} (sound : task.Sound root) :
    (∃ failure, (task.step limit).result = .error failure ∧ root.Admits limit failure) ∨
      ∃ progress, (task.step limit).result = .ok progress ∧
        (∃ listed, Stack.Sound root listed (task.step limit).task.stack ∧
          (task.step limit).task.value.Fits listed) ∧
        ∀ child ∈ (task.step limit).task.children, Stack.Sound root false child.stack := by
  obtain ⟨idle, listed, upper, fits⟩ := sound
  obtain ⟨stack, value, children⟩ := task
  cases idle
  match stack with
  | [] => exact Or.inr ⟨.done, rfl, ⟨listed, upper, fits⟩, fun _ impossible => nomatch impossible⟩
  | instruction :: rest =>
    have behaves : instruction.Behaves limit root rest value := upper.behaves fits
    rw [Instruction.Behaves] at behaves
    rw [step_cons]
    cases told : instruction.effect limit value with
    | error reason =>
      rw [told] at behaves
      exact Or.inl ⟨reason, rfl, behaves⟩
    | ok effect =>
      rw [told] at behaves
      exact Or.inr ⟨_, rfl, behaves.onward, behaves.below⟩

theorem Sound.step_error {task : Task} (sound : task.Sound root) {failure : Failure}
    (failed : (task.step limit).result = .error failure) : root.Admits limit failure := by
  rcases sound.step_cases limit with ⟨reason, stood, admits⟩ | ⟨progress, stood, _⟩
  · rw [stood] at failed
    cases failed
    exact admits
  · rw [stood] at failed
    cases failed

theorem Sound.step_ok {task : Task} (sound : task.Sound root) {progress : Progress}
    (went : (task.step limit).result = .ok progress) :
    (∃ listed, Stack.Sound root listed (task.step limit).task.stack ∧
      (task.step limit).task.value.Fits listed) ∧
      ∀ child ∈ (task.step limit).task.children, Stack.Sound root false child.stack := by
  rcases sound.step_cases limit with ⟨reason, stood, _⟩ | ⟨_, _, sounds⟩
  · rw [stood] at went
    cases went
  · exact sounds

theorem Passes.sound {start task : Task} {log : List Event} (sound : start.Sound root)
    (passes : Passes limit start task log) : task.Sound root := by
  induction passes with
  | here => exact sound
  | more _ went ih => exact ⟨idle_of_more went, (ih.step_ok went).1⟩
  | resumed _ split _ ih =>
    obtain ⟨⟨listed, upper, _⟩, _⟩ := ih.step_ok split
    exact ⟨rfl, listed, upper, Value.fits_list listed _⟩

theorem Spawns.sound {start origin : Task} (sound : start.Sound root)
    (spawns : Spawns limit start origin) : origin.Sound root := by
  induction spawns with
  | self => exact sound
  | child _ passes split member ih =>
    exact sound_ofChild (((passes.sound ih).step_ok split).2 _ member)

theorem Raises.admits {start : Task} (sound : start.Sound root) {failure : Failure}
    (raises : Raises limit start failure) : root.Admits limit failure := by
  obtain ⟨_, _, _, spawns, passes, failed⟩ := raises
  exact (passes.sound (spawns.sound sound)).step_error failed

end Task

namespace Program

def task (program : Program) (input : Value) : Task := ⟨program.instantiate, input, []⟩

theorem sound_task (skeleton : Skeleton) (input : Value) :
    ((ofSkeleton skeleton).task input).Sound skeleton := by
  refine ⟨rfl, false, ?_, Value.fits_false input⟩
  rw [task, instantiate_ofSkeleton]
  exact Skeleton.sound_compile .self (Trace.nest_ne_nil [] _)

/-- A run of a compiled tree that fails does so for a reason that the tree accounts for, and so does every
    step of every task on the way; no task is ever stepped while it holds children, and every task that waits can
    be resumed. -/
theorem failures_admitted (skeleton : Skeleton) (limit : Nat) (input : Value) :
    (∀ budget failure events,
      (ofSkeleton skeleton).instantiate.run limit budget input = some ⟨.error failure, events⟩ →
        skeleton.Admits limit failure) ∧
      ∀ origin task log, ((ofSkeleton skeleton).task input).Spawns limit origin →
        origin.Passes limit task log →
        (∀ failure, (task.step limit).result = .error failure → skeleton.Admits limit failure) ∧
          ((task.step limit).result = .ok .split →
            ∀ results, ((task.step limit).task.takeChildren.2.resume results).1 = true) := by
  have sound := sound_task skeleton input
  refine ⟨fun budget failure events failed => ?_, fun origin task log spawns passes => ⟨?_, ?_⟩⟩
  · have raises : Task.Raises limit ((ofSkeleton skeleton).task input) failure :=
      Task.raises_of_ends sound.idle ⟨budget, failed⟩
    exact raises.admits sound
  · intro failure failed
    exact (passes.sound (spawns.sound sound)).step_error failed
  · intro _ results
    rfl

def refusedItems : Skeleton :=
  .map 2 ⟨"twice", fun value => .ok [value, value]⟩ (.seq 1 ⟨"refuse", fun _ => .error "no"⟩)
    ⟨"collect", fun parts => .ok (.list parts)⟩

theorem failures_admitted_refusedItems :
    let start := (ofSkeleton refusedItems).task .null
    ∃ parent child task told,
      start.Passes 1 parent [] ∧ (parent.step 1).result = .ok .split ∧
        (∀ results, ((parent.step 1).task.takeChildren.2.resume results).1 = true) ∧
        start.Spawns 1 (.ofChild child) ∧ (Task.ofChild child).Passes 1 task told ∧
        (task.step 1).result = .error (.muscle "refuse" "no") ∧
        refusedItems.Admits 1 (.muscle "refuse" "no") ∧
        ∃ log, (ofSkeleton refusedItems).instantiate.run 1 9 .null = some ⟨.error (.muscle "refuse" "no"), log⟩ := by
  intro start
  have divided : start.Passes 1 (start.step 1).task [] := .more .here rfl
  have spawned := Task.Spawns.child .self divided rfl (List.mem_cons_self ..)
  obtain ⟨_, parts⟩ := failures_admitted refusedItems 1 .null
  refine ⟨_, _, _, _, divided, rfl, (parts _ _ _ .self divided).2 rfl, spawned, .more .here rfl, rfl, ?_, _, rfl⟩
  exact (parts _ _ _ spawned (.more .here rfl)).1 _ rfl

end Program

end Skeletons
