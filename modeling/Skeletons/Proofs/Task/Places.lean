import Skeletons.Proofs.Run.Split
import Skeletons.Proofs.Task.Alone

namespace Skeletons

theorem exists_of_bind_ok {α β : Type} {first : Except Failure α} {next : α → Except Failure β} {last : β}
    (came : first >>= next = .ok last) : ∃ value, first = .ok value ∧ next value = .ok last := by
  cases first with
  | error failure => cases came
  | ok value => exact ⟨value, rfl, came⟩

namespace Split

theorem children_places (templates : List Stack) (trace : Trace) (start : Nat) (parts : List Value) :
    (children templates trace start parts).map Child.index = List.range' start parts.length := by
  induction parts generalizing start with
  | nil => rfl
  | cons part rest ih => exact congrArg (start :: ·) (ih (start + 1))

theorem recursion_place {template : Stack} {path : RecursionPath} {index : Nat} {part : Value} {child : Child}
    (built : recursion template path index part = .ok child) : child.index = index := by
  rw [recursion.eq_def] at built
  split at built
  · split at built
    · cases built
    · cases built
      rfl
  · cases built

theorem recursions_places {template : Stack} {path : RecursionPath} {start : Nat} {parts : List Value}
    {children : List Child} (built : recursions template path start parts = .ok children) :
    children.map Child.index = List.range' start parts.length := by
  induction parts generalizing start children with
  | nil =>
    cases built
    rfl
  | cons part rest ih =>
    rw [recursions] at built
    obtain ⟨child, first, built⟩ := exists_of_bind_ok built
    obtain ⟨others, more, same⟩ := exists_of_bind_ok built
    cases same
    rw [List.map_cons, recursion_place first, ih more]
    rfl

theorem spawn_places {templates : List Stack} {trace : Trace} {path : Option RecursionPath}
    {parts : List Value} {children : List Child} (built : spawn templates trace path parts = .ok children) :
    children.map Child.index = List.range children.length := by
  have counted : ∀ {listed : List Child},
      listed.map Child.index = List.range' 0 parts.length →
        listed.map Child.index = List.range listed.length := by
    intro listed places
    have same : listed.length = parts.length := by
      rw [← List.length_map Child.index, places, List.length_range']
    rw [places, same, List.range_eq_range']
  cases path with
  | none =>
    rw [spawn] at built
    split at built
    · cases built
    · cases built
      exact counted (children_places templates trace 0 parts)
  | some path =>
    cases templates with
    | nil => cases built
    | cons template others =>
      cases others with
      | nil => exact counted (recursions_places built)
      | cons => cases built

end Split

theorem Instruction.children_of_effect {limit : Nat} {instruction : Instruction} {value : Value} {effect : Effect}
    (came : instruction.effect limit value = .ok effect) :
    effect.children = [] ∨ ∃ templates trace path parts,
      Split.spawn templates trace path parts = .ok effect.children := by
  cases instruction with
  | split templates merge trace path =>
    match value with
    | .list parts =>
      rw [Stack.effect_split] at came
      split at came
      · cases came
      · obtain ⟨children, built, same⟩ := exists_of_bind_ok came
        cases same
        exact Or.inr ⟨templates, trace, path, parts, built⟩
    | .null | .bool _ | .number _ | .text _ | .object _ => cases came
  | merge merge trace =>
    match value with
    | .list results =>
      obtain ⟨_, _, same⟩ := exists_of_bind_ok came
      cases same
      exact Or.inl rfl
    | .null | .bool _ | .number _ | .text _ | .object _ => cases came
  | seq _ _ | ifElse _ _ _ _ =>
    obtain ⟨_, _, same⟩ := exists_of_bind_ok came
    cases same
    exact Or.inl rfl
  | divide _ _ _ _ _ _ | whileLoop _ _ _ _ =>
    obtain ⟨outcome, _, same⟩ := exists_of_bind_ok came
    cases outcome with
    | false =>
      cases same
      exact Or.inl rfl
    | true =>
      cases same
      exact Or.inl rfl
  | choice _ _ _ _ | signal _ =>
    cases came
    exact Or.inl rfl
  | forLoop times body trace iteration =>
    rw [Instruction.effect] at came
    split at came
    · cases came
      exact Or.inl rfl
    · cases came
      exact Or.inl rfl

theorem Instruction.effect_places {limit : Nat} {instruction : Instruction} {value : Value} {effect : Effect}
    (came : instruction.effect limit value = .ok effect) :
    effect.children.map Child.index = List.range effect.children.length := by
  rcases children_of_effect came with none | ⟨templates, trace, path, parts, built⟩
  · rw [none]
    rfl
  · exact Split.spawn_places built

theorem Task.split_places {limit : Nat} {task : Task} (split : (task.step limit).result = .ok .split) :
    (task.step limit).task.takeChildren.1.map Child.index =
      List.range (task.step limit).task.takeChildren.1.length := by
  have idle := idle_of_ok split
  obtain ⟨stack, value, children⟩ := task
  cases idle
  match stack with
  | [] => cases split
  | instruction :: rest =>
    rw [step_cons] at split ⊢
    cases told : instruction.effect limit value with
    | error failure =>
      simp only [told] at split
      cases split
    | ok effect => exact Instruction.effect_places told

end Skeletons
