import Skeletons.Proofs.Task.Places

namespace Skeletons

namespace Split

def recursionFrom (condition : Condition) (split : Split) (merge : Merge) (solve : Stack) (trace : Trace)
    (below : Stack) (path : RecursionPath) (index : Nat) (part : Value) : Child :=
  let subPath := path.child (UInt64.ofNat index)
  let depth := trace.length - 1
  { index
    stack := report .before .condition (trace.retag depth subPath.id) subPath.payload
      :: Stack.retag depth subPath.id (.divide condition split merge solve trace subPath :: below)
    input := part }

theorem mem_children {templates : List Stack} {trace : Trace} {start : Nat} {parts : List Value}
    {child : Child} (member : child ∈ children templates trace start parts) :
    ∃ index part, child = Split.child trace (templateAt templates index) index part := by
  rw [children_eq_map] at member
  obtain ⟨⟨part, index⟩, _, rfl⟩ := List.mem_map.mp member
  exact ⟨index, part, rfl⟩

theorem recursion_cases {template : Stack} {path : RecursionPath} {index : Nat} {part : Value} {child : Child}
    (built : recursion template path index part = .ok child) :
    ∃ condition split merge solve trace old below,
      template = .divide condition split merge solve trace old :: below ∧ trace ≠ [] ∧
        child = recursionFrom condition split merge solve trace below path index part := by
  rw [recursion.eq_def] at built
  split at built
  · rename_i condition split merge solve trace old below
    by_cases filled : trace.isEmpty
    · rw [if_pos filled] at built
      cases built
    · rw [if_neg filled] at built
      cases built
      exact ⟨condition, split, merge, solve, trace, old, below, rfl, by simpa using filled, rfl⟩
  · cases built

theorem mem_recursions {template : Stack} {path : RecursionPath} {start : Nat} {parts : List Value}
    {children : List Child} (built : recursions template path start parts = .ok children) {child : Child}
    (member : child ∈ children) :
    ∃ condition split merge solve trace old below index part,
      template = .divide condition split merge solve trace old :: below ∧ trace ≠ [] ∧
        child = recursionFrom condition split merge solve trace below path index part := by
  induction parts generalizing start children with
  | nil =>
    cases built
    cases member
  | cons part rest ih =>
    rw [recursions] at built
    obtain ⟨first, head, built⟩ := exists_of_bind_ok built
    obtain ⟨others, tail, same⟩ := exists_of_bind_ok built
    cases same
    rcases List.mem_cons.mp member with rfl | among
    · obtain ⟨condition, split, merge, solve, trace, old, below, shape⟩ := recursion_cases head
      exact ⟨condition, split, merge, solve, trace, old, below, start, part, shape⟩
    · exact ih tail among

theorem mem_spawn_none {templates : List Stack} {trace : Trace} {parts : List Value} {children : List Child}
    (built : spawn templates trace none parts = .ok children) {child : Child} (member : child ∈ children) :
    ∃ index part, child = Split.child trace (templateAt templates index) index part := by
  rw [spawn] at built
  split at built
  · cases built
  · cases built
    exact mem_children member

theorem mem_spawn_some {templates : List Stack} {trace : Trace} {path : RecursionPath} {parts : List Value}
    {children : List Child} (built : spawn templates trace (some path) parts = .ok children) {child : Child}
    (member : child ∈ children) :
    ∃ condition split merge solve trace old below index part,
      templates = [.divide condition split merge solve trace old :: below] ∧ trace ≠ [] ∧
        child = recursionFrom condition split merge solve trace below path index part := by
  match templates with
  | [] => cases built
  | [template] =>
    obtain ⟨condition, split, merge, solve, trace, old, below, index, part, rfl, traced, same⟩ :=
      mem_recursions built member
    exact ⟨condition, split, merge, solve, trace, old, below, index, part, rfl, traced, same⟩
  | _ :: _ :: _ => cases built

end Split

/-- What an instruction leads to when it succeeds on an input. -/
inductive Instruction.Leads (limit : Nat) (input : Value) : Instruction → Effect → Prop where
  | seq {execute : Execute} {trace : Trace} {value : Value} :
    execute.call input = .ok value → Leads limit input (.seq execute trace) { value }
  | ifElse {condition : Condition} {whenTrue whenFalse : Stack} {trace : Trace} {outcome : Bool} :
    condition.call input = .ok outcome →
      Leads limit input (.ifElse condition whenTrue whenFalse trace) {
        value := input
        pushed := [
          report .after .condition trace (.bool outcome),
          report .before .nested trace (.bool outcome),
          .choice outcome whenTrue whenFalse trace,
          report .after .nested trace (.bool outcome)] }
  | choice {outcome : Bool} {whenTrue whenFalse : Stack} {trace : Trace} :
    Leads limit input (.choice outcome whenTrue whenFalse trace)
      { value := input, pushed := if outcome then whenTrue else whenFalse }
  | split {templates : List Stack} {merge : Merge} {trace : Trace} {path : Option RecursionPath}
      {parts : List Value} {children : List Child} :
    input = .list parts → trace.length + (path.getD []).length ≤ limit →
      Split.spawn templates trace path parts = .ok children →
      Leads limit input (.split templates merge trace path) {
        value := .list []
        pushed := Stack.merging merge trace (path.elim .null RecursionPath.payload)
        children }
  | divided {condition : Condition} {split : Split} {merge : Merge} {solve : Stack} {trace : Trace}
      {path : RecursionPath} :
    condition.call input = .ok true →
      Leads limit input (.divide condition split merge solve trace path) {
        value := input
        pushed := [
          report .after .condition trace (.bool true),
          .seq split.asExecute trace,
          .split [[.divide condition split merge solve trace path]] merge trace (some path)] }
  | solved {condition : Condition} {split : Split} {merge : Merge} {solve : Stack} {trace : Trace}
      {path : RecursionPath} :
    condition.call input = .ok false →
      Leads limit input (.divide condition split merge solve trace path) {
        value := input
        pushed := report .after .condition trace (.bool false)
          :: report .before .nested trace path.payload :: solve
          ++ [report .after .nested trace path.payload] }
  | merge {merge : Merge} {trace : Trace} {results : List Value} {value : Value} :
    input = .list results → merge.call results = .ok value →
      Leads limit input (.merge merge trace) { value }
  | signal {event : Event} : Leads limit input (.signal event) { value := input, events := [event] }
  | again {condition : Condition} {body : Stack} {trace : Trace} {iteration : UInt64} :
    condition.call input = .ok true →
      Leads limit input (.whileLoop condition body trace iteration) {
        value := input
        pushed := report .after .condition trace (.bool true)
          :: report .before .nested trace (countPayload iteration.toNat)
          :: Stack.retag trace.length iteration body
          ++ [report .after .nested trace (countPayload iteration.toNat),
            report .before .condition trace .null,
            .whileLoop condition body trace (iteration + 1)] }
  | left {condition : Condition} {body : Stack} {trace : Trace} {iteration : UInt64} :
    condition.call input = .ok false →
      Leads limit input (.whileLoop condition body trace iteration)
        { value := input, pushed := [report .after .condition trace (.bool false)] }
  | counted {times : UInt64} {body : Stack} {trace : Trace} {iteration : UInt64} :
    iteration < times →
      Leads limit input (.forLoop times body trace iteration) {
        value := input
        pushed := report .before .nested trace (countPayload iteration.toNat)
          :: Stack.retag trace.length iteration body
          ++ [report .after .nested trace (countPayload iteration.toNat),
            .forLoop times body trace (iteration + 1)] }
  | finished {times : UInt64} {body : Stack} {trace : Trace} {iteration : UInt64} :
    times ≤ iteration → Leads limit input (.forLoop times body trace iteration) { value := input }

theorem Instruction.leads_of_effect {limit : Nat} {instruction : Instruction} {input : Value} {effect : Effect}
    (came : instruction.effect limit input = .ok effect) : instruction.Leads limit input effect := by
  cases instruction with
  | seq execute trace =>
    obtain ⟨value, answered, same⟩ := exists_of_bind_ok came
    cases same
    exact .seq answered
  | ifElse condition whenTrue whenFalse trace =>
    obtain ⟨outcome, answered, same⟩ := exists_of_bind_ok came
    cases same
    exact .ifElse answered
  | choice outcome whenTrue whenFalse trace =>
    cases came
    exact .choice
  | split templates merge trace path =>
    match input with
    | .list parts =>
      rw [Stack.effect_split] at came
      split at came
      · cases came
      · rename_i shallow
        obtain ⟨children, built, same⟩ := exists_of_bind_ok came
        cases same
        exact .split rfl (Nat.le_of_not_lt shallow) built
    | .null | .bool _ | .number _ | .text _ | .object _ => cases came
  | divide condition split merge solve trace path =>
    obtain ⟨outcome, answered, same⟩ := exists_of_bind_ok came
    cases outcome with
    | false =>
      cases same
      exact .solved answered
    | true =>
      cases same
      exact .divided answered
  | merge merge trace =>
    match input with
    | .list results =>
      obtain ⟨value, answered, same⟩ := exists_of_bind_ok came
      cases same
      exact .merge rfl answered
    | .null | .bool _ | .number _ | .text _ | .object _ => cases came
  | signal event =>
    cases came
    exact .signal
  | whileLoop condition body trace iteration =>
    obtain ⟨outcome, answered, same⟩ := exists_of_bind_ok came
    cases outcome with
    | false =>
      cases same
      exact .left answered
    | true =>
      cases same
      exact .again answered
  | forLoop times body trace iteration =>
    rw [Instruction.effect] at came
    split at came
    · rename_i ended
      cases came
      exact .finished ended
    · rename_i unended
      cases came
      exact .counted (UInt64.not_le.mp unended)

end Skeletons
