import Skeletons.Proofs.Instruction.Effect
import Skeletons.Proofs.Instruction.Routine
import Skeletons.Proofs.Skeleton.Simulation
import Skeletons.Proofs.Stack.Traces

namespace Skeletons

namespace Split

/-- The children of a plain split: one for each item, in order, with a copy of its template between two
    reports. -/
structure Branched (templates : List Stack) (trace : Trace) (items : List Value) (spawned : List Child) : Prop where
  count : spawned.length = items.length
  child : ∀ index item, items[index]? = some item → ∃ template copy,
    templates[if templates.length = 1 then 0 else index]? = some template ∧
      Stack.Renumbered trace.length (UInt64.ofNat index) template copy ∧
        spawned[index]? = some {
          index
          stack := report .before .nested trace (countPayload index) :: copy
            ++ [report .after .nested trace (countPayload index)]
          input := item }

/-- The children of a recursive split: one for each item, in order, with a copy of the template in which the
    division has the path of the child, below the report that its condition is asked. -/
structure Recurred (condition : Condition) (divider : Split) (merge : Merge) (solve : Stack) (trace : Trace)
    (below : Stack) (path : RecursionPath) (items : List Value) (spawned : List Child) : Prop where
  count : spawned.length = items.length
  child : ∀ index item, items[index]? = some item → ∃ copy,
    let next := path.child (UInt64.ofNat index)
    Stack.Renumbered (trace.length - 1) next.id (.divide condition divider merge solve trace next :: below) copy ∧
      spawned[index]? = some {
        index
        stack := report .before .condition (trace.retag (trace.length - 1) next.id) next.payload :: copy
        input := item }

section

variable {templates : List Stack} {trace : Trace} {items : List Value}

theorem getElem?_templates {index : Nat} (fitting : templates.length = 1 ∨ items.length = templates.length)
    (inside : index < items.length) :
    templates[if templates.length = 1 then 0 else index]? = some (templateAt templates index) := by
  have place : branchIndex templates.length index < templates.length := by
    unfold branchIndex
    split
    · omega
    · omega
  rw [templateAt_eq_getD, ← List.getElem_eq_getD (h := place) []]
  exact List.getElem?_eq_getElem place

theorem branched_children (fitting : templates.length = 1 ∨ items.length = templates.length) :
    Branched templates trace items (children templates trace 0 items) where
  count := by rw [children_eq_map, List.length_map, List.length_zipIdx]
  child := by
    intro index item found
    have inside : index < items.length := (List.getElem?_eq_some_iff.mp found).1
    refine ⟨_, _, getElem?_templates fitting inside, Stack.renumbered_retag _ _ _, ?_⟩
    rw [children_eq_map, List.getElem?_map, List.getElem?_zipIdx, found, Nat.zero_add]
    rfl

variable {condition : Condition} {divider : Split} {merge : Merge} {solve below : Stack} {path : RecursionPath}

theorem recursions_from (traced : trace ≠ []) (old : RecursionPath) (start : Nat) :
    recursions (.divide condition divider merge solve trace old :: below) path start items =
      .ok ((items.zipIdx start).map fun (item, index) =>
        recursionFrom condition divider merge solve trace below path index item) := by
  have filled : trace.isEmpty = false := by simpa using traced
  induction items generalizing start with
  | nil => rfl
  | cons item rest ih =>
    simp only [recursions, recursion, filled, Bool.false_eq_true, if_false, ih]
    rfl

theorem recurred_recursions :
    Recurred condition divider merge solve trace below path items
      ((items.zipIdx 0).map fun (item, index) =>
        recursionFrom condition divider merge solve trace below path index item) where
  count := by rw [List.length_map, List.length_zipIdx]
  child := by
    intro index item found
    refine ⟨_, Stack.renumbered_retag _ _ _, ?_⟩
    rw [List.getElem?_map, List.getElem?_zipIdx, found, Nat.zero_add]
    rfl

theorem recursions_headless {template : Stack}
    (headless : ∀ condition divider merge solve trace old below,
      template ≠ .divide condition divider merge solve trace old :: below)
    (filled : items ≠ []) : recursions template path 0 items = .error (.structural .templateHead) := by
  cases items with
  | nil => contradiction
  | cons item rest =>
    unfold recursions recursion
    split
    · exact absurd rfl (headless _ _ _ _ _ _ _)
    · rfl

theorem recursions_without_trace {old : RecursionPath} (filled : items ≠ []) :
    recursions (.divide condition divider merge solve [] old :: below) path 0 items =
      .error (.configuration (.malformedTrace .emptyDivide)) := by
  cases items with
  | nil => contradiction
  | cons item rest => rfl

theorem spawn_mismatched (mismatched : templates.length ≠ 1 ∧ items.length ≠ templates.length) :
    spawn templates trace none items = .error (.configuration (.arityMismatch templates.length items.length)) := by
  rw [spawn, if_pos mismatched]

theorem spawn_fitting (fitting : templates.length = 1 ∨ items.length = templates.length) :
    spawn templates trace none items = .ok (children templates trace 0 items) := by
  rw [spawn, if_neg]
  omega

theorem spawn_several (several : templates.length ≠ 1) :
    spawn templates trace (some path) items = .error (.structural (.templateCount templates.length)) := by
  match templates with
  | [] | _ :: _ :: _ => rfl
  | [_] => exact absurd rfl several

end

end Split

namespace Instruction

variable {templates : List Stack} {merger : Merge} {trace : Trace} {path : Option RecursionPath} {limit : Nat}
  {stack : Stack} {children : List Child} {items : List Value}

theorem interpret_split_failed {failure : Failure} {input : Value}
    (came : (split templates merger trace path).effect limit input = .error failure) :
    (split templates merger trace path).interpret limit input stack children =
      ⟨.error failure, stack, children, []⟩ := by
  rw [interpret_eq, came]

theorem effect_split_notASequence {input : Value} (unlisted : ∀ items, input ≠ .list items) :
    (split templates merger trace path).effect limit input =
      .error (.configuration (.notASequence input.typeName)) := by
  cases input with
  | list items => exact absurd rfl (unlisted items)
  | _ => rfl

theorem interpret_split_spawned (shallow : trace.length + (path.getD []).length ≤ limit)
    {spawned : List Child} (built : Split.spawn templates trace path items = .ok spawned) :
    (split templates merger trace path).interpret limit (.list items) stack children =
      ⟨.ok (.list []), Stack.merging merger trace (path.elim .null RecursionPath.payload) ++ stack,
        children ++ spawned, []⟩ := by
  rw [interpret_eq, Stack.effect_split, if_neg (Nat.not_lt.mpr shallow), built]
  rfl

theorem interpret_split_unbuilt (shallow : trace.length + (path.getD []).length ≤ limit) {failure : Failure}
    (broken : Split.spawn templates trace path items = .error failure) :
    (split templates merger trace path).interpret limit (.list items) stack children =
      ⟨.error failure, stack, children, []⟩ := by
  apply interpret_split_failed
  rw [Stack.effect_split, if_neg (Nat.not_lt.mpr shallow), broken]
  rfl

/-- A split that is given no list, or is nested too deep, or has the wrong number of templates, or recurs without
    a division to recur, fails in this order and hands out nothing. Otherwise it hands out one child for each item
    beside the children that are there, and leaves the merge on top of the stack. -/
theorem interpret_split (templates : List Stack) (merger : Merge) (trace : Trace) (path : Option RecursionPath)
    (limit : Nat) (input : Value) (stack : Stack) (children : List Child) :
    let came := (split templates merger trace path).interpret limit input stack children
    let depth := trace.length + (path.getD []).length
    let refused (failure : Failure) := came = ⟨.error failure, stack, children, []⟩
    let handsOut (spawned : List Child) :=
      came = ⟨.ok (.list []), Stack.merging merger trace (path.elim .null RecursionPath.payload) ++ stack,
        children ++ spawned, []⟩
    ((∀ items, input ≠ .list items) → refused (.configuration (.notASequence input.typeName))) ∧
      ∀ items, input = .list items →
        (limit < depth → refused (.configuration (.depthExceeded limit))) ∧
        (depth ≤ limit → path = none →
          (refused (.configuration (.arityMismatch templates.length items.length)) ↔
            templates.length ≠ 1 ∧ items.length ≠ templates.length) ∧
          (templates.length = 1 ∨ items.length = templates.length →
            ∃ spawned, handsOut spawned ∧ Split.Branched templates trace items spawned)) ∧
        (depth ≤ limit → ∀ given, path = some given →
          (templates.length ≠ 1 → refused (.structural (.templateCount templates.length))) ∧
          ∀ template, templates = [template] →
            (items = [] → handsOut []) ∧
            (∀ condition divider merge solve inner old below,
              template = .divide condition divider merge solve inner old :: below →
                (inner ≠ [] → ∃ spawned, handsOut spawned ∧
                  Split.Recurred condition divider merge solve inner below given items spawned) ∧
                (inner = [] → items ≠ [] → refused (.configuration (.malformedTrace .emptyDivide)))) ∧
            ((∀ condition divider merge solve inner old below,
              template ≠ .divide condition divider merge solve inner old :: below) →
                items ≠ [] → refused (.structural .templateHead))) := by
  intro came depth refused handsOut
  refine ⟨fun unlisted => interpret_split_failed (effect_split_notASequence unlisted), ?_⟩
  intro items listed
  subst listed
  refine ⟨?_, ?_, ?_⟩
  · intro deep
    apply interpret_split_failed
    rw [Stack.effect_split, if_pos deep]
  · intro shallow plain
    subst plain
    have handedOut (fitting : templates.length = 1 ∨ items.length = templates.length) :
        handsOut (Split.children templates trace 0 items) :=
      interpret_split_spawned shallow (Split.spawn_fitting fitting)
    refine ⟨⟨?_, ?_⟩, ?_⟩
    · intro failed
      by_contra fitting
      have handed := handedOut (by omega)
      cases congrArg Interpreted.result (failed.symm.trans handed)
    · intro mismatched
      exact interpret_split_unbuilt shallow (Split.spawn_mismatched mismatched)
    · intro fitting
      exact ⟨_, handedOut fitting, Split.branched_children fitting⟩
  · intro shallow given recursive
    subst recursive
    refine ⟨fun several => interpret_split_unbuilt shallow (Split.spawn_several several), ?_⟩
    intro template single
    subst single
    refine ⟨?_, ?_, ?_⟩
    · intro none
      subst none
      exact interpret_split_spawned shallow rfl
    · intro condition divider merge solve inner old below headed
      subst headed
      refine ⟨?_, ?_⟩
      · intro traced
        exact ⟨_, interpret_split_spawned shallow (Split.recursions_from traced old 0), Split.recurred_recursions⟩
      · intro untraced filled
        subst untraced
        exact interpret_split_unbuilt shallow (Split.recursions_without_trace filled)
    · intro headless filled
      exact interpret_split_unbuilt shallow (Split.recursions_headless headless filled)

theorem interpret_split_twoTemplates :
    let collect : Merge := ⟨"collect", fun results => .ok (.list results)⟩
    let rest : Stack := [.merge collect [⟨1, .map, 0⟩]]
    let branches : List Stack := [[], rest]
    let twoFold : Instruction := .split branches collect [⟨1, .map, 0⟩] none
    let child : Child := ⟨0, rest, .null⟩
    twoFold.interpret 0 .null rest [child] = ⟨.error (.configuration (.notASequence "null")), rest, [child], []⟩ ∧
      twoFold.interpret 0 (.list []) rest [child] = ⟨.error (.configuration (.depthExceeded 0)), rest, [child], []⟩ ∧
      twoFold.interpret 1 (.list []) rest [child] =
        ⟨.error (.configuration (.arityMismatch 2 0)), rest, [child], []⟩ ∧
      ∃ spawned, Split.Branched branches [⟨1, .map, 0⟩] [.null, .bool true] spawned ∧
        twoFold.interpret 1 (.list [.null, .bool true]) rest [child] =
          ⟨.ok (.list []), Stack.merging collect [⟨1, .map, 0⟩] .null ++ rest, child :: spawned, []⟩ := by
  intro collect rest branches twoFold child
  have law := interpret_split branches collect [⟨1, .map, 0⟩] none
  refine ⟨(law 0 .null rest [child]).1 nofun, ?_, ?_, ?_⟩
  · exact ((law 0 (.list []) rest [child]).2 [] rfl).1 (by decide)
  · exact (((law 1 (.list []) rest [child]).2 [] rfl).2.1 (by decide) rfl).1.mpr (by decide)
  · obtain ⟨spawned, handed, branched⟩ :=
      (((law 1 (.list [.null, .bool true]) rest [child]).2 _ rfl).2.1 (by decide) rfl).2 (.inr rfl)
    exact ⟨spawned, branched, handed⟩

end Instruction

end Skeletons
