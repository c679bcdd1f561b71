import Skeletons.Proofs.Program.Nesting
import Skeletons.Proofs.Program.Outcome
import Skeletons.Proofs.Skeleton.Cut
import Skeletons.Skeleton.Builder

namespace Skeletons

namespace Program

/-- Runs the programs of some skeletons one after another, each on the value of the one before. -/
def inTurn (limit : Nat) (stages : List Skeleton) (input : Value) : Outcomes Value :=
  stages.foldlM (fun value stage => (ofSkeleton stage).outcomes limit value) input

end Program

namespace Skeleton

/-- Evaluates what comes after the first stage of a pipeline. The last stage has one pipe around it, and each stage
    before it one more than the next. -/
def onward (limit level : Nat) : List Skeleton → Value → Outcomes Value
  | [], value => pure value
  | stage :: rest, value => do
    let next ← stage.Evaluates limit (level + rest.length + 1) value
    onward limit level rest next

theorem evaluates_piped (limit level : Nat) (rest : List Skeleton) (first : Skeleton) (next : UInt64)
    (input : Value) :
    ((rest.foldlM Build.pipe first).run next).1.Evaluates limit level input =
      first.Evaluates limit (level + rest.length) input >>= onward limit level rest := by
  induction rest generalizing first next with
  | nil => exact (bind_pure _).symm
  | cons stage rest ih =>
    have piped : (((stage :: rest).foldlM Build.pipe first).run next).1 =
        ((rest.foldlM Build.pipe (.pipe next first stage)).run (next + 1)).1 := rfl
    rw [piped, ih, Evaluates, bind_assoc, List.length_cons, Nat.add_assoc]
    rfl

variable {limit higher level : Nat}

theorem cut_onward (rest : List Skeleton) (value : Value) :
    Outcomes.Cut limit (onward limit level rest value)
      (rest.foldlM (fun value stage => stage.Evaluates limit 1 value) value) := by
  induction rest generalizing value with
  | nil => exact .refl _
  | cons stage rest ih =>
    rw [onward, List.foldlM_cons]
    apply (cut_evaluates stage (by omega) value).bind
    exact ih

theorem cut_of_onward (rest : List Skeleton) (room : limit + level + rest.length ≤ higher + 1) (value : Value) :
    Outcomes.Cut limit (rest.foldlM (fun value stage => stage.Evaluates limit 1 value) value)
      (onward higher level rest value) := by
  induction rest generalizing value with
  | nil => exact .refl _
  | cons stage rest ih =>
    rw [List.length_cons] at room
    rw [onward, List.foldlM_cons]
    apply (cut_evaluates stage (by omega) value).bind
    exact ih (by omega)

end Skeleton

namespace Program

open Outcomes

theorem inTurn_cons (limit : Nat) (first : Skeleton) (rest : List Skeleton) (input : Value) :
    inTurn limit (first :: rest) input =
      first.Evaluates limit 1 input >>= rest.foldlM fun value stage => stage.Evaluates limit 1 value := by
  simp only [inTurn, List.foldlM_cons, outcomes_ofSkeleton]

theorem cut_pipes (limit : Nat) (outer inner : UInt64) (first second third : Skeleton) (input : Value) :
    Cut limit ((ofSkeleton (.pipe outer (.pipe inner first second) third)).outcomes limit input)
        (inTurn limit [first, second, third] input) ∧
      Cut limit ((ofSkeleton (.pipe outer first (.pipe inner second third))).outcomes limit input)
        (inTurn limit [first, second, third] input) := by
  have deeper (stage : Skeleton) (level : Nat) (value : Value) :
      Cut limit (stage.Evaluates limit (level + 1) value) (stage.Evaluates limit 1 value) :=
    stage.cut_evaluates (by omega) value
  simp only [inTurn_cons, outcomes_ofSkeleton, Skeleton.Evaluates, bind_assoc, List.foldlM_cons, List.foldlM_nil]
  constructor
  · apply (deeper first 2 input).bind
    intro middle
    apply (deeper second 2 middle).bind
    intro last
    rw [bind_pure]
    exact deeper third 1 last
  · apply (deeper first 1 input).bind
    intro middle
    apply (deeper second 2 middle).bind
    intro last
    rw [bind_pure]
    exact deeper third 2 last

/-- A pipeline comes to what its stages come to one after another, unless it ends at its limit; where the stages do
    not end at the limit, one level more for each of its pipes is enough. In particular two pipes may be nested either
    way. -/
theorem pipeline_in_turn (first : Skeleton) (rest : List Skeleton) (next : UInt64) (limit : Nat) (input : Value) :
    (∃ pipeline, ((Build.pipeline? (first :: rest)).run next).1 = some pipeline ∧
      (¬ (ofSkeleton pipeline).outcomes limit input (.error (.configuration (.depthExceeded limit))) →
        (ofSkeleton pipeline).outcomes limit input = inTurn limit (first :: rest) input) ∧
      (¬ inTurn limit (first :: rest) input (.error (.configuration (.depthExceeded limit))) →
        (ofSkeleton pipeline).outcomes (limit + rest.length) input = inTurn limit (first :: rest) input)) ∧
      ∀ (second third : Skeleton) (outer inner within around : UInt64),
        let left := ofSkeleton (.pipe outer (.pipe inner first second) third)
        let right := ofSkeleton (.pipe around first (.pipe within second third))
        ¬ left.outcomes limit input (.error (.configuration (.depthExceeded limit))) →
          ¬ right.outcomes limit input (.error (.configuration (.depthExceeded limit))) →
            left.outcomes limit input = right.outcomes limit input := by
  constructor
  · refine ⟨((rest.foldlM Build.pipe first).run next).1, rfl, ?_⟩
    rw [inTurn_cons, outcomes_ofSkeleton, outcomes_ofSkeleton, Skeleton.evaluates_piped, Skeleton.evaluates_piped]
    constructor
    · apply Cut.eq
      apply (first.cut_evaluates (by omega) input).bind
      exact Skeleton.cut_onward rest
    · intro within
      symm
      apply Cut.eq _ within
      apply (first.cut_evaluates (by omega) input).bind
      exact Skeleton.cut_of_onward rest (by omega)
  · intro second third outer inner within around left right leftWithin rightWithin
    have nested := (cut_pipes limit outer inner first second third input).1.eq leftWithin
    have other := (cut_pipes limit around within first second third input).2.eq rightWithin
    exact nested.trans other.symm

/-- A pipe takes a level from the split in its first stage: with the only level the stages run one after another, and
    the pipeline fails. -/
theorem pipe_takes_level :
    let stages := [keptItems, .seq 3 ⟨"keep", .ok⟩]
    ∃ pipeline, ((Build.pipeline? stages).run 4).1 = some pipeline ∧
      inTurn 1 stages (.list [.null]) (.ok (.list [.null])) ∧
        (ofSkeleton pipeline).outcomes 1 (.list [.null]) (.error (.configuration (.depthExceeded 1))) ∧
          (ofSkeleton pipeline).outcomes 1 (.list [.null]) ≠ inTurn 1 stages (.list [.null]) := by
  intro stages
  have kept : (ofSkeleton keptItems).outcomes 1 (.list [.null]) (.ok (.list [.null])) := ⟨30, _, rfl⟩
  have again : (ofSkeleton (.seq 3 ⟨"keep", .ok⟩)).outcomes 1 (.list [.null]) (.ok (.list [.null])) := ⟨30, _, rfl⟩
  have passed : inTurn 1 stages (.list [.null]) (.ok (.list [.null])) :=
    .inr ⟨_, kept, .inr ⟨_, again, rfl⟩⟩
  refine ⟨_, rfl, passed, ⟨30, _, rfl⟩, fun same => ?_⟩
  have failed : inTurn 1 stages (.list [.null]) (.error (.configuration (.depthExceeded 1))) := same ▸ ⟨30, _, rfl⟩
  rw [← same] at passed failed
  cases outcomes_unique passed failed

end Program

end Skeletons
