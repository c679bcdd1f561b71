import Mathlib.Data.List.Forall2
import Skeletons.Proofs.Process.Outcome

namespace Skeletons

namespace Outcomes

variable {α β σ : Type} {limit : Nat}

/-- The first computation is the second one, unless it is cut off at its limit. -/
structure Cut (limit : Nat) (first second : Outcomes α) : Prop where
  onward : ∀ outcome, first outcome → second outcome ∨ outcome = .error (.configuration (.depthExceeded limit))
  back : ∀ outcome, second outcome → first outcome ∨ first (.error (.configuration (.depthExceeded limit)))

namespace Cut

theorem refl (outcomes : Outcomes α) : Cut limit outcomes outcomes :=
  ⟨fun _ reached => .inl reached, fun _ reached => .inl reached⟩

theorem fail (outcomes : Outcomes α) :
    Cut limit (Outcomes.fail (.configuration (.depthExceeded limit))) outcomes :=
  ⟨fun _ failed => .inr failed, fun _ _ => .inr rfl⟩

theorem bind {first second : Outcomes α} {next further : α → Outcomes β} (cut : Cut limit first second)
    (rest : ∀ value, Cut limit (next value) (further value)) : Cut limit (first >>= next) (second >>= further) := by
  constructor
  · intro outcome given
    rcases given with ⟨failure, failed, rfl⟩ | ⟨value, reached, came⟩
    · rcases cut.onward _ failed with same | deep
      · exact .inl (.inl ⟨failure, same, rfl⟩)
      · right
        cases deep
        rfl
    · rcases cut.onward _ reached with same | deep
      · rcases (rest value).onward _ came with also | deep
        · exact .inl (.inr ⟨value, same, also⟩)
        · exact .inr deep
      · cases deep
  · intro outcome given
    rcases given with ⟨failure, failed, rfl⟩ | ⟨value, reached, came⟩
    · rcases cut.back _ failed with same | deep
      · exact .inl (.inl ⟨failure, same, rfl⟩)
      · exact .inr (.inl ⟨_, deep, rfl⟩)
    · rcases cut.back _ reached with same | deep
      · rcases (rest value).back _ came with also | deep
        · exact .inl (.inr ⟨value, same, also⟩)
        · exact .inr (.inr ⟨value, same, deep⟩)
      · exact .inr (.inl ⟨_, deep, rfl⟩)

theorem eq {first second : Outcomes α} (cut : Cut limit first second)
    (within : ¬ first (.error (.configuration (.depthExceeded limit)))) : first = second := by
  funext outcome
  apply propext
  constructor
  · intro reached
    rcases cut.onward outcome reached with same | exceeded
    · exact same
    · subst exceeded
      exact absurd reached within
  · exact fun came => (cut.back outcome came).resolve_right within

theorem mapM {work other : σ → Outcomes α} (cut : ∀ item, Cut limit (work item) (other item)) (items : List σ) :
    Cut limit (items.mapM work) (items.mapM other) := by
  induction items with
  | nil => exact refl _
  | cons item rest ih =>
    rw [List.mapM_cons, List.mapM_cons]
    apply (cut item).bind
    intro value
    apply ih.bind
    exact fun values => refl _

theorem foldlM {work other : α → σ → Outcomes α} (cut : ∀ value item, Cut limit (work value item) (other value item))
    (items : List σ) (start : α) : Cut limit (items.foldlM work start) (items.foldlM other start) := by
  induction items generalizing start with
  | nil => exact refl _
  | cons item rest ih =>
    rw [List.foldlM_cons, List.foldlM_cons]
    exact (cut start item).bind ih

theorem repeatWhile (condition : Condition) {body other : Value → Outcomes Value}
    (cut : ∀ value, Cut limit (body value) (other value)) (value : Value) :
    Cut limit (RepeatWhile condition body value) (RepeatWhile condition other value) := by
  constructor
  · intro outcome repeated
    induction repeated with
    | untold told => exact .inl (.untold told)
    | ended told => exact .inl (.ended told)
    | failed told broken =>
      rcases (cut _).onward _ broken with same | deep
      · exact .inl (.failed told same)
      · exact .inr deep
    | again told reached _ ih =>
      rcases (cut _).onward _ reached with same | deep
      · exact ih.imp (.again told same) id
      · cases deep
  · intro outcome repeated
    induction repeated with
    | untold told => exact .inl (.untold told)
    | ended told => exact .inl (.ended told)
    | failed told broken => exact ((cut _).back _ broken).imp (.failed told) (.failed told)
    | again told reached _ ih =>
      rcases (cut _).back _ reached with same | deep
      · exact ih.imp (.again told same) (.again told same)
      · exact .inr (.failed told deep)

abbrev Each (limit : Nat) : List (Value → Outcomes Value) → List (Value → Outcomes Value) → Prop :=
  List.Forall₂ fun branch other => ∀ value, Cut limit (branch value) (other value)

theorem branchAt {branches others : List (Value → Outcomes Value)} (cut : Each limit branches others) (index : Nat)
    (value : Value) : Cut limit (Outcomes.branchAt branches index value) (Outcomes.branchAt others index value) := by
  have placed {branches others : List (Value → Outcomes Value)} (cut : Each limit branches others) (index : Nat) :
      Cut limit (branches.getD index (fun value => pure value) value)
        (others.getD index (fun value => pure value) value) := by
    induction cut generalizing index with
    | nil => exact refl _
    | cons head _ ih =>
      cases index with
      | zero => exact head value
      | succ index => exact ih index
  cases cut with
  | nil => exact refl _
  | cons head tail =>
    cases tail with
    | nil => exact head value
    | cons second others => exact placed (.cons head (.cons second others)) index

variable {level higher lower : Nat}

theorem scatter (room : limit + lower ≤ higher + level) {branches others : List (Value → Outcomes Value)}
    (cut : Each limit branches others) (merge : Merge) (parts : List Value) :
    Cut limit (Outcomes.scatter limit level branches merge parts)
      (Outcomes.scatter higher lower others merge parts) := by
  unfold Outcomes.scatter
  by_cases deep : limit < level
  · rw [if_pos deep]
    apply fail
  · have shallow : ¬ higher < lower := by omega
    rw [if_neg deep, if_neg shallow, cut.length_eq]
    split
    · exact refl _
    · apply bind
      · apply mapM
        exact fun item => branchAt cut item.2 item.1
      · exact fun results => refl _

theorem divide (room : limit + lower ≤ higher + level) (condition : Condition) (split : Split) (merge : Merge)
    {solve other : Value → Outcomes Value} (cut : ∀ value, Cut limit (solve value) (other value)) (depth : Nat)
    (input : Value) :
    Cut limit (Outcomes.divide limit level condition split merge solve depth input)
      (Outcomes.divide higher lower condition split merge other depth input) := by
  -- The induction is on how far the first recursion is from its limit.
  induction left : limit + 1 - (level + depth) using Nat.strongRecOn generalizing depth input with
  | ind left ih =>
    rw [Outcomes.divide, Outcomes.divide]
    apply (refl _).bind
    intro outcome
    cases outcome with
    | false => exact cut input
    | true =>
      apply (refl _).bind
      intro parts
      by_cases deep : limit < level + depth
      · rw [if_pos deep]
        apply fail
      · have shallow : ¬ higher < lower + depth := by omega
        rw [if_neg deep, if_neg shallow]
        apply bind
        · apply mapM
          exact fun part => ih _ (by omega) (depth + 1) part rfl
        · exact fun results => refl _

end Cut

end Outcomes

namespace Skeleton

open Outcomes

variable {limit higher : Nat}

mutual

/-- With less room left below its limit, evaluating a tree comes to the same, unless it is cut off there. -/
theorem cut_evaluates : ∀ (skeleton : Skeleton) {level lower : Nat}, limit + lower ≤ higher + level →
    ∀ input, Cut limit (skeleton.Evaluates limit level input) (skeleton.Evaluates higher lower input)
  | .seq _ execute, _, _, _, input => .refl _
  | .pipe _ first second, _, _, room, input =>
    (cut_evaluates first (by omega) input).bind fun middle => cut_evaluates second (by omega) middle
  | .ifElse _ condition whenTrue whenFalse, _, _, room, input => by
    apply (Cut.refl _).bind
    intro outcome
    cases outcome with
    | false => exact cut_evaluates whenFalse (by omega) input
    | true => exact cut_evaluates whenTrue (by omega) input
  | .whileLoop _ condition body, _, _, room, input =>
    .repeatWhile condition (cut_evaluates body (by omega)) input
  | .forLoop _ times body, _, _, room, input =>
    .foldlM (fun value _ => cut_evaluates body (by omega) value) _ input
  | .map _ split body merge, _, _, room, input => by
    apply (Cut.refl _).bind
    intro parts
    apply Cut.scatter room
    exact .cons (cut_evaluates body (by omega)) .nil
  | .fork _ split branches merge, _, _, room, input =>
    (Cut.refl _).bind fun parts => .scatter room (cut_evaluations branches room) merge parts
  | .divide _ condition split solve merge, _, _, room, input =>
    .divide room condition split merge (cut_evaluates solve (by omega)) 0 input

theorem cut_evaluations : ∀ (branches : List Skeleton) {level lower : Nat}, limit + lower ≤ higher + level →
    Cut.Each limit (evaluations limit level branches) (evaluations higher lower branches)
  | [], _, _, _ => .nil
  | branch :: rest, _, _, room => .cons (cut_evaluates branch (by omega)) (cut_evaluations rest room)

end

end Skeleton

end Skeletons
