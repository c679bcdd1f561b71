import Mathlib.Algebra.BigOperators.Group.List.Basic
import Mathlib.Algebra.Order.Ring.Int
import Skeletons.Event

namespace Skeletons.Event

def level (events : List Event) : Int :=
  (events.map fun event => match event.phase with
    | .before => 1
    | .after => -1).sum

@[simp] theorem level_nil : level [] = 0 := rfl

@[simp] theorem level_append (first second : List Event) :
    level (first ++ second) = level first + level second := by
  simp [level]

theorem level_cons_before {event : Event} (before : event.phase = .before) (rest : List Event) :
    level (event :: rest) = 1 + level rest := by
  simp [level, before]

theorem level_cons_after {event : Event} (after : event.phase = .after) (rest : List Event) :
    level (event :: rest) = -1 + level rest := by
  simp [level, after]

/-- Whether all that is opened among some events is closed there, and nothing else is. -/
structure Balanced (events : List Event) : Prop where
  settled : level events = 0
  upward {early : List Event} : early <+: events → 0 ≤ level early

/-- Whether an event is closed by another one, with the given events in between. Which event closes which is a
    matter of phases alone. -/
structure Closes (opening : Event) (inside : List Event) (closing : Event) : Prop where
  before : opening.phase = .before
  after : closing.phase = .after
  balanced : Balanced inside

/-- The two events of a pair and what lies between them. Only what is nested has events of its own, and only
    a test is closed by something else than it was opened with: by its outcome. -/
structure Pair (opening : Event) (inside : List Event) (closing : Event) : Prop where
  before : opening.phase = .before
  after : closing.phase = .after
  point : closing.point = opening.point
  trace : closing.trace = opening.trace
  payload : opening.point ≠ .condition → closing.payload = opening.payload
  outcome : opening.point = .condition → ∃ outcome, closing.payload = .bool outcome
  alone : opening.point ≠ .nested → inside = []

/-- A log in which every event is one of a pair: what opens is closed exactly once, what closes was opened
    exactly once, pairs do not cross, and the two of a pair agree. -/
structure Paired (events : List Event) : Prop where
  closed {early late : List Event} {opening : Event} :
    events = early ++ opening :: late → opening.phase = .before →
      ∃! inside, ∃ closing rest, late = inside ++ closing :: rest ∧ Closes opening inside closing
  opened {early late : List Event} {closing : Event} :
    events = early ++ closing :: late → closing.phase = .after →
      ∃! inside, ∃ outer opening, early = outer ++ opening :: inside ∧ Closes opening inside closing
  uncrossed {outer early middle late further : List Event} {first second third fourth : Event} :
    events = outer ++ first :: (early ++ second :: (middle ++ third :: (late ++ fourth :: further))) →
      Closes first (early ++ second :: middle) third → ¬ Closes second (middle ++ third :: late) fourth
  agree {early inside late : List Event} {opening closing : Event} :
    events = early ++ opening :: (inside ++ closing :: late) → Closes opening inside closing →
      Pair opening inside closing

theorem balanced_nil : Balanced [] where
  settled := rfl
  upward {early} start := by
    simp [List.prefix_nil.mp start]

theorem Closes.balanced_append {opening closing : Event} {inside rest : List Event}
    (closes : Closes opening inside closing) (balanced : Balanced rest) :
    Balanced (opening :: (inside ++ closing :: rest)) where
  settled := by
    rw [level_cons_before closes.before, level_append, level_cons_after closes.after, closes.balanced.settled,
      balanced.settled]
    rfl
  upward {early} start := by
    rcases List.prefix_cons_iff.mp start with rfl | ⟨begun, rfl, within⟩
    · simp
    · rw [level_cons_before closes.before]
      rcases List.prefix_or_prefix_of_prefix within (List.prefix_append inside _) with inner | ⟨further, rfl⟩
      · have above := closes.balanced.upward inner
        omega
      · rw [List.prefix_append_right_inj] at within
        rw [level_append, closes.balanced.settled]
        rcases List.prefix_cons_iff.mp within with rfl | ⟨after, rfl, beyond⟩
        · simp
        · have above := balanced.upward beyond
          rw [level_cons_after closes.after]
          omega

theorem Balanced.not_closing {inside rest : List Event} {closing : Event} (balanced : Balanced inside)
    (after : closing.phase = .after) : ¬ Balanced (inside ++ closing :: rest) := by
  intro longer
  have start : inside ++ [closing] <+: inside ++ closing :: rest :=
    (List.prefix_append_right_inj inside).mpr ⟨rest, rfl⟩
  have above := longer.upward start
  rw [level_append, balanced.settled, level_cons_after after] at above
  simp at above

theorem Balanced.not_opening {inside early : List Event} {opening : Event} (balanced : Balanced inside)
    (before : opening.phase = .before) : ¬ Balanced (early ++ opening :: inside) := by
  intro longer
  have settled := longer.settled
  have begun := longer.upward (List.prefix_append early _)
  rw [level_append, level_cons_before before, balanced.settled] at settled
  omega

theorem Balanced.eq_of_closing {inside other rest further : List Event} {closing last : Event}
    (balanced : Balanced inside) (also : Balanced other) (after : closing.phase = .after)
    (ends : last.phase = .after) (same : inside ++ closing :: rest = other ++ last :: further) :
    inside = other := by
  rcases List.append_eq_append_iff.mp same with ⟨more, rfl, tail⟩ | ⟨more, rfl, tail⟩
  · cases more with
    | nil => exact (List.append_nil inside).symm
    | cons head more =>
      cases tail
      exact absurd also (balanced.not_closing after)
  · cases more with
    | nil => exact List.append_nil other
    | cons head more =>
      cases tail
      exact absurd balanced (also.not_closing ends)

theorem Balanced.eq_of_opening {inside other outer further : List Event} {opening first : Event}
    (balanced : Balanced inside) (also : Balanced other) (before : opening.phase = .before)
    (begins : first.phase = .before) (same : outer ++ opening :: inside = further ++ first :: other) :
    inside = other := by
  rcases List.append_eq_append_iff.mp same with ⟨more, rfl, tail⟩ | ⟨more, rfl, tail⟩
  · cases more with
    | nil => exact (List.cons.inj tail).2
    | cons head more =>
      cases tail
      exact absurd balanced (also.not_opening begins)
  · cases more with
    | nil => exact (List.cons.inj tail).2.symm
    | cons head more =>
      cases tail
      exact absurd also (balanced.not_opening before)

theorem Closes.uncrossed {early middle late : List Event} {first second third fourth : Event}
    (outer : Closes first (early ++ second :: middle) third) :
    ¬ Closes second (middle ++ third :: late) fourth := by
  intro inner
  have settled := outer.balanced.settled
  have begun := outer.balanced.upward (List.prefix_append early _)
  have start : middle ++ [third] <+: middle ++ third :: late :=
    (List.prefix_append_right_inj middle).mpr ⟨late, rfl⟩
  have above := inner.balanced.upward start
  rw [level_append, level_cons_before inner.before] at settled
  rw [level_append, level_cons_after outer.after, level_nil] at above
  omega

/-- A log put together of pairs, one after another and inside others. -/
inductive Bracketed : List Event → Prop where
  | nil : Bracketed []
  | pair {opening closing : Event} {inside rest : List Event} :
    Pair opening inside closing → Bracketed inside → Bracketed rest →
      Bracketed (opening :: (inside ++ closing :: rest))

namespace Bracketed

theorem append {first second : List Event} (early : Bracketed first) (late : Bracketed second) :
    Bracketed (first ++ second) := by
  induction early with
  | nil => exact late
  | pair pair inside _ _ ih =>
    rw [List.cons_append, List.append_assoc]
    exact .pair pair inside ih

theorem enclosed {opening closing : Event} {inside : List Event} (given : Bracketed inside)
    (pair : Pair opening inside closing) : Bracketed (opening :: (inside ++ [closing])) :=
  .pair pair given .nil

theorem balanced {events : List Event} (given : Bracketed events) : Balanced events := by
  induction given with
  | nil => exact balanced_nil
  | pair pair _ _ inner rest =>
    have closes : Closes _ _ _ := ⟨pair.before, pair.after, inner⟩
    exact closes.balanced_append rest

theorem closes {opening closing : Event} {inside : List Event} (given : Bracketed inside)
    (pair : Pair opening inside closing) : Closes opening inside closing :=
  ⟨pair.before, pair.after, given.balanced⟩

theorem pair_of_mem {events : List Event} (given : Bracketed events) {early late : List Event} {event : Event}
    (placed : events = early ++ event :: late) :
    (∃ inside closing rest, late = inside ++ closing :: rest ∧ Pair event inside closing ∧ Bracketed inside) ∨
      ∃ outer opening inside, early = outer ++ opening :: inside ∧ Pair opening inside event ∧
        Bracketed inside := by
  induction given generalizing early late with
  | nil => simp at placed
  | @pair opening closing inside rest pair within _ inner further =>
    rcases List.cons_eq_append_iff.mp placed with ⟨rfl, here⟩ | ⟨begun, rfl, below⟩
    · cases here
      exact .inl ⟨inside, closing, rest, rfl, pair, within⟩
    rcases List.append_eq_append_iff.mp below with ⟨more, rfl, beyond⟩ | ⟨more, rfl, between⟩
    · rcases List.cons_eq_append_iff.mp beyond with ⟨rfl, here⟩ | ⟨after, rfl, behind⟩
      · cases here
        exact .inr ⟨[], opening, inside, by simp, pair, within⟩
      · rcases further behind with opens | ⟨outer, first, between, rfl, found⟩
        · exact .inl opens
        · exact .inr ⟨opening :: (inside ++ closing :: outer), first, between, by simp, found⟩
    · rcases List.cons_eq_append_iff.mp between with ⟨rfl, here⟩ | ⟨after, rfl, behind⟩
      · cases here
        exact .inr ⟨[], opening, begun, by simp, by simpa using pair, by simpa using within⟩
      · rcases inner rfl with ⟨nested, last, remaining, rfl, found⟩ | ⟨outer, first, nested, rfl, found⟩
        · exact .inl ⟨nested, last, remaining ++ closing :: rest, by simp [behind], found⟩
        · exact .inr ⟨opening :: outer, first, nested, by simp, found⟩

theorem paired {events : List Event} (given : Bracketed events) : Paired events where
  closed {early late opening} placed before := by
    rcases given.pair_of_mem placed with ⟨inside, closing, rest, rfl, pair, within⟩ | ⟨_, _, _, _, pair, _⟩
    · refine ⟨inside, ⟨closing, rest, rfl, within.closes pair⟩, ?_⟩
      rintro other ⟨last, further, same, closes⟩
      exact (within.balanced.eq_of_closing closes.balanced pair.after closes.after same).symm
    · rw [pair.after] at before
      cases before
  opened {early late closing} placed after := by
    rcases given.pair_of_mem placed with ⟨_, _, _, _, pair, _⟩ | ⟨outer, opening, inside, rfl, pair, within⟩
    · rw [pair.before] at after
      cases after
    · refine ⟨inside, ⟨outer, opening, rfl, within.closes pair⟩, ?_⟩
      rintro other ⟨further, first, same, closes⟩
      exact (within.balanced.eq_of_opening closes.balanced pair.before closes.before same).symm
  uncrossed _ outer := outer.uncrossed
  agree {early inside late opening closing} placed closes := by
    rcases given.pair_of_mem placed with ⟨between, last, rest, same, pair, within⟩ | ⟨_, _, _, _, pair, _⟩
    · have equal := closes.balanced.eq_of_closing within.balanced closes.after pair.after same
      subst equal
      cases List.append_cancel_left same
      exact pair
    · have before := closes.before
      rw [pair.after] at before
      cases before

end Bracketed

end Skeletons.Event
