import Skeletons.Proofs.Process

namespace Skeletons

namespace Account

variable {α β : Type}

theorem after_ended {account : Account α} {told events : List Event} {outcome : Except Failure α}
    (ended : account.after told = ⟨some outcome, events⟩) : ∃ late, account = ⟨some outcome, late⟩ := by
  obtain ⟨ending, late⟩ := account
  cases ended
  exact ⟨late, rfl⟩

theorem bind_ended_iff (account : Account α) (next : α → Account β) (outcome : Except Failure β)
    (events : List Event) :
    account >>= next = ⟨some outcome, events⟩ ↔
      (∃ failure, account = ⟨some (.error failure), events⟩ ∧ outcome = .error failure) ∨
        ∃ value early late, account = ⟨some (.ok value), early⟩ ∧
          next value = ⟨some outcome, late⟩ ∧ events = early ++ late := by
  obtain ⟨ending, told⟩ := account
  match ending with
  | none => simp
  | some (.error failure) =>
    simp only [bind_failure, mk.injEq, Option.some.injEq, Except.error.injEq, reduceCtorEq, false_and,
      exists_false, or_false]
    constructor
    · intro given
      obtain ⟨rfl, rfl⟩ := given
      exact ⟨failure, ⟨rfl, rfl⟩, rfl⟩
    · intro given
      obtain ⟨_, ⟨rfl, rfl⟩, rfl⟩ := given
      exact ⟨rfl, rfl⟩
  | some (.ok value) =>
    simp only [bind_value, after, mk.injEq, Option.some.injEq, Except.ok.injEq, reduceCtorEq, false_and,
      exists_false, false_or]
    constructor
    · intro given
      obtain ⟨ended, rfl⟩ := given
      refine ⟨value, told, (next value).events, ⟨rfl, rfl⟩, ?_, rfl⟩
      rw [← ended]
    · intro given
      obtain ⟨_, _, late, ⟨rfl, rfl⟩, ended, rfl⟩ := given
      rw [ended]
      exact ⟨rfl, rfl⟩

theorem bind_ended_ok_iff (account : Account α) (next : α → Account β) (answer : β) (events : List Event) :
    account >>= next = ⟨some (.ok answer), events⟩ ↔
      ∃ value early late, account = ⟨some (.ok value), early⟩ ∧
        next value = ⟨some (.ok answer), late⟩ ∧ events = early ++ late := by
  rw [bind_ended_iff]
  simp

end Account

namespace Process

variable {α β σ : Type}

def Ends (process : Process α) (outcome : Except Failure α) (events : List Event) : Prop :=
  ∃ effort, process.within effort = ⟨some outcome, events⟩

theorem within_of_ended {process : Process α} {effort more : Nat} {outcome : Except Failure α}
    {events : List Event} (ended : process.within effort = ⟨some outcome, events⟩)
    (later : effort ≤ more) : process.within more = ⟨some outcome, events⟩ := by
  have final := Account.eq_of_le (process.grows later) (congrArg Account.outcome ended)
  rw [final, ended]

theorem Ends.unique {process : Process α} {first second : Except Failure α} {events told : List Event}
    (ended : process.Ends first events) (other : process.Ends second told) :
    first = second ∧ events = told := by
  obtain ⟨effort, known⟩ := ended
  obtain ⟨more, found⟩ := other
  have early := within_of_ended known (Nat.le_max_left effort more)
  have late := within_of_ended found (Nat.le_max_right effort more)
  simpa only [Account.mk.injEq, Option.some.injEq] using early.symm.trans late

theorem Ends.le {first second : Process α} {outcome : Except Failure α} {events : List Event}
    (ended : first.Ends outcome events) (below : first ≤ second) : second.Ends outcome events := by
  obtain ⟨effort, known⟩ := ended
  obtain ⟨more, told⟩ := below effort
  exact ⟨more, (Account.eq_of_le told (congrArg Account.outcome known)).trans known⟩

theorem ends_congr {first second : Process α} (alike : first ≈ second) (outcome : Except Failure α)
    (events : List Event) : first.Ends outcome events ↔ second.Ends outcome events :=
  ⟨fun ended => ended.le alike.1, fun ended => ended.le alike.2⟩

theorem ends_ofResult (result outcome : Except Failure α) (events : List Event) :
    (liftM result : Process α).Ends outcome events ↔ outcome = result ∧ events = [] := by
  constructor
  · intro given
    obtain ⟨effort, ended⟩ := given
    cases ended
    exact ⟨rfl, rfl⟩
  · intro given
    obtain ⟨rfl, rfl⟩ := given
    exact ⟨0, rfl⟩

theorem ends_pure (value : α) (outcome : Except Failure α) (events : List Event) :
    (pure value : Process α).Ends outcome events ↔ outcome = .ok value ∧ events = [] :=
  ends_ofResult (.ok value) outcome events

theorem ends_bind (first : Process α) (next : α → Process β) (outcome : Except Failure β)
    (events : List Event) :
    (first >>= next).Ends outcome events ↔
      (∃ failure, first.Ends (.error failure) events ∧ outcome = .error failure) ∨
        ∃ value early late, first.Ends (.ok value) early ∧ (next value).Ends outcome late ∧
          events = early ++ late := by
  constructor
  · intro given
    obtain ⟨effort, ended⟩ := given
    rcases (Account.bind_ended_iff _ _ outcome events).mp ended with ⟨failure, failed, same⟩ |
      ⟨value, early, late, reached, rest, split⟩
    · exact Or.inl ⟨failure, ⟨effort, failed⟩, same⟩
    · exact Or.inr ⟨value, early, late, ⟨effort, reached⟩, ⟨effort, rest⟩, split⟩
  · intro given
    rcases given with ⟨failure, ⟨effort, failed⟩, same⟩ | ⟨value, early, late, ⟨effort, reached⟩, ⟨more, rest⟩, split⟩
    · exact ⟨effort, (Account.bind_ended_iff _ _ _ _).mpr (Or.inl ⟨failure, failed, same⟩)⟩
    · refine ⟨max effort more, (Account.bind_ended_iff _ _ _ _).mpr (Or.inr ⟨value, early, late, ?_, ?_, split⟩)⟩
      · exact within_of_ended reached (Nat.le_max_left effort more)
      · exact within_of_ended rest (Nat.le_max_right effort more)

theorem ends_ok_bind (first : Process α) (next : α → Process β) (answer : β) (events : List Event) :
    (first >>= next).Ends (.ok answer) events ↔
      ∃ value early late, first.Ends (.ok value) early ∧ (next value).Ends (.ok answer) late ∧
        events = early ++ late := by
  rw [ends_bind]
  simp

theorem ends_note_bind (told : List Event) (next : Unit → Process α) (outcome : Except Failure α)
    (events : List Event) :
    (note told >>= next).Ends outcome events ↔
      ∃ late, (next ()).Ends outcome late ∧ events = told ++ late := by
  rw [ends_bind]
  constructor
  · intro given
    rcases given with ⟨failure, ⟨effort, impossible⟩, _⟩ | ⟨_, early, late, ⟨effort, noted⟩, rest, split⟩
    · cases impossible
    · cases noted
      exact ⟨late, rest, split⟩
  · intro given
    obtain ⟨late, rest, split⟩ := given
    exact Or.inr ⟨(), told, late, ⟨0, rfl⟩, rest, split⟩

theorem ends_note_ofResult (told : List Event) (result outcome : Except Failure α) (events : List Event) :
    (note told >>= fun _ => (liftM result : Process α)).Ends outcome events ↔
      outcome = result ∧ events = told := by
  simp only [ends_note_bind, ends_ofResult]
  constructor
  · intro given
    obtain ⟨_, ⟨same, rfl⟩, rfl⟩ := given
    exact ⟨same, List.append_nil told⟩
  · intro given
    obtain ⟨same, rfl⟩ := given
    exact ⟨[], ⟨same, rfl⟩, (List.append_nil _).symm⟩

end Process

end Skeletons
