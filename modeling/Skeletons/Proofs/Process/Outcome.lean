import Skeletons.Proofs.Process.Ending
import Skeletons.Proofs.Process.Iterate
import Skeletons.Proofs.Skeleton.Evaluation

namespace Skeletons

namespace Outcomes

variable {α β γ : Type}

protected theorem pure_bind (value : α) (next : α → Outcomes β) : pure value >>= next = next value := by
  funext outcome
  refine propext ⟨?_, fun reached => Or.inr ⟨value, rfl, reached⟩⟩
  intro given
  rcases given with ⟨failure, impossible, _⟩ | ⟨other, same, reached⟩
  · cases impossible
  · cases same
    exact reached

protected theorem bind_pure (first : Outcomes α) : first >>= pure = first := by
  funext outcome
  refine propext ⟨?_, fun reached => ?_⟩
  · intro given
    rcases given with ⟨failure, failed, rfl⟩ | ⟨value, reached, rfl⟩
    · exact failed
    · exact reached
  · cases outcome with
    | error failure => exact Or.inl ⟨failure, reached, rfl⟩
    | ok value => exact Or.inr ⟨value, reached, rfl⟩

protected theorem bind_assoc (first : Outcomes α) (next : α → Outcomes β) (further : β → Outcomes γ) :
    first >>= next >>= further = first >>= fun value => next value >>= further := by
  funext outcome
  refine propext ⟨?_, ?_⟩
  · intro given
    rcases given with ⟨failure, ⟨other, failed, same⟩ | ⟨value, reached, failed⟩, rfl⟩ |
      ⟨middle, ⟨other, failed, same⟩ | ⟨value, reached, ended⟩, last⟩
    · exact Or.inl ⟨failure, by cases same; exact failed, rfl⟩
    · exact Or.inr ⟨value, reached, Or.inl ⟨failure, failed, rfl⟩⟩
    · cases same
    · exact Or.inr ⟨value, reached, Or.inr ⟨middle, ended, last⟩⟩
  · intro given
    rcases given with ⟨failure, failed, rfl⟩ | ⟨value, reached, ⟨failure, failed, rfl⟩ | ⟨middle, ended, last⟩⟩
    · exact Or.inl ⟨failure, Or.inl ⟨failure, failed, rfl⟩, rfl⟩
    · exact Or.inl ⟨failure, Or.inr ⟨value, reached, failed⟩, rfl⟩
    · exact Or.inr ⟨middle, Or.inr ⟨value, reached, ended⟩, last⟩

instance : LawfulMonad Outcomes :=
  LawfulMonad.mk' Outcomes Outcomes.bind_pure Outcomes.pure_bind Outcomes.bind_assoc

theorem fail_bind (failure : Failure) (next : α → Outcomes β) : fail failure >>= next = fail failure := by
  funext outcome
  refine propext ⟨fun given => ?_, fun failed => Or.inl ⟨failure, rfl, failed⟩⟩
  rcases given with ⟨other, same, rfl⟩ | ⟨value, impossible, _⟩
  · cases same
    rfl
  · cases impossible

theorem liftM_ok (value : α) : (liftM (Except.ok value : Except Failure α) : Outcomes α) = pure value := rfl

theorem liftM_error (failure : Failure) :
    (liftM (Except.error failure : Except Failure α) : Outcomes α) = fail failure := rfl

end Outcomes

namespace Process

variable {α β σ : Type}

def outcomes (process : Process α) : Outcomes α := fun outcome => ∃ events, process.Ends outcome events

theorem outcomes_ofResult (result : Except Failure α) :
    (liftM result : Process α).outcomes = liftM result := by
  funext outcome
  refine propext ⟨?_, fun same => ⟨[], (ends_ofResult result outcome []).mpr ⟨same, rfl⟩⟩⟩
  intro given
  obtain ⟨events, ended⟩ := given
  exact ((ends_ofResult result outcome events).mp ended).1

theorem outcomes_pure (value : α) : (pure value : Process α).outcomes = pure value :=
  outcomes_ofResult (.ok value)

theorem outcomes_fail (failure : Failure) : (fail failure : Process α).outcomes = Outcomes.fail failure :=
  outcomes_ofResult (.error failure)

theorem outcomes_bind (first : Process α) (next : α → Process β) :
    (first >>= next).outcomes = first.outcomes >>= fun value => (next value).outcomes := by
  funext outcome
  refine propext ⟨?_, ?_⟩
  · intro given
    obtain ⟨events, ended⟩ := given
    rcases (ends_bind first next outcome events).mp ended with ⟨failure, failed, same⟩ |
      ⟨value, early, late, reached, rest, _⟩
    · exact Or.inl ⟨failure, ⟨events, failed⟩, same⟩
    · exact Or.inr ⟨value, ⟨early, reached⟩, late, rest⟩
  · intro given
    rcases given with ⟨failure, ⟨events, failed⟩, same⟩ | ⟨value, ⟨early, reached⟩, late, rest⟩
    · exact ⟨events, (ends_bind _ _ _ _).mpr (Or.inl ⟨failure, failed, same⟩)⟩
    · exact ⟨early ++ late, (ends_bind _ _ _ _).mpr (Or.inr ⟨value, early, late, reached, rest, rfl⟩)⟩

@[simp] theorem outcomes_note_bind (told : List Event) (next : Unit → Process α) :
    (note told >>= next).outcomes = (next ()).outcomes := by
  funext outcome
  refine propext ⟨?_, fun ⟨late, rest⟩ => ⟨told ++ late, (ends_note_bind _ _ _ _).mpr ⟨late, rest, rfl⟩⟩⟩
  intro given
  obtain ⟨events, ended⟩ := given
  obtain ⟨late, rest, _⟩ := (ends_note_bind _ _ _ _).mp ended
  exact ⟨late, rest⟩

theorem outcomes_mapM (work : σ → Process α) (items : List σ) :
    (items.mapM work).outcomes = items.mapM fun item => (work item).outcomes := by
  induction items with
  | nil => exact outcomes_pure []
  | cons item rest ih => simp only [List.mapM_cons, outcomes_bind, outcomes_pure, ih]

theorem outcomes_foldlM (work : α → σ → Process α) (items : List σ) (start : α) :
    (items.foldlM work start).outcomes =
      items.foldlM (fun value item => (work value item).outcomes) start := by
  induction items generalizing start with
  | nil => exact outcomes_pure start
  | cons item rest ih => simp only [List.foldlM_cons, outcomes_bind, ih]

theorem outcomes_congr {first second : Process α} (alike : first ≈ second) :
    first.outcomes = second.outcomes :=
  funext fun outcome => propext (exists_congr fun events => ends_congr alike outcome events)

theorem outcomes_iterate (step : σ → Process (σ ⊕ α)) (state : σ) :
    (iterate step state).outcomes =
      (step state).outcomes >>= Sum.elim (fun next => (iterate step next).outcomes) pure := by
  rw [outcomes_congr (iterate_alike step state), outcomes_bind]
  refine congrArg (_ >>= ·) (funext ?_)
  intro result
  rcases result with next | value
  · rfl
  · exact outcomes_pure value

end Process

end Skeletons
