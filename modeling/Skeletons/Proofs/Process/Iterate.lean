import Skeletons.Proofs.Process

namespace Skeletons.Process

variable {α β σ : Type}

/-- One process behaves like another one, and nothing that it tells takes less effort. -/
structure Trails (first second : Process α) : Prop where
  lags : ∀ effort, first.within effort ≤ second.within effort
  above : second ≤ first

namespace Trails

theorem of_eq {first second : Process α} (same : first = second) : first.Trails second :=
  ⟨fun _ => same ▸ le_rfl, le_of_eq same.symm⟩

theorem refl (process : Process α) : process.Trails process := of_eq rfl

theorem trans {first second third : Process α} (lower : first.Trails second)
    (upper : second.Trails third) : first.Trails third :=
  ⟨fun effort => (lower.lags effort).trans (upper.lags effort), upper.above.trans lower.above⟩

theorem alike {first second : Process α} (trails : first.Trails second) : first ≈ second :=
  ⟨le_of_within_le trails.lags, trails.above⟩

theorem bind {first second : Process α} {next further : α → Process β} (trails : first.Trails second)
    (rest : ∀ value, (next value).Trails (further value)) :
    (first >>= next).Trails (second >>= further) where
  lags effort := Account.bind_le_bind (trails.lags effort) fun value => (rest value).lags effort
  above := bind_le_bind trails.above fun value => (rest value).above

theorem later {first second : Process α} (trails : first.Trails second) :
    first.later.Trails second.later where
  lags
    | 0 => le_rfl
    | effort + 1 => trails.lags effort
  above := ((later_alike second).1.trans trails.above).trans (later_alike first).2

end Trails

theorem later_trails (process : Process α) : process.later.Trails process where
  lags
    | 0 => Account.unfinished_le _
    | effort + 1 => process.grows (Nat.le_succ effort)
  above := (later_alike process).2

def unroll (step : σ → Process (σ ⊕ α)) : Nat → σ → Account α
  | 0, _ => .unfinished
  | effort + 1, state => (step state).within effort >>= Sum.elim (unroll step effort) pure

theorem unroll_grows (step : σ → Process (σ ⊕ α)) (state : σ) :
    Monotone fun effort => unroll step effort state := by
  have grown : ∀ effort state, unroll step effort state ≤ unroll step (effort + 1) state := by
    intro effort
    induction effort with
    | zero => exact fun state => Account.unfinished_le _
    | succ effort ih =>
      intro state
      refine Account.bind_le_bind ((step state).grows (Nat.le_succ effort)) ?_
      intro result
      rcases result with next | value
      · exact ih next
      · exact le_rfl
  exact monotone_nat_of_le_succ fun effort => grown effort state

/-- Repeats a step from one state to the next until it answers with a value. An effort pays for as many rounds. -/
def iterate (step : σ → Process (σ ⊕ α)) (state : σ) : Process α :=
  ⟨fun effort => unroll step effort state, unroll_grows step state⟩

theorem iterate_eq (step : σ → Process (σ ⊕ α)) (state : σ) :
    iterate step state = (step state >>= Sum.elim (iterate step) pure).later := by
  refine ext ?_
  intro effort
  rcases effort with _ | effort
  · rfl
  · refine congrArg ((step state).within effort >>= ·) (funext ?_)
    intro result
    rcases result with next | value
    · rfl
    · rfl

theorem iterate_alike (step : σ → Process (σ ⊕ α)) (state : σ) :
    iterate step state ≈ step state >>= Sum.elim (iterate step) pure := by
  rw [iterate_eq]
  exact later_alike _

theorem iterate_le {step : σ → Process (σ ⊕ α)} {process : σ → Process α}
    (closed : ∀ state, step state >>= Sum.elim process pure ≤ process state) (state : σ) :
    iterate step state ≤ process state := by
  intro effort
  induction effort generalizing state with
  | zero => exact ⟨0, Account.unfinished_le _⟩
  | succ effort ih =>
    refine Tells.le ?_ (closed state)
    refine tells_bind ((step state).tells_within effort) ?_
    intro result
    rcases result with next | value
    · exact ih next
    · exact ⟨0, le_rfl⟩

/-- The repetition is the only process that trails one step followed by itself. -/
theorem alike_iterate {step : σ → Process (σ ⊕ α)} {process : σ → Process α}
    (rounds : ∀ state, (process state).Trails (step state >>= Sum.elim process pure).later) (state : σ) :
    process state ≈ iterate step state := by
  refine ⟨fun effort => ?_, iterate_le (fun state => ?_) state⟩
  · induction effort generalizing state with
    | zero => exact ⟨0, (rounds state).lags 0⟩
    | succ effort ih =>
      refine Tells.earlier ?_ ((rounds state).lags (effort + 1))
      refine Tells.le ?_ (iterate_alike step state).2
      refine tells_bind ((step state).tells_within effort) ?_
      intro result
      rcases result with next | value
      · exact ih next
      · exact ⟨0, le_rfl⟩
  · exact (later_alike _).2.trans (rounds state).above

theorem iterate_le_iterate {step other : σ → Process (σ ⊕ α)} (below : ∀ state, step state ≤ other state)
    (state : σ) : iterate step state ≤ iterate other state := by
  refine iterate_le (fun state => ?_) state
  refine (bind_le_bind (below state) fun _ => le_rfl).trans ?_
  exact (iterate_alike other state).2

theorem iterate_congr {step other : σ → Process (σ ⊕ α)} (alike : ∀ state, step state ≈ other state)
    (state : σ) : iterate step state ≈ iterate other state :=
  ⟨iterate_le_iterate (fun state => (alike state).1) state,
    iterate_le_iterate (fun state => (alike state).2) state⟩

end Skeletons.Process
