import Skeletons.Proofs.Process.Ending
import Skeletons.Proofs.Process.Iterate
import Skeletons.Proofs.Stack.Raised

namespace Skeletons

variable {α β σ : Type} {holds : Event → Prop}

def Process.Reports (holds : Event → Prop) (process : Process α) : Prop :=
  ∀ effort, (process.within effort).Tells holds

namespace Process.Reports

variable {process : Process α} {next : α → Process β}

theorem weaken {other : Event → Prop} (given : process.Reports holds)
    (wider : ∀ event, holds event → other event) : process.Reports other :=
  fun effort event member => wider event (given effort event member)

theorem ends {outcome : Except Failure α} {events : List Event} (given : process.Reports holds)
    (ended : process.Ends outcome events) : ∀ event ∈ events, holds event := by
  obtain ⟨effort, known⟩ := ended
  have told := given effort
  rwa [known] at told

theorem ofResult (result : Except Failure α) : (liftM result : Process α).Reports holds := fun _ => .silent rfl

theorem pure (value : α) : (Pure.pure value : Process α).Reports holds := ofResult (.ok value)

theorem fail (failure : Failure) : (Process.fail failure : Process α).Reports holds := ofResult (.error failure)

theorem bind (early : process.Reports holds) (late : ∀ value, (next value).Reports holds) :
    (process >>= next).Reports holds :=
  fun effort => (early effort).bind fun value _ => late value effort

theorem note_bind {event : Event} {next : Unit → Process α} (here : holds event) (rest : (next ()).Reports holds) :
    (note [event] >>= next).Reports holds := by
  have noted : (note [event]).Reports holds := by
    intro effort told member
    cases List.mem_singleton.mp member
    exact here
  exact noted.bind fun _ => rest

theorem mapM {work : σ → Process α} {items : List σ} (each : ∀ item ∈ items, (work item).Reports holds) :
    (items.mapM work).Reports holds := by
  intro effort
  rw [within_mapM]
  exact .mapM fun item member => each item member effort

theorem foldlM {work : α → σ → Process α} (each : ∀ value item, (work value item).Reports holds)
    (items : List σ) (start : α) : (items.foldlM work start).Reports holds := by
  induction items generalizing start with
  | nil => exact pure start
  | cons item rest ih =>
    rw [List.foldlM_cons]
    exact (each start item).bind fun value => ih value

theorem iterate {step : σ → Process (σ ⊕ α)} (each : ∀ state, (step state).Reports holds) (state : σ) :
    (Process.iterate step state).Reports holds := by
  intro effort
  induction effort generalizing state with
  | zero => exact .silent rfl
  | succ effort ih =>
    apply (each state effort).bind
    intro result _
    cases result with
    | inl next => exact ih next
    | inr value => exact .silent rfl

end Process.Reports

end Skeletons
