import Mathlib.Order.Monotone.Basic
import Mathlib.Order.Nat
import Skeletons.Proofs.Account

namespace Skeletons

/-- A computation that need not end, as the account of it that is obtained within an effort. -/
structure Process (α : Type) where
  within : Nat → Account α
  grows : Monotone within

namespace Process

variable {α β γ σ : Type}

theorem ext {first second : Process α} (same : ∀ effort, first.within effort = second.within effort) :
    first = second := by
  obtain ⟨accounts, grows⟩ := first
  obtain ⟨others, _⟩ := second
  have equal : accounts = others := funext same
  subst equal
  rfl

def ofResult (result : Except Failure α) : Process α := ⟨fun _ => .ofResult result, fun _ _ _ => le_rfl⟩

def note (events : List Event) : Process Unit := ⟨fun _ => .note events, fun _ _ _ => le_rfl⟩

def fail (failure : Failure) : Process α := ofResult (.error failure)

instance : Monad Process where
  pure value := ofResult (.ok value)
  bind first next := {
    within := fun effort => first.within effort >>= fun value => (next value).within effort
    grows := fun _ _ less =>
      Account.bind_le_bind (first.grows less) fun value => (next value).grows less }

instance : MonadLift (Except Failure) Process := ⟨ofResult⟩

@[simp] theorem within_pure (value : α) (effort : Nat) :
    (pure value : Process α).within effort = pure value := rfl

@[simp] theorem within_bind (first : Process α) (next : α → Process β) (effort : Nat) :
    (first >>= next).within effort =
      first.within effort >>= fun value => (next value).within effort := rfl

protected theorem id_map (process : Process α) : id <$> process = process :=
  ext fun effort => Account.id_map (process.within effort)

protected theorem bind_assoc (first : Process α) (next : α → Process β) (further : β → Process γ) :
    first >>= next >>= further = first >>= fun value => next value >>= further :=
  ext fun effort => Account.bind_assoc (first.within effort) _ _

instance : LawfulMonad Process :=
  LawfulMonad.mk' Process Process.id_map (fun _ _ => ext fun _ => rfl) Process.bind_assoc

instance : LawfulMonadLift (Except Failure) Process where
  monadLift_pure _ := rfl
  monadLift_bind result next := by
    cases result with
    | error failure => rfl
    | ok value => exact ext fun _ => rfl

@[simp] theorem note_nil_bind (next : Unit → Process α) : note [] >>= next = next () :=
  ext fun _ => rfl

@[simp] theorem fail_bind (failure : Failure) (next : α → Process β) :
    (fail failure : Process α) >>= next = fail failure :=
  ext fun _ => rfl

theorem liftM_error (failure : Failure) :
    (liftM (Except.error failure : Except Failure α) : Process α) = fail failure := rfl

theorem within_mapM (work : σ → Process α) (items : List σ) (effort : Nat) :
    (items.mapM work).within effort = items.mapM fun item => (work item).within effort := by
  induction items with
  | nil => rfl
  | cons item rest ih => simp only [List.mapM_cons, within_bind, ih, within_pure]

def Tells (process : Process α) (account : Account α) : Prop :=
  ∃ effort, account ≤ process.within effort

theorem tells_within (process : Process α) (effort : Nat) : process.Tells (process.within effort) :=
  ⟨effort, le_rfl⟩

theorem Tells.earlier {process : Process α} {first second : Account α}
    (told : process.Tells second) (grown : first ≤ second) : process.Tells first := by
  obtain ⟨effort, known⟩ := told
  exact ⟨effort, grown.trans known⟩

theorem tells_bind {process : Process α} {next : α → Process β} {account : Account α}
    {further : α → Account β} (first : process.Tells account)
    (rest : ∀ value, (next value).Tells (further value)) :
    (process >>= next).Tells (account >>= further) := by
  obtain ⟨effort, known⟩ := first
  obtain ⟨outcome, events⟩ := account
  match outcome with
  | some (.ok value) =>
    -- Both parts have to be told at one moment: the later of the two.
    obtain ⟨more, told⟩ := rest value
    have final := Account.eq_of_le (known.trans (process.grows (Nat.le_max_left effort more))) rfl
    refine ⟨max effort more, ?_⟩
    rw [within_bind, final, Account.bind_value, Account.bind_value]
    exact Account.after_le_after events (told.trans ((next value).grows (Nat.le_max_right effort more)))
  | some (.error failure) =>
    have final := Account.eq_of_le known rfl
    refine ⟨effort, ?_⟩
    rw [within_bind, final]
    exact le_rfl
  | none =>
    exact ⟨effort, Or.inr ⟨rfl,
      (Account.events_prefix known).trans (Account.prefix_bind (process.within effort) _)⟩⟩

instance : Preorder (Process α) where
  le first second := ∀ effort, second.Tells (first.within effort)
  le_refl process := process.tells_within
  le_trans first second third lower upper effort := by
    obtain ⟨more, known⟩ := lower effort
    exact (upper more).earlier known

theorem Tells.le {first second : Process α} {account : Account α} (told : first.Tells account)
    (below : first ≤ second) : second.Tells account := by
  obtain ⟨effort, known⟩ := told
  exact (below effort).earlier known

theorem le_of_within_le {first second : Process α}
    (below : ∀ effort, first.within effort ≤ second.within effort) : first ≤ second :=
  fun effort => ⟨effort, below effort⟩

theorem bind_le_bind {first second : Process α} {next further : α → Process β} (below : first ≤ second)
    (rest : ∀ value, next value ≤ further value) : first >>= next ≤ second >>= further :=
  fun effort => tells_bind (below effort) fun value => rest value effort

instance : Setoid (Process α) where
  r first second := first ≤ second ∧ second ≤ first
  iseqv := {
    refl := fun _ => ⟨le_rfl, le_rfl⟩
    symm := fun alike => ⟨alike.2, alike.1⟩
    trans := fun first second => ⟨first.1.trans second.1, second.2.trans first.2⟩ }

theorem alike_of_eq {first second : Process α} (same : first = second) : first ≈ second :=
  same ▸ Setoid.refl first

protected theorem bind_congr {first second : Process α} {next further : α → Process β} (alike : first ≈ second)
    (rest : ∀ value, next value ≈ further value) : first >>= next ≈ second >>= further :=
  ⟨bind_le_bind alike.1 fun value => (rest value).1, bind_le_bind alike.2 fun value => (rest value).2⟩

theorem mapM_congr {work other : σ → Process α} (items : List σ)
    (alike : ∀ item ∈ items, work item ≈ other item) : items.mapM work ≈ items.mapM other := by
  induction items with
  | nil => exact Setoid.refl _
  | cons item rest ih =>
    simp only [List.mapM_cons]
    refine Process.bind_congr (alike item (by simp)) fun value => ?_
    exact Process.bind_congr (ih fun one member => alike one (by simp [member])) fun _ => Setoid.refl _

/-- The same process, which needs one more unit of effort for everything. -/
def later (process : Process α) : Process α where
  within
    | 0 => .unfinished
    | effort + 1 => process.within effort
  grows := by
    intro first second less
    cases first with
    | zero => exact Account.unfinished_le _
    | succ first =>
      cases second with
      | zero => exact absurd less (Nat.not_succ_le_zero first)
      | succ second => exact process.grows (Nat.le_of_succ_le_succ less)

theorem later_alike (process : Process α) : process.later ≈ process := by
  constructor
  · intro effort
    rcases effort with _ | effort
    · exact ⟨0, Account.unfinished_le _⟩
    · exact ⟨effort, le_rfl⟩
  · exact fun effort => ⟨effort + 1, le_rfl⟩

end Process

end Skeletons
