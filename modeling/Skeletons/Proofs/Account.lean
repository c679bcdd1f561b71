import Mathlib.Order.Basic
import Skeletons.Event
import Skeletons.Failure

namespace Skeletons

/-- How a computation ended, unless it is still going on, and the events it reported so far. -/
structure Account (α : Type) where
  outcome : Option (Except Failure α)
  events : List Event

namespace Account

variable {α β γ : Type}

def unfinished : Account α := ⟨none, []⟩

def ofResult (result : Except Failure α) : Account α := ⟨some result, []⟩

def note (events : List Event) : Account Unit := ⟨some (.ok ()), events⟩

def after (events : List Event) (account : Account α) : Account α :=
  { account with events := events ++ account.events }

def bind (account : Account α) (next : α → Account β) : Account β :=
  match account.outcome with
  | some (.ok value) => (next value).after account.events
  | some (.error failure) => ⟨some (.error failure), account.events⟩
  | none => ⟨none, account.events⟩

instance : Monad Account where
  pure value := ofResult (.ok value)
  bind := bind

instance : MonadLift (Except Failure) Account := ⟨ofResult⟩

theorem after_after (first second : List Event) (account : Account α) :
    (account.after second).after first = account.after (first ++ second) := by
  simp only [after, List.append_assoc]

@[simp] theorem bind_value (value : α) (events : List Event) (next : α → Account β) :
    (⟨some (.ok value), events⟩ : Account α) >>= next = (next value).after events := rfl

@[simp] theorem bind_failure (failure : Failure) (events : List Event) (next : α → Account β) :
    (⟨some (.error failure), events⟩ : Account α) >>= next = ⟨some (.error failure), events⟩ := rfl

@[simp] theorem bind_unfinished (events : List Event) (next : α → Account β) :
    (⟨none, events⟩ : Account α) >>= next = ⟨none, events⟩ := rfl

theorem after_bind (events : List Event) (account : Account α) (next : α → Account β) :
    account.after events >>= next = (account >>= next).after events := by
  obtain ⟨outcome, told⟩ := account
  cases outcome with
  | none => rfl
  | some result =>
    cases result with
    | error failure => rfl
    | ok value => exact (after_after events told (next value)).symm

protected theorem id_map (account : Account α) : id <$> account = account := by
  obtain ⟨outcome, events⟩ := account
  cases outcome with
  | none => rfl
  | some result =>
    cases result with
    | error failure => rfl
    | ok value =>
      change Account.after events ⟨some (.ok value), []⟩ = _
      simp only [after, List.append_nil]

protected theorem bind_assoc (account : Account α) (next : α → Account β) (further : β → Account γ) :
    account >>= next >>= further = account >>= fun value => next value >>= further := by
  obtain ⟨outcome, events⟩ := account
  cases outcome with
  | none => rfl
  | some result =>
    cases result with
    | error failure => rfl
    | ok value => exact after_bind events (next value) further

instance : LawfulMonad Account := LawfulMonad.mk' Account Account.id_map (fun _ _ => rfl) Account.bind_assoc

end Account

namespace Account

variable {α β : Type}

/-- An account that is still open is extended by every account that starts with the same events. -/
instance : PartialOrder (Account α) where
  le earlier later :=
    earlier = later ∨ earlier.outcome = none ∧ earlier.events <+: later.events
  le_refl account := Or.inl rfl
  le_trans first second third := by
    intro earlier later
    rcases earlier with rfl | ⟨opened, start⟩
    · exact later
    · rcases later with rfl | ⟨_, further⟩
      · exact Or.inr ⟨opened, start⟩
      · exact Or.inr ⟨opened, start.trans further⟩
  le_antisymm first second := by
    intro forth back
    rcases forth with rfl | ⟨opened, start⟩
    · rfl
    · rcases back with rfl | ⟨closed, finish⟩
      · rfl
      · obtain ⟨outcome, events⟩ := first
        obtain ⟨other, told⟩ := second
        have same : events = told := start.eq_of_length (Nat.le_antisymm start.length_le finish.length_le)
        cases opened
        cases closed
        rw [same]

theorem unfinished_le (account : Account α) : unfinished ≤ account :=
  Or.inr ⟨rfl, List.nil_prefix⟩

theorem eq_of_le {earlier later : Account α} {result : Except Failure α}
    (grown : earlier ≤ later) (ended : earlier.outcome = some result) : later = earlier := by
  rcases grown with rfl | ⟨opened, _⟩
  · rfl
  · rw [opened] at ended
    cases ended

theorem events_prefix {earlier later : Account α} (grown : earlier ≤ later) :
    earlier.events <+: later.events := by
  rcases grown with rfl | ⟨_, start⟩
  · exact List.prefix_rfl
  · exact start

theorem after_le_after (events : List Event) {earlier later : Account α} (grown : earlier ≤ later) :
    earlier.after events ≤ later.after events := by
  rcases grown with rfl | ⟨opened, start⟩
  · exact le_rfl
  · exact Or.inr ⟨opened, (List.prefix_append_right_inj events).mpr start⟩

theorem prefix_bind (account : Account α) (next : α → Account β) :
    account.events <+: (account >>= next).events := by
  obtain ⟨outcome, events⟩ := account
  cases outcome with
  | none => exact List.prefix_rfl
  | some result =>
    cases result with
    | error failure => exact List.prefix_rfl
    | ok value => exact List.prefix_append events _

theorem bind_le_bind {earlier later : Account α} {next further : α → Account β}
    (first : earlier ≤ later) (rest : ∀ value, next value ≤ further value) :
    earlier >>= next ≤ later >>= further := by
  rcases first with rfl | ⟨opened, start⟩
  · obtain ⟨outcome, events⟩ := earlier
    cases outcome with
    | none => exact le_rfl
    | some result =>
      cases result with
      | error failure => exact le_rfl
      | ok value => exact after_le_after events (rest value)
  · obtain ⟨outcome, events⟩ := earlier
    cases opened
    exact Or.inr ⟨rfl, start.trans (prefix_bind later further)⟩

end Account

end Skeletons
