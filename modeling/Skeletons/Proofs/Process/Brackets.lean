import Skeletons.Proofs.Event.Brackets
import Skeletons.Proofs.Process.Iterate

namespace Skeletons

open Event

variable {α β σ : Type}

/-- The log of an account that tells a value is bracketed, and that of any other one can be completed. -/
structure Account.Bracketed (account : Account α) : Prop where
  complete {value : α} : account.outcome = some (.ok value) → Event.Bracketed account.events
  started : ∃ rest, Event.Bracketed (account.events ++ rest)

namespace Account.Bracketed

theorem of_silent {account : Account α} (silent : account.events = []) : account.Bracketed where
  complete _ := silent ▸ .nil
  started := ⟨[], by simpa [silent] using Event.Bracketed.nil⟩

theorem of_events {account : Account α} (given : Event.Bracketed account.events) : account.Bracketed where
  complete _ := given
  started := ⟨[], by simpa using given⟩

theorem bind {account : Account α} {next : α → Account β} (early : account.Bracketed)
    (late : ∀ value, (next value).Bracketed) : (account >>= next).Bracketed := by
  obtain ⟨outcome, events⟩ := account
  match outcome with
  | none => exact ⟨fun ended => (nomatch ended), early.started⟩
  | some (.error failure) => exact ⟨fun ended => (nomatch ended), early.started⟩
  | some (.ok value) =>
    have before : Event.Bracketed events := early.complete rfl
    refine ⟨fun ended => before.append ((late value).complete ended), ?_⟩
    obtain ⟨rest, whole⟩ := (late value).started
    refine ⟨rest, ?_⟩
    rw [Account.bind_value, Account.after, List.append_assoc]
    exact before.append whole

theorem earlier {first second : Account α} (given : second.Bracketed) (grown : first ≤ second) :
    first.Bracketed := by
  rcases grown with rfl | ⟨opened, start⟩
  · exact given
  · refine ⟨fun ended => ?_, ?_⟩
    · rw [opened] at ended
      cases ended
    · obtain ⟨further, whole⟩ := start
      obtain ⟨rest, complete⟩ := given.started
      rw [← whole, List.append_assoc] at complete
      exact ⟨further ++ rest, complete⟩

theorem enclosed {account : Account α} {opening closing : Event} (given : account.Bracketed)
    (pair : ∀ inside, Pair opening inside closing) :
    ((account >>= fun value => ⟨some (.ok value), [closing]⟩).after [opening]).Bracketed := by
  obtain ⟨outcome, events⟩ := account
  match outcome with
  | some (.ok value) => exact of_events ((given.complete rfl).enclosed (pair events))
  | none | some (.error failure) =>
    refine ⟨fun ended => (nomatch ended), ?_⟩
    obtain ⟨rest, whole⟩ := given.started
    refine ⟨rest ++ [closing], ?_⟩
    have complete := whole.enclosed (pair _)
    rwa [List.append_assoc] at complete

end Account.Bracketed

def Process.Bracketed (process : Process α) : Prop := ∀ effort, (process.within effort).Bracketed

namespace Process.Bracketed

variable {process : Process α} {next : α → Process β}

theorem ofResult (result : Except Failure α) : (liftM result : Process α).Bracketed :=
  fun _ => .of_silent rfl

theorem pure (value : α) : (Pure.pure value : Process α).Bracketed := ofResult (.ok value)

theorem fail (failure : Failure) : (Process.fail failure : Process α).Bracketed := ofResult (.error failure)

theorem bind (early : process.Bracketed) (late : ∀ value, (next value).Bracketed) :
    (process >>= next).Bracketed :=
  fun effort => (early effort).bind fun value => late value effort

theorem enclosed {opening closing : Event} (given : process.Bracketed)
    (pair : ∀ inside, Pair opening inside closing) :
    (do
      note [opening]
      let value ← process
      note [closing]
      return value).Bracketed :=
  fun effort => (given effort).enclosed pair

theorem adjoined {result : Except Failure α} {opening : Event} {closing : α → Event}
    (pair : ∀ value, Pair opening [] (closing value)) (closed : ∃ last, Pair opening [] last) :
    (do
      note [opening]
      let value ← (liftM result : Process α)
      note [closing value]
      return value).Bracketed := by
  intro effort
  cases result with
  | ok value => exact .of_events (Event.Bracketed.nil.enclosed (pair value))
  | error failure =>
    obtain ⟨last, pair⟩ := closed
    exact ⟨fun ended => (nomatch ended), [last], Event.Bracketed.nil.enclosed pair⟩

theorem mapM {work : σ → Process α} (each : ∀ item, (work item).Bracketed) (items : List σ) :
    (items.mapM work).Bracketed := by
  induction items with
  | nil => exact pure []
  | cons item rest ih =>
    rw [List.mapM_cons]
    exact (each item).bind fun value => ih.bind fun values => pure (value :: values)

theorem foldlM {work : α → σ → Process α} (each : ∀ value item, (work value item).Bracketed)
    (items : List σ) (start : α) : (items.foldlM work start).Bracketed := by
  induction items generalizing start with
  | nil => exact pure start
  | cons item rest ih =>
    rw [List.foldlM_cons]
    exact (each start item).bind fun value => ih value

theorem iterate {step : σ → Process (σ ⊕ α)} (each : ∀ state, (step state).Bracketed) (state : σ) :
    (Process.iterate step state).Bracketed := by
  intro effort
  induction effort generalizing state with
  | zero => exact .of_silent rfl
  | succ effort ih =>
    refine (each state effort).bind fun result => ?_
    rcases result with next | value
    · exact ih next
    · exact .of_silent rfl

theorem of_le {first second : Process α} (given : second.Bracketed) (below : first ≤ second) :
    first.Bracketed := by
  intro effort
  obtain ⟨more, known⟩ := below effort
  exact (given more).earlier known

end Process.Bracketed

end Skeletons
