import Skeletons.Proofs.Process.Ending
import Skeletons.Proofs.Process.Iterate
import Skeletons.Run

namespace Skeletons

namespace Account

variable {α β σ : Type}

theorem mapM_le_mapM {work other : σ → Account α} (items : List σ) (below : ∀ item, work item ≤ other item) :
    items.mapM work ≤ items.mapM other := by
  induction items with
  | nil => exact le_rfl
  | cons item rest ih =>
    simp only [List.mapM_cons]
    exact bind_le_bind (below item) fun value => bind_le_bind ih fun values => le_rfl

def logged (account : Account α) (log : List Event) : Option (Logged α) :=
  account.outcome.map fun outcome => ⟨outcome, account.events.reverse ++ log⟩

theorem logged_after (account : Account α) (events log : List Event) :
    (account.after events).logged log = account.logged (events.reverse ++ log) := by
  simp only [logged, after, List.reverse_append, List.append_assoc]

theorem logged_bind (account : Account α) (next : α → Account β) (log : List Event) :
    (account >>= next).logged log =
      match account.logged log with
      | none => none
      | some ⟨.error failure, log⟩ => some ⟨.error failure, log⟩
      | some ⟨.ok value, log⟩ => (next value).logged log := by
  obtain ⟨outcome, events⟩ := account
  match outcome with
  | none => rfl
  | some (.error failure) => rfl
  | some (.ok value) => exact logged_after (next value) events log

end Account

theorem gather_eq_logged {run : Child → List Event → Option (Logged Value)}
    {work : Child → Account Value} (same : ∀ child log, run child log = (work child).logged log)
    (children : List Child) (log : List Event) :
    gather run children log = (children.mapM work).logged log := by
  induction children generalizing log with
  | nil => rfl
  | cons child rest ih =>
    rw [gather, same, List.mapM_cons, Account.logged_bind]
    match (work child).logged log with
    | none => rfl
    | some ⟨.error failure, told⟩ => rfl
    | some ⟨.ok value, told⟩ =>
      simp only [ih, Account.logged_bind]
      match (rest.mapM work).logged told with
      | none => rfl
      | some ⟨.error failure, told⟩ => rfl
      | some ⟨.ok values, told⟩ => rfl

namespace Stack

/-- What is known of the run of a stack within a budget. -/
def watch (limit : Nat) : Nat → Stack → Value → Account Value
  | 0, _, _ => .unfinished
  | _ + 1, [], value => pure value
  | budget + 1, instruction :: rest, value => do
    let effect ← instruction.effect limit value
    Account.note effect.events
    let received ← (match effect.children with
      | [] => pure effect.value
      | children =>
        Value.list <$> children.mapM fun child => watch limit budget child.stack child.input)
    watch limit budget (effect.pushed ++ rest) received

theorem watch_le_succ (limit budget : Nat) (stack : Stack) (value : Value) :
    watch limit budget stack value ≤ watch limit (budget + 1) stack value := by
  induction budget generalizing stack value with
  | zero => exact Account.unfinished_le _
  | succ budget ih =>
    match stack with
    | [] => exact le_rfl
    | instruction :: rest =>
      refine Account.bind_le_bind le_rfl fun effect => ?_
      refine Account.bind_le_bind le_rfl fun _ => ?_
      refine Account.bind_le_bind ?_ fun received => ih _ received
      match effect.children with
      | [] => exact le_rfl
      | child :: children =>
        refine Account.bind_le_bind ?_ fun _ => le_rfl
        exact Account.mapM_le_mapM _ fun child => ih child.stack child.input

def behaviour (limit : Nat) (stack : Stack) (value : Value) : Process Value where
  within budget := watch limit budget stack value
  grows := monotone_nat_of_le_succ fun budget => watch_le_succ limit budget stack value

end Stack

/-- What an instruction leaves for the next one: its value, or the results of the children that it
    handed out. -/
def Effect.received (limit : Nat) (effect : Effect) : Process Value :=
  match effect.children with
  | [] => pure effect.value
  | children => Value.list <$> children.mapM fun child => child.stack.behaviour limit child.input

def Instruction.perform (limit : Nat) (instruction : Instruction) (value : Value) :
    Process (Stack × Value) := do
  let effect ← instruction.effect limit value
  Process.note effect.events
  let received ← effect.received limit
  return (effect.pushed, received)

namespace Stack

theorem behaviour_nil (limit : Nat) (value : Value) :
    behaviour limit [] value = (pure value : Process Value).later := by
  refine Process.ext ?_
  intro budget
  rcases budget with _ | budget
  · rfl
  · rfl

theorem behaviour_cons (limit : Nat) (instruction : Instruction) (rest : Stack) (value : Value) :
    behaviour limit (instruction :: rest) value =
      (instruction.perform limit value >>= fun next =>
        behaviour limit (next.1 ++ rest) next.2).later := by
  simp only [Instruction.perform, bind_assoc, pure_bind]
  refine Process.ext ?_
  intro budget
  rcases budget with _ | budget
  · rfl
  · refine congrArg (Account.ofResult (instruction.effect limit value) >>= ·) (funext fun effect => ?_)
    refine congrArg (Account.note effect.events >>= ·) (funext fun _ => ?_)
    refine congrArg (fun received : Account Value => received >>= _) ?_
    simp only [Effect.received]
    cases effect.children with
    | nil => rfl
    | cons child children =>
      exact congrArg (Value.list <$> ·)
        (Process.within_mapM (fun one : Child => behaviour limit one.stack one.input) _ budget).symm

theorem runFrom_eq_logged (limit budget : Nat) (stack : Stack) (value : Value) (log : List Event) :
    runFrom limit budget stack value log = (watch limit budget stack value).logged log := by
  induction budget generalizing stack value log with
  | zero => rfl
  | succ budget ih =>
    match stack with
    | [] => rfl
    | instruction :: rest =>
      simp only [runFrom, watch]
      cases instruction.effect limit value with
      | error failure => rfl
      | ok effect =>
        change _ = Account.logged (Account.after [] (Account.after effect.events _)) log
        rw [Account.logged_after, Account.logged_after]
        simp only [List.reverse_nil, List.nil_append]
        cases effect.children with
        | nil => exact ih _ _ _
        | cons child children =>
          simp only [bind_map_left, Account.logged_bind, ← ih]
          rw [gather_eq_logged fun child log => ih child.stack child.input log]
          match ((child :: children).mapM fun one : Child =>
              watch limit budget one.stack one.input).logged (effect.events.reverse ++ log) with
          | none => rfl
          | some ⟨.error failure, told⟩ => rfl
          | some ⟨.ok results, told⟩ => rfl

/-- A run has ended exactly when its process has, with the same outcome and the same events. -/
theorem run_eq_some_iff (stack : Stack) (limit budget : Nat) (input : Value) (outcome : Except Failure Value)
    (events : List Event) :
    stack.run limit budget input = some ⟨outcome, events⟩ ↔
      (stack.behaviour limit input).within budget = ⟨some outcome, events⟩ := by
  change (runFrom limit budget stack input []).map _ = _ ↔ watch limit budget stack input = _
  rw [runFrom_eq_logged]
  obtain ⟨ending, told⟩ := watch limit budget stack input
  cases ending with
  | none => simp [Account.logged]
  | some result => simp [Account.logged]

theorem run_ends_iff (stack : Stack) (limit : Nat) (input : Value) (outcome : Except Failure Value)
    (events : List Event) :
    (∃ budget, stack.run limit budget input = some ⟨outcome, events⟩) ↔
      (stack.behaviour limit input).Ends outcome events :=
  exists_congr fun budget => run_eq_some_iff stack limit budget input outcome events

end Stack

end Skeletons
