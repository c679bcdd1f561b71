import Skeletons.Proofs.Engine.Work
import Skeletons.Proofs.Run.Behaviour
import Skeletons.Proofs.Task.Lineage

namespace Skeletons

def Account.Tells {α : Type} (holds : Event → Prop) (account : Account α) : Prop :=
  ∀ event ∈ account.events, holds event

namespace Account.Tells

variable {α β σ : Type} {holds : Event → Prop}

theorem silent {account : Account α} (none : account.events = []) : account.Tells holds := by
  intro event member
  rw [none] at member
  cases member

theorem pure (value : α) : (Pure.pure value : Account α).Tells holds := silent rfl

theorem bind {account : Account α} {next : α → Account β} (first : account.Tells holds)
    (second : ∀ value, account.outcome = some (.ok value) → (next value).Tells holds) :
    (account >>= next).Tells holds := by
  obtain ⟨outcome, events⟩ := account
  match outcome with
  | none => exact first
  | some (.error failure) => exact first
  | some (.ok value) =>
    rw [Account.bind_value]
    exact List.forall_mem_append.mpr ⟨first, second value rfl⟩

theorem map {account : Account α} (tells : account.Tells holds) (change : α → β) :
    (change <$> account).Tells holds := by
  rw [← bind_pure_comp]
  exact tells.bind fun value _ => pure _

theorem mapM {work : σ → Account α} {items : List σ} (each : ∀ item ∈ items, (work item).Tells holds) :
    (items.mapM work).Tells holds := by
  induction items with
  | nil => exact pure []
  | cons item rest ih =>
    obtain ⟨first, others⟩ := List.forall_mem_cons.mp each
    rw [List.mapM_cons]
    exact first.bind fun _ _ => (ih others).bind fun _ _ => pure _

end Account.Tells

theorem Instruction.Leads.raises {limit : Nat} {value : Value} {instruction : Instruction} {effect : Effect}
    {event : Event} (leads : instruction.Leads limit value effect) (raised : event ∈ effect.events) :
    instruction = .signal event := by
  cases leads with
  | signal => rw [List.mem_singleton.mp raised]
  | _ => cases raised

/-- Whatever all tasks of a run keep of their stacks, they keep when an event is raised. -/
theorem Stack.Kept.raises {limit : Nat} {inv : Nat → Stack → Prop} (kept : Stack.Kept limit inv) (budget : Nat)
    {above : Nat} {stack : Stack} (given : inv above stack) (value : Value) :
    (watch limit budget stack value).Tells fun event => ∃ above rest, inv above (.signal event :: rest) := by
  -- Children have less budget than their parent, as has the rest of its own stack.
  induction budget generalizing above stack value with
  | zero => exact .silent rfl
  | succ budget ih =>
    match stack with
    | [] => exact .silent rfl
    | instruction :: rest =>
      rw [watch]
      refine Account.Tells.bind (.silent rfl) fun effect came => ?_
      have leads : instruction.Leads limit value effect := Instruction.leads_of_effect (Option.some.inj came)
      refine Account.Tells.bind (fun event raised => ?_) fun _ _ => ?_
      · rw [leads.raises raised] at given
        exact ⟨above, rest, given⟩
      · refine Account.Tells.bind ?_ fun received _ => ih (kept.onward given leads) received
        have spawned := kept.spawned given leads
        cases children : effect.children with
        | nil => exact .silent rfl
        | cons child siblings =>
          refine (Account.Tells.mapM fun one member => ?_).map _
          exact ih (spawned one (children ▸ member)) one.input

theorem Task.step_raises {limit : Nat} {task : Task} {event : Event} (raised : event ∈ (task.step limit).events) :
    ∃ rest, task.stack = .signal event :: rest := by
  by_cases pending : task.children = []
  · obtain ⟨stack, value, children⟩ := task
    cases pending
    match stack with
    | [] => cases raised
    | instruction :: rest =>
      rw [step_cons] at raised
      cases came : instruction.effect limit value with
      | error failure =>
        rw [came] at raised
        cases raised
      | ok effect =>
        rw [came] at raised
        rw [(Instruction.leads_of_effect came).raises raised]
        exact ⟨rest, rfl⟩
  · rw [step_of_pending pending] at raised
    cases raised

namespace Work

inductive Within (limit : Nat) (start : Task) : Work → Prop where
  | ready {place above : Nat} {task : Task} :
    Task.Lineage limit start above task → Within limit start (.ready place task)
  | waiting {place above : Nat} {task : Task} {pending : List Work} {slots : List (Option Value)} :
    Task.Lineage limit start above task → (∀ work ∈ pending, Within limit start work) →
      Within limit start (.waiting place task pending slots)
  | done {place : Nat} {outcome : Except Failure Value} : Within limit start (.done place outcome)

variable {limit : Nat} {start : Task} {work next : Work} {told : List Event}

theorem Within.step (within : work.Within limit start) (step : Step limit work told next) :
    next.Within limit start ∧
      ∀ event ∈ told, ∃ above task, Task.Lineage limit start above task ∧ event ∈ (task.step limit).events := by
  induction step with
  | more =>
    cases within with
    | ready lineage => exact ⟨.ready lineage.step, fun _ raised => ⟨_, _, lineage, raised⟩⟩
  | ended | failed =>
    cases within with
    | ready lineage => exact ⟨.done, fun _ raised => ⟨_, _, lineage, raised⟩⟩
  | split =>
    cases within with
    | ready lineage =>
      refine ⟨.waiting lineage.step.take fun work member => ?_, fun _ raised => ⟨_, _, lineage, raised⟩⟩
      obtain ⟨child, spawned, rfl⟩ := List.mem_map.mp member
      exact .ready (lineage.step.child spawned)
  | child _ ih =>
    cases within with
    | waiting lineage each =>
      obtain ⟨before, here, after⟩ := List.forall_mem_append.mp each |>.imp_right List.forall_mem_cons.mp
      obtain ⟨kept, raises⟩ := ih here
      exact ⟨.waiting lineage (List.forall_mem_append.mpr ⟨before, List.forall_mem_cons.mpr ⟨kept, after⟩⟩), raises⟩
  | reported =>
    cases within with
    | waiting lineage each =>
      obtain ⟨before, _, after⟩ := List.forall_mem_append.mp each |>.imp_right List.forall_mem_cons.mp
      exact ⟨.waiting lineage (List.forall_mem_append.mpr ⟨before, after⟩), nofun⟩
  | resumed =>
    cases within with
    | waiting lineage _ => exact ⟨.ready (lineage.resume _), nofun⟩
  | misplaced | broken | missing | refused => exact ⟨.done, nofun⟩

theorem Steps.raises (steps : Steps limit (.ready 0 start) told work) :
    work.Within limit start ∧
      ∀ event ∈ told, ∃ above task, Task.Lineage limit start above task ∧ event ∈ (task.step limit).events := by
  induction steps with
  | none => exact ⟨.ready .self, nofun⟩
  | step _ step ih =>
    obtain ⟨kept, raises⟩ := ih.1.step step
    exact ⟨kept, List.forall_mem_append.mpr ⟨ih.2, raises⟩⟩

end Work

end Skeletons
