import Skeletons.Listener.Script
import Skeletons.Proofs.Program.Nesting
import Skeletons.Proofs.Run.Untraced

namespace Skeletons

/-- A computation that changes a state on its way and may fail; `none` when it does not come to an end. -/
abbrev Attended (σ α : Type) := ExceptT Failure (StateT σ Option) α

namespace Attended

variable {σ : Type}

def endless {α : Type} : Attended σ α := ExceptT.mk fun _ => none

def raise (hear : Event → σ → Option σ) (events : List Event) : Attended σ Unit :=
  ExceptT.mk fun state => do
    let heard ← events.foldlM (fun state event => hear event state) state
    return (.ok (), heard)

theorem run_bind {α β : Type} (first : Attended σ α) (next : α → Attended σ β) (state : σ) :
    (first >>= next).run.run state = first.run.run state >>= fun
      | (.ok value, heard) => (next value).run.run heard
      | (.error failure, heard) => some (.error failure, heard) := by
  rw [ExceptT.run_bind, StateT.run_bind]
  refine congrArg (first.run.run state >>= ·) (funext fun (result, heard) => ?_)
  cases result with
  | error failure => rfl
  | ok value => rfl

end Attended

def Stack.attend {σ : Type} (hear : Event → σ → Option σ) (limit : Nat) :
    Nat → Stack → Value → Attended σ Value
  | 0, _, _ => Attended.endless
  | _ + 1, [], value => pure value
  | budget + 1, instruction :: rest, value => do
    let effect ← instruction.effect limit value
    Attended.raise hear effect.events
    let received ← (match effect.children with
      | [] => pure effect.value
      | children =>
        Value.list <$> children.mapM fun child => attend hear limit budget child.stack child.input)
    attend hear limit budget (effect.pushed ++ rest) received

namespace Account

variable {α β σ : Type} (hear : Event → σ → Option σ)

def play (account : Account α) : Attended σ α :=
  ExceptT.mk fun state => do
    let heard ← account.events.foldlM (fun state event => hear event state) state
    let outcome ← account.outcome
    return (outcome, heard)

theorem run_play (account : Account α) (state : σ) :
    (account.play hear).run.run state = (do
      let heard ← account.events.foldlM (fun state event => hear event state) state
      let outcome ← account.outcome
      return (outcome, heard)) := rfl

theorem play_pure (value : α) : (pure value : Account α).play hear = pure value := rfl

theorem play_liftM (result : Except Failure α) : (liftM result : Account α).play hear = liftM result := rfl

theorem play_note (events : List Event) : (note events).play hear = Attended.raise hear events := rfl

theorem play_bind (account : Account α) (next : α → Account β) :
    (account >>= next).play hear = account.play hear >>= fun value => (next value).play hear := by
  obtain ⟨outcome, events⟩ := account
  refine ExceptT.ext (StateT.ext fun state => ?_)
  rw [Attended.run_bind, run_play, run_play]
  match outcome with
  | none =>
    rw [bind_unfinished]
    cases events.foldlM (fun state event => hear event state) state with
    | none => rfl
    | some heard => rfl
  | some (.error failure) =>
    rw [bind_failure]
    cases events.foldlM (fun state event => hear event state) state with
    | none => rfl
    | some heard => rfl
  | some (.ok value) =>
    rw [bind_value, after, List.foldlM_append]
    cases events.foldlM (fun state event => hear event state) state with
    | none => rfl
    | some heard => rfl

theorem play_map (change : α → β) (account : Account α) :
    (change <$> account).play hear = change <$> account.play hear := by
  simp only [← bind_pure_comp, play_bind, play_pure]

theorem play_mapM {τ : Type} (work : τ → Account α) (items : List τ) :
    (items.mapM work).play hear = items.mapM fun item => (work item).play hear := by
  induction items with
  | nil => rfl
  | cons item rest ih => simp only [List.mapM_cons, play_bind, play_pure, ih]

end Account

theorem Stack.attend_eq_play {σ : Type} (hear : Event → σ → Option σ) (limit budget : Nat) (stack : Stack)
    (value : Value) : attend hear limit budget stack value = (watch limit budget stack value).play hear := by
  induction budget generalizing stack value with
  | zero => rfl
  | succ budget ih =>
    match stack with
    | [] => rfl
    | instruction :: rest =>
      simp only [attend, watch, Account.play_bind, Account.play_liftM, Account.play_note, ih]
      refine congrArg (liftM (instruction.effect limit value) >>= ·) (funext fun effect => ?_)
      refine congrArg (Attended.raise hear effect.events >>= ·) (funext fun _ => ?_)
      refine congrArg (fun received : Attended σ Value => received >>= _) ?_
      cases effect.children with
      | nil => rfl
      | cons child siblings => simp only [Account.play_map, Account.play_mapM]

def noting {σ : Type} (hear : Event → σ → Option σ) (event : Event) (state : σ × List Event) :
    Option (σ × List Event) :=
  (hear event state.1).map (·, event :: state.2)

theorem foldlM_noting {σ : Type} (hear : Event → σ → Option σ) (events : List Event) (state : σ)
    (log : List Event) :
    events.foldlM (fun state event => noting hear event state) (state, log) =
      (events.foldlM (fun state event => hear event state) state).map (·, events.reverse ++ log) := by
  induction events generalizing state log with
  | nil => rfl
  | cons event rest ih =>
    rw [List.foldlM_cons, List.foldlM_cons, noting]
    cases hear event state with
    | none => rfl
    | some heard =>
      change rest.foldlM _ (heard, event :: log) = _
      rw [ih, List.reverse_cons, List.append_assoc]
      rfl

section

variable {L σ : Type} (registry : σ → Registry L) (call : Event → σ → L → Option σ)

/-- Runs a stack on a value before the listeners of a registry: the run, with every event it raised, and the
    state that the listeners left. -/
def Stack.attended (limit budget : Nat) (stack : Stack) (input : Value) (state : σ) : Option (Run × σ) := do
  let (outcome, last, log) ←
    (stack.attend (noting (deliver registry call)) limit budget input).run.run (state, [])
  return (⟨outcome, log.reverse⟩, last)

theorem Stack.attended_eq (limit budget : Nat) (stack : Stack) (input : Value) (state : σ) :
    stack.attended registry call limit budget input state = (do
      let run ← stack.run limit budget input
      let last ← run.events.foldlM (fun state event => deliver registry call event state) state
      return (run, last)) := by
  rw [attended, attend_eq_play, Account.run_play, foldlM_noting, run_eq_watch]
  obtain ⟨outcome, events⟩ := watch limit budget stack input
  dsimp only
  cases outcome with
  | none =>
    cases events.foldlM (fun state event => deliver registry call event state) state with
    | none => rfl
    | some last => rfl
  | some ending =>
    cases heard : events.foldlM (fun state event => deliver registry call event state) state with
    | none => simp [heard]
    | some last => simp [heard]

variable {registry call} in
theorem Stack.attended_eq_some_iff {limit budget : Nat} {stack : Stack} {input : Value} {state last : σ}
    {outcome : Except Failure Value} {events : List Event} :
    stack.attended registry call limit budget input state = some (⟨outcome, events⟩, last) ↔
      watch limit budget stack input = ⟨some outcome, events⟩ ∧
        events.foldlM (fun state event => deliver registry call event state) state = some last := by
  have ran := run_eq_some_iff stack limit budget input outcome events
  rw [attended_eq]
  constructor
  · intro given
    obtain ⟨run, ended, heard⟩ := Option.bind_eq_some_iff.mp given
    obtain ⟨left, delivered, same⟩ := Option.bind_eq_some_iff.mp heard
    cases same
    exact ⟨ran.mp ended, delivered⟩
  · intro given
    obtain ⟨told, delivered⟩ := given
    rw [ran.mpr told]
    simp [delivered]

theorem Stack.attended_ends_iff (limit : Nat) (stack : Stack) (input : Value) (state : σ)
    (outcome : Except Failure Value) (events : List Event) (last : σ) :
    (∃ budget, stack.attended registry call limit budget input state = some (⟨outcome, events⟩, last)) ↔
      (stack.behaviour limit input).Ends outcome events ∧
        events.foldlM (fun state event => deliver registry call event state) state = some last := by
  simp only [attended_eq_some_iff, exists_and_right]
  rfl

/-- Whatever the listeners hear from a state on, they all come to an end. -/
def Answering (state : σ) : Prop :=
  ∀ events : List Event, (events.foldlM (fun state event => deliver registry call event state) state).isSome

variable {registry call}

theorem Stack.attended_answering {state : σ} (answering : Answering registry call state) (limit budget : Nat)
    (stack : Stack) (input : Value) :
    (stack.attended registry call limit budget input state).map Prod.fst = stack.run limit budget input := by
  rw [attended_eq]
  cases stack.run limit budget input with
  | none => rfl
  | some run =>
    obtain ⟨last, heard⟩ := Option.isSome_iff_exists.mp (answering run.events)
    simp [heard]

theorem answering_of_calls (answers : ∀ event state listener, (call event state listener).isSome) (state : σ) :
    Answering registry call state := by
  have folded {τ : Type} {step : σ → τ → Option σ} (total : ∀ state item, (step state item).isSome)
      (items : List τ) (state : σ) : (items.foldlM step state).isSome := by
    induction items generalizing state with
    | nil => rfl
    | cons item rest ih =>
      obtain ⟨next, stepped⟩ := Option.isSome_iff_exists.mp (total state item)
      rw [List.foldlM_cons, stepped]
      exact ih next
  exact fun events => folded (fun state event => folded (answers event) _ state) events state

end

theorem Stage.perform_run (budget : Nat) (stage : Stage) (skeleton : Skeleton) (input : Value) :
    Stage.perform (budget + 1) stage (.run skeleton input) = (do
      let (run, stage) ← (Program.ofSkeleton skeleton).instantiate.attended Stage.registry
        (Stage.hear (Stage.perform budget)) defaultDepthLimit ampleBudget input stage
      return (.ran run.outcome, stage)) := by
  rw [Stack.attended_eq, Stage.perform]
  cases (Program.ofSkeleton skeleton).instantiate.run defaultDepthLimit ampleBudget input with
  | none => rfl
  | some run =>
    cases heard : run.events.foldlM (fun stage event =>
      deliver Stage.registry (Stage.hear (Stage.perform budget)) event stage) stage with
    | none => simp [heard]
    | some last => simp [heard]

/-- Two stacks that differ in nothing but what their traces say, run before any two registries of listeners that
    answer, come to the same end, and raise the same events up to what their traces say. In particular this
    holds of a stack and the same stack retagged. -/
theorem Stack.attended_independent {L M σ τ : Type} {registry : σ → Registry L}
    {call : Event → σ → L → Option σ} {other : τ → Registry M} {answer : Event → τ → M → Option τ} {state : σ}
    {elsewhere : τ} (hears : Answering registry call state) (answers : Answering other answer elsewhere)
    {first second : Stack} (alike : first.untraced = second.untraced) (limit budget : Nat) (input : Value) :
    (first.attended registry call limit budget input state).map (fun done => done.1.untraced) =
        (second.attended other answer limit budget input elsewhere).map (fun done => done.1.untraced) ∧
      ∀ depth occurrence,
        (Stack.attended registry call limit budget (Stack.retag depth occurrence first) input state).map
            (fun done => done.1.untraced) =
          (first.attended registry call limit budget input state).map (fun done => done.1.untraced) := by
  have heard (stack : Stack) :
      (stack.attended registry call limit budget input state).map (fun done => done.1.untraced) =
        (stack.run limit budget input).map Run.untraced := by
    rw [← Stack.attended_answering hears, Option.map_map]
    rfl
  have answered : (second.attended other answer limit budget input elsewhere).map (fun done => done.1.untraced) =
      (second.run limit budget input).map Run.untraced := by
    rw [← Stack.attended_answering answers, Option.map_map]
    rfl
  constructor
  · rw [heard, answered, Stack.run_alike limit budget input alike]
  · intro depth occurrence
    rw [heard, heard, Stack.run_alike limit budget input (Stack.untraced_retag depth occurrence first)]

def succession (_ : Event) (registry : Registry Nat) (listener : Nat) : Option (Registry Nat) :=
  some ((registry.remove listener).2.addGeneral (listener + 1)).2

theorem Stack.attended_independent_keptItems :
    let renumbered : Skeleton := .map 5 Program.items (.seq 4 ⟨"keep", .ok⟩) Program.collect
    let heard := (Program.ofSkeleton Program.keptItems).instantiate.attended id succession 64 30 (.list [.null])
      (({} : Registry Nat).addGeneral 1).2
    heard.map (fun done => done.1.untraced) =
        ((Program.ofSkeleton renumbered).instantiate.attended id (fun _ silent _ => some silent) 64 30
          (.list [.null]) ({} : Registry Nat)).map (fun done => done.1.untraced) ∧
      heard.map (fun done => (done.1.outcome, done.2.general.map (·.listener))) =
        some (.ok (.list [.null]), [5]) := by
  intro renumbered heard
  have leaving : Answering id succession (({} : Registry Nat).addGeneral 1).2 :=
    answering_of_calls (fun _ _ _ => rfl) _
  have silent : Answering id (fun _ silent _ => some silent) ({} : Registry Nat) :=
    answering_of_calls (fun _ _ _ => rfl) _
  have alike : (Program.ofSkeleton Program.keptItems).instantiate.untraced =
      (Program.ofSkeleton renumbered).instantiate.untraced := rfl
  have independent := Stack.attended_independent leaving silent alike 64 30 (.list [.null])
  exact ⟨independent.1, rfl⟩

end Skeletons
