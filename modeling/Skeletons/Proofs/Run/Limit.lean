import Skeletons.Proofs.Listener.Attended

namespace Skeletons

namespace Account

variable {α β σ : Type} (limit : Nat)

/-- The account of a run that is not told of its limit: where it would end there, its end is open. -/
def opened : Account α → Account α
  | ⟨some (.error failure), events⟩ =>
    if failure = .configuration (.depthExceeded limit) then ⟨none, events⟩ else ⟨some (.error failure), events⟩
  | account => account

theorem opened_exceeded (events : List Event) :
    (⟨some (.error (.configuration (.depthExceeded limit))), events⟩ : Account α).opened limit =
      ⟨none, events⟩ := by
  simp [opened]

theorem opened_of_ne {outcome : Except Failure α}
    (apart : outcome ≠ .error (.configuration (.depthExceeded limit))) (events : List Event) :
    (⟨some outcome, events⟩ : Account α).opened limit = ⟨some outcome, events⟩ := by
  cases outcome with
  | ok value => rfl
  | error failure =>
    have other : failure ≠ .configuration (.depthExceeded limit) := fun same => apart (same ▸ rfl)
    simp only [opened, if_neg other]

theorem opened_le (account : Account α) : account.opened limit ≤ account := by
  obtain ⟨outcome, events⟩ := account
  match outcome with
  | none => exact le_rfl
  | some (.ok value) => exact le_rfl
  | some (.error failure) =>
    by_cases exceeded : failure = .configuration (.depthExceeded limit)
    · subst exceeded
      rw [opened_exceeded]
      exact Or.inr ⟨rfl, List.prefix_rfl⟩
    · simp only [opened, if_neg exceeded]
      exact le_rfl

theorem opened_after (events : List Event) (account : Account α) :
    (account.after events).opened limit = (account.opened limit).after events := by
  obtain ⟨outcome, told⟩ := account
  match outcome with
  | none => rfl
  | some (.ok value) => rfl
  | some (.error failure) =>
    by_cases exceeded : failure = .configuration (.depthExceeded limit)
    · subst exceeded
      rw [opened_exceeded]
      apply opened_exceeded
    · simp only [after, opened, if_neg exceeded]

theorem opened_bind (account : Account α) (next : α → Account β) :
    (account >>= next).opened limit = account.opened limit >>= fun value => (next value).opened limit := by
  obtain ⟨outcome, events⟩ := account
  match outcome with
  | none => rfl
  | some (.ok value) => exact opened_after limit events (next value)
  | some (.error failure) =>
    rw [bind_failure]
    by_cases exceeded : failure = .configuration (.depthExceeded limit)
    · subst exceeded
      rw [opened_exceeded, opened_exceeded, bind_unfinished]
    · simp only [opened, if_neg exceeded, bind_failure]

theorem opened_map (change : α → β) (account : Account α) :
    (change <$> account).opened limit = change <$> account.opened limit := by
  simp only [← bind_pure_comp, opened_bind]
  rfl

theorem opened_mapM (work : σ → Account α) (items : List σ) :
    (items.mapM work).opened limit = items.mapM fun item => (work item).opened limit := by
  induction items with
  | nil => rfl
  | cons item rest ih =>
    simp only [List.mapM_cons, opened_bind, ih]
    rfl

end Account

section

variable {limit higher : Nat}

theorem Instruction.effect_raised (raised : limit ≤ higher) (instruction : Instruction) (value : Value) :
    instruction.effect limit value = .error (.configuration (.depthExceeded limit)) ∨
      instruction.effect higher value = instruction.effect limit value := by
  cases instruction with
  | split templates merge trace path =>
    cases value with
    | list parts =>
      rw [Stack.effect_split, Stack.effect_split]
      by_cases deep : limit < trace.length + (path.getD []).length
      · left
        rw [if_pos deep]
      · right
        have shallow : ¬ higher < trace.length + (path.getD []).length := by omega
        rw [if_neg deep, if_neg shallow]
    | _ => exact Or.inr rfl
  | _ => exact Or.inr rfl

theorem Instruction.opened_effect_le (raised : limit ≤ higher) (instruction : Instruction) (value : Value) :
    (liftM (instruction.effect limit value) : Account Effect).opened limit ≤
      liftM (instruction.effect higher value) := by
  rcases instruction.effect_raised raised value with exceeded | same
  · rw [exceeded]
    have opened := Account.opened_exceeded (α := Effect) limit []
    apply le_of_eq_of_le opened
    apply Account.unfinished_le
  · rw [same]
    apply Account.opened_le

theorem Stack.opened_watch_le (raised : limit ≤ higher) (budget : Nat) (stack : Stack) (value : Value) :
    (watch limit budget stack value).opened limit ≤ watch higher budget stack value := by
  induction budget generalizing stack value with
  | zero => exact le_rfl
  | succ budget ih =>
    match stack with
    | [] => exact le_rfl
    | instruction :: rest =>
      simp only [watch, Account.opened_bind]
      apply Account.bind_le_bind (instruction.opened_effect_le raised value)
      intro effect
      apply Account.bind_le_bind (Account.opened_le limit _)
      intro _
      apply Account.bind_le_bind _ fun received => ih _ received
      cases effect.children with
      | nil => exact le_rfl
      | cons child siblings =>
        simp only [Account.opened_map, Account.opened_mapM]
        apply Account.bind_le_bind _ fun _ => le_rfl
        apply Account.mapM_le_mapM
        exact fun child => ih child.stack child.input

end

/-- Before whatever listeners, a run that ends otherwise than at its limit ends alike under every higher limit, after
    the same events, and leaves the listeners alike. A run that ends at its limit has raised the events
    that the run under a higher limit begins with, whether that one ends or goes on forever; and if it ends, its
    listeners were on the way where the others were left. -/
theorem Stack.attended_raised {L σ : Type} {registry : σ → Registry L} {call : Event → σ → L → Option σ}
    {limit higher : Nat} (raised : limit ≤ higher) {stack : Stack} {input : Value} {state last : σ} {budget : Nat}
    {outcome : Except Failure Value} {events : List Event}
    (ended : stack.attended registry call limit budget input state = some (⟨outcome, events⟩, last)) :
    (outcome ≠ .error (.configuration (.depthExceeded limit)) →
      stack.attended registry call higher budget input state = some (⟨outcome, events⟩, last)) ∧
      (outcome = .error (.configuration (.depthExceeded limit)) →
        (∀ more, budget ≤ more → events <+: (stack.watch higher more input).events) ∧
          ∀ more further longer final,
            stack.attended registry call higher more input state = some (⟨further, longer⟩, final) →
              ∃ rest, longer = events ++ rest ∧
                rest.foldlM (fun state event => deliver registry call event state) last = some final) := by
  obtain ⟨known, heard⟩ := Stack.attended_eq_some_iff.mp ended
  have below := Stack.opened_watch_le raised budget stack input
  rw [known] at below
  constructor
  · intro apart
    rw [Account.opened_of_ne limit apart] at below
    have same := Account.eq_of_le below rfl
    exact Stack.attended_eq_some_iff.mpr ⟨same, heard⟩
  · intro exceeded
    subst exceeded
    rw [Account.opened_exceeded] at below
    have begun (more : Nat) (later : budget ≤ more) : events <+: (stack.watch higher more input).events := by
      have grown := (stack.behaviour higher input).grows later
      exact (Account.events_prefix below).trans (Account.events_prefix grown)
    refine ⟨begun, fun more further longer final finished => ?_⟩
    obtain ⟨told, delivered⟩ := Stack.attended_eq_some_iff.mp finished
    have started := begun (max budget more) (Nat.le_max_left budget more)
    have late : stack.watch higher (max budget more) input = ⟨some further, longer⟩ :=
      (stack.behaviour higher input).within_of_ended told (Nat.le_max_right budget more)
    rw [late] at started
    obtain ⟨rest, rfl⟩ := started
    rw [List.foldlM_append, heard] at delivered
    exact ⟨rest, rfl, delivered⟩

theorem Stack.attended_raised_nestedLists :
    let attended (limit : Nat) := (Program.ofSkeleton Program.nestedLists).instantiate.attended id succession
      limit 30 (.list [.list [.null]]) (({} : Registry Nat).addGeneral 1).2
    ∃ events last longer final,
      attended 1 = some (⟨.error (.configuration (.depthExceeded 1)), events⟩, last) ∧
        attended 2 = some (⟨.ok (.list [.list [.null]]), longer⟩, final) ∧
          attended 3 = some (⟨.ok (.list [.list [.null]]), longer⟩, final) ∧
            ∃ rest, longer = events ++ rest ∧ rest.foldlM (fun state event => deliver id succession event state) last =
              some final := by
  intro attended
  obtain ⟨events, last, short⟩ : ∃ events last,
      attended 1 = some (⟨.error (.configuration (.depthExceeded 1)), events⟩, last) := ⟨_, _, rfl⟩
  obtain ⟨longer, final, enough⟩ : ∃ longer final,
      attended 2 = some (⟨.ok (.list [.list [.null]]), longer⟩, final) := ⟨_, _, rfl⟩
  have ample := (Stack.attended_raised (Nat.le_succ 2) enough).1 nofun
  have further := ((Stack.attended_raised (Nat.le_succ 1) short).2 rfl).2 30 _ longer final enough
  exact ⟨events, last, longer, final, short, enough, ample, further⟩

end Skeletons
