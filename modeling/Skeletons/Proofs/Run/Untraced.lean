import Skeletons.Proofs.Run.Split
import Skeletons.Proofs.Stack.Retrace

namespace Skeletons

def Effect.untraced (effect : Effect) : Effect where
  value := effect.value
  pushed := effect.pushed.untraced
  children := effect.children.map Child.untraced
  events := effect.events.map Event.untraced

namespace Split

theorem templateAt_untraced (templates : List Stack) (index : Nat) :
    templateAt (templates.map Stack.untraced) index = (templateAt templates index).untraced := by
  match templates with
  | [] => rfl
  | [only] => rfl
  | first :: second :: others =>
    change List.getD (List.map Stack.untraced (first :: second :: others)) index (Stack.untraced []) =
      Stack.untraced (List.getD (first :: second :: others) index [])
    simp only [List.getD_eq_getElem?_getD, List.getElem?_map, Option.getD_map]

theorem child_untraced (trace : Trace) (template : Stack) (index : Nat) (part : Value) :
    (child trace.blank template.untraced index part).untraced = (child trace template index part).untraced := by
  simp [child, Child.untraced]

theorem children_untraced (templates : List Stack) (trace : Trace) (start : Nat) (parts : List Value) :
    (children (templates.map Stack.untraced) trace.blank start parts).map Child.untraced =
      (children templates trace start parts).map Child.untraced := by
  simp only [children_eq_map, List.map_map]
  refine List.map_congr_left fun (part, index) _ => ?_
  simp only [Function.comp_apply, templateAt_untraced, child_untraced]

theorem recursion_untraced (template : Stack) (path : RecursionPath) (index : Nat) (part : Value) :
    Child.untraced <$> recursion template.untraced path index part =
      Child.untraced <$> recursion template path index part := by
  match template with
  | [] => rfl
  | .divide condition split merge solve trace old :: below =>
    simp only [Stack.untraced_cons, Instruction.untraced_divide, recursion, Trace.isEmpty_blank]
    split
    · rfl
    · simp [Child.untraced]
  | .seq .. :: _ | .ifElse .. :: _ | .choice .. :: _ | .split .. :: _ | .merge .. :: _ | .signal .. :: _
  | .whileLoop .. :: _ | .forLoop .. :: _ => rfl

theorem recursions_untraced (template : Stack) (path : RecursionPath) (start : Nat) (parts : List Value) :
    List.map Child.untraced <$> recursions template.untraced path start parts =
      List.map Child.untraced <$> recursions template path start parts := by
  have unrolled (template : Stack) (start : Nat) (part : Value) (rest : List Value) :
      List.map Child.untraced <$> recursions template path start (part :: rest) = (do
        let child ← Child.untraced <$> recursion template path start part
        let others ← List.map Child.untraced <$> recursions template path (start + 1) rest
        return child :: others) := by
    simp only [recursions, map_bind, bind_map_left, map_pure, List.map_cons]
  induction parts generalizing start with
  | nil => rfl
  | cons part rest ih => rw [unrolled, unrolled, recursion_untraced, ih]

theorem spawn_untraced (templates : List Stack) (trace : Trace) (path : Option RecursionPath)
    (parts : List Value) :
    List.map Child.untraced <$> spawn (templates.map Stack.untraced) trace.blank path parts =
      List.map Child.untraced <$> spawn templates trace path parts := by
  cases path with
  | none =>
    simp only [spawn, List.length_map]
    split
    · rfl
    · exact congrArg Except.ok (children_untraced templates trace 0 parts)
  | some path =>
    rcases templates with _ | ⟨template, _ | ⟨second, others⟩⟩
    · rfl
    · exact recursions_untraced template path 0 parts
    · simp [spawn]

end Split

theorem Instruction.effect_untraced (limit : Nat) (value : Value) (instruction : Instruction) :
    Effect.untraced <$> instruction.untraced.effect limit value =
      Effect.untraced <$> instruction.effect limit value := by
  cases instruction with
  | seq execute trace => rfl
  | ifElse condition whenTrue whenFalse trace => simp [effect, Effect.untraced]
  | choice outcome whenTrue whenFalse trace => cases outcome <;> simp [effect, Effect.untraced]
  | split templates merge trace path =>
    rw [untraced_split]
    cases value with
    | null | bool | number | text | object => rfl
    | list parts =>
      have summed (pushed : Stack) (built : Except Failure (List Child)) :
          (Effect.untraced <$> do
            let children ← built
            return { value := .list [], pushed, children }) =
          (fun children => ⟨.list [], pushed.untraced, children, []⟩) <$> List.map Child.untraced <$> built := by
        simp [Effect.untraced]
      rw [Stack.effect_split, Stack.effect_split, Trace.length_blank]
      split
      · rfl
      · rw [summed, summed, Split.spawn_untraced]
        simp [Stack.merging]
  | divide condition split merge solve trace path =>
    simp only [untraced_divide, effect, map_bind]
    refine congrArg (condition.call value >>= ·) (funext fun outcome => ?_)
    cases outcome <;> simp [Effect.untraced]
  | merge merge trace => rfl
  | signal event => simp [effect, Effect.untraced]
  | whileLoop condition body trace iteration =>
    simp only [untraced_whileLoop, effect, map_bind]
    refine congrArg (condition.call value >>= ·) (funext fun outcome => ?_)
    cases outcome <;> simp [Effect.untraced]
  | forLoop times body trace iteration =>
    simp only [untraced_forLoop, effect]
    split <;> simp [Effect.untraced]

theorem Instruction.effect_alike (limit : Nat) (value : Value) {first second : Instruction}
    (alike : first.untraced = second.untraced) :
    Effect.untraced <$> first.effect limit value = Effect.untraced <$> second.effect limit value := by
  rw [← effect_untraced limit value first, alike, effect_untraced]

/-- A run up to what the traces of its events say: its outcome, and of every event what it is about, when it
    comes, its payload and the length of its trace. -/
def Run.untraced (run : Run) : Run := { run with events := run.events.map Event.untraced }

namespace Account

variable {α β σ : Type}

def untraced (account : Account α) : Account α := { account with events := account.events.map Event.untraced }

@[simp] theorem untraced_pure (value : α) : (pure value : Account α).untraced = pure value := rfl

@[simp] theorem untraced_liftM (result : Except Failure α) :
    (liftM result : Account α).untraced = liftM result := rfl

@[simp] theorem untraced_note (events : List Event) :
    (note events).untraced = note (events.map Event.untraced) := rfl

@[simp] theorem untraced_bind (account : Account α) (next : α → Account β) :
    (account >>= next).untraced = account.untraced >>= fun value => (next value).untraced := by
  obtain ⟨outcome, events⟩ := account
  match outcome with
  | none => rfl
  | some (.error failure) => rfl
  | some (.ok value) =>
    change Account.untraced (Account.after events (next value)) = _
    simp [untraced, after]

@[simp] theorem untraced_map (change : α → β) (account : Account α) :
    (change <$> account).untraced = change <$> account.untraced := by
  simp only [← bind_pure_comp, untraced_bind, untraced_pure]

theorem untraced_liftM_bind {key : α → σ} {result other : Except Failure α}
    (alike : key <$> result = key <$> other) {next further : α → Account β}
    (same : ∀ {one another : α}, key one = key another → (next one).untraced = (further another).untraced) :
    ((liftM result : Account α) >>= next).untraced = ((liftM other : Account α) >>= further).untraced := by
  cases result with
  | error failure =>
    cases other with
    | error second =>
      cases alike
      rfl
    | ok another => cases alike
  | ok one =>
    cases other with
    | error second => cases alike
    | ok another =>
      have keys : key one = key another := Except.ok.inj alike
      have unlifted (value : α) (further : α → Account β) :
          (liftM (Except.ok value : Except Failure α) : Account α) >>= further = further value :=
        pure_bind value further
      rw [unlifted, unlifted]
      exact same keys

end Account

namespace Stack

variable (limit budget : Nat) (value : Value)

theorem mapM_alike {work : Child → Account Value}
    (same : ∀ {one other : Child}, one.untraced = other.untraced → (work one).untraced = (work other).untraced)
    {children others : List Child} (alike : children.map Child.untraced = others.map Child.untraced) :
    (children.mapM work).untraced = (others.mapM work).untraced := by
  induction children generalizing others with
  | nil =>
    rw [List.map_eq_nil_iff.mp alike.symm]
  | cons child rest ih =>
    obtain ⟨other, siblings, rfl, head, tail⟩ := List.map_eq_cons_iff.mp alike.symm
    simp only [List.mapM_cons, Account.untraced_bind, same head, ih tail.symm, Account.untraced_pure]

theorem received_alike {one other : Effect} (same : one.untraced = other.untraced)
    (ran : ∀ value {first second : Stack}, first.untraced = second.untraced →
      (watch limit budget first value).untraced = (watch limit budget second value).untraced) :
    ((one.received limit).within budget).untraced = ((other.received limit).within budget).untraced := by
  simp only [Effect.untraced, Effect.mk.injEq] at same
  obtain ⟨values, -, children, -⟩ := same
  simp only [Effect.received]
  obtain ⟨value, pushed, spawned, events⟩ := one
  obtain ⟨answer, work, parts, reports⟩ := other
  cases spawned with
  | nil =>
    cases List.map_eq_nil_iff.mp children.symm
    cases values
    rfl
  | cons child siblings =>
    obtain ⟨sibling, others, rfl, -⟩ := List.map_eq_cons_iff.mp children.symm
    simp only [← bind_pure_comp, Process.within_bind, Process.within_mapM, Account.untraced_bind]
    rw [mapM_alike (fun {first second} alike => ?_) children]
    obtain ⟨-, work, inputs⟩ := Child.mk.inj alike
    rw [inputs]
    exact ran second.input work

theorem watch_alike {first second : Stack} (alike : first.untraced = second.untraced) :
    (watch limit budget first value).untraced = (watch limit budget second value).untraced := by
  induction budget generalizing first second value with
  | zero => rfl
  | succ budget ih =>
    match first, second with
    | [], [] => rfl
    | instruction :: rest, other :: below =>
      obtain ⟨head, tail⟩ := List.cons.inj alike
      simp only [watch_cons, Instruction.perform, bind_assoc, Process.within_bind]
      refine Account.untraced_liftM_bind (Instruction.effect_alike limit value head) fun {one another} same => ?_
      have received := received_alike limit budget same ih
      simp only [Effect.untraced, Effect.mk.injEq] at same
      obtain ⟨-, pushed, -, events⟩ := same
      have remaining : untraced (one.pushed ++ rest) = untraced (another.pushed ++ below) := by
        rw [untraced_append, untraced_append, pushed]
        exact congrArg (_ ++ ·) tail
      have noted : ((Process.note one.events).within budget).untraced =
          ((Process.note another.events).within budget).untraced :=
        congrArg Account.note events
      simp only [Account.untraced_bind, noted, received, Process.within_pure, pure_bind,
        fun value => ih value remaining]

theorem run_eq_watch (stack : Stack) :
    stack.run limit budget value =
      (watch limit budget stack value).outcome.map (Run.mk · (watch limit budget stack value).events) := by
  rw [run, runFrom_eq_logged, Account.logged, Option.map_map]
  refine congrArg (Option.map · _) (funext fun outcome => ?_)
  simp only [Function.comp_apply, List.append_nil, List.reverse_reverse]

theorem run_alike {first second : Stack} (alike : first.untraced = second.untraced) :
    (first.run limit budget value).map Run.untraced = (second.run limit budget value).map Run.untraced := by
  have told := watch_alike limit budget value alike
  simp only [Account.untraced, Account.mk.injEq] at told
  rw [run_eq_watch, run_eq_watch, Option.map_map, Option.map_map, told.1]
  refine congrArg (Option.map · _) (funext fun outcome => ?_)
  exact congrArg (Run.mk outcome) told.2

end Stack

end Skeletons
