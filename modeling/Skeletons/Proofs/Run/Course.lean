import Skeletons.Proofs.Instruction.Effect
import Skeletons.Proofs.Run.Behaviour

namespace Skeletons

structure Interpretation where
  instruction : Instruction
  input : Value

namespace Interpretation

def events (interpretation : Interpretation) : List Event :=
  match interpretation.instruction with
  | .signal event => [event]
  | _ => []

theorem events_eq {limit : Nat} {instruction : Instruction} {input : Value} {effect : Effect}
    (came : instruction.effect limit input = .ok effect) : effect.events = events ⟨instruction, input⟩ := by
  cases Instruction.leads_of_effect came with
  | _ => rfl

end Interpretation

namespace Stack

/-- The course of a run that ends well, and the value it ends with. The courses of the children of a split come one
    after another, in the order of the children. -/
inductive Course (limit : Nat) : Stack → Value → List Interpretation → Value → Prop where
  | done {value : Value} : Course limit [] value [] value
  | onward {instruction : Instruction} {rest : Stack} {value answer : Value} {effect : Effect}
      {told : List Interpretation} :
    instruction.effect limit value = .ok effect → effect.children = [] →
      Course limit (effect.pushed ++ rest) effect.value told answer →
      Course limit (instruction :: rest) value (⟨instruction, value⟩ :: told) answer
  | split {instruction : Instruction} {rest : Stack} {value answer : Value} {effect : Effect}
      {parts : List (List Interpretation × Value)} {told : List Interpretation} :
    instruction.effect limit value = .ok effect → effect.children ≠ [] →
      parts.length = effect.children.length →
      (∀ (index : Nat) (child : Child) (part : List Interpretation × Value),
        effect.children[index]? = some child → parts[index]? = some part →
          Course limit child.stack child.input part.1 part.2) →
      Course limit (effect.pushed ++ rest) (.list (parts.map Prod.snd)) told answer →
      Course limit (instruction :: rest) value (⟨instruction, value⟩ :: parts.flatMap Prod.fst ++ told) answer

variable {limit : Nat} {stack : Stack} {value answer : Value} {told : List Interpretation}

theorem Course.unique (course : Course limit stack value told answer) {other : List Interpretation}
    {result : Value} (also : Course limit stack value other result) : told = other ∧ answer = result := by
  induction course generalizing other result with
  | done =>
    cases also
    exact ⟨rfl, rfl⟩
  | onward came childless _ ih =>
    cases also with
    | onward came' _ rest =>
      cases came.symm.trans came'
      obtain ⟨rfl, rfl⟩ := ih rest
      exact ⟨rfl, rfl⟩
    | split came' children _ _ _ =>
      cases came.symm.trans came'
      exact absurd childless children
  | @split instruction _ _ _ effect parts _ came children counted _ _ each ih =>
    cases also with
    | onward came' childless _ =>
      cases came.symm.trans came'
      exact absurd childless children
    | @split _ _ _ _ _ others _ came' _ recounted each' rest =>
      cases came.symm.trans came'
      have same : parts = others := by
        apply List.ext_getElem (counted.trans recounted.symm)
        intro index within inside
        have reached : index < effect.children.length := counted ▸ within
        have equal := each index _ _ (List.getElem?_eq_getElem reached) (List.getElem?_eq_getElem within)
          (each' index _ _ (List.getElem?_eq_getElem reached) (List.getElem?_eq_getElem inside))
        exact Prod.ext equal.1 equal.2
      subst same
      obtain ⟨rfl, rfl⟩ := ih rest
      exact ⟨rfl, rfl⟩

namespace Course

variable {trace : Trace} {rest : Stack} {next : Value}

theorem report {phase : Phase} {point : Point} {payload : Value} (course : Course limit rest value told answer) :
    Course limit (report phase point trace payload :: rest) value
      (⟨Skeletons.report phase point trace payload, value⟩ :: told) answer :=
  .onward rfl rfl course

theorem seq {execute : Execute} (answered : execute.call value = .ok next)
    (course : Course limit rest next told answer) :
    Course limit (.seq execute trace :: rest) value (⟨.seq execute trace, value⟩ :: told) answer := by
  have came : (Instruction.seq execute trace).effect limit value = .ok { value := next } := by
    rw [Instruction.effect, answered]
    rfl
  exact .onward came rfl course

theorem merging {merge : Merge} {payload : Value} {results : List Value}
    (merged : merge.call results = .ok answer) :
    Course limit (Stack.merging merge trace payload) (.list results)
      [⟨Skeletons.report .before .merge trace payload, .list results⟩, ⟨.merge merge trace, .list results⟩,
        ⟨Skeletons.report .after .merge trace payload, answer⟩] answer := by
  have came : (Instruction.merge merge trace).effect limit (.list results) = .ok { value := answer } := by
    rw [Instruction.effect, merged]
    rfl
  exact report (.onward came rfl (report .done))

end Course

theorem received_childless {effect : Effect} (childless : effect.children = []) :
    effect.received limit = pure effect.value := by
  simp only [Effect.received, childless]

theorem received_children {effect : Effect} (children : effect.children ≠ []) :
    effect.received limit =
      Value.list <$> effect.children.mapM fun child => behaviour limit child.stack child.input := by
  unfold Effect.received
  split
  · contradiction
  · rfl

theorem ends_cons {instruction : Instruction} {rest : Stack} {effect : Effect} {received : Value}
    {early late : List Event} (came : instruction.effect limit value = .ok effect)
    (left : (effect.received limit).Ends (.ok received) early)
    (ended : (behaviour limit (effect.pushed ++ rest) received).Ends (.ok answer) late) :
    (behaviour limit (instruction :: rest) value).Ends (.ok answer) (effect.events ++ (early ++ late)) := by
  rw [behaviour_cons, Process.ends_congr (Process.later_alike _), Instruction.perform, came]
  change ((liftM (pure effect : Except Failure Effect) >>= _) >>= _ : Process Value).Ends _ _
  simp only [liftM_pure, pure_bind, bind_assoc, Process.ends_note_bind]
  refine ⟨early ++ late, ?_, rfl⟩
  exact (Process.ends_ok_bind ..).mpr ⟨received, early, late, left, ended, rfl⟩

theorem ends_mapM {σ : Type} {work : σ → Process Value} {items : List σ}
    {parts : List (List Interpretation × Value)} (counted : parts.length = items.length)
    (each : ∀ (index : Nat) (item : σ) (part : List Interpretation × Value),
      items[index]? = some item → parts[index]? = some part →
        (work item).Ends (.ok part.2) (part.1.flatMap Interpretation.events)) :
    (items.mapM work).Ends (.ok (parts.map Prod.snd))
      ((parts.flatMap Prod.fst).flatMap Interpretation.events) := by
  induction items generalizing parts with
  | nil =>
    cases List.length_eq_zero_iff.mp counted
    exact (Process.ends_pure ..).mpr ⟨rfl, rfl⟩
  | cons item rest ih =>
    obtain ⟨part, parts, rfl⟩ := List.exists_cons_of_length_eq_add_one counted
    have first := each 0 item part rfl rfl
    have others := ih (Nat.succ.inj counted) fun index => each (index + 1)
    simp only [List.mapM_cons, List.map_cons, List.flatMap_cons, List.flatMap_append, Process.ends_ok_bind]
    refine ⟨part.2, _, _, first, ⟨_, _, [], others, ?_, (List.append_nil _).symm⟩, rfl⟩
    exact (Process.ends_pure ..).mpr ⟨rfl, rfl⟩

theorem Course.ends (course : Course limit stack value told answer) :
    (behaviour limit stack value).Ends (.ok answer) (told.flatMap Interpretation.events) := by
  induction course with
  | done =>
    rw [behaviour_nil, Process.ends_congr (Process.later_alike _), Process.ends_pure]
    exact ⟨rfl, rfl⟩
  | onward came childless _ ih =>
    have left : (Effect.received limit _).Ends _ [] :=
      (received_childless childless ▸ Process.ends_pure ..).mpr ⟨rfl, rfl⟩
    rw [List.flatMap_cons, ← Interpretation.events_eq came]
    exact ends_cons came left ih
  | split came children counted _ _ each ih =>
    have gathered := ends_mapM counted each
    rw [List.flatMap_append, List.flatMap_cons, ← Interpretation.events_eq came, List.append_assoc]
    apply ends_cons came _ ih
    rw [received_children children, ← bind_pure_comp, Process.ends_ok_bind]
    exact ⟨_, _, [], gathered, (Process.ends_pure ..).mpr ⟨rfl, rfl⟩, (List.append_nil _).symm⟩

theorem exists_parts {σ : Type} {work : σ → Account Value}
    {courses : σ → List Interpretation → Value → Prop}
    (known : ∀ item value events, work item = ⟨some (.ok value), events⟩ →
      ∃ told, courses item told value ∧ told.flatMap Interpretation.events = events)
    {items : List σ} {results : List Value} {events : List Event}
    (ended : items.mapM work = (⟨some (.ok results), events⟩ : Account (List Value))) :
    ∃ parts : List (List Interpretation × Value), parts.length = items.length ∧
      parts.map Prod.snd = results ∧ (parts.flatMap Prod.fst).flatMap Interpretation.events = events ∧
        ∀ (index : Nat) (item : σ) (part : List Interpretation × Value),
          items[index]? = some item → parts[index]? = some part → courses item part.1 part.2 := by
  induction items generalizing results events with
  | nil =>
    cases ended
    exact ⟨[], rfl, rfl, rfl, nofun⟩
  | cons item rest ih =>
    rw [List.mapM_cons] at ended
    obtain ⟨value, early, late, first, rest_ended, rfl⟩ := (Account.bind_ended_ok_iff ..).mp ended
    obtain ⟨values, middle, last, others, closed, rfl⟩ := (Account.bind_ended_ok_iff ..).mp rest_ended
    cases closed
    obtain ⟨told, course, same⟩ := known item value early first
    obtain ⟨parts, counted, answered, reported, each⟩ := ih others
    refine ⟨(told, value) :: parts, congrArg (· + 1) counted, congrArg (value :: ·) answered, ?_, ?_⟩
    · simp only [List.flatMap_cons, List.flatMap_append, same, reported, List.append_nil]
    · intro index one part found reached
      cases index with
      | zero =>
        cases found
        cases reached
        exact course
      | succ index => exact each index one part found reached

theorem exists_course {budget : Nat} {events : List Event}
    (ended : watch limit budget stack value = ⟨some (.ok answer), events⟩) :
    ∃ told, Course limit stack value told answer ∧ told.flatMap Interpretation.events = events := by
  induction budget generalizing stack value answer events with
  | zero => cases ended
  | succ budget ih =>
    match stack with
    | [] =>
      cases ended
      exact ⟨[], .done, rfl⟩
    | instruction :: rest =>
      rw [watch, Account.bind_ended_ok_iff] at ended
      obtain ⟨effect, none, _, lifted, reporting, rfl⟩ := ended
      obtain ⟨_, reported, _, noted, receiving, rfl⟩ := (Account.bind_ended_ok_iff ..).mp reporting
      obtain ⟨received, early, late, left, going, rfl⟩ := (Account.bind_ended_ok_iff ..).mp receiving
      obtain ⟨after, further, same⟩ := ih going
      cases noted
      have came : instruction.effect limit value = .ok effect :=
        Option.some.inj (congrArg Account.outcome lifted)
      cases congrArg Account.events lifted
      have own := Interpretation.events_eq came
      cases children : effect.children with
      | nil =>
        simp only [children] at left
        cases left
        refine ⟨⟨instruction, value⟩ :: after, .onward came children further, ?_⟩
        rw [List.flatMap_cons, same, own]
        rfl
      | cons child others =>
        simp only [children] at left
        rw [← bind_pure_comp, Account.bind_ended_ok_iff] at left
        obtain ⟨results, told, last, gathered, closed, rfl⟩ := left
        cases closed
        obtain ⟨parts, counted, rfl, tells, each⟩ := exists_parts (fun child _ _ => ih) gathered
        rw [← children] at counted each
        refine ⟨⟨instruction, value⟩ :: parts.flatMap Prod.fst ++ after, ?_, ?_⟩
        · exact .split came (by simp [children]) counted each further
        · simp only [List.flatMap_append, List.flatMap_cons, tells, same, own, List.append_assoc,
            List.append_nil, List.nil_append]

/-- A run that ends well has a course, and it reports what its course reports. -/
theorem run_iff_course (stack : Stack) (limit : Nat) (input answer : Value) (events : List Event) :
    (∃ budget, stack.run limit budget input = some ⟨.ok answer, events⟩) ↔
      ∃ told, Course limit stack input told answer ∧ told.flatMap Interpretation.events = events := by
  rw [run_ends_iff]
  constructor
  · intro given
    obtain ⟨budget, ended⟩ := given
    exact exists_course ended
  · intro given
    obtain ⟨told, course, same⟩ := given
    exact same ▸ course.ends

end Stack

end Skeletons
