import Skeletons.Listener.Script
import Skeletons.Proofs.Listener.Roll

namespace Skeletons

open Registry Registry.History

/-- What happens on a stage, in order. Deliveries are numbered from zero on, in the order in which they are
    opened. -/
inductive Occurrence where
  | asked (call : Registry.Call Scripted) (reply : Registry.Reply)
  | opened (delivery : Nat) (event : Event)
  | called (delivery : Nat) (event : Event) (listener : Scripted)

namespace Occurrence

def calls (past : List Occurrence) : History Scripted :=
  past.filterMap fun
    | .asked call reply => some (call, reply)
    | _ => none

def openings (past : List Occurrence) : List Nat :=
  past.filterMap fun
    | .opened delivery _ => some delivery
    | _ => none

def received (delivery : Nat) (past : List Occurrence) : List (Event × Scripted) :=
  past.filterMap fun
    | .called number event listener => if number = delivery then some (event, listener) else none
    | _ => none

def hearings (past : List Occurrence) : List (String × Event) :=
  past.filterMap fun
    | .called _ event listener => some (listener.label, event)
    | _ => none

variable (first second : List Occurrence)

@[simp] theorem calls_append : calls (first ++ second) = calls first ++ calls second := List.filterMap_append

@[simp] theorem openings_append : openings (first ++ second) = openings first ++ openings second :=
  List.filterMap_append

@[simp] theorem received_append (delivery : Nat) :
    received delivery (first ++ second) = received delivery first ++ received delivery second :=
  List.filterMap_append

@[simp] theorem hearings_append : hearings (first ++ second) = hearings first ++ hearings second :=
  List.filterMap_append

end Occurrence

open Occurrence

/-- What may happen after a past. Deliveries that were open already call the `outer` listeners; each delivery
    opened since calls its whole audience, as it was when the delivery was opened. -/
structure Tale (history : History Scripted) (outer : Nat → List (Event × Scripted))
    (past added : List Occurrence) : Prop where
  opened : openings added = List.range' (openings past).length (openings added).length
  earlier : ∀ delivery, delivery < (openings past).length → received delivery added = outer delivery
  later : ∀ delivery, (openings past).length + (openings added).length ≤ delivery → received delivery added = []
  heard : ∀ before delivery event after, added = before ++ .opened delivery event :: after →
    received delivery before = [] ∧
      received delivery after = (audience (roll (history ++ calls (past ++ before))) event).map (event, ·)

def Tale.only (delivery : Nat) (listeners : List (Event × Scripted)) (number : Nat) : List (Event × Scripted) :=
  if number = delivery then listeners else []

namespace Tale

variable {history : History Scripted} {outer other : Nat → List (Event × Scripted)} {past added : List Occurrence}

theorem unopened (unopened : openings added = [])
    (earlier : ∀ delivery, delivery < (openings past).length → received delivery added = outer delivery)
    (later : ∀ delivery, (openings past).length ≤ delivery → received delivery added = []) :
    Tale history outer past added where
  opened := by rw [unopened]; rfl
  earlier := earlier
  later delivery beyond := later delivery (by omega)
  heard before delivery event after split := by
    have member : delivery ∈ openings added := by
      rw [split, openings_append]
      exact List.mem_append_right _ (List.mem_cons_self ..)
    rw [unopened] at member
    cases member

theorem nil : Tale history (fun _ => []) past [] := unopened rfl (fun _ _ => rfl) (fun _ _ => rfl)

theorem asked (call : Registry.Call Scripted) (reply : Reply) :
    Tale history (fun _ => []) past [.asked call reply] := unopened rfl (fun _ _ => rfl) (fun _ _ => rfl)

theorem called {delivery : Nat} (isOpen : delivery < (openings past).length) (event : Event)
    (listener : Scripted) :
    Tale history (only delivery [(event, listener)]) past [.called delivery event listener] := by
  refine unopened rfl (fun number _ => ?_) (fun number beyond => ?_)
  · by_cases same : number = delivery
    · simp [received, only, same]
    · simp [received, only, same, Ne.symm same]
  · have apart : delivery ≠ number := by omega
    simp [received, apart]

theorem numbered (tale : Tale history outer past added) {delivery : Nat} (member : delivery ∈ openings added) :
    (openings past).length ≤ delivery ∧ delivery < (openings past).length + (openings added).length := by
  rw [tale.opened, List.mem_range'_1] at member
  exact member

theorem append {further : List Occurrence} (tale : Tale history outer past added)
    (next : Tale history other (past ++ added) further)
    (silent : ∀ delivery, (openings past).length ≤ delivery → other delivery = []) :
    Tale history (fun delivery => outer delivery ++ other delivery) past (added ++ further) where
  opened := by
    rw [openings_append, List.length_append, ← List.range'_append_1, ← tale.opened]
    refine congrArg (openings added ++ ·) ?_
    have opened := next.opened
    rw [openings_append, List.length_append] at opened
    exact opened
  earlier delivery below := by
    have before : delivery < (openings (past ++ added)).length := by
      rw [openings_append, List.length_append]
      omega
    rw [received_append, tale.earlier delivery below, next.earlier delivery before]
  later delivery beyond := by
    rw [openings_append, List.length_append] at beyond
    rw [received_append, tale.later delivery (by omega), List.nil_append]
    apply next.later
    rw [openings_append, List.length_append]
    omega
  heard before delivery event after split := by
    have here (early : List Occurrence) (same : before = added ++ early)
        (rest : further = early ++ .opened delivery event :: after) :
        received delivery before = [] ∧ received delivery after =
          (audience (roll (history ++ calls (past ++ before))) event).map (event, ·) := by
      obtain ⟨fresh, heard⟩ := next.heard early delivery event after rest
      have member : delivery ∈ openings further := by
        rw [rest, openings_append]
        exact List.mem_append_right _ (List.mem_cons_self ..)
      have above := (next.numbered member).1
      rw [openings_append, List.length_append] at above
      subst same
      rw [received_append, tale.later delivery above, fresh]
      rw [List.append_assoc] at heard
      exact ⟨rfl, heard⟩
    -- The delivery is opened in the further part, or in the added one; there it is over when the further part begins.
    rcases List.append_eq_append_iff.mp split with ⟨early, same, rest⟩ | ⟨left, same, rest⟩
    · exact here early same rest
    · cases left with
      | nil => exact here [] (by simpa using same.symm) (by simpa using rest.symm)
      | cons first late =>
        obtain ⟨rfl, _⟩ := List.cons.inj rest
        have ending : after = late ++ further := (List.cons.inj rest).2
        obtain ⟨fresh, heard⟩ := tale.heard before delivery event late same
        have member : delivery ∈ openings added := by
          rw [same, openings_append]
          exact List.mem_append_right _ (List.mem_cons_self ..)
        obtain ⟨above, below⟩ := tale.numbered member
        have closed : received delivery further = [] := by
          rw [next.earlier delivery (by rw [openings_append, List.length_append]; exact below)]
          exact silent delivery above
        exact ⟨fresh, by rw [ending, received_append, closed, List.append_nil, heard]⟩

theorem delivered {delivery : Nat} {event : Event} (number : delivery = (openings past).length)
    (tale : Tale history
      (only delivery ((audience (roll (history ++ calls past)) event).map (event, ·)))
      (past ++ [.opened delivery event]) added) :
    Tale history (fun _ => []) past (.opened delivery event :: added) := by
  have longer : (openings (past ++ [.opened delivery event])).length = (openings past).length + 1 := by
    rw [openings_append, List.length_append]
    rfl
  have opening : openings (.opened delivery event :: added) = delivery :: openings added := rfl
  have silence (number : Nat) : received number (.opened delivery event :: added) = received number added := rfl
  refine ⟨?_, fun one below => ?_, fun one beyond => ?_, ?_⟩
  · rw [opening, tale.opened, longer, List.length_cons, List.length_range', List.range'_succ, number]
  · rw [silence, tale.earlier one (by omega)]
    exact if_neg (by omega)
  · rw [opening, List.length_cons] at beyond
    rw [silence]
    exact tale.later one (by omega)
  · intro before one raised after split
    cases before with
    | nil =>
      obtain ⟨same, rfl⟩ := List.cons.inj split
      cases same
      refine ⟨rfl, ?_⟩
      rw [tale.earlier delivery (by omega), List.append_nil]
      exact if_pos rfl
    | cons first early =>
      obtain ⟨rfl, rest⟩ := List.cons.inj split
      obtain ⟨fresh, heard⟩ := tale.heard early one raised after rest
      rw [List.append_assoc] at heard
      exact ⟨fresh, heard⟩

end Tale

def Stage.heard (stage : Stage) : List (String × Event) :=
  stage.notes.reverse.filterMap fun
    | .heard label event => some (label, event)
    | .acted _ _ => none

structure Chronicle where
  stage : Stage
  past : List Occurrence := []

namespace Chronicle

def hear (act : Chronicle → Action → Option (Answer × Chronicle)) (delivery : Nat) (event : Event)
    (chronicle : Chronicle) (listener : Scripted) : Option Chronicle :=
  listener.actions.foldlM (fun chronicle action => do
    let (answer, chronicle) ← act chronicle action
    return { chronicle with stage := chronicle.stage.note (.acted listener.label answer) })
    ⟨chronicle.stage.note (.heard listener.label event), chronicle.past ++ [.called delivery event listener]⟩

def announce (act : Chronicle → Action → Option (Answer × Chronicle)) (event : Event) (chronicle : Chronicle) :
    Option Chronicle :=
  let delivery := (openings chronicle.past).length
  deliver (·.stage.registry) (hear act delivery) event
    { chronicle with past := chronicle.past ++ [.opened delivery event] }

def asked (stage : Stage) : Action → Option (Registry.Call Scripted)
  | .add listener skeleton => some (.add skeleton listener.kind listener)
  | .addGeneral listener => some (.addGeneral listener)
  | .remove label => (stage.labels.lookup label).map .remove
  | .size => some .size
  | .notify _ => none
  | .run _ _ => none

def ask (chronicle : Chronicle) (action : Action) : Option (Answer × Chronicle) := do
  let (answer, stage) ← chronicle.stage.perform 1 action
  let asked := (asked chronicle.stage action).map fun call =>
    Occurrence.asked call (chronicle.stage.registry.respond call).1
  return (answer, ⟨stage, chronicle.past ++ asked.toList⟩)

def perform : Nat → Chronicle → Action → Option (Answer × Chronicle)
  | 0, _, _ => none
  | budget + 1, chronicle, action =>
    match action with
    | .notify event => do
      let chronicle ← announce (perform budget) event chronicle
      return (.notified, chronicle)
    | .run skeleton input => do
      let run ← (Program.ofSkeleton skeleton).instantiate.run defaultDepthLimit ampleBudget input
      let chronicle ← run.events.foldlM (fun chronicle event => announce (perform budget) event chronicle) chronicle
      return (.ran run.outcome, chronicle)
    | .add .. | .addGeneral _ | .remove _ | .size => chronicle.ask action

/-! ## A chronicle says nothing about what its stage does -/

theorem foldlM_stage {τ : Type} (step : Chronicle → τ → Option Chronicle) (plain : Stage → τ → Option Stage)
    (erased : ∀ chronicle item, (step chronicle item).map stage = plain chronicle.stage item) (items : List τ)
    (chronicle : Chronicle) : (items.foldlM step chronicle).map stage = items.foldlM plain chronicle.stage := by
  induction items generalizing chronicle with
  | nil => rfl
  | cons item rest ih =>
    rw [List.foldlM_cons, List.foldlM_cons, ← erased]
    cases step chronicle item with
    | none => rfl
    | some next => exact ih next

section

variable {act : Chronicle → Action → Option (Answer × Chronicle)}
  {plain : Stage → Action → Option (Answer × Stage)}
  (erased : ∀ chronicle action, (act chronicle action).map (fun done => (done.1, done.2.stage)) =
    plain chronicle.stage action)

include erased

theorem hear_stage (delivery : Nat) (event : Event) (chronicle : Chronicle) (listener : Scripted) :
    (hear act delivery event chronicle listener).map stage = Stage.hear plain event chronicle.stage listener := by
  refine foldlM_stage _ _ (fun chronicle action => ?_) _ _
  rw [← erased]
  cases act chronicle action <;> rfl

theorem announce_stage (event : Event) (chronicle : Chronicle) :
    (announce act event chronicle).map stage =
      deliver Stage.registry (Stage.hear plain) event chronicle.stage :=
  foldlM_stage _ _ (hear_stage erased _ event) _ _

end

theorem ask_stage (chronicle : Chronicle) (action : Action) :
    (chronicle.ask action).map (fun done => (done.1, done.2.stage)) = chronicle.stage.perform 1 action := by
  rw [ask]
  cases chronicle.stage.perform 1 action <;> rfl

theorem perform_stage (budget : Nat) (chronicle : Chronicle) (action : Action) :
    (perform budget chronicle action).map (fun done => (done.1, done.2.stage)) =
      chronicle.stage.perform budget action := by
  induction budget generalizing chronicle action with
  | zero => rfl
  | succ budget ih =>
    cases action with
    | notify event =>
      rw [perform, Stage.perform, ← announce_stage ih]
      cases announce (perform budget) event chronicle <;> rfl
    | run skeleton input =>
      rw [perform, Stage.perform]
      cases (Program.ofSkeleton skeleton).instantiate.run defaultDepthLimit ampleBudget input with
      | none => rfl
      | some run =>
        have heard := foldlM_stage _
          (fun stage event => deliver Stage.registry (Stage.hear (Stage.perform budget)) event stage)
          (fun chronicle event => announce_stage ih event chronicle) run.events chronicle
        simp only [Option.bind_eq_bind, Option.bind_some, ← heard]
        cases run.events.foldlM (fun chronicle event => announce (perform budget) event chronicle) chronicle <;> rfl
    | _ => exact ask_stage chronicle _

/-! ## What a chronicle tells -/

/-- From one chronicle to a later one, where the deliveries that were open call the `outer` listeners. -/
structure Grows (history : History Scripted) (outer : Nat → List (Event × Scripted))
    (chronicle next : Chronicle) (added : List Occurrence) : Prop where
  past : next.past = chronicle.past ++ added
  tale : Tale history outer chronicle.past added
  reached : Reaches (history ++ calls next.past) next.stage.registry
  noted : next.stage.heard = chronicle.stage.heard ++ hearings added

variable {history : History Scripted} {chronicle next : Chronicle} {added : List Occurrence}
  {outer other : Nat → List (Event × Scripted)}

theorem Grows.refl (reached : Reaches (history ++ calls chronicle.past) chronicle.stage.registry) :
    Grows history (fun _ => []) chronicle chronicle [] :=
  ⟨(List.append_nil _).symm, Tale.nil, reached, (List.append_nil _).symm⟩

theorem Grows.append {last : Chronicle} {further : List Occurrence} (grows : Grows history outer chronicle next added)
    (later : Grows history other next last further)
    (silent : ∀ delivery, (openings chronicle.past).length ≤ delivery → other delivery = []) :
    Grows history (fun delivery => outer delivery ++ other delivery) chronicle last (added ++ further) where
  past := by rw [later.past, grows.past, List.append_assoc]
  tale := by
    have tale := later.tale
    rw [grows.past] at tale
    exact grows.tale.append tale silent
  reached := later.reached
  noted := by rw [later.noted, grows.noted, hearings_append, List.append_assoc]

theorem Grows.acted (grows : Grows history outer chronicle next added) (label : String) (answer : Answer) :
    Grows history outer chronicle { next with stage := next.stage.note (.acted label answer) } added where
  past := grows.past
  tale := grows.tale
  reached := grows.reached
  noted := by
    rw [← grows.noted]
    simp [Stage.heard, Stage.note]

theorem Grows.congr (grows : Grows history outer chronicle next added)
    (same : ∀ delivery, outer delivery = other delivery) : Grows history other chronicle next added :=
  funext same ▸ grows

theorem grows_foldlM {τ : Type} {step : Chronicle → τ → Option Chronicle} (number : Nat)
    (given : τ → Nat → List (Event × Scripted)) (silent : ∀ item delivery, number ≤ delivery → given item delivery = [])
    (grows : ∀ chronicle item next, number ≤ (openings chronicle.past).length →
      Reaches (history ++ calls chronicle.past) chronicle.stage.registry → step chronicle item = some next →
      ∃ added, Grows history (given item) chronicle next added)
    (items : List τ) {chronicle last : Chronicle} (reserved : number ≤ (openings chronicle.past).length)
    (reached : Reaches (history ++ calls chronicle.past) chronicle.stage.registry)
    (done : items.foldlM step chronicle = some last) :
    ∃ added, Grows history (fun delivery => items.flatMap (given · delivery)) chronicle last added := by
  induction items generalizing chronicle with
  | nil =>
    cases done
    exact ⟨[], Grows.refl reached⟩
  | cons item rest ih =>
    rw [List.foldlM_cons] at done
    obtain ⟨next, stepped, done⟩ := Option.bind_eq_some_iff.mp done
    obtain ⟨added, first⟩ := grows chronicle item next reserved reached stepped
    have longer : (openings chronicle.past).length ≤ (openings next.past).length := by
      rw [first.past, openings_append, List.length_append]
      omega
    obtain ⟨further, later⟩ := ih (Nat.le_trans reserved longer) first.reached done
    refine ⟨added ++ further, first.append later fun delivery beyond => ?_⟩
    exact List.flatMap_eq_nil_iff.mpr fun item _ => silent item delivery (Nat.le_trans reserved beyond)

section

variable {act : Chronicle → Action → Option (Answer × Chronicle)}
  (grows : ∀ chronicle action answer next, Reaches (history ++ calls chronicle.past) chronicle.stage.registry →
    act chronicle action = some (answer, next) → ∃ added, Grows history (fun _ => []) chronicle next added)

include grows

theorem hear_grows {delivery : Nat} {event : Event} {listener : Scripted}
    (isOpen : delivery < (openings chronicle.past).length)
    (reached : Reaches (history ++ calls chronicle.past) chronicle.stage.registry)
    (heard : hear act delivery event chronicle listener = some next) :
    ∃ added, Grows history (Tale.only delivery [(event, listener)]) chronicle next added := by
  let begun : Chronicle :=
    ⟨chronicle.stage.note (.heard listener.label event), chronicle.past ++ [.called delivery event listener]⟩
  have calling : Grows history (Tale.only delivery [(event, listener)]) chronicle begun
      [.called delivery event listener] := by
    refine ⟨rfl, Tale.called isOpen event listener, ?_, ?_⟩
    · have same : calls begun.past = calls chronicle.past := by
        simp [begun, calls]
      rw [same]
      exact reached
    · simp [begun, Stage.heard, Stage.note, hearings]
  obtain ⟨added, acting⟩ := grows_foldlM 0 (fun _ _ => []) (fun _ _ _ => rfl)
    (fun before action after _ reached acted => by
      obtain ⟨⟨answer, middle⟩, performed, same⟩ := Option.bind_eq_some_iff.mp acted
      cases same
      obtain ⟨added, grown⟩ := grows before action answer middle reached performed
      exact ⟨added, grown.acted listener.label answer⟩)
    listener.actions (Nat.zero_le _) calling.reached heard
  have together := calling.append acting fun _ _ => by simp
  exact ⟨_, together.congr fun _ => by simp⟩

theorem announce_grows {event : Event} (reached : Reaches (history ++ calls chronicle.past) chronicle.stage.registry)
    (announced : announce act event chronicle = some next) :
    ∃ added, Grows history (fun _ => []) chronicle next added := by
  let delivery := (openings chronicle.past).length
  let begun : Chronicle := { chronicle with past := chronicle.past ++ [.opened delivery event] }
  have counted : (openings begun.past).length = delivery + 1 := by simp [begun, openings, delivery]
  have unasked : calls begun.past = calls chronicle.past := by simp [begun, calls]
  -- Whom the delivery calls is settled before the first of them acts.
  have snapshot : announce act event chronicle =
      (audience (roll (history ++ calls chronicle.past)) event).foldlM (hear act delivery event) begun :=
    Reaches.deliver (fun chronicle : Chronicle => chronicle.stage.registry) begun reached _ event
  rw [snapshot] at announced
  obtain ⟨added, grown⟩ := grows_foldlM (delivery + 1)
    (fun listener => Tale.only delivery [(event, listener)])
    (fun _ number beyond => if_neg (by omega))
    (fun before listener after reserved reached heard => hear_grows grows (by omega) reached heard)
    _ (Nat.le_of_eq counted.symm) (by rw [unasked]; exact reached) announced
  have whole : Grows history
      (Tale.only delivery ((audience (roll (history ++ calls chronicle.past)) event).map (event, ·)))
      begun next added := by
    refine grown.congr fun number => ?_
    by_cases same : number = delivery
    · simp [Tale.only, same, List.map_eq_flatMap]
    · simp [Tale.only, same]
  refine ⟨.opened delivery event :: added, ?_, whole.tale.delivered rfl, whole.reached, whole.noted⟩
  rw [whole.past, List.append_assoc]
  rfl

end

theorem perform_asked {stage after : Stage} {action : Action} {answer : Answer}
    (events : ∀ event, action ≠ .notify event) (programs : ∀ skeleton input, action ≠ .run skeleton input)
    (done : stage.perform 1 action = some (answer, after)) :
    after.notes = stage.notes ∧
      (asked stage action = none ∧ after.registry = stage.registry ∨
        ∃ call, asked stage action = some call ∧ after.registry = (stage.registry.respond call).2) := by
  cases action with
  | notify event => exact absurd rfl (events event)
  | run skeleton input => exact absurd rfl (programs skeleton input)
  | add listener skeleton =>
    rw [Stage.perform] at done
    split at done
    · rename_i accepted
      cases done
      exact ⟨rfl, .inr ⟨_, rfl, by simp only [respond, accepted]⟩⟩
    · rename_i refused
      cases done
      exact ⟨rfl, .inr ⟨_, rfl, by simp only [respond, refused]⟩⟩
  | addGeneral listener =>
    cases done
    exact ⟨rfl, .inr ⟨_, rfl, rfl⟩⟩
  | remove label =>
    rw [Stage.perform] at done
    split at done
    · rename_i id found
      cases done
      exact ⟨rfl, .inr ⟨.remove id, by rw [asked, found]; rfl, rfl⟩⟩
    · rename_i unknown
      cases done
      exact ⟨rfl, .inl ⟨by rw [asked, unknown]; rfl, rfl⟩⟩
  | size =>
    cases done
    exact ⟨rfl, .inr ⟨_, rfl, rfl⟩⟩

theorem ask_grows {action : Action} {answer : Answer} (events : ∀ event, action ≠ .notify event)
    (programs : ∀ skeleton input, action ≠ .run skeleton input)
    (reached : Reaches (history ++ calls chronicle.past) chronicle.stage.registry)
    (done : chronicle.ask action = some (answer, next)) :
    ∃ added, Grows history (fun _ => []) chronicle next added := by
  obtain ⟨⟨answer, after⟩, performed, same⟩ := Option.bind_eq_some_iff.mp done
  cases same
  obtain ⟨notes, ⟨unasked, same⟩ | ⟨call, called, answered⟩⟩ := perform_asked events programs performed
  · refine ⟨[], ?_, Tale.nil, ?_, ?_⟩
    · rw [unasked]
      rfl
    · rw [unasked, same]
      simpa using reached
    · simp [Stage.heard, notes, hearings]
  · refine ⟨[.asked call (chronicle.stage.registry.respond call).1], ?_, Tale.asked _ _, ?_, ?_⟩
    · rw [called]
      rfl
    · have longer := reached.called call
      rw [List.append_assoc] at longer
      rw [called, answered, Option.map_some, Option.toList_some, calls_append]
      exact longer
    · simp [Stage.heard, notes, hearings]

theorem perform_grows {budget : Nat} {action : Action} {answer : Answer}
    (reached : Reaches (history ++ calls chronicle.past) chronicle.stage.registry)
    (done : perform budget chronicle action = some (answer, next)) :
    ∃ added, Grows history (fun _ => []) chronicle next added := by
  -- What listeners do while they are called has a smaller budget than the action that called them.
  induction budget generalizing chronicle action answer next with
  | zero => cases done
  | succ budget ih =>
    have grows (chronicle : Chronicle) (action : Action) (answer : Answer) (next : Chronicle)
        (reached : Reaches (history ++ calls chronicle.past) chronicle.stage.registry)
        (done : perform budget chronicle action = some (answer, next)) :
        ∃ added, Grows history (fun _ => []) chronicle next added := ih reached done
    cases action with
    | notify event =>
      obtain ⟨after, announced, same⟩ := Option.bind_eq_some_iff.mp done
      cases same
      exact announce_grows grows reached announced
    | run skeleton input =>
      obtain ⟨run, _, done⟩ := Option.bind_eq_some_iff.mp done
      obtain ⟨after, announced, same⟩ := Option.bind_eq_some_iff.mp done
      cases same
      obtain ⟨added, grown⟩ := grows_foldlM 0 (fun _ _ => []) (fun _ _ _ => rfl)
        (fun before event after _ reached heard => announce_grows grows reached heard)
        run.events (Nat.zero_le _) reached announced
      exact ⟨added, grown.congr fun _ => by simp⟩
    | _ => exact ask_grows (by simp) (by simp) reached done

end Chronicle

/-- A listener is called with an event for every delivery that it was registered for when the delivery was opened:
    with the innermost skeleton of the trace, or in general. What is asked of the registry meanwhile, by whomever,
    makes a difference to the deliveries opened afterwards, and to no other. -/
theorem Stage.deliveries_settled {history : History Scripted} {stage last : Stage} {budget : Nat}
    {actions : List Action} (reached : Reaches history stage.registry)
    (done : actions.foldlM (fun stage action => (stage.perform budget action).map Prod.snd) stage = some last) :
    ∃ past, actions.foldlM (fun chronicle action => (Chronicle.perform budget chronicle action).map Prod.snd)
        ⟨stage, []⟩ = some ⟨last, past⟩ ∧
      Reaches (history ++ calls past) last.registry ∧ last.heard = stage.heard ++ hearings past ∧
      openings past = List.range (openings past).length ∧
      ∀ before delivery event after, past = before ++ .opened delivery event :: after →
        received delivery before = [] ∧
          received delivery after = (audience (roll (history ++ calls before)) event).map (event, ·) := by
  have erased := Chronicle.foldlM_stage
    (fun chronicle action => (Chronicle.perform budget chronicle action).map Prod.snd)
    (fun stage action => (stage.perform budget action).map Prod.snd)
    (fun chronicle action => by rw [← Chronicle.perform_stage, Option.map_map, Option.map_map]; rfl)
    actions ⟨stage, []⟩
  rw [done] at erased
  obtain ⟨⟨_, past⟩, run, same⟩ := Option.map_eq_some_iff.mp erased
  cases same
  have start : Reaches (history ++ calls []) stage.registry := by
    rw [show calls [] = [] from rfl, List.append_nil]
    exact reached
  obtain ⟨added, grown⟩ := Chronicle.grows_foldlM 0 (fun _ _ => []) (fun _ _ _ => rfl)
    (fun before action after _ reached acted => by
      obtain ⟨⟨answer, middle⟩, performed, same⟩ := Option.map_eq_some_iff.mp acted
      cases same
      exact Chronicle.perform_grows reached performed)
    actions (Nat.zero_le _) start run
  obtain rfl : past = added := grown.past
  refine ⟨past, run, grown.reached, grown.noted, ?_, grown.tale.heard⟩
  rw [List.range_eq_range']
  exact grown.tale.opened

theorem Stage.deliveries_settled_unruly :
    let outer : Event := ⟨.before, .nested, [⟨4, .seq, 0⟩], .null⟩
    let inner : Event := ⟨.after, .nested, [], .null⟩
    let keep : Skeleton := .seq 4 ⟨"keep", .ok⟩
    let late : Scripted := .mk "late" none []
    let unruly : Scripted := .mk "unruly" none
      [.remove "unruly", .remove "late", .addGeneral (.mk "new" none []), .notify inner]
    let actions : List Action :=
      [.add (.mk "attached" (some .seq) []) keep, .addGeneral unruly, .addGeneral late, .notify outer, .notify outer]
    ∃ last past,
      actions.foldlM (fun stage action => (stage.perform 3 action).map Prod.snd) ({} : Stage) = some last ∧
      Reaches (calls past) last.registry ∧ last.heard = hearings past ∧
      hearings past = [("attached", outer), ("unruly", outer), ("new", inner), ("late", outer), ("attached", outer),
        ("new", outer)] ∧
      ∀ before delivery event after, past = before ++ .opened delivery event :: after →
        received delivery after = (audience (roll (calls before)) event).map (event, ·) := by
  intro outer inner keep late unruly actions
  obtain ⟨past, run, reached, heard, _, settled⟩ :=
    @Stage.deliveries_settled [] {} _ 3 actions .fresh rfl
  exact ⟨_, past, rfl, reached, heard, heard.symm, fun before delivery event after split =>
    (settled before delivery event after split).2⟩

end Skeletons
