import Skeletons.Engine
import Skeletons.Proofs.Engine.Work
import Skeletons.Proofs.Task.Places
import Skeletons.Proofs.Task.Sound

namespace Skeletons

mutual

/-- The work of a job at a place among its siblings. Jobs that have finished have not reported yet. -/
def Job.work (place : Nat) : Job → Work
  | .queued task => .ready place task
  | .running task => .ready place task
  | .waiting task children =>
    .waiting place task (Job.works 0 children) (List.replicate children.length none)
  | .finished outcome => .done place outcome

def Job.works (place : Nat) : List Job → List Work
  | [] => []
  | job :: rest => job.work place :: Job.works (place + 1) rest

end

namespace Work

variable {limit : Nat}

theorem Steps.one {work next : Work} {events : List Event} (step : Step limit work events next) :
    Steps limit work events next := by
  have single : Steps limit work ([] ++ events) next := .step .none step
  exact single

theorem Steps.trans {first work last : Work} {log events : List Event} (early : Steps limit first log work)
    (late : Steps limit work events last) : Steps limit first (log ++ events) last := by
  induction late with
  | none => exact (List.append_nil log).symm ▸ early
  | step _ last ih =>
    rw [← List.append_assoc]
    exact .step ih last

theorem Steps.child {place : Nat} {task : Task} {before after : List Work} {work next : Work}
    {slots : List (Option Value)} {events : List Event} (steps : Steps limit work events next) :
    Steps limit (.waiting place task (before ++ work :: after) slots) events
      (.waiting place task (before ++ next :: after) slots) := by
  induction steps with
  | none => exact .none
  | step _ last ih => exact .step ih (.child last)

end Work

namespace Job

variable {limit budget : Nat}

theorem works_queued {children : List Child} (start : Nat)
    (placed : children.map Child.index = List.range' start children.length) :
    works start (children.map fun child => .queued (Task.ofChild child)) = children.map Work.ofChild := by
  induction children generalizing start with
  | nil => rfl
  | cons child rest ih =>
    rw [List.map_cons, List.length_cons, List.range'_succ, List.cons.injEq] at placed
    rw [List.map_cons, works, ih (start + 1) placed.2, work, List.map_cons, Work.ofChild, placed.1]

theorem step_afterStretch (place : Nat) {task : Task} (rests : (task.step limit).result ≠ .ok .more) :
    Work.Step limit (.ready place task) (task.step limit).events
      ((afterStretch (task.step limit)).work place) := by
  cases stood : (task.step limit).result with
  | error failure =>
    have after : afterStretch (task.step limit) = .finished (.error failure) := by
      simp only [afterStretch, stood]
    rw [after]
    exact .failed stood
  | ok progress =>
    cases progress with
    | more => exact absurd stood rests
    | done =>
      have after : afterStretch (task.step limit) = .finished (.ok (task.step limit).task.value) := by
        simp only [afterStretch, stood]
      rw [after]
      exact .ended stood
    | split =>
      have after : afterStretch (task.step limit) =
          .waiting (task.step limit).task.takeChildren.2
            ((task.step limit).task.takeChildren.1.map fun child => .queued (Task.ofChild child)) := by
        simp only [afterStretch, stood]
      have placed := Task.split_places stood
      rw [after, work, works_queued 0 (placed.trans List.range_eq_range'), List.length_map]
      exact .split stood

theorem steps_advanceFrom (place : Nat) {task : Task} {log : List Event} {stepped : Stepped}
    (came : task.advanceFrom limit budget log = some stepped) :
    ∃ events, stepped.events = log.reverse ++ events ∧
      Work.Steps limit (.ready place task) events ((afterStretch stepped).work place) := by
  induction budget generalizing task log with
  | zero => cases came
  | succ budget ih =>
    rw [Task.advanceFrom] at came
    by_cases goes : (task.step limit).result = .ok .more
    · simp only [goes] at came
      obtain ⟨events, told, steps⟩ := ih came
      refine ⟨(task.step limit).events ++ events, ?_, (Work.Steps.one (.more goes)).trans steps⟩
      rw [told, List.reverse_append, List.reverse_reverse, List.append_assoc]
    · have ended : some { task.step limit with
          events := ((task.step limit).events.reverse ++ log).reverse } = some stepped := by
        rw [← came]
        split
        · contradiction
        · rfl
      cases ended
      refine ⟨(task.step limit).events, ?_, Work.Steps.one (step_afterStretch place goes)⟩
      rw [List.reverse_append, List.reverse_reverse]

theorem steps_advance (place : Nat) {task : Task} {stepped : Stepped}
    (came : task.advance limit budget = some stepped) :
    Work.Steps limit (.ready place task) stepped.events ((afterStretch stepped).work place) := by
  obtain ⟨events, told, steps⟩ := steps_advanceFrom place came
  rw [told]
  exact steps

theorem verdict_ok {job : Job} {rest : List Job} {values : List Value}
    (all : verdict (job :: rest) = some (.ok values)) :
    ∃ value others, job = .finished (.ok value) ∧ verdict rest = some (.ok others) ∧
      values = value :: others := by
  match job with
  | .finished (.ok value) =>
    rw [verdict, Option.map_eq_some_iff] at all
    obtain ⟨outcome, came, same⟩ := all
    match outcome with
    | .ok others =>
      cases same
      exact ⟨value, others, rfl, came, rfl⟩
    | .error failure => cases same
  | .finished (.error failure) => cases all
  | .queued _ | .running _ | .waiting _ _ =>
    simp only [verdict] at all
    split at all
    · cases all
    · cases all

theorem verdict_error {children : List Job} {failure : Failure}
    (failed : verdict children = some (.error failure)) :
    ∃ before after, children = before ++ .finished (.error failure) :: after := by
  induction children with
  | nil => cases failed
  | cons job rest ih =>
    have among : verdict rest = some (.error failure) →
        ∃ before after, job :: rest = before ++ .finished (.error failure) :: after := by
      intro below
      obtain ⟨before, after, same⟩ := ih below
      exact ⟨job :: before, after, congrArg (job :: ·) same⟩
    match job, failed with
    | .finished (.error reason), failed =>
      cases failed
      exact ⟨[], rest, rfl⟩
    | .finished (.ok value), failed =>
      rw [verdict, Option.map_eq_some_iff] at failed
      obtain ⟨outcome, came, same⟩ := failed
      match outcome with
      | .ok others => cases same
      | .error reason =>
        cases same
        exact among came
    | .queued _, failed | .running _, failed | .waiting _ _, failed =>
      simp only [verdict] at failed
      split at failed
      · rename_i reason came
        cases failed
        exact among came
      · cases failed

theorem works_append (start : Nat) (first second : List Job) :
    works start (first ++ second) = works start first ++ works (start + first.length) second := by
  induction first generalizing start with
  | nil => rfl
  | cons job rest ih =>
    simp only [List.cons_append, works, ih, List.length_cons]
    rw [Nat.add_assoc start 1, Nat.add_comm 1]

theorem steps_report (place : Nat) (task : Task) {children : List Job} {values : List Value}
    (all : verdict children = some (.ok values)) (earlier : List Value) :
    Work.Steps limit
      (.waiting place task (works earlier.length children)
        (earlier.map some ++ List.replicate children.length none)) []
      (.waiting place task [] ((earlier ++ values).map some)) := by
  induction children generalizing earlier values with
  | nil =>
    cases all
    simp only [List.length_nil, List.replicate_zero, List.append_nil]
    exact .none
  | cons job rest ih =>
    obtain ⟨value, others, rfl, below, rfl⟩ := verdict_ok all
    have within : earlier.length < (earlier.map some ++ List.replicate (rest.length + 1) none).length := by
      simp only [List.length_append, List.length_map, List.length_replicate]
      omega
    have kept : (earlier.map some ++ List.replicate (rest.length + 1) none).set earlier.length (some value) =
        (earlier ++ [value]).map some ++ List.replicate rest.length none := by
      rw [List.set_append_right _ _ (by simp), List.length_map, Nat.sub_self, List.replicate_succ,
        List.set_cons_zero, List.map_append, List.append_assoc]
      rfl
    have reported : Work.Step limit
        (.waiting place task ([] ++ .done earlier.length (.ok value) :: works (earlier.length + 1) rest)
          (earlier.map some ++ List.replicate (rest.length + 1) none)) []
        (.waiting place task ([] ++ works (earlier.length + 1) rest)
          ((earlier ++ [value]).map some ++ List.replicate rest.length none)) :=
      kept ▸ Work.Step.reported within
    have later := ih below (earlier ++ [value])
    rw [List.length_append, List.append_assoc] at later
    exact (Work.Steps.one reported).trans later

theorem step_broken (place : Nat) (task : Task) {children : List Job} {failure : Failure}
    (failed : verdict children = some (.error failure)) (start : Nat) (slots : List (Option Value)) :
    Work.Step limit (.waiting place task (works start children) slots) [] (.done place (.error failure)) := by
  obtain ⟨before, after, rfl⟩ := verdict_error failed
  rw [works_append]
  exact .broken

theorem steps_afterChildren (place : Nat) (task : Task) {children : List Job}
    {outcome : Except Failure (List Value)} (came : verdict children = some outcome) :
    Work.Steps limit ((waiting task children).work place) (afterChildren task children outcome).events
      ((afterChildren task children outcome).after.work place) := by
  match outcome with
  | .error failure => exact Work.Steps.one (step_broken place task came 0 _)
  | .ok results =>
    have gathers : Work.Steps limit ((waiting task children).work place) []
        (.waiting place task [] (results.map some)) := steps_report place task came []
    cases resumes : (task.resume results).1 with
    | true =>
      have after : afterChildren task children (.ok results) =
          { after := .queued (task.resume results).2 } := by
        simp only [afterChildren, resumes, if_true]
      rw [after]
      exact .step gathers (.resumed resumes)
    | false =>
      have after : afterChildren task children (.ok results) =
          { after := .finished (.error (.structural .notResumed)) } := by
        simp only [afterChildren, resumes, Bool.false_eq_true, if_false]
      rw [after]
      exact .step gathers (.refused resumes)

mutual

theorem steps_of_advance : ∀ (job : Job) (place : Nat) {transition : Transition} {change : Change Job},
    advance? limit budget transition job = some change →
      Work.Steps limit (job.work place) change.events (change.after.work place)
  | .queued task, place, transition, change, came => by
    rw [advance?] at came
    split at came
    · cases came
      exact .none
    · cases came
  | .running task, place, transition, change, came => by
    rw [advance?] at came
    split at came
    · rw [Option.map_eq_some_iff] at came
      obtain ⟨stepped, stretched, same⟩ := came
      cases same
      exact steps_advance place stretched
    · cases came
  | .waiting task children, place, transition, change, came => by
    rw [advance?] at came
    cases settled : verdict children with
    | some outcome =>
      simp only [settled] at came
      split at came
      · cases came
        exact steps_afterChildren place task settled
      · cases came
    | none =>
      simp only [settled, Option.map_eq_some_iff] at came
      obtain ⟨below, first, same⟩ := came
      cases same
      obtain ⟨before, after, inner, next, started, ended, steps, counted⟩ := steps_of_first children 0 first
      rw [work, started]
      change Work.Steps limit _ below.events
        (.waiting place task (works 0 below.after) (List.replicate below.after.length none))
      rw [ended, counted]
      exact steps.child
  | .finished outcome, place, transition, change, came => by cases came

theorem steps_of_first : ∀ (jobs : List Job) (start : Nat) {transition : Transition}
    {change : Change (List Job)}, advanceFirst? limit budget transition jobs = some change →
      ∃ before after inner next, works start jobs = before ++ inner :: after ∧
        works start change.after = before ++ next :: after ∧
        Work.Steps limit inner change.events next ∧ change.after.length = jobs.length
  | [], start, transition, change, came => by cases came
  | job :: rest, start, transition, change, came => by
    rw [advanceFirst?] at came
    cases own : advance? limit budget transition job with
    | some first =>
      simp only [own] at came
      cases came
      exact ⟨[], works (start + 1) rest, job.work start, first.after.work start, rfl, rfl,
        steps_of_advance job start own, rfl⟩
    | none =>
      simp only [own, Option.map_eq_some_iff] at came
      obtain ⟨below, later, same⟩ := came
      cases same
      obtain ⟨before, after, inner, next, started, ended, steps, counted⟩ :=
        steps_of_first rest (start + 1) later
      refine ⟨job.work start :: before, after, inner, next, ?_, ?_, steps, congrArg (· + 1) counted⟩
      · rw [works, started, List.cons_append]
      · change works start (job :: below.after) = _
        rw [works, ended, List.cons_append]

end

end Job

namespace Pool

variable {limit budget : Nat}

def Holds (limit : Nat) (first : Work) (pool : Pool) : Prop :=
  ∃ job, pool.jobs = [job] ∧ Work.Steps limit first pool.log.reverse (job.work 0)

theorem Holds.after {first : Work} {pool : Pool} (holds : pool.Holds limit first) {transition : Transition}
    {next : Pool}
    (came : (Job.advanceFirst? limit budget transition pool.jobs).map pool.afterChange = some next) :
    next.Holds limit first := by
  obtain ⟨job, alone, steps⟩ := holds
  rw [alone, Option.map_eq_some_iff] at came
  obtain ⟨change, made, rfl⟩ := came
  rw [Job.advanceFirst?] at made
  cases own : Job.advance? limit budget transition job with
  | none =>
    simp only [own] at made
    cases made
  | some first =>
    simp only [own] at made
    cases made
    refine ⟨first.after, rfl, ?_⟩
    change Work.Steps limit _ (first.events.reverse ++ pool.log).reverse _
    rw [List.reverse_append, List.reverse_reverse]
    exact steps.trans (Job.steps_of_advance job 0 own)

theorem Holds.step {first : Work} {pool next : Pool} (holds : pool.Holds limit first)
    (came : pool.step? limit budget = some next) : next.Holds limit first := by
  rw [step?] at came
  split at came
  · rename_i settled
    cases came
    exact holds.after settled
  · rename_i started
    cases came
    split at started
    · exact holds.after started
    · cases started
  · split at came
    · rename_i stopped
      cases came
      exact holds.after stopped
    · split at came
      · cases came
        exact holds
      · cases came

theorem Holds.settle {first : Work} {steps : Nat} {pool last : Pool} (holds : pool.Holds limit first)
    (came : pool.settle limit budget steps = some last) : last.Holds limit first := by
  induction steps generalizing pool with
  | zero => cases came
  | succ steps ih =>
    rw [Pool.settle] at came
    cases moved : pool.step? limit budget with
    | none =>
      simp only [moved] at came
      cases came
      exact holds
    | some next =>
      simp only [moved] at came
      exact ih (holds.step moved) came

end Pool

/-- What an engine answers for one input is what some schedule of the steps of its tasks leads to. -/
theorem Engine.steps_of_runAll {engine : Engine} {program : Program} {budget : Nat} {input : Value}
    {outcomes : List (Except Failure Value)} {events : List Event}
    (ran : engine.runAll program budget [input] = some (outcomes, events)) :
    ∃ outcome, outcomes = [outcome] ∧
      Work.Steps engine.depthLimit (.ready 0 (program.task input)) events (.done 0 outcome) := by
  simp only [runAll, Option.bind_eq_bind, Option.bind_eq_some_iff, Option.pure_def, Option.some.injEq,
    Prod.mk.injEq] at ran
  obtain ⟨last, settled, answers, ended, rfl, rfl⟩ := ran
  have starts : (Pool.ofTasks engine [program.task input]).Holds engine.depthLimit
      (.ready 0 (program.task input)) := ⟨_, rfl, .none⟩
  obtain ⟨job, alone, steps⟩ := starts.settle settled
  rw [Pool.outcomes?, alone] at ended
  match job with
  | .finished outcome =>
    cases ended
    exact ⟨outcome, rfl, steps⟩
  | .queued _ | .running _ | .waiting _ _ => cases ended

end Skeletons
