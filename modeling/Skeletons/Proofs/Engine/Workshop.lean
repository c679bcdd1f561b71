import Mathlib.Logic.Relation
import Skeletons.Proofs.Engine.Job
import Skeletons.Proofs.Program.Nesting

namespace Skeletons

namespace Job

mutual

def stretches : Job → List Task
  | .running task => [task]
  | .waiting _ children => stretchesOf children
  | .queued _ | .finished _ => []

def stretchesOf : List Job → List Task
  | [] => []
  | job :: rest => stretches job ++ stretchesOf rest

end

@[simp] theorem stretchesOf_append (first second : List Job) :
    stretchesOf (first ++ second) = stretchesOf first ++ stretchesOf second := by
  induction first with
  | nil => rfl
  | cons job rest ih => rw [List.cons_append, stretchesOf, stretchesOf, ih, List.append_assoc]

theorem stretchesOf_eq_nil {jobs : List Job} : stretchesOf jobs = [] ↔ ∀ job ∈ jobs, job.stretches = [] := by
  induction jobs with
  | nil => exact ⟨fun _ _ impossible => absurd impossible List.not_mem_nil, fun _ => rfl⟩
  | cons job rest ih => rw [stretchesOf, List.append_eq_nil_iff, ih, List.forall_mem_cons]

mutual

theorem length_stretches : ∀ job : Job, job.stretches.length = job.permits
  | .running _ => rfl
  | .waiting _ children => length_stretchesOf children
  | .queued _ | .finished _ => rfl

theorem length_stretchesOf : ∀ jobs : List Job, (stretchesOf jobs).length = permitsOf jobs
  | [] => rfl
  | job :: rest => by rw [stretchesOf, permitsOf, List.length_append, length_stretches, length_stretchesOf]

end

def Ended (job : Job) : Prop := ∃ outcome, job = .finished outcome

theorem Ended.stretches {job : Job} (ended : job.Ended) : job.stretches = [] := by
  obtain ⟨outcome, rfl⟩ := ended
  rfl

/-- A turn of one task of a tree of jobs, with the free permits before and after it. A failed child ends its
    parent at once, and all jobs of the children are dropped. -/
inductive Turn (limit : Nat) : Nat → Job → Nat → Job → List Job → Prop where
  | start {free : Nat} {task : Task} : Turn limit (free + 1) (.queued task) free (.running task) []
  | stop {free budget : Nat} {task : Task} {stepped : Stepped} :
    task.advance limit budget = some stepped →
      Turn limit free (.running task) (free + 1) (afterStretch stepped) []
  | child {free freed : Nat} {task : Task} {before after dropped : List Job} {job next : Job} :
    Turn limit free job freed next dropped →
      Turn limit free (.waiting task (before ++ job :: after)) freed (.waiting task (before ++ next :: after))
        dropped
  | broken {free : Nat} {task : Task} {children : List Job} {failure : Failure} :
    .finished (.error failure) ∈ children →
      Turn limit free (.waiting task children) free (.finished (.error failure)) children
  | gathered {free : Nat} {task : Task} {children : List Job} {results : List Value} :
    verdict children = some (.ok results) →
      Turn limit free (.waiting task children) free (afterChildren task children (.ok results)).after []

theorem stretches_afterStretch (stepped : Stepped) : (afterStretch stepped).stretches = [] := by
  rw [afterStretch]
  split
  · rfl
  · refine stretchesOf_eq_nil.mpr fun job member => ?_
    obtain ⟨child, _, rfl⟩ := List.mem_map.mp member
    rfl
  · rfl

theorem quiet_afterChildren (task : Task) (children : List Job) (results : List Value) :
    let change := afterChildren task children (.ok results)
    change.after.stretches = [] ∧ change.taken = 0 ∧ change.returned = 0 ∧ change.abandoned = 0 := by
  dsimp only [afterChildren]
  split <;> exact ⟨rfl, rfl, rfl, rfl⟩

theorem ended_of_verdict {children : List Job} {results : List Value}
    (all : verdict children = some (.ok results)) : ∀ job ∈ children, job.Ended := by
  induction children generalizing results with
  | nil => exact fun _ impossible => absurd impossible List.not_mem_nil
  | cons job rest ih =>
    obtain ⟨value, others, rfl, below, rfl⟩ := verdict_ok all
    exact List.forall_mem_cons.mpr ⟨⟨.ok value, rfl⟩, ih below⟩

theorem Turn.balance {limit free freed : Nat} {job next : Job} {dropped : List Job}
    (turn : Turn limit free job freed next dropped) :
    freed + next.stretches.length + (stretchesOf dropped).length = free + job.stretches.length := by
  induction turn with
  | start => rfl
  | stop =>
    rw [stretches_afterStretch]
    rfl
  | child _ ih =>
    simp only [stretches, stretchesOf_append, stretchesOf, List.length_append]
    omega
  | broken => rfl
  | @gathered free task children results all =>
    have idle : stretchesOf children = [] :=
      stretchesOf_eq_nil.mpr fun job member => (ended_of_verdict all job member).stretches
    rw [(quiet_afterChildren task children results).1, stretches, idle]
    rfl

theorem exists_verdict {children : List Job} (ended : ∀ job ∈ children, job.Ended) :
    ∃ outcome, verdict children = some outcome := by
  induction children with
  | nil => exact ⟨.ok [], rfl⟩
  | cons job rest ih =>
    obtain ⟨⟨outcome, rfl⟩, others⟩ := List.forall_mem_cons.mp ended
    obtain ⟨below, came⟩ := ih others
    cases outcome with
    | error failure => exact ⟨.error failure, rfl⟩
    | ok value => exact ⟨below.map (value :: ·), by rw [verdict, came]; rfl⟩

/-- While a permit is free and no stretch is in progress, a job that has not ended can take a turn, however deep
    the tasks wait on one another. -/
theorem exists_turn (limit free : Nat) (job : Job) (unended : ¬ job.Ended) (idle : job.stretches = []) :
    ∃ freed next dropped, Turn limit (free + 1) job freed next dropped := by
  match job with
  | .queued task => exact ⟨_, _, _, .start⟩
  | .running task => cases idle
  | .finished outcome => exact absurd ⟨outcome, rfl⟩ unended
  | .waiting task children =>
    -- The children of a task that waits all rest too: it has their outcomes, or one of them can take a turn.
    by_cases ended : ∀ child ∈ children, child.Ended
    · obtain ⟨outcome, came⟩ := exists_verdict ended
      cases outcome with
      | ok results => exact ⟨_, _, _, .gathered came⟩
      | error failure =>
        obtain ⟨before, after, rfl⟩ := verdict_error came
        exact ⟨_, _, _, .broken (List.mem_append_right before (List.mem_cons_self ..))⟩
    · obtain ⟨child, member, working⟩ : ∃ child ∈ children, ¬ child.Ended := by
        simpa using ended
      have resting : child.stretches = [] := stretchesOf_eq_nil.mp idle child member
      obtain ⟨freed, next, dropped, turn⟩ := exists_turn limit free child working resting
      obtain ⟨before, after, rfl⟩ := List.append_of_mem member
      exact ⟨_, _, _, .child turn⟩
termination_by sizeOf job
decreasing_by
  have within := List.sizeOf_lt_of_mem member
  simp only [waiting.sizeOf_spec]
  omega

theorem mem_stretchesOf {jobs : List Job} {task : Task} :
    task ∈ stretchesOf jobs ↔ ∃ job ∈ jobs, task ∈ job.stretches := by
  induction jobs with
  | nil => simp [stretchesOf]
  | cons job rest ih => simp [stretchesOf, ih]

theorem exists_stop {limit budget : Nat} {task : Task} {stepped : Stepped}
    (stretched : task.advance limit budget = some stepped) (free : Nat) (job : Job)
    (member : task ∈ job.stretches) : ∃ freed next dropped, Turn limit free job freed next dropped := by
  match job with
  | .queued _ | .finished _ => cases member
  | .running task =>
    rw [List.mem_singleton.mp member] at stretched
    exact ⟨_, _, _, .stop stretched⟩
  | .waiting _ children =>
    obtain ⟨child, among, working⟩ := mem_stretchesOf.mp member
    obtain ⟨freed, next, dropped, turn⟩ := exists_stop stretched free child working
    obtain ⟨before, after, rfl⟩ := List.append_of_mem among
    exact ⟨_, _, _, .child turn⟩
termination_by sizeOf job
decreasing_by
  have within := List.sizeOf_lt_of_mem among
  simp only [waiting.sizeOf_spec]
  omega

def orphans : Job → List Job
  | .waiting _ children => children
  | .queued _ | .running _ | .finished _ => []

/-- How many stretches of a job itself are in progress. Nothing stops them when the job is dropped. -/
def ownStretches : Job → Nat
  | .running _ => 1
  | .queued _ | .waiting _ _ | .finished _ => 0

theorem length_orphans (job : Job) :
    (stretchesOf job.orphans).length + job.ownStretches = job.stretches.length := by
  cases job <;> rfl

end Job

/-- An engine at work: its free permits, the jobs of its runs, jobs that were dropped and may not have noticed
    yet, and how many stretches are in progress whose jobs are gone. -/
structure Workshop where
  free : Nat
  jobs : List Job
  dropped : List Job := []
  adrift : Nat := 0

namespace Workshop

open Job (Turn Ended stretchesOf)

def inProgress (shop : Workshop) : Nat :=
  (stretchesOf shop.jobs).length + (stretchesOf shop.dropped).length + shop.adrift

inductive Step (limit : Nat) : Workshop → Workshop → Prop where
  | job {free freed adrift : Nat} {before after dropped further : List Job} {job next : Job} :
    Turn limit free job freed next further →
      Step limit ⟨free, before ++ job :: after, dropped, adrift⟩
        ⟨freed, before ++ next :: after, further ++ dropped, adrift⟩
  | unnoticed {free freed adrift : Nat} {jobs before after further : List Job} {job next : Job} :
    Turn limit free job freed next further →
      Step limit ⟨free, jobs, before ++ job :: after, adrift⟩
        ⟨freed, jobs, further ++ (before ++ next :: after), adrift⟩
  | ended {free adrift : Nat} {jobs dropped : List Job} :
    Step limit ⟨free, jobs, dropped, adrift + 1⟩ ⟨free + 1, jobs, dropped, adrift⟩

inductive Cancel : Workshop → Workshop → Prop where
  | cancel {free adrift : Nat} {jobs before after : List Job} {job : Job} :
    Cancel ⟨free, jobs, before ++ job :: after, adrift⟩
      ⟨free, jobs, job.orphans ++ (before ++ after), adrift + job.ownStretches⟩

/-- The states of an engine that tasks are given to at any time. -/
inductive Reached (engine : Engine) : Workshop → Prop where
  | idle : Reached engine ⟨max engine.workers 1, [], [], 0⟩
  | submitted {shop : Workshop} (task : Task) :
    Reached engine shop → Reached engine { shop with jobs := shop.jobs ++ [.queued task] }
  | step {shop next : Workshop} : Reached engine shop → Step engine.depthLimit shop next → Reached engine next
  | cancel {shop next : Workshop} : Reached engine shop → Cancel shop next → Reached engine next

theorem Step.balance {limit : Nat} {shop next : Workshop} (step : Step limit shop next) :
    next.free + next.inProgress = shop.free + shop.inProgress := by
  cases step with
  | job turn | unnoticed turn =>
    have balance := turn.balance
    simp only [inProgress, Job.stretchesOf_append, Job.stretchesOf, List.length_append]
    omega
  | ended =>
    simp only [inProgress]
    omega

theorem Cancel.balance {shop next : Workshop} (cancel : Cancel shop next) :
    next.free + next.inProgress = shop.free + shop.inProgress := by
  cases cancel with
  | @cancel free adrift jobs before after job =>
    have balance := job.length_orphans
    simp only [inProgress, Job.stretchesOf_append, Job.stretchesOf, List.length_append]
    omega

theorem Reached.balance {engine : Engine} {shop : Workshop} (reached : Reached engine shop) :
    shop.free + shop.inProgress = max engine.workers 1 := by
  induction reached with
  | idle => rfl
  | submitted task _ ih =>
    rw [← ih]
    simp only [inProgress, Job.stretchesOf_append, Job.stretchesOf, Job.stretches, List.append_nil]
  | step _ step ih => rw [step.balance, ih]
  | cancel _ cancel ih => rw [cancel.balance, ih]

theorem exists_turn_among {limit : Nat} {jobs : List Job} (busy : stretchesOf jobs ≠ [])
    (ending : ∀ task ∈ stretchesOf jobs, ∃ budget stepped, task.advance limit budget = some stepped)
    (free : Nat) :
    ∃ before job after freed next further, jobs = before ++ job :: after ∧ Turn limit free job freed next further := by
  obtain ⟨task, running⟩ := List.exists_mem_of_ne_nil _ busy
  obtain ⟨budget, stepped, stretched⟩ := ending task running
  obtain ⟨job, member, within⟩ := Job.mem_stretchesOf.mp running
  obtain ⟨freed, next, further, turn⟩ := Job.exists_stop stretched free job within
  obtain ⟨before, after, split⟩ := List.append_of_mem member
  exact ⟨before, job, after, freed, next, further, split, turn⟩

theorem exists_step {limit : Nat} {shop : Workshop} (staffed : 0 < shop.free + shop.inProgress)
    (unended : ∃ job ∈ shop.jobs, ¬ job.Ended)
    (ending : ∀ task ∈ stretchesOf shop.jobs ++ stretchesOf shop.dropped,
      ∃ budget stepped, task.advance limit budget = some stepped) : ∃ next, Step limit shop next := by
  obtain ⟨free, jobs, dropped, adrift⟩ := shop
  obtain ⟨live, gone⟩ := List.forall_mem_append.mp ending
  by_cases busy : stretchesOf jobs = []
  · by_cases unnoticed : stretchesOf dropped = []
    · cases adrift with
      | succ adrift => exact ⟨_, .ended⟩
      | zero =>
        -- No stretch is in progress, so a permit is free and a job that has not ended can use it.
        cases free with
        | zero =>
          simp only [inProgress, busy, unnoticed] at staffed
          cases staffed
        | succ free =>
          obtain ⟨job, member, working⟩ := unended
          have resting : job.stretches = [] := Job.stretchesOf_eq_nil.mp busy job member
          obtain ⟨before, after, rfl⟩ := List.append_of_mem member
          obtain ⟨freed, next, further, turn⟩ := job.exists_turn limit free working resting
          exact ⟨_, .job turn⟩
    · obtain ⟨before, job, after, freed, next, further, rfl, turn⟩ := exists_turn_among unnoticed gone free
      exact ⟨_, .unnoticed turn⟩
  · obtain ⟨before, job, after, freed, next, further, rfl, turn⟩ := exists_turn_among busy live free
    exact ⟨_, .job turn⟩

/-! ## Winding down -/

inductive Winds : Workshop → Workshop → Prop where
  | cancel {shop next : Workshop} : Cancel shop next → Winds shop next
  | ended {free adrift : Nat} {jobs dropped : List Job} :
    Winds ⟨free, jobs, dropped, adrift + 1⟩ ⟨free + 1, jobs, dropped, adrift⟩

theorem Winds.balance {shop next : Workshop} (winds : Winds shop next) :
    next.free + next.inProgress = shop.free + shop.inProgress := by
  cases winds with
  | cancel cancel => exact cancel.balance
  | ended => exact (@Step.ended 0 _ _ _ _).balance

open Relation (ReflTransGen)

variable {free : Nat} {jobs : List Job}

theorem cancel_first (job : Job) (rest : List Job) (adrift : Nat) :
    Winds ⟨free, jobs, job :: rest, adrift⟩ ⟨free, jobs, job.orphans ++ rest, adrift + job.ownStretches⟩ :=
  .cancel (@Cancel.cancel free adrift jobs [] rest job)

mutual

theorem cancels : ∀ (job : Job) (rest : List Job) (adrift : Nat),
    ReflTransGen Winds ⟨free, jobs, job :: rest, adrift⟩ ⟨free, jobs, rest, adrift + job.stretches.length⟩
  | .queued task, rest, adrift => .single (cancel_first (.queued task) rest adrift)
  | .running task, rest, adrift => .single (cancel_first (.running task) rest adrift)
  | .finished outcome, rest, adrift => .single (cancel_first (.finished outcome) rest adrift)
  | .waiting task children, rest, adrift =>
    .head (cancel_first (.waiting task children) rest adrift) (cancelsAll children rest adrift)

theorem cancelsAll : ∀ (dropped rest : List Job) (adrift : Nat),
    ReflTransGen Winds ⟨free, jobs, dropped ++ rest, adrift⟩
      ⟨free, jobs, rest, adrift + (stretchesOf dropped).length⟩
  | [], rest, adrift => .refl
  | job :: others, rest, adrift => by
    have first := cancels job (others ++ rest) adrift
    have later := cancelsAll others rest (adrift + job.stretches.length)
    rw [Nat.add_assoc, ← List.length_append] at later
    exact first.trans later

end

theorem ends (free adrift : Nat) (jobs dropped : List Job) :
    ReflTransGen Winds ⟨free, jobs, dropped, adrift⟩ ⟨free + adrift, jobs, dropped, 0⟩ := by
  induction adrift generalizing free with
  | zero => exact .refl
  | succ adrift ih =>
    have later := ih (free + 1)
    rw [Nat.add_assoc, Nat.add_comm 1] at later
    exact .head .ended later

theorem winds_down (shop : Workshop) :
    ∃ free, ReflTransGen Winds shop ⟨free, shop.jobs, [], 0⟩ := by
  obtain ⟨free, jobs, dropped, adrift⟩ := shop
  have cancelled : ReflTransGen Winds ⟨free, jobs, dropped ++ [], adrift⟩
      ⟨free, jobs, [], adrift + (stretchesOf dropped).length⟩ := cancelsAll dropped [] adrift
  rw [List.append_nil] at cancelled
  exact ⟨_, cancelled.trans (ends free _ jobs [])⟩

theorem balance_of_winds {shop next : Workshop} (winds : ReflTransGen Winds shop next) :
    next.free + next.inProgress = shop.free + shop.inProgress := by
  induction winds with
  | refl => rfl
  | tail _ last ih => rw [last.balance, ih]

/-- The permits of an engine are as many as its workers, or one, and each is free or held by a stretch in progress.
    While a run has not ended and every stretch ends, some task can take a turn or give its permit back. When no
    stretch is in progress all permits are free, and once all runs have ended, well or not, it comes to that. -/
theorem permits_kept {engine : Engine} {shop : Workshop} (reached : Reached engine shop) :
    shop.free + shop.inProgress = max engine.workers 1 ∧
      ((∃ job ∈ shop.jobs, ¬ job.Ended) →
        (∀ task ∈ stretchesOf shop.jobs ++ stretchesOf shop.dropped,
          ∃ budget stepped, task.advance engine.depthLimit budget = some stepped) →
        ∃ next, Step engine.depthLimit shop next) ∧
      (shop.inProgress = 0 → shop.free = max engine.workers 1) ∧
      ((∀ job ∈ shop.jobs, job.Ended) → ∃ next, ReflTransGen Winds shop next ∧ next.jobs = shop.jobs ∧
        next.inProgress = 0 ∧ next.free = max engine.workers 1) := by
  have balance := reached.balance
  refine ⟨balance, fun unended ending => exists_step ?_ unended ending, fun quiet => ?_, fun ended => ?_⟩
  · omega
  · omega
  · obtain ⟨free, winds⟩ := shop.winds_down
    have idle : stretchesOf shop.jobs = [] :=
      Job.stretchesOf_eq_nil.mpr fun job member => (ended job member).stretches
    have quiet : (Workshop.mk free shop.jobs [] 0).inProgress = 0 := by
      rw [inProgress, idle]
      rfl
    have kept := balance_of_winds winds
    rw [quiet] at kept
    exact ⟨_, winds, rfl, quiet, by omega⟩

theorem Reached.turn {engine : Engine} {free freed : Nat} {job next : Job} {dropped : List Job}
    (reached : Reached engine ⟨free, [job], [], 0⟩) (turn : Turn engine.depthLimit free job freed next dropped) :
    Reached engine ⟨freed, [next], dropped ++ [], 0⟩ :=
  reached.step (@Step.job _ free freed 0 [] [] [] dropped job next turn)

theorem permits_kept_nested :
    (∃ shop : Workshop, shop.Reached ⟨0, 64⟩ ∧
      (∃ root middle leaf, shop = ⟨0, [.waiting root [.waiting middle [.running leaf]]], [], 0⟩) ∧
      shop.free + shop.inProgress = 1 ∧ ∃ next, Step 64 shop next) ∧
    ∃ shop : Workshop, shop.Reached ⟨2, 64⟩ ∧ (∃ failure, shop.jobs = [.finished (.error failure)]) ∧
      shop.free = 1 ∧ ∃ next, ReflTransGen Winds shop next ∧ next.inProgress = 0 ∧ next.free = 2 := by
  constructor
  · let engine : Engine := ⟨0, 64⟩
    have submitted := Reached.submitted ((Program.ofSkeleton Program.nestedLists).task (.list [.list [.null]]))
      (@Reached.idle engine)
    have split := (submitted.turn .start).turn (@Turn.stop _ _ 20 _ _ rfl)
    have below := (split.turn (@Turn.child _ _ _ _ [] [] [] _ _ .start)).turn
      (@Turn.child _ _ _ _ [] [] [] _ _ (@Turn.stop _ _ 20 _ _ rfl))
    have reached := below.turn (@Turn.child _ _ _ _ [] [] [] _ _ (@Turn.child _ _ _ _ [] [] [] _ _ .start))
    have kept := permits_kept reached
    refine ⟨_, reached, ⟨_, _, _, rfl⟩, kept.1, kept.2.1 ?_ ?_⟩
    · exact ⟨_, List.mem_cons_self .., fun ended => nomatch ended⟩
    · exact List.forall_mem_singleton.mpr ⟨20, _, rfl⟩
  · let engine : Engine := ⟨2, 64⟩
    let failing : Skeleton := .map 2 Program.items (.seq 1 ⟨"fail", fun _ => .error "broken"⟩) Program.collect
    have submitted := Reached.submitted ((Program.ofSkeleton failing).task (.list [.null, .null]))
      (@Reached.idle engine)
    have split := (submitted.turn .start).turn (@Turn.stop _ _ 20 _ _ rfl)
    have first := split.turn (@Turn.child _ _ _ _ [] [_] [] _ _ .start)
    have second := first.turn (@Turn.child _ _ _ _ [_] [] [] _ _ .start)
    have broken := second.turn (@Turn.child _ _ _ _ [] [_] [] _ _ (@Turn.stop _ _ 20 _ _ rfl))
    have reached := broken.turn (.broken (List.mem_cons_self ..))
    obtain ⟨next, winds, _, quiet, free⟩ := (permits_kept reached).2.2.2
      (List.forall_mem_singleton.mpr ⟨_, rfl⟩)
    exact ⟨_, reached, ⟨_, rfl⟩, rfl, next, winds, quiet, free⟩

end Workshop

/-! ## The engine that runs -/

namespace Job

variable {limit budget : Nat} {transition : Transition}

mutual

theorem turn_of_advance : ∀ (job : Job) {free : Nat} {change : Change Job},
    (transition = .start → 0 < free) → advance? limit budget transition job = some change →
      ∃ dropped, Turn limit free job (free + change.returned - change.taken) change.after dropped ∧
        (stretchesOf dropped).length = change.abandoned
  | .queued task, free, change, staffed, came => by
    rw [advance?] at came
    split at came
    · rename_i starts
      cases came
      obtain ⟨fewer, rfl⟩ := Nat.exists_eq_succ_of_ne_zero (Nat.ne_of_gt (staffed starts))
      exact ⟨[], .start, rfl⟩
    · cases came
  | .running task, free, change, staffed, came => by
    rw [advance?] at came
    split at came
    · obtain ⟨stepped, stretched, same⟩ := Option.map_eq_some_iff.mp came
      cases same
      exact ⟨[], .stop stretched, rfl⟩
    · cases came
  | .waiting task children, free, change, staffed, came => by
    rw [advance?] at came
    cases settled : verdict children with
    | none =>
      simp only [settled] at came
      obtain ⟨below, first, same⟩ := Option.map_eq_some_iff.mp came
      cases same
      obtain ⟨before, job, after, next, dropped, split, after_eq, turn, left⟩ := turn_of_first children staffed first
      refine ⟨dropped, ?_, left⟩
      rw [split]
      show Turn limit free _ _ (.waiting task below.after) dropped
      rw [after_eq]
      exact .child turn
    | some outcome =>
      simp only [settled] at came
      split at came
      · cases came
        cases outcome with
        | error failure =>
          obtain ⟨before, after, rfl⟩ := verdict_error settled
          exact ⟨_, .broken (List.mem_append_right before (List.mem_cons_self ..)), length_stretchesOf _⟩
        | ok results =>
          obtain ⟨_, taken, returned, abandoned⟩ := quiet_afterChildren task children results
          refine ⟨[], ?_, abandoned.symm⟩
          rw [taken, returned]
          exact .gathered settled
      · cases came
  | .finished outcome, free, change, staffed, came => by cases came

theorem turn_of_first : ∀ (jobs : List Job) {free : Nat} {change : Change (List Job)},
    (transition = .start → 0 < free) → advanceFirst? limit budget transition jobs = some change →
      ∃ before job after next dropped, jobs = before ++ job :: after ∧ change.after = before ++ next :: after ∧
        Turn limit free job (free + change.returned - change.taken) next dropped ∧
          (stretchesOf dropped).length = change.abandoned
  | [], free, change, staffed, came => by cases came
  | job :: rest, free, change, staffed, came => by
    rw [advanceFirst?] at came
    cases own : advance? limit budget transition job with
    | some first =>
      simp only [own] at came
      cases came
      obtain ⟨dropped, turn, left⟩ := turn_of_advance job staffed own
      exact ⟨[], job, rest, first.after, dropped, rfl, rfl, turn, left⟩
    | none =>
      simp only [own] at came
      obtain ⟨below, later, same⟩ := Option.map_eq_some_iff.mp came
      cases same
      obtain ⟨before, inner, after, next, dropped, rfl, after_eq, turn, left⟩ := turn_of_first rest staffed later
      exact ⟨job :: before, inner, after, next, dropped, rfl, congrArg (job :: ·) after_eq, turn, left⟩

end

end Job

theorem Workshop.Reached.winds {engine : Engine} {shop next : Workshop} (reached : shop.Reached engine)
    (winds : Relation.ReflTransGen Workshop.Winds shop next) : next.Reached engine := by
  induction winds with
  | refl => exact reached
  | tail _ last ih =>
    cases last with
    | cancel cancel => exact ih.cancel cancel
    | ended => exact ih.step .ended

namespace Pool

open Job (permitsOf)

def workshop (pool : Pool) : Workshop := ⟨pool.free, pool.jobs, [], pool.abandoned⟩

variable {engine : Engine} {budget : Nat}

theorem reached_ofTasks (engine : Engine) (tasks : List Task) :
    (ofTasks engine tasks).workshop.Reached engine := by
  have given (tasks : List Task) (jobs : List Job)
      (reached : Workshop.Reached engine ⟨max engine.workers 1, jobs, [], 0⟩) :
      Workshop.Reached engine ⟨max engine.workers 1, jobs ++ tasks.map .queued, [], 0⟩ := by
    induction tasks generalizing jobs with
    | nil =>
      rw [List.map_nil, List.append_nil]
      exact reached
    | cons task rest ih =>
      have more := ih (jobs ++ [.queued task]) (reached.submitted task)
      rw [List.append_assoc] at more
      exact more
  exact given tasks [] .idle

theorem reached_afterChange {pool next : Pool} (transition : Transition) (reached : pool.workshop.Reached engine)
    (staffed : transition = .start → 0 < pool.free)
    (came : (Job.advanceFirst? engine.depthLimit budget transition pool.jobs).map pool.afterChange = some next) :
    next.workshop.Reached engine := by
  obtain ⟨change, made, rfl⟩ := Option.map_eq_some_iff.mp came
  obtain ⟨before, job, after, inner, dropped, split, after_eq, turn, left⟩ := Job.turn_of_first pool.jobs staffed made
  -- A pool drops the children of a failed job all at once and only counts their stretches.
  rw [workshop, split] at reached
  have gone := (reached.step (.job turn)).winds (Workshop.cancelsAll dropped [] pool.abandoned)
  rw [left, ← after_eq] at gone
  exact gone

theorem reached_step {pool next : Pool} (reached : pool.workshop.Reached engine)
    (came : pool.step? engine.depthLimit budget = some next) : next.workshop.Reached engine := by
  rw [step?] at came
  split at came
  · rename_i settled
    cases came
    exact reached_afterChange .settle reached (fun starts => absurd starts (by decide)) settled
  · rename_i started
    cases came
    split at started
    · rename_i staffed
      exact reached_afterChange .start reached (fun _ => staffed) started
    · cases started
  · split at came
    · rename_i stopped
      cases came
      exact reached_afterChange .stop reached (fun starts => absurd starts (by decide)) stopped
    · split at came
      · cases came
        exact reached.winds (Workshop.ends pool.free pool.abandoned pool.jobs [])
      · cases came

theorem reached_settle {steps : Nat} {pool last : Pool} (reached : pool.workshop.Reached engine)
    (came : pool.settle engine.depthLimit budget steps = some last) : last.workshop.Reached engine := by
  induction steps generalizing pool with
  | zero => cases came
  | succ steps ih =>
    rw [settle] at came
    split at came
    · cases came
      exact reached
    · rename_i next stepped
      exact ih (reached_step reached stepped) came

/-- Running a pool keeps its permits: each is free, held by a running job or by a stretch that was given up. -/
theorem permits_settled {tasks : List Task} {steps : Nat} {last : Pool}
    (came : (ofTasks engine tasks).settle engine.depthLimit budget steps = some last) :
    last.free + permitsOf last.jobs + last.abandoned = max engine.workers 1 := by
  have balance := (reached_settle (reached_ofTasks engine tasks) came).balance
  simp only [workshop, Workshop.inProgress, Job.length_stretchesOf, permitsOf] at balance
  omega

end Pool

end Skeletons
