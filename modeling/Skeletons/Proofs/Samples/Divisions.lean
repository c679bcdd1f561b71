import Skeletons.CommandLine.Run
import Skeletons.Proofs.Engine.Schedule
import Skeletons.Proofs.Run.Course
import Skeletons.Proofs.Samples.MergeSort

namespace Skeletons

def Event.decides (outcome : Bool) (event : Event) : Bool :=
  event.isAt .after .condition && event.payload.same (.bool outcome)

/-- The value that is given to the muscle of this name. -/
def Interpretation.givenTo (name : String) (interpretation : Interpretation) : Option Value :=
  match interpretation.instruction with
  | .seq execute _ => if execute.name = name then some interpretation.input else none
  | _ => none

namespace Samples

/-! ## Pieces -/

def pieces (threshold : Nat) (xs : List Number) : List (List Number) :=
  if max threshold 1 < xs.length then
    pieces threshold (xs.take (xs.length / 2)) ++ pieces threshold (xs.drop (xs.length / 2))
  else [xs]
termination_by xs.length
decreasing_by
  all_goals simp only [List.length_take, List.length_drop]; omega

theorem flatten_pieces (threshold : Nat) (xs : List Number) : (pieces threshold xs).flatten = xs := by
  fun_induction pieces threshold xs with
  | case1 xs long first second => rw [List.flatten_append, first, second, List.take_append_drop]
  | case2 xs short => rw [List.flatten_singleton]

theorem length_of_mem_pieces {threshold : Nat} {xs piece : List Number} (member : piece ∈ pieces threshold xs) :
    piece.length ≤ max threshold 1 := by
  fun_induction pieces threshold xs with
  | case1 xs long first second =>
    rcases List.mem_append.mp member with member | member
    · exact first member
    · exact second member
  | case2 xs short =>
    cases List.mem_singleton.mp member
    exact Nat.not_lt.mp short

theorem ne_nil_of_mem_pieces {threshold : Nat} {xs piece : List Number} (filled : xs ≠ [])
    (member : piece ∈ pieces threshold xs) : piece ≠ [] := by
  fun_induction pieces threshold xs with
  | case1 xs long first second =>
    -- A list that is divided has two items at least, so each half has one.
    have several : 1 < xs.length := by omega
    rcases List.mem_append.mp member with member | member
    · apply first _ member
      rw [← List.length_pos_iff, List.length_take]
      omega
    · apply second _ member
      rw [← List.length_pos_iff, List.length_drop]
      omega
  | case2 xs short =>
    cases List.mem_singleton.mp member
    exact filled

theorem length_pieces {threshold : Nat} {xs : List Number} (finest : max threshold 1 = 1) (filled : xs ≠ []) :
    (pieces threshold xs).length = xs.length := by
  have single : ∀ piece ∈ pieces threshold xs, piece.length = 1 := by
    intro piece member
    have atMost := length_of_mem_pieces member
    have atLeast := List.length_pos_iff.mpr (ne_nil_of_mem_pieces filled member)
    omega
  have lengths : (pieces threshold xs).map List.length = (pieces threshold xs).map fun _ => 1 :=
    List.map_congr_left single
  calc (pieces threshold xs).length = ((pieces threshold xs).map List.length).sum := by simp [lengths]
    _ = (pieces threshold xs).flatten.length := List.length_flatten.symm
    _ = xs.length := congrArg List.length (flatten_pieces threshold xs)

/-! ## Courses -/

/-- What the course of a division shows: the pieces that the leaf is given, and that the condition held once less
    than it did not. -/
structure Divides (threshold : Nat) (xs : List Number) (told : List Interpretation) : Prop where
  leaves : told.filterMap (Interpretation.givenTo "sort") = (pieces threshold xs).map listOfNumbers
  divided : (told.flatMap Interpretation.events).countP (Event.decides true) + 1 = (pieces threshold xs).length
  undivided : (told.flatMap Interpretation.events).countP (Event.decides false) = (pieces threshold xs).length

variable {threshold limit left : Nat} {xs : List Number} {trace leafTrace : Trace} {path : RecursionPath}

def dividing (threshold : Nat) (trace leafTrace : Trace) (path : RecursionPath) : Instruction :=
  .divide (longerThan threshold) halve mergeParts [.seq sort leafTrace] trace path

def recurring (threshold : Nat) (trace leafTrace : Trace) (path : RecursionPath) : Instruction :=
  .split [[dividing threshold trace leafTrace path]] mergeParts trace (some path)

def courseShort (threshold : Nat) (trace leafTrace : Trace) (path : RecursionPath) (xs : List Number) :
    List Interpretation :=
  let given := listOfNumbers xs
  [⟨report .before .condition trace path.payload, given⟩, ⟨dividing threshold trace leafTrace path, given⟩,
    ⟨report .after .condition trace (.bool false), given⟩, ⟨report .before .nested trace path.payload, given⟩,
    ⟨.seq sort leafTrace, given⟩, ⟨report .after .nested trace path.payload, listOfNumbers (sortNumbers xs)⟩]

def courseLong (threshold : Nat) (trace leafTrace : Trace) (path : RecursionPath) (xs : List Number)
    (first second : List Interpretation) (ys zs : List Number) : List Interpretation :=
  let given := listOfNumbers xs
  [⟨report .before .condition trace path.payload, given⟩, ⟨dividing threshold trace leafTrace path, given⟩,
    ⟨report .after .condition trace (.bool true), given⟩, ⟨.seq halve.asExecute trace, given⟩,
    ⟨recurring threshold trace leafTrace path, .list ((halves xs).map listOfNumbers)⟩] ++
  (first ++ second) ++
  [⟨report .before .merge trace path.payload, .list [listOfNumbers ys, listOfNumbers zs]⟩,
    ⟨.merge mergeParts trace, .list [listOfNumbers ys, listOfNumbers zs]⟩,
    ⟨report .after .merge trace path.payload, listOfNumbers (mergeSorted ys zs)⟩]

theorem divides_short (short : xs.length ≤ max threshold 1) :
    Divides threshold xs (courseShort threshold trace leafTrace path xs) := by
  have whole : pieces threshold xs = [xs] := by rw [pieces, if_neg (Nat.not_lt.mpr short)]
  refine ⟨?_, ?_, ?_⟩
  · rw [whole]
    rfl
  · rw [whole]
    rfl
  · rw [whole]
    rfl

theorem divides_long (long : max threshold 1 < xs.length) {first second : List Interpretation} {ys zs : List Number}
    (one : Divides threshold (xs.take (xs.length / 2)) first)
    (other : Divides threshold (xs.drop (xs.length / 2)) second) :
    Divides threshold xs (courseLong threshold trace leafTrace path xs first second ys zs) := by
  have parted : pieces threshold xs =
      pieces threshold (xs.take (xs.length / 2)) ++ pieces threshold (xs.drop (xs.length / 2)) := by
    rw [pieces, if_pos long]
  refine ⟨?_, ?_, ?_⟩
  · rw [courseLong, List.filterMap_append, List.filterMap_append, List.filterMap_append, one.leaves, other.leaves,
      parted, List.map_append]
    exact List.append_nil _
  · simp only [courseLong, List.flatMap_append, List.countP_append]
    change 1 + (_ + _) + 0 + 1 = _
    rw [parted, List.length_append, ← one.divided, ← other.divided]
    omega
  · simp only [courseLong, List.flatMap_append, List.countP_append]
    change 0 + (_ + _) + 0 = _
    rw [parted, List.length_append, one.undivided, other.undivided, Nat.zero_add, Nat.add_zero]

theorem effect_dividing (limit threshold : Nat) (trace leafTrace : Trace) (path : RecursionPath) (xs : List Number) :
    (dividing threshold trace leafTrace path).effect limit (listOfNumbers xs) =
      .ok {
        value := listOfNumbers xs
        pushed := report .after .condition trace (.bool (decide (max threshold 1 < xs.length))) ::
          if max threshold 1 < xs.length then
            [.seq halve.asExecute trace, recurring threshold trace leafTrace path]
          else
            [report .before .nested trace path.payload, .seq sort leafTrace,
              report .after .nested trace path.payload] } := by
  rw [dividing, Instruction.effect, longerThan_call]
  by_cases long : max threshold 1 < xs.length
  · simp only [if_pos long, decide_eq_true long]
    rfl
  · simp only [if_neg long, decide_eq_false long]
    rfl

theorem effect_recurring (threshold : Nat) (leafTrace : Trace) (shallow : trace.length + path.length ≤ limit)
    (traced : trace ≠ []) (parts : List Value) :
    (recurring threshold trace leafTrace path).effect limit (.list parts) =
      .ok {
        value := .list []
        pushed := Stack.merging mergeParts trace path.payload
        children := (parts.zipIdx 0).map fun (part, index) =>
          Split.recursionOf (longerThan threshold) halve mergeParts [.seq sort leafTrace] trace path index part } := by
  have deep : ¬ limit < trace.length + ((some path).getD []).length := Nat.not_lt.mpr shallow
  rw [recurring, Stack.effect_split, if_neg deep, Split.spawn, dividing, Split.recursions_eq_map _ _ _ _ traced]
  rfl

theorem course_short (short : xs.length ≤ max threshold 1) :
    Stack.Course limit [report .before .condition trace path.payload, dividing threshold trace leafTrace path]
      (listOfNumbers xs) (courseShort threshold trace leafTrace path xs)
      (listOfNumbers (sortHalves threshold xs)) := by
  have solved := effect_dividing limit threshold trace leafTrace path xs
  rw [if_neg (Nat.not_lt.mpr short), decide_eq_false (Nat.not_lt.mpr short)] at solved
  rw [sortHalves_short short]
  apply Stack.Course.report
  apply Stack.Course.onward solved rfl
  exact .report (.report (.seq (sort_call xs) (.report .done)))

theorem halve_asExecute_call (xs : List Number) :
    halve.asExecute.call (listOfNumbers xs) = .ok (.list ((halves xs).map listOfNumbers)) := by
  simp only [Execute.call, Split.asExecute, halve, expectNumbers_listOfNumbers]
  rfl

def recursionStack (threshold : Nat) (trace leafTrace : Trace) (path : RecursionPath) : Stack :=
  [report .before .condition (trace.retag (trace.length - 1) path.id) path.payload,
    dividing threshold (trace.retag (trace.length - 1) path.id) (leafTrace.retag (trace.length - 1) path.id) path]

theorem course_long (long : max threshold 1 < xs.length) (shallow : trace.length + path.length ≤ limit)
    (traced : trace ≠ []) {first second : List Interpretation} {ys zs : List Number}
    (one : Stack.Course limit (recursionStack threshold trace leafTrace (path.child 0))
      (listOfNumbers (xs.take (xs.length / 2))) first (listOfNumbers ys))
    (other : Stack.Course limit (recursionStack threshold trace leafTrace (path.child 1))
      (listOfNumbers (xs.drop (xs.length / 2))) second (listOfNumbers zs)) :
    Stack.Course limit [report .before .condition trace path.payload, dividing threshold trace leafTrace path]
      (listOfNumbers xs) (courseLong threshold trace leafTrace path xs first second ys zs)
      (listOfNumbers (mergeSorted ys zs)) := by
  have divided := effect_dividing limit threshold trace leafTrace path xs
  rw [if_pos long, decide_eq_true long] at divided
  have recurred := effect_recurring threshold leafTrace shallow traced ((halves xs).map listOfNumbers)
  apply Stack.Course.report
  apply Stack.Course.onward divided rfl
  apply Stack.Course.report
  apply Stack.Course.seq (halve_asExecute_call xs)
  have course := @Stack.Course.split limit (recurring threshold trace leafTrace path) [] _ _ _
    [(first, listOfNumbers ys), (second, listOfNumbers zs)] _ recurred nofun rfl ?_
    (.merging (mergeParts_call ys zs))
  · rw [List.flatMap_cons, List.flatMap_cons, List.flatMap_nil, List.append_nil] at course
    exact course
  · intro index child part found reached
    match index with
    | 0 =>
      cases found
      cases reached
      exact one
    | 1 =>
      cases found
      cases reached
      exact other
    | index + 2 => cases reached

theorem exists_course_dividing (traced : trace ≠ []) (room : trace.length + path.length + left = limit + 1)
    (fits : xs.length ≤ max threshold 1 * 2 ^ left) :
    ∃ told, Stack.Course limit
        [report .before .condition trace path.payload, dividing threshold trace leafTrace path] (listOfNumbers xs) told
        (listOfNumbers (sortHalves threshold xs)) ∧ Divides threshold xs told := by
  -- `left` says how often the list may still be halved.
  induction left generalizing xs trace leafTrace path with
  | zero => exact ⟨_, course_short (by omega), divides_short (by omega)⟩
  | succ left ih =>
    by_cases long : max threshold 1 < xs.length
    · have doubled : max threshold 1 * 2 ^ (left + 1) = max threshold 1 * 2 ^ left * 2 := by
        rw [Nat.pow_succ, Nat.mul_assoc]
      rw [doubled] at fits
      have deeper (index : UInt64) (depth : Nat) (number : UInt64) :
          (trace.retag depth number).length + (path.child index).length + left = limit + 1 := by
        rw [Trace.length_retag, RecursionPath.child, List.length_append, List.length_singleton]
        omega
      have half (index : UInt64) (ys : List Number) (short : ys.length ≤ max threshold 1 * 2 ^ left) :
          ∃ told, Stack.Course limit (recursionStack threshold trace leafTrace (path.child index)) (listOfNumbers ys)
            told (listOfNumbers (sortHalves threshold ys)) ∧ Divides threshold ys told :=
        ih (Trace.retag_ne_nil _ _ traced) (deeper index _ _) short
      obtain ⟨first, one, early⟩ := half 0 (xs.take (xs.length / 2)) (by rw [List.length_take]; omega)
      obtain ⟨second, other, late⟩ := half 1 (xs.drop (xs.length / 2)) (by rw [List.length_drop]; omega)
      rw [sortHalves_long long]
      exact ⟨_, course_long long (by omega) traced one other, divides_long long early late⟩
    · exact ⟨_, course_short (Nat.not_lt.mp long), divides_short (Nat.not_lt.mp long)⟩

/-! ## Runs -/

theorem instantiate_sorter (threshold : Nat) (next : UInt64) : ∃ trace leafTrace : Trace, trace.length = 1 ∧
    (sorter threshold next).instantiate =
      [report .before .condition trace (RecursionPath.payload []), dividing threshold trace leafTrace []] := by
  unfold sorter
  rw [Program.instantiate_ofSkeleton]
  exact ⟨_, _, rfl, rfl⟩

theorem runAll_of_sortList {config : Config} {text : String} {count : Nat}
    (read : (Json.read? text).map (fun document => document.canonical.toValue) = some (listOfNumbers xs))
    (printed : .divisions count ∈ (CommandLine.sortList config text threshold).lines) :
    ∃ value events, Engine.runAll ⟨config.workers, config.depthLimit⟩ (sorter threshold Build.firstId) ampleBudget
        [listOfNumbers xs] = some ([.ok value], events) ∧ count = events.countP (Event.decides true) := by
  obtain ⟨document, parsed, same⟩ := Option.map_eq_some_iff.mp read
  have given : document.toOrdered.val = .list (xs.map .number) := same
  simp only [CommandLine.sortList, parsed, given, CommandLine.evaluate] at printed
  split at printed
  · rename_i value events ran
    simp only [CommandLine.Outcome.after, List.cons_append, List.nil_append, List.mem_cons, List.not_mem_nil,
      or_false, reduceCtorEq, false_or] at printed
    cases printed
    exact ⟨value, events, ran, rfl⟩
  · simp [CommandLine.Outcome.after, CommandLine.Outcome.ofError] at printed
  · simp [CommandLine.Outcome.after, CommandLine.Outcome.ofError] at printed

theorem exists_course_sorter (next : UInt64) (fits : xs.length ≤ max threshold 1 * 2 ^ limit) :
    ∃ told, Stack.Course limit (sorter threshold next).instantiate (listOfNumbers xs) told
        (listOfNumbers (sortHalves threshold xs)) ∧ Divides threshold xs told := by
  obtain ⟨trace, leafTrace, leveled, compiled⟩ := instantiate_sorter threshold next
  have traced : trace ≠ [] := List.ne_nil_of_length_pos (by omega)
  rw [compiled]
  apply exists_course_dividing traced _ fits
  rw [leveled, List.length_nil]
  omega

theorem divisions_of_steps {next : UInt64} (fits : xs.length ≤ max threshold 1 * 2 ^ limit)
    {outcome : Except Failure Value} {events : List Event}
    (completed : Work.Steps limit (.ready 0 ((sorter threshold next).task (listOfNumbers xs))) events
      (.done 0 outcome)) :
    outcome = .ok (listOfNumbers (sortHalves threshold xs)) ∧
      events.countP (Event.decides true) + 1 = (pieces threshold xs).length ∧
        events.countP (Event.decides false) = (pieces threshold xs).length := by
  obtain ⟨told, course, divides⟩ := exists_course_sorter next fits
  have alone : ((sorter threshold next).task (listOfNumbers xs)).Ends limit (.ok _) _ :=
    (Stack.run_iff_course ..).mpr ⟨told, course, rfl⟩
  have idle : ((sorter threshold next).task (listOfNumbers xs)).Idle := rfl
  obtain ⟨same, permuted⟩ := completed.of_alone_ok idle alone
  rw [permuted.countP_eq, permuted.countP_eq]
  exact ⟨same, divides.divided, divides.undivided⟩

/-- Within its limit, merge sort has one run, which ends well: it gives the sorting leaf the pieces of the list in
    their order, each short enough and none of them empty, and its condition holds once less than it does not.
    The events of any engine, and the number that the command prints, say the same. -/
theorem mergeSort_divisions (threshold limit : Nat) (next : UInt64) (xs : List Number)
    (fits : xs.length ≤ max threshold 1 * 2 ^ limit) :
    let program := sorter threshold next
    let finest (divided : Nat) := max threshold 1 = 1 → xs ≠ [] → divided = xs.length - 1
    let balanced (events : List Event) :=
      events.countP (Event.decides true) + 1 = events.countP (Event.decides false) ∧
        finest (events.countP (Event.decides true))
    ∃ (answer : Value) (told : List Interpretation) (parts : List (List Number)),
      (∀ outcome events,
        (∃ budget, program.instantiate.run limit budget (listOfNumbers xs) = some ⟨outcome, events⟩) ↔
          outcome = .ok answer ∧ events = told.flatMap Interpretation.events) ∧
      (∀ other result, Stack.Course limit program.instantiate (listOfNumbers xs) other result ↔
        other = told ∧ result = answer) ∧
      told.filterMap (Interpretation.givenTo "sort") = parts.map listOfNumbers ∧
      parts.flatten = xs ∧
      (∀ piece ∈ parts, piece.length ≤ max threshold 1 ∧ (xs ≠ [] → piece ≠ [])) ∧
      balanced (told.flatMap Interpretation.events) ∧
      (∀ outcome events,
        Work.Steps limit (.ready 0 (program.task (listOfNumbers xs))) events (.done 0 outcome) →
          outcome = .ok answer ∧ balanced events) ∧
      ∀ (config : Config) (text : String) (count : Nat), config.depthLimit = limit →
        (Json.read? text).map (fun document => document.canonical.toValue) = some (listOfNumbers xs) →
          .divisions count ∈ (CommandLine.sortList config text threshold).lines →
            count + 1 = parts.length ∧ finest count := by
  intro program finest balanced
  obtain ⟨told, course, divides⟩ := exists_course_sorter next fits
  have alone : (program.task (listOfNumbers xs)).Ends limit (.ok _) _ :=
    (Stack.run_iff_course ..).mpr ⟨told, course, rfl⟩
  have single {divided : Nat} (same : divided + 1 = (pieces threshold xs).length) : finest divided := by
    intro each filled
    have length := length_pieces each filled
    omega
  refine ⟨listOfNumbers (sortHalves threshold xs), told, pieces threshold xs, ?_, ?_, divides.leaves,
    flatten_pieces threshold xs, ?_, ?_, ?_, ?_⟩
  · intro outcome events
    constructor
    · intro ended
      have also : (program.task (listOfNumbers xs)).Ends limit outcome events := ended
      exact also.unique alone
    · intro given
      obtain ⟨rfl, rfl⟩ := given
      exact alone
  · intro other result
    constructor
    · intro also
      obtain ⟨rfl, rfl⟩ := course.unique also
      exact ⟨rfl, rfl⟩
    · intro given
      obtain ⟨rfl, rfl⟩ := given
      exact course
  · intro piece member
    exact ⟨length_of_mem_pieces member, fun filled => ne_nil_of_mem_pieces filled member⟩
  · exact ⟨divides.divided.trans divides.undivided.symm, single divides.divided⟩
  · intro outcome events completed
    obtain ⟨same, divided, undivided⟩ := divisions_of_steps fits completed
    exact ⟨same, divided.trans undivided.symm, single divided⟩
  · intro config text count limited read printed
    subst limited
    obtain ⟨value, events, ran, rfl⟩ := runAll_of_sortList read printed
    obtain ⟨outcome, _, completed⟩ := Engine.steps_of_runAll ran
    have divided := (divisions_of_steps fits completed).2.1
    exact ⟨divided, single divided⟩

theorem mergeSort_divisions_three :
    let xs : List Number := [.ofNat 2, .ofNat 3, .ofNat 1]
    xs.length ≤ max 1 1 * 2 ^ 2 ∧
      ∃ budget answer events, (sorter 1 0).instantiate.run 2 budget (listOfNumbers xs) = some ⟨.ok answer, events⟩ ∧
        events.countP (Event.decides true) = 2 ∧ events.countP (Event.decides false) = 3 := by
  intro xs
  obtain ⟨answer, told, pieces, runs, _, _, _, _, ⟨counted, finest⟩, _⟩ := mergeSort_divisions 1 2 0 xs (by decide)
  have twice := finest rfl nofun
  obtain ⟨budget, ended⟩ := (runs (.ok answer) _).mpr ⟨rfl, rfl⟩
  refine ⟨by decide, budget, answer, _, ended, twice, ?_⟩
  rw [← counted, twice]
  rfl

end Samples

end Skeletons
