import Skeletons.Proofs.Event.Recursion
import Skeletons.Proofs.Process.Reports

namespace Skeletons.Process

open Recursion

variable {trace : Trace} {answer : Value} {events : List Event}

theorem nested_ended {payload : Value} {run : Process Value}
    (ended : (nested trace payload run).Ends (.ok answer) events) :
    ∃ inside, run.Ends (.ok answer) inside ∧
      events = ⟨.before, .nested, trace, payload⟩ :: inside ++ [⟨.after, .nested, trace, payload⟩] := by
  rw [nested, ends_note_bind] at ended
  obtain ⟨late, ended, rfl⟩ := ended
  obtain ⟨value, inside, last, ran, closed, rfl⟩ := (ends_ok_bind ..).mp ended
  obtain ⟨same, rfl⟩ := (ends_note_ofResult ..).mp closed
  cases same
  exact ⟨inside, ran, rfl⟩

theorem decided_ended {condition : Condition} {input : Value} {outcome : Bool}
    (ended : (decided trace condition input).Ends (.ok outcome) events) :
    condition.call input = .ok outcome ∧ events = [⟨.after, .condition, trace, .bool outcome⟩] := by
  obtain ⟨known, early, late, called, closed, rfl⟩ := (ends_ok_bind ..).mp ended
  obtain ⟨came, rfl⟩ := (ends_ofResult ..).mp called
  obtain ⟨same, rfl⟩ := (ends_note_ofResult ..).mp closed
  cases same
  exact ⟨came.symm, rfl⟩

theorem merged_ended {payload : Value} {merge : Merge} {results : List Value}
    (ended : (merged trace payload merge results).Ends (.ok answer) events) :
    events = [⟨.before, .merge, trace, payload⟩, ⟨.after, .merge, trace, payload⟩] := by
  rw [merged, ends_note_bind] at ended
  obtain ⟨late, ended, rfl⟩ := ended
  obtain ⟨value, early, last, called, closed, rfl⟩ := (ends_ok_bind ..).mp ended
  obtain ⟨-, rfl⟩ := (ends_ofResult ..).mp called
  obtain ⟨-, rfl⟩ := (ends_note_ofResult ..).mp closed
  rfl

variable {id : UInt64} {condition : Condition} {split : Split} {path : RecursionPath} {given : Value}

theorem divide_ended {limit : Nat} {merge : Merge} {solve : Trace → Value → Process Value}
    (ended : (divide limit condition split merge solve trace path given).Ends (.ok answer) events) :
    (condition.call given = .ok false ∧ ∃ inside, (solve trace given).Ends (.ok answer) inside ∧
      events = ⟨.before, .condition, trace, path.payload⟩ :: ⟨.after, .condition, trace, .bool false⟩
        :: ⟨.before, .nested, trace, path.payload⟩ :: inside ++ [⟨.after, .nested, trace, path.payload⟩]) ∨
    (condition.call given = .ok true ∧ trace.length + path.length ≤ limit ∧ ∃ values results told,
      split.call given = .ok values ∧
      (values.zipIdx.mapM fun entry =>
        let subPath := path.child (UInt64.ofNat entry.2)
        divide limit condition split merge solve (trace.retag (trace.length - 1) subPath.id) subPath
          entry.1).Ends (.ok results) told ∧
      events = ⟨.before, .condition, trace, path.payload⟩ :: ⟨.after, .condition, trace, .bool true⟩ :: told
        ++ [⟨.before, .merge, trace, path.payload⟩, ⟨.after, .merge, trace, path.payload⟩]) := by
  rw [divide, ends_note_bind] at ended
  obtain ⟨late, tested, rfl⟩ := ended
  obtain ⟨outcome, told, rest, decided, branched, rfl⟩ := (ends_ok_bind ..).mp tested
  obtain ⟨came, rfl⟩ := decided_ended decided
  cases outcome with
  | false =>
    obtain ⟨inside, solved, rfl⟩ := nested_ended branched
    exact .inl ⟨came, inside, solved, rfl⟩
  | true =>
    right
    obtain ⟨values, _, scattered, called, divided, rfl⟩ := (ends_ok_bind ..).mp branched
    obtain ⟨cut, rfl⟩ := (ends_ofResult ..).mp called
    by_cases deep : limit < trace.length + path.length
    · rw [if_pos deep] at divided
      obtain ⟨impossible, -⟩ := (ends_ofResult ..).mp divided
      cases impossible
    · rw [if_neg deep] at divided
      obtain ⟨results, early, last, gathered, merged, rfl⟩ := (ends_ok_bind ..).mp divided
      cases merged_ended merged
      exact ⟨came, not_lt.mp deep, values, results, early, cut.symm, gathered, rfl⟩

/-- If each part goes as a tree, the parts go as a list of trees, one after another. -/
theorem exists_parts {work : Value × Nat → Process Value} {values results : List Value} {start : Nat}
    (each : ∀ entry ∈ values.zipIdx start, ∀ result told, (work entry).Ends (.ok result) told →
      ∃ tree : Recursion, tree.given = entry.1 ∧
        Follows id condition split (path.child (UInt64.ofNat entry.2)) tree ∧
          told = tree.log id (path.child (UInt64.ofNat entry.2)))
    (ended : ((values.zipIdx start).mapM work).Ends (.ok results) events) :
    ∃ trees : List Recursion, trees.map Recursion.given = values ∧
      (∀ (index : Nat) (tree : Recursion), trees[index]? = some tree →
        Follows id condition split (path.child (UInt64.ofNat (start + index))) tree) ∧
          events = logs id path start trees := by
  induction values generalizing start results events with
  | nil =>
    obtain ⟨-, rfl⟩ := (ends_pure ..).mp ended
    exact ⟨[], rfl, nofun, rfl⟩
  | cons value rest ih =>
    rw [List.zipIdx_cons, List.mapM_cons] at ended
    obtain ⟨result, early, middle, first, onward, rfl⟩ := (ends_ok_bind ..).mp ended
    obtain ⟨others, late, last, following, closed, rfl⟩ := (ends_ok_bind ..).mp onward
    obtain ⟨-, rfl⟩ := (ends_pure ..).mp closed
    rw [List.zipIdx_cons, List.forall_mem_cons] at each
    obtain ⟨tree, same, follows, rfl⟩ := each.1 result early first
    obtain ⟨trees, alike, known, rfl⟩ := ih each.2 following
    refine ⟨tree :: trees, by rw [List.map_cons, same, alike], ?_, by rw [List.append_nil, logs]⟩
    intro index part found
    cases index with
    | zero =>
      cases found
      exact follows
    | succ index =>
      have further := known index part found
      rwa [Nat.add_right_comm] at further

theorem exists_recursion {limit : Nat} {merge : Merge} {solve : Trace → Value → Process Value} {input : Value}
    (solves : ∀ path value, (solve (Recursion.trace id path) value).Reports fun event =>
      event.trace[0]? = some (divisionFrame id 0 path) ∧ event.trace.innermost?.map (·.skeleton) ≠ some id)
    (few : ∀ path given parts, Recurs condition split input path given → condition.call given = .ok true →
      split.call given = .ok parts → parts.length ≤ 2 ^ 53)
    (recurs : Recurs condition split input path given)
    (ended : (divide limit condition split merge solve (Recursion.trace id path) path given).Ends (.ok answer) events) :
    ∃ tree : Recursion, tree.given = given ∧ Follows id condition split path tree ∧ events = tree.log id path := by
  induction path using RecursionPath.inductionWithin limit 1 generalizing given answer events with
  | step path ih =>
    rcases divide_ended ended with ⟨refused, inside, solved, rfl⟩ |
      ⟨agreed, shallow, values, results, told, cut, ran, rfl⟩
    · have reported := (solves path given).ends solved
      refine ⟨.solved given inside, rfl, .solved refused ?_ ?_, rfl⟩
      · exact fun event member => (reported event member).1
      · exact fun event member => (reported event member).2
    · rw [Recursion.trace, Trace.length_nest] at shallow
      have each : ∀ entry ∈ values.zipIdx, ∀ result told,
          (divide limit condition split merge solve ((Recursion.trace id path).retag
            ((Recursion.trace id path).length - 1) (path.child (UInt64.ofNat entry.2)).id)
            (path.child (UInt64.ofNat entry.2)) entry.1).Ends (.ok result) told →
          ∃ tree : Recursion, tree.given = entry.1 ∧
            Follows id condition split (path.child (UInt64.ofNat entry.2)) tree ∧
              told = tree.log id (path.child (UInt64.ofNat entry.2)) := by
        intro entry among result told ended
        have found := List.mem_zipIdx_iff_getElem?.mp among
        rw [Recursion.trace, retag_divisionFrame] at ended
        exact ih shallow _ (recurs.part agreed cut found) ended
      obtain ⟨trees, rfl, follows, rfl⟩ := exists_parts each ran
      have bound := few path given _ recurs agreed cut
      rw [List.length_map] at bound
      refine ⟨.divided given trees, rfl, .divided agreed cut bound fun index tree found => ?_, rfl⟩
      have part := follows index tree found
      rwa [Nat.zero_add] at part

end Skeletons.Process
