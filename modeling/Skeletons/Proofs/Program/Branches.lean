import Skeletons.Proofs.Program
import Skeletons.Proofs.Program.Nesting
import Skeletons.Proofs.Skeleton.Branches

namespace Skeletons.Program

open Event

/-- No two branches that a run reports have the same trace, as far as it has come, if nodes differ in their
    identifiers, the numbers of recursions tell paths apart and are not used otherwise, and no division is
    itself the part that a node runs under several numbers. -/
theorem branches_nodup (skeleton : Skeleton) (distinct : (skeleton.nodes.map Skeleton.id).Nodup)
    (spaced : ∀ node ∈ skeleton.nodes, node.Spaced) (limit budget : Nat) (input : Value) (events : List Event)
    (told : events <+: ((ofSkeleton skeleton).instantiate.watch limit budget input).events)
    (short : events.length ≤ 2 ^ 64) (ids : IdsApart events) : (branches events).Nodup := by
  -- What a run tells within a budget its process tells with some effort, so the tree decides.
  obtain ⟨effort, known⟩ := (behaviour_instantiate skeleton limit input).1 budget
  have among := told.trans (Account.events_prefix known)
  have single := Skeleton.branches_behaviour limit ids skeleton [] 0 (Trace.nest [] skeleton.frame) input rfl
    distinct spaced fun _ => ids.nonzero
  exact (single effort events among short (List.Subset.refl events)).1

def listDivision : Skeleton :=
  .divide 2 ⟨"is list", fun value => .ok value.asList?.isSome⟩ items (.seq 1 ⟨"keep", .ok⟩) collect

/-- What the division reports for a list of one item that is no list, under its trace and then under that of
    the recursion into the item. -/
def divisionLog (trace recursion : Trace) : List Event := [
  ⟨.before, .condition, trace, RecursionPath.payload []⟩,
  ⟨.after, .condition, trace, .bool true⟩,
  ⟨.before, .condition, recursion, RecursionPath.payload [0]⟩,
  ⟨.after, .condition, recursion, .bool false⟩,
  ⟨.before, .nested, recursion, RecursionPath.payload [0]⟩,
  ⟨.after, .nested, recursion, RecursionPath.payload [0]⟩,
  ⟨.before, .merge, trace, RecursionPath.payload []⟩,
  ⟨.after, .merge, trace, RecursionPath.payload []⟩]

def mapLog (trace : Trace) (first second : List Event) : List Event :=
  ⟨.before, .nested, trace, countPayload 0⟩ :: first ++ ⟨.after, .nested, trace, countPayload 0⟩
    :: ⟨.before, .nested, trace, countPayload 1⟩ :: second ++ [
      ⟨.after, .nested, trace, countPayload 1⟩, ⟨.before, .merge, trace, .null⟩, ⟨.after, .merge, trace, .null⟩]

theorem idsApart_of_reports {events : List Event}
    (paths : (events.filter startsRecursion).map (·.payload) =
      [RecursionPath.payload [], RecursionPath.payload [0], RecursionPath.payload [], RecursionPath.payload [0]])
    (numbers : (events.filter startsNumbered).map (·.payload) = [countPayload 0, countPayload 1]) :
    IdsApart events := by
  have other : RecursionPath.id [] ≠ RecursionPath.id [0] := by decide +kernel
  have zero : RecursionPath.id [0] ≠ 0 := by decide +kernel
  have one : RecursionPath.id [0] ≠ 1 := by decide +kernel
  have known : ∀ path, Announced events path → path = [] ∨ path = [0] := by
    intro path announced
    rw [Announced, paths] at announced
    have reported : path.payload = RecursionPath.payload [] ∨ path.payload = RecursionPath.payload [0] := by
      simpa [or_comm, or_left_comm] using announced
    exact reported.imp (RecursionPath.payload_inj_of_lt (by simp)) (RecursionPath.payload_inj_of_lt (by simp))
  have free : ∀ number, RecursionPath.id [0] ≠ number → Free events number := by
    intro number differs path announced filled
    rcases known path announced with rfl | rfl
    · exact absurd rfl filled
    · exact differs
  refine ⟨fun {first second} here there same => ?_, free 0 zero, fun {index} counted => ?_⟩
  · rcases known first here with rfl | rfl <;> rcases known second there with rfl | rfl
    · rfl
    · exact absurd same other
    · exact absurd same.symm other
    · rfl
  · rw [Counted, numbers] at counted
    have reported : countPayload index = countPayload 0 ∨ countPayload index = countPayload 1 := by
      simpa using counted
    rcases reported with same | same
    · rw [countPayload_inj_of_lt (by decide) same]
      exact free _ zero
    · rw [countPayload_inj_of_lt (by decide) same]
      exact free _ one

def chosenDivisions : Skeleton :=
  .map 5 items (.ifElse 4 ⟨"always", fun _ => .ok true⟩ listDivision (.seq 3 ⟨"keep", .ok⟩)) collect

def chosenLog : List Event :=
  let map : Trace := [⟨5, .map, 0⟩]
  let chosen (number : UInt64) : List Event :=
    let test := map.nest ⟨4, .ifElse, number⟩
    [⟨.before, .condition, test, .null⟩, ⟨.after, .condition, test, .bool true⟩,
      ⟨.before, .nested, test, .bool true⟩]
      ++ divisionLog (test.nest ⟨2, .divide, 0⟩) (test.nest ⟨2, .divide, RecursionPath.id [0]⟩)
      ++ [⟨.after, .nested, test, .bool true⟩]
  mapLog map (chosen 0) (chosen 1)

theorem branches_nodup_chosenDivisions :
    chosenLog <+: ((ofSkeleton chosenDivisions).instantiate.watch 64 60
      (.list [.list [.null], .list [.null]])).events ∧ IdsApart chosenLog ∧ (branches chosenLog).Nodup := by
  have told : chosenLog <+: ((ofSkeleton chosenDivisions).instantiate.watch 64 60
      (.list [.list [.null], .list [.null]])).events := ⟨[], rfl⟩
  have ids : IdsApart chosenLog := idsApart_of_reports rfl rfl
  have spaced : ∀ node ∈ chosenDivisions.nodes, node.Spaced := by
    simp [chosenDivisions, listDivision, Skeleton.nodes, Skeleton.Spaced, Skeleton.kind]
  exact ⟨told, ids, branches_nodup chosenDivisions (by decide) spaced 64 60 _ chosenLog told (by decide) ids⟩

def mappedDivisions : Skeleton := .map 3 items listDivision collect

def mappedLog : List Event :=
  let map : Trace := [⟨3, .map, 0⟩]
  let part (number : UInt64) : List Event :=
    divisionLog (map.nest ⟨2, .divide, number⟩) (map.nest ⟨2, .divide, RecursionPath.id [0]⟩)
  mapLog map (part 0) (part 1)

/-- A division that is the whole of what another node runs several times repeats its branches: the number of a
    recursion takes the place of the number of the part. -/
theorem branches_repeat :
    (mappedDivisions.nodes.map Skeleton.id).Nodup ∧ IdsApart mappedLog ∧ ¬ (branches mappedLog).Nodup ∧
      (ofSkeleton mappedDivisions).instantiate.run 64 60 (.list [.list [.null], .list [.null]]) =
        some ⟨.ok (.list [.list [.null], .list [.null]]), mappedLog⟩ := by
  refine ⟨by decide, idsApart_of_reports rfl rfl, ?_, rfl⟩
  have told : branches mappedLog = [
      [⟨3, .map, 0⟩, ⟨2, .divide, 0⟩], [⟨3, .map, 0⟩, ⟨2, .divide, RecursionPath.id [0]⟩],
      [⟨3, .map, 0⟩, ⟨2, .divide, 1⟩], [⟨3, .map, 0⟩, ⟨2, .divide, RecursionPath.id [0]⟩]] := rfl
  rw [told]
  simp

end Skeletons.Program
