import Mathlib.Data.List.Perm.Basic
import Skeletons.Proofs.Event.Branches
import Skeletons.Proofs.Skeleton.Branches

namespace Skeletons

def Event.isOf (id : UInt64) (phase : Phase) (point : Point) (event : Event) : Bool :=
  event.isAt phase point && decide (event.trace.innermost?.map (·.skeleton) = some id)

/-- How a recursion on a value went: what its solve reported, or how the recursions into its parts went. -/
inductive Recursion where
  | solved (given : Value) (inside : List Event)
  | divided (given : Value) (parts : List Recursion)

/-- Which value a division recurses on at which path. -/
inductive Recurs (condition : Condition) (split : Split) (input : Value) : RecursionPath → Value → Prop where
  | root : Recurs condition split input [] input
  | part {path : RecursionPath} {given part : Value} {parts : List Value} {index : Nat}
      (above : Recurs condition split input path given) (agreed : condition.call given = .ok true)
      (cut : split.call given = .ok parts) (found : parts[index]? = some part) :
      Recurs condition split input (path.child (UInt64.ofNat index)) part

namespace Recursion

def given : Recursion → Value
  | .solved given _ => given
  | .divided given _ => given

def divides : Recursion → Bool
  | .solved _ _ => false
  | .divided _ _ => true

@[simp] theorem divides_solved (given : Value) (inside : List Event) : (solved given inside).divides = false := rfl

@[simp] theorem divides_divided (given : Value) (parts : List Recursion) : (divided given parts).divides = true := rfl

section Reporting

variable (id : UInt64)

def trace (path : RecursionPath) : Trace := Trace.nest [] (Process.divisionFrame id 0 path)

def tell (phase : Phase) (point : Point) (path : RecursionPath) : Event :=
  ⟨phase, point, trace id path, path.payload⟩

def decision (path : RecursionPath) (outcome : Bool) : Event :=
  ⟨.after, .condition, trace id path, .bool outcome⟩

mutual

def log (path : RecursionPath) : Recursion → List Event
  | .solved _ inside =>
    tell id .before .condition path :: decision id path false :: tell id .before .nested path :: inside
      ++ [tell id .after .nested path]
  | .divided _ parts =>
    tell id .before .condition path :: decision id path true :: logs path 0 parts
      ++ [tell id .before .merge path, tell id .after .merge path]

def logs (path : RecursionPath) (start : Nat) : List Recursion → List Event
  | [] => []
  | part :: rest => part.log (path.child (UInt64.ofNat start)) ++ logs path (start + 1) rest

end

theorem logs_eq (path : RecursionPath) (start : Nat) (parts : List Recursion) :
    logs id path start parts =
      (parts.zipIdx start).flatMap fun entry => entry.1.log id (path.child (UInt64.ofNat entry.2)) := by
  induction parts generalizing start with
  | nil => rfl
  | cons part rest ih => rw [logs, ih, List.zipIdx_cons, List.flatMap_cons]

theorem log_divided (path : RecursionPath) (given : Value) (parts : List Recursion) :
    log id path (.divided given parts) = tell id .before .condition path :: decision id path true ::
      (parts.zipIdx.flatMap fun entry => entry.1.log id (path.child (UInt64.ofNat entry.2)))
        ++ [tell id .before .merge path, tell id .after .merge path] := by
  rw [log, logs_eq]

theorem isOf_of_trace {path : RecursionPath} {event : Event} (own : event.trace = trace id path) (phase : Phase)
    (point : Point) : event.isOf id phase point = event.isAt phase point := by
  simp [Event.isOf, own, trace, Process.divisionFrame]

@[simp] theorem isOf_tell (phase other : Phase) (point place : Point) (path : RecursionPath) :
    (tell id other place path).isOf id phase point = (decide (other = phase) && decide (place = point)) :=
  isOf_of_trace id rfl phase point

@[simp] theorem isOf_decision (phase : Phase) (point : Point) (path : RecursionPath) (outcome : Bool) :
    (decision id path outcome).isOf id phase point = (decide (.after = phase) && decide (.condition = point)) :=
  isOf_of_trace id rfl phase point

theorem filter_inside {inside : List Event}
    (other : ∀ event ∈ inside, event.trace.innermost?.map (·.skeleton) ≠ some id) (phase : Phase) (point : Point) :
    inside.filter (Event.isOf id phase point) = [] := by
  rw [List.filter_eq_nil_iff]
  intro event member own
  exact other event member (of_decide_eq_true (Bool.and_eq_true_iff.mp own).2)

end Reporting

mutual

/-- A recursion and those below it, each with its path. -/
def recursions (path : RecursionPath) : Recursion → List (RecursionPath × Recursion)
  | .solved given inside => [(path, .solved given inside)]
  | .divided given parts => (path, .divided given parts) :: recursionsOf path 0 parts

def recursionsOf (path : RecursionPath) (start : Nat) : List Recursion → List (RecursionPath × Recursion)
  | [] => []
  | part :: rest => part.recursions (path.child (UInt64.ofNat start)) ++ recursionsOf path (start + 1) rest

end

theorem recursionsOf_eq (path : RecursionPath) (start : Nat) (parts : List Recursion) :
    recursionsOf path start parts =
      (parts.zipIdx start).flatMap fun entry => entry.1.recursions (path.child (UInt64.ofNat entry.2)) := by
  induction parts generalizing start with
  | nil => rfl
  | cons part rest ih => rw [recursionsOf, ih, List.zipIdx_cons, List.flatMap_cons]

theorem recursions_divided (path : RecursionPath) (given : Value) (parts : List Recursion) :
    recursions path (.divided given parts) = (path, .divided given parts) ::
      parts.zipIdx.flatMap fun entry => entry.1.recursions (path.child (UInt64.ofNat entry.2)) := by
  rw [recursions, recursionsOf_eq]

theorem mem_recursions_divided {path : RecursionPath} {given : Value} {parts : List Recursion}
    {entry : RecursionPath × Recursion} :
    entry ∈ recursions path (.divided given parts) ↔ entry = (path, .divided given parts) ∨
      ∃ (index : Nat) (part : Recursion), parts[index]? = some part ∧
        entry ∈ part.recursions (path.child (UInt64.ofNat index)) := by
  rw [recursions_divided, List.mem_cons, List.mem_flatMap]
  refine or_congr_right ⟨?_, ?_⟩
  · intro among
    obtain ⟨⟨part, index⟩, here, member⟩ := among
    exact ⟨index, part, List.mem_zipIdx_iff_getElem?.mp here, member⟩
  · intro among
    obtain ⟨index, part, found, member⟩ := among
    exact ⟨(part, index), List.mem_zipIdx_iff_getElem?.mpr found, member⟩

theorem self_mem_recursions (path : RecursionPath) (tree : Recursion) : (path, tree) ∈ tree.recursions path := by
  cases tree with
  | solved given inside => exact List.mem_singleton_self _
  | divided given parts => exact List.mem_cons_self ..

/-- Whether a tree goes as its condition and split say, and the solves report below the traces of their
    recursions and not for the division itself. -/
inductive Follows (id : UInt64) (condition : Condition) (split : Split) : RecursionPath → Recursion → Prop where
  | solved {path : RecursionPath} {given : Value} {inside : List Event}
      (refused : condition.call given = .ok false)
      (below : ∀ event ∈ inside, event.trace[0]? = some (Process.divisionFrame id 0 path))
      (other : ∀ event ∈ inside, event.trace.innermost?.map (·.skeleton) ≠ some id) :
      Follows id condition split path (.solved given inside)
  | divided {path : RecursionPath} {given : Value} {parts : List Recursion}
      (agreed : condition.call given = .ok true) (cut : split.call given = .ok (parts.map Recursion.given))
      (few : parts.length ≤ 2 ^ 53)
      (each : ∀ index part, parts[index]? = some part →
        Follows id condition split (path.child (UInt64.ofNat index)) part) :
      Follows id condition split path (.divided given parts)

namespace Follows

variable {id : UInt64} {condition : Condition} {split : Split} {path : RecursionPath} {tree : Recursion}

theorem reached {input : Value} (follows : Follows id condition split path tree)
    (recurs : Recurs condition split input path tree.given) :
    ∀ entry ∈ tree.recursions path,
      Recurs condition split input entry.1 entry.2.given ∧ Follows id condition split entry.1 entry.2 := by
  induction follows with
  | solved refused below other =>
    intro entry member
    cases List.mem_singleton.mp member
    exact ⟨recurs, .solved refused below other⟩
  | divided agreed cut few each ih =>
    intro entry member
    rcases mem_recursions_divided.mp member with rfl | ⟨index, part, found, deeper⟩
    · exact ⟨recurs, .divided agreed cut few each⟩
    · exact ih index part found (recurs.part agreed cut (by rw [List.getElem?_map, found]; rfl)) entry deeper

theorem further (follows : Follows id condition split path tree) :
    ∀ entry ∈ tree.recursions path, ∃ rest, entry.1 = path ++ rest ∧ ∀ index ∈ rest, index.toNat < 2 ^ 53 := by
  induction follows with
  | solved refused below other =>
    intro entry member
    cases List.mem_singleton.mp member
    exact ⟨[], (List.append_nil _).symm, by simp⟩
  | @divided path given parts agreed cut few each ih =>
    intro entry member
    rcases mem_recursions_divided.mp member with rfl | ⟨index, part, found, deeper⟩
    · exact ⟨[], (List.append_nil _).symm, by simp⟩
    · obtain ⟨rest, same, small⟩ := ih index part found entry deeper
      refine ⟨UInt64.ofNat index :: rest, by rw [same]; simp [RecursionPath.child], ?_⟩
      have bound := (List.getElem?_eq_some_iff.mp found).1
      have back : (UInt64.ofNat index).toNat = index :=
        UInt64.toNat_ofNat_of_lt' (by simp only [UInt64.size]; omega)
      exact List.forall_mem_cons.mpr ⟨by omega, small⟩

theorem sorted (follows : Follows id condition split path tree) :
    (tree.recursions path).Pairwise fun first second => first.1 < second.1 := by
  induction follows with
  | solved refused below other => exact List.pairwise_singleton ..
  | @divided path given parts agreed cut few each ih =>
    have deeper : ∀ entry ∈ parts.zipIdx, ∀ below ∈ entry.1.recursions (path.child (UInt64.ofNat entry.2)),
        ∃ rest, below.1 = path ++ UInt64.ofNat entry.2 :: rest := by
      intro entry among below member
      obtain ⟨rest, same, -⟩ := (each _ _ (List.mem_zipIdx_iff_getElem?.mp among)).further below member
      exact ⟨rest, by rw [same]; simp [RecursionPath.child]⟩
    rw [recursions_divided, List.pairwise_cons, List.pairwise_flatMap]
    refine ⟨?_, ?_, ?_⟩
    · intro below member
      obtain ⟨entry, among, inside⟩ := List.mem_flatMap.mp member
      obtain ⟨rest, same⟩ := deeper entry among below inside
      have longer : path ++ [] < path ++ UInt64.ofNat entry.2 :: rest :=
        List.append_left_lt (List.nil_lt_cons _ rest)
      rwa [List.append_nil, ← same] at longer
    · intro entry among
      exact ih _ _ (List.mem_zipIdx_iff_getElem?.mp among)
    · have ordered : parts.zipIdx.Pairwise fun first second => first.2 < second.2 := by
        apply List.pairwise_map.mp
        rw [List.zipIdx_map_snd]
        exact List.pairwise_lt_range' 1
      refine ordered.imp_of_mem fun {first second} here there before above member below inside => ?_
      obtain ⟨more, same⟩ := deeper first here above member
      obtain ⟨rest, alike⟩ := deeper second there below inside
      have bound := (List.getElem?_eq_some_iff.mp (List.mem_zipIdx_iff_getElem?.mp there)).1
      rw [same, alike]
      apply List.append_left_lt
      apply List.cons_lt_cons_iff.mpr
      have word : second.2 < UInt64.size := by simp only [UInt64.size]; omega
      exact .inl ((UInt64.ofNat_lt_iff_lt (before.trans word) word).mpr before)

theorem conditions (follows : Follows id condition split path tree) :
    (tree.log id path).filter (Event.isOf id .before .condition) =
      (tree.recursions path).map fun entry => tell id .before .condition entry.1 := by
  induction follows with
  | solved refused below other =>
    rw [log, recursions]
    simp [filter_inside id other]
  | divided agreed cut few each ih =>
    rw [log_divided, recursions_divided, List.map_cons, List.map_flatMap]
    have parts := List.flatMap_congr fun entry among => ih _ _ (List.mem_zipIdx_iff_getElem?.mp among)
    simp [List.filter_flatMap, parts]

/-- The merges come in another order, each after the recursions below it. -/
theorem merges (follows : Follows id condition split path tree) :
    ((tree.log id path).filter (Event.isOf id .before .merge)).Perm
      (((tree.recursions path).filter fun entry => entry.2.divides).map fun entry =>
        tell id .before .merge entry.1) := by
  induction follows with
  | solved refused below other =>
    rw [log, recursions]
    simp [filter_inside id other]
  | @divided path given parts agreed cut few each ih =>
    have told : (log id path (.divided given parts)).filter (Event.isOf id .before .merge) =
        (parts.zipIdx.flatMap fun entry =>
          (entry.1.log id (path.child (UInt64.ofNat entry.2))).filter (Event.isOf id .before .merge))
          ++ [tell id .before .merge path] := by
      simp [log_divided, List.filter_flatMap]
    rw [told, recursions_divided, List.filter_cons, if_pos (divides_divided given parts), List.map_cons,
      List.filter_flatMap, List.map_flatMap]
    apply (List.perm_append_singleton _ _).trans
    apply List.Perm.cons
    exact .flatMap_left _ fun entry among => ih _ _ (List.mem_zipIdx_iff_getElem?.mp among)

theorem solves (follows : Follows id condition split path tree) :
    (tree.log id path).filter (Event.isOf id .before .nested) =
      ((tree.recursions path).filter fun entry => !entry.2.divides).map fun entry =>
        tell id .before .nested entry.1 := by
  induction follows with
  | solved refused below other =>
    rw [log, recursions]
    simp [filter_inside id other]
  | divided agreed cut few each ih =>
    have parts := List.flatMap_congr fun entry among => ih _ _ (List.mem_zipIdx_iff_getElem?.mp among)
    rw [log_divided, recursions_divided]
    simp [List.filter_flatMap, List.map_flatMap, parts]

theorem part_mem {above : RecursionPath} {given : Value} {parts : List Recursion} {index : Nat} {part : Recursion}
    (follows : Follows id condition split path tree) (member : (above, .divided given parts) ∈ tree.recursions path)
    (found : parts[index]? = some part) : (above.child (UInt64.ofNat index), part) ∈ tree.recursions path := by
  induction follows with
  | solved refused below other => cases List.mem_singleton.mp member
  | divided agreed cut few each ih =>
    apply mem_recursions_divided.mpr
    rcases mem_recursions_divided.mp member with same | ⟨place, around, known, deeper⟩
    · cases same
      exact .inr ⟨index, part, found, self_mem_recursions _ part⟩
    · exact .inr ⟨place, around, known, ih place around known deeper⟩

theorem eq_or_part {entry : RecursionPath × Recursion} (follows : Follows id condition split path tree)
    (member : entry ∈ tree.recursions path) : entry = (path, tree) ∨
      ∃ above given parts, (above, .divided given parts) ∈ tree.recursions path ∧
        ∃ (index : Nat) (part : Recursion), parts[index]? = some part ∧
          entry = (above.child (UInt64.ofNat index), part) := by
  induction follows with
  | solved refused below other => exact .inl (List.mem_singleton.mp member)
  | @divided path given parts agreed cut few each ih =>
    rcases mem_recursions_divided.mp member with same | ⟨index, part, found, deeper⟩
    · exact .inl same
    right
    rcases ih index part found deeper with rfl | ⟨above, value, others, among, origin⟩
    · exact ⟨path, given, parts, self_mem_recursions path _, index, part, found, rfl⟩
    · exact ⟨above, value, others, mem_recursions_divided.mpr (.inr ⟨index, part, found, among⟩), origin⟩

theorem lookup_eq {entry : RecursionPath × Recursion} (follows : Follows id condition split path tree)
    (member : entry ∈ tree.recursions path) : (tree.recursions path).lookup entry.1 = some entry.2 := by
  obtain ⟨early, late, parted⟩ := List.append_of_mem member
  rw [List.lookup_eq_some_iff]
  refine ⟨early, late, parted, fun before among => ?_⟩
  have sorted := follows.sorted
  rw [parted] at sorted
  have less := (List.pairwise_append.mp sorted).2.2 before among entry (List.mem_cons_self ..)
  apply bne_iff_ne.mpr
  intro same
  rw [same] at less
  exact List.lt_irrefl _ less

end Follows

end Recursion

end Skeletons
