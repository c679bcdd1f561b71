import Skeletons.Proofs.Number.Count
import Skeletons.Proofs.Process.Branches
import Skeletons.Proofs.Skeleton.Nodes
import Skeletons.Proofs.Skeleton.Outcome
import Skeletons.Proofs.Skeleton.Simulation

namespace Skeletons

open Event

theorem Trace.eq_of_nest_prefix {outer trace : Trace} {first second : Frame}
    (here : outer.nest first <+: trace) (there : outer.nest second <+: trace) : first = second := by
  have alike : (outer.nest first).length ≤ (outer.nest second).length := by
    simp only [Trace.length_nest, le_refl]
  have start := List.prefix_of_prefix_length_le here there alike
  have same := start.eq_of_length (by simp only [Trace.length_nest])
  simpa [Trace.nest] using same

theorem Event.isBranch_nest (outer : Trace) (frame : Frame) (payload : Value) :
    (Event.mk .before .condition (outer.nest frame) payload).isBranch =
      (frame.kind = .ifElse || frame.kind = .divide) := by
  simp [isBranch, isAt, kind?]

namespace Process

variable {told : List Event} {room : Nat} {inside : Trace → Prop} {α : Type}

theorem branches_nested {trace : Trace} {payload : Value} {run : Process Value}
    (given : ⟨.before, .nested, trace, payload⟩ ∈ told → run.Branches told room inside) :
    (nested trace payload run).Branches told room inside := by
  refine .note_bind rfl fun among => ?_
  refine (given among).bind_silent fun value => ?_
  exact .note_bind rfl fun _ => .pure value

theorem branches_decided_bind {trace : Trace} {condition : Condition} {input : Value}
    {next : Bool → Process α} (given : ∀ outcome, (next outcome).Branches told room inside) :
    (decided trace condition input >>= next).Branches told room inside := by
  refine .bind_of_silent ?_ given
  refine .bind_of_silent (.ofResult _) fun outcome => ?_
  exact .note_bind rfl fun _ => .pure outcome

theorem branches_merged (trace : Trace) (payload : Value) (merge : Merge) (results : List Value) :
    (merged trace payload merge results).Branches told room inside := by
  refine .note_bind rfl fun _ => ?_
  refine .bind_of_silent (.ofResult _) fun value => ?_
  exact .note_bind rfl fun _ => .pure value

theorem speaks_note_bind (event : Event) (next : Unit → Process α) (effort : Nat) :
    ((note [event] >>= next).within effort).events ≠ [] := List.cons_ne_nil _ _

def divisionFrame (id occurrence : UInt64) (path : RecursionPath) : Frame :=
  ⟨id, .divide, if path = [] then occurrence else path.id⟩

/-- The traces below the recursions of a division that continue a path. -/
def Continues (told : List Event) (outer : Trace) (id occurrence : UInt64) (path : RecursionPath)
    (trace : Trace) : Prop :=
  ∃ further, path <+: further ∧ Announced told further ∧
    outer.nest (divisionFrame id occurrence further) <+: trace

variable {outer : Trace} {id occurrence : UInt64}

theorem retag_divisionFrame (path : RecursionPath) (index : UInt64) :
    (outer.nest (divisionFrame id occurrence path)).retag
        ((outer.nest (divisionFrame id occurrence path)).length - 1) (path.child index).id =
      outer.nest (divisionFrame id occurrence (path.child index)) := by
  rw [Trace.length_nest, Nat.add_sub_cancel, Trace.retag_nest_length]
  simp [divisionFrame, RecursionPath.child]

theorem divisionFrame_inj (ids : IdsApart told) (free : Free told occurrence)
    {first second : RecursionPath} (here : Announced told first) (there : Announced told second)
    (same : divisionFrame id occurrence first = divisionFrame id occurrence second) : first = second := by
  simp only [divisionFrame, Frame.mk.injEq, true_and] at same
  by_cases root : first = []
  · by_cases other : second = []
    · rw [root, other]
    · rw [if_pos root, if_neg other] at same
      exact absurd same.symm (free second there other)
  · by_cases other : second = []
    · rw [if_neg root, if_pos other] at same
      exact absurd same (free first here root)
    · rw [if_neg root, if_neg other] at same
      exact ids.injective here there same

theorem Continues.index_eq (ids : IdsApart told) (free : Free told occurrence)
    {path : RecursionPath} {first second : Nat} {trace : Trace} (small : first < 2 ^ 64) (less : second < 2 ^ 64)
    (here : Continues told outer id occurrence (path.child (UInt64.ofNat first)) trace)
    (there : Continues told outer id occurrence (path.child (UInt64.ofNat second)) trace) : first = second := by
  obtain ⟨further, above, announced, below⟩ := here
  obtain ⟨other, upper, spoken, lower⟩ := there
  have same := divisionFrame_inj ids free announced spoken (Trace.eq_of_nest_prefix below lower)
  subst same
  have alike := List.prefix_of_prefix_length_le above upper (by simp [RecursionPath.child])
  have equal := alike.eq_of_length (by simp [RecursionPath.child])
  exact eq_of_ofNat_eq small less (by simpa [RecursionPath.child] using equal)

theorem Continues.deeper (ids : IdsApart told) (free : Free told occurrence)
    {path : RecursionPath} {index : UInt64} {trace : Trace} (announced : Announced told path)
    (continued : Continues told outer id occurrence (path.child index) trace) :
    Continues told outer id occurrence path trace ∧
      trace ≠ outer.nest (divisionFrame id occurrence path) := by
  obtain ⟨further, above, spoken, below⟩ := continued
  refine ⟨⟨further, (List.prefix_append path [index]).trans above, spoken, below⟩, ?_⟩
  rintro rfl
  have same := divisionFrame_inj ids free spoken announced (Trace.eq_of_nest_prefix below List.prefix_rfl)
  have longer := above.length_le
  rw [same] at longer
  exact absurd longer (by simp [RecursionPath.child])

theorem branches_divide (ids : IdsApart told) (free : Free told occurrence)
    {limit : Nat} {condition : Condition} {split : Split} {merge : Merge} {solve : Trace → Value → Process Value}
    (solves : ∀ frame value, (solve (outer.nest frame) value).Branches told (2 ^ 64) fun trace =>
      outer.nest frame <+: trace ∧ trace ≠ outer.nest frame)
    (path : RecursionPath) (value : Value) :
    (divide limit condition split merge solve (outer.nest (divisionFrame id occurrence path)) path value).Branches
      told (2 ^ 64) (Continues told outer id occurrence path) := by
  -- Each part continues the path, so it keeps to branches of its own.
  induction path using RecursionPath.inductionWithin limit (outer.length + 1) generalizing value with
  | step path ih =>
    rw [divide]
    have branch : (Event.mk .before .condition (outer.nest (divisionFrame id occurrence path))
        path.payload).isBranch := by
      simp [isBranch_nest, divisionFrame]
    have starts : (Event.mk .before .condition (outer.nest (divisionFrame id occurrence path))
        path.payload).startsRecursion := by
      simp [startsRecursion, isAt, kind?, divisionFrame]
    refine .branch_bind branch
      (fun among => ⟨path, List.prefix_rfl, announced_of_mem among starts rfl, List.prefix_rfl⟩) fun among => ?_
    have announced := announced_of_mem among starts rfl
    refine branches_decided_bind fun outcome => ?_
    cases outcome with
    | false =>
      refine branches_nested fun _ => (solves _ value).weaken le_rfl fun trace given => ?_
      exact ⟨⟨path, List.prefix_rfl, announced, given.1⟩, given.2⟩
    | true =>
      refine .bind_of_silent (.ofResult _) fun parts => ?_
      split
      · exact .fail _
      · rename_i shallow
        rw [Trace.length_nest] at shallow
        refine .bind_silent ?_ fun results => branches_merged _ _ _ _
        refine .mapM (fun index => Continues told outer id occurrence (path.child (UInt64.ofNat index)))
          ?_ ?_ ?_ ?_ parts
        · intro part index _
          dsimp only
          rw [retag_divisionFrame]
          exact ih (not_lt.mp shallow) _ part
        · rintro ⟨part, index⟩ effort
          dsimp only
          rw [divide]
          exact speaks_note_bind _ _ _
        · exact fun first second trace small less => Continues.index_eq ids free small less
        · exact fun index trace _ => Continues.deeper ids free announced

theorem branches_whileRound {trace : Trace} (loop : trace.innermost?.map (·.kind) = some .whileLoop)
    {condition : Condition} {body : UInt64 → Value → Process Value} {round : UInt64} {value : Value}
    (given : (body round value).Branches told room inside) :
    (whileRound trace condition body (round, value)).Branches told room inside := by
  refine .note_bind (by simp [isBranch, isAt, kind?, loop]) fun _ => ?_
  refine branches_decided_bind fun outcome => ?_
  cases outcome with
  | false => exact .pure _
  | true => exact (branches_nested fun _ => given).bind_silent fun next => .pure _

theorem whileRound_next {trace : Trace} {condition : Condition} {body : UInt64 → Value → Process Value}
    {round : UInt64} {value : Value} {effort : Nat} {next : UInt64 × Value}
    (ended : ((whileRound trace condition body (round, value)).within effort).outcome = some (.ok (.inl next))) :
    next.1 = round + 1 := by
  have came : (whileRound trace condition body (round, value)).outcomes (.ok (.inl next)) :=
    ⟨_, effort, by rw [← ended]⟩
  rcases whileRound_cases came with ⟨_, _, same⟩ | ⟨_, same⟩ | ⟨_, _, _, same⟩ | ⟨_, _, _, same⟩
  · cases same
  · cases same
  · cases same
  · cases same
    rfl

theorem branches_scatter {limit : Nat} {trace : Trace} {branches : List (UInt64 → Value → Process Value)}
    {merge : Merge} {other : Trace → Prop} (inside : Nat → Trace → Prop)
    (each : ∀ part index, ⟨.before, .nested, trace, countPayload index⟩ ∈ told →
      (branchAt branches index (UInt64.ofNat index) part).Branches told room (inside index))
    (apart : ∀ first second branch, first < room → second < room → inside first branch →
      inside second branch → first = second)
    (within : ∀ index branch, index < room → inside index branch → other branch) (parts : List Value) :
    (scatter limit trace branches merge parts).Branches told room other := by
  rw [scatter]
  split
  · exact .fail _
  · split
    · exact .fail _
    · refine .bind_silent ?_ fun results => branches_merged _ _ _ _
      refine .mapM inside ?_ ?_ apart within parts
      · exact fun part index _ => branches_nested fun among => each part index among
      · exact fun item effort => speaks_note_bind _ _ _

end Process

namespace Skeleton

open Process

/-- Whether a node runs its parts under numbers without overwriting them: what runs more than once as the
    same part is no division. -/
def Spaced : Skeleton → Prop
  | .whileLoop _ _ body | .forLoop _ _ body | .map _ _ body _ => body.kind ≠ .divide
  | .fork _ _ [branch] _ => branch.kind ≠ .divide
  | _ => True

/-- The traces below a part that runs under a number, or below a recursion of it. -/
def Below (outer : Trace) (number : UInt64) (part : Skeleton) (trace : Trace) : Prop :=
  ∃ own, outer.nest (part.frameAt own) <+: trace ∧ (part.kind ≠ .divide → own = number)

variable {outer trace : Trace} {number : UInt64} {part : Skeleton}

theorem Below.id_eq {first second : Skeleton} {other : UInt64} (here : first.Below outer number trace)
    (there : second.Below outer other trace) : first.id = second.id := by
  obtain ⟨_, start, _⟩ := here
  obtain ⟨_, begun, _⟩ := there
  exact congrArg Frame.skeleton (Trace.eq_of_nest_prefix start begun)

theorem Below.number_eq {other : UInt64} (single : part.kind ≠ .divide) (here : part.Below outer number trace)
    (there : part.Below outer other trace) : number = other := by
  obtain ⟨own, start, same⟩ := here
  obtain ⟨different, begun, alike⟩ := there
  have equal := congrArg Frame.occurrence (Trace.eq_of_nest_prefix start begun)
  exact (same single).symm.trans (equal.trans (alike single))

theorem Below.inside (below : part.Below outer number trace) : outer <+: trace ∧ trace ≠ outer := by
  obtain ⟨own, start, _⟩ := below
  refine ⟨(List.prefix_append outer _).trans start, ?_⟩
  rintro rfl
  have longer := start.length_le
  rw [Trace.length_nest] at longer
  omega

theorem index_eq_of_below {branches : List Skeleton} (distinct : (branches.map id).Nodup)
    (single : ∀ only, branches = [only] → only.kind ≠ .divide) {first second : Nat} (small : first < 2 ^ 64)
    (less : second < 2 ^ 64)
    (here : ∃ branch, branches[branchIndex branches.length first]? = some branch ∧
      branch.Below outer (UInt64.ofNat first) trace)
    (there : ∃ branch, branches[branchIndex branches.length second]? = some branch ∧
      branch.Below outer (UInt64.ofNat second) trace) : first = second := by
  obtain ⟨branch, found, below⟩ := here
  obtain ⟨other, held, also⟩ := there
  by_cases one : branches.length = 1
  · obtain ⟨only, rfl⟩ := List.length_eq_one_iff.mp one
    rw [branchIndex, if_pos one] at found held
    cases found
    cases held
    exact eq_of_ofNat_eq small less (below.number_eq (single branch rfl) also)
  · rw [branchIndex, if_neg one] at found held
    have alike : (branches.map id)[first]? = (branches.map id)[second]? := by
      rw [List.getElem?_map, List.getElem?_map, found, held, Option.map_some, Option.map_some,
        below.id_eq also]
    refine (List.getElem?_inj ?_ distinct).mp alike
    rw [List.length_map]
    exact (List.getElem?_eq_some_iff.mp found).choose

theorem below_of_start (start : outer.nest (part.frameAt number) <+: trace) :
    part.Below outer number trace := ⟨number, start, fun _ => rfl⟩

theorem ids_sublist (branches : List Skeleton) :
    (branches.map id).Sublist ((nodesOf branches).map id) := by
  induction branches with
  | nil => exact .slnil
  | cons branch rest ih =>
    rw [nodesOf, nodes_eq]
    simp only [List.cons_append, List.map_cons, List.map_append]
    exact (ih.trans (List.sublist_append_right _ _)).cons_cons _

variable {told : List Event}

mutual

theorem branches_behaviour (limit : Nat) (ids : IdsApart told) : ∀ (skeleton : Skeleton) (outer : Trace)
    (number : UInt64) (trace : Trace) (value : Value), trace = outer.nest (skeleton.frameAt number) →
    (skeleton.nodes.map id).Nodup → (∀ node ∈ skeleton.nodes, node.Spaced) →
      (skeleton.kind = .divide → Free told number) →
        (skeleton.behaviour limit trace value).Branches told (2 ^ 64) (skeleton.Below outer number)
  | .seq _ execute, outer, number, trace, value, _, _, _, _ => .ofResult _
  | .pipe _ first second, outer, number, trace, value, here, distinct, spaced, _ => by
    rw [nodes, List.map_cons, List.map_append, List.nodup_cons, List.nodup_append] at distinct
    rw [nodes, List.forall_mem_cons, List.forall_mem_append] at spaced
    obtain ⟨_, upper, lower, differ⟩ := distinct
    have other : first.id ≠ second.id :=
      differ _ (List.mem_map_of_mem first.mem_nodes_self) _ (List.mem_map_of_mem second.mem_nodes_self)
    have start := branches_behaviour limit ids first trace 0 _ value rfl upper spaced.2.1 fun _ => ids.nonzero
    refine (branches_nested fun _ => start).bind (second.Below trace 0) (fun middle _ _ _ _ => ?_) ?_ ?_ ?_
    · have rest := branches_behaviour limit ids second trace 0 _ middle rfl lower spaced.2.2 fun _ => ids.nonzero
      exact (branches_nested fun _ => rest).weaken (Nat.sub_le _ _) fun _ below => below
    · exact fun _ below also => other (below.id_eq also)
    · exact fun _ below => below_of_start (here ▸ below.inside.1)
    · exact fun _ below => below_of_start (here ▸ below.inside.1)
  | .ifElse _ condition whenTrue whenFalse, outer, number, trace, value, here, distinct, spaced, _ => by
    rw [nodes, List.map_cons, List.map_append, List.nodup_cons, List.nodup_append] at distinct
    rw [nodes, List.forall_mem_cons, List.forall_mem_append] at spaced
    have positive := branches_behaviour limit ids whenTrue trace 0 _ value rfl distinct.2.1 spaced.2.1
      fun _ => ids.nonzero
    have negative := branches_behaviour limit ids whenFalse trace 0 _ value rfl distinct.2.2.1 spaced.2.2
      fun _ => ids.nonzero
    rw [behaviour]
    refine .branch_bind (by simp [here, isBranch_nest, frameAt, frame, kind]) ?_ fun _ => ?_
    · exact fun _ => below_of_start (here ▸ List.prefix_rfl)
    · refine branches_decided_bind fun outcome => branches_nested fun _ => ?_
      have within : ∀ branch : Skeleton, ∀ inner, branch.Below trace 0 inner →
          Below outer number (.ifElse _ condition whenTrue whenFalse) inner ∧ inner ≠ trace :=
        fun branch inner below => ⟨below_of_start (here ▸ below.inside.1), below.inside.2⟩
      cases outcome with
      | false => exact negative.weaken le_rfl (within whenFalse)
      | true => exact positive.weaken le_rfl (within whenTrue)
  | .whileLoop _ condition body, outer, number, trace, value, here, distinct, spaced, _ => by
    rw [nodes, List.map_cons, List.nodup_cons] at distinct
    rw [nodes, List.forall_mem_cons] at spaced
    have single : body.kind ≠ .divide := spaced.1
    refine Branches.weaken (.iterate (fun round => body.Below trace round) ?_ ?_ ?_ ?_ 0 value ?_) le_rfl ?_
    · intro round value
      refine branches_whileRound (by simp [here, frameAt, frame, kind]) ?_
      exact branches_behaviour limit ids body trace round _ value rfl distinct.2 spaced.2
        fun divides => absurd divides single
    · exact fun round value effort next ended => whileRound_next ended
    · exact fun state effort => speaks_note_bind _ _ _
    · exact fun first second inner below also => below.number_eq single also
    · simp
    · exact fun inner ⟨round, _, below⟩ => below_of_start (here ▸ below.inside.1)
  | .forLoop _ times body, outer, number, trace, value, here, distinct, spaced, _ => by
    rw [nodes, List.map_cons, List.nodup_cons] at distinct
    rw [nodes, List.forall_mem_cons] at spaced
    have single : body.kind ≠ .divide := spaced.1
    refine Branches.weaken (.foldlM (fun round => body.Below trace (UInt64.ofNat round)) ?_ ?_
      List.nodup_range value) le_rfl ?_
    · intro value round _
      refine branches_nested fun _ => ?_
      exact branches_behaviour limit ids body trace _ _ value rfl distinct.2 spaced.2
        fun divides => absurd divides single
    · intro first member second among inner below also
      have bounded := times.toNat_lt
      have small := List.mem_range.mp member
      have less := List.mem_range.mp among
      exact eq_of_ofNat_eq (by omega) (by omega) (below.number_eq single also)
    · exact fun inner ⟨round, _, below⟩ => below_of_start (here ▸ below.inside.1)
  | .map _ split body merge, outer, number, trace, value, here, distinct, spaced, _ => by
    rw [nodes, List.map_cons, List.nodup_cons] at distinct
    rw [nodes, List.forall_mem_cons] at spaced
    have single : body.kind ≠ .divide := spaced.1
    rw [behaviour]
    refine .bind_of_silent (.ofResult _) fun parts => ?_
    refine branches_scatter (fun index => body.Below trace (UInt64.ofNat index)) ?_ ?_ ?_ parts
    · intro part index _
      exact branches_behaviour limit ids body trace _ _ part rfl distinct.2 spaced.2
        fun divides => absurd divides single
    · intro first second inner small less below also
      exact eq_of_ofNat_eq small less (below.number_eq single also)
    · exact fun index inner _ below => below_of_start (here ▸ below.inside.1)
  | .fork _ split branches merge, outer, number, trace, value, here, distinct, spaced, _ => by
    rw [nodes, List.map_cons, List.nodup_cons] at distinct
    rw [nodes, List.forall_mem_cons] at spaced
    rw [behaviour]
    refine .bind_of_silent (.ofResult _) fun parts => ?_
    refine branches_scatter (fun index inner => ∃ branch,
      branches[branchIndex branches.length index]? = some branch ∧
        branch.Below trace (UInt64.ofNat index) inner) ?_ ?_ ?_ parts
    · intro part index among
      rw [branchAt_eq_getD, length_behaviours]
      have starts : (Event.mk .before .nested trace (countPayload index)).startsNumbered := by
        simp [startsNumbered, isAt, kind?, here, frameAt, frame, kind]
      have free := ids.uncounted (counted_of_mem among starts rfl)
      exact branches_behaviours limit ids branches trace _ _ part distinct.2 spaced.2 free
    · intro first second inner small less below also
      refine index_eq_of_below (distinct.2.sublist (ids_sublist branches)) ?_ small less below also
      rintro only rfl
      exact spaced.1
    · exact fun index inner _ ⟨_, _, below⟩ => below_of_start (here ▸ below.inside.1)
  | .divide _ condition split solve merge, outer, number, trace, value, here, distinct, spaced, free => by
    rw [nodes, List.map_cons, List.nodup_cons] at distinct
    rw [nodes, List.forall_mem_cons] at spaced
    rw [behaviour, here]
    have solves : ∀ frame value, (solve.behaviour limit ((outer.nest frame).nest solve.frame) value).Branches
        told (2 ^ 64) fun inner => outer.nest frame <+: inner ∧ inner ≠ outer.nest frame := by
      intro frame value
      have leaf := branches_behaviour limit ids solve (outer.nest frame) 0 _ value rfl distinct.2 spaced.2
        fun _ => ids.nonzero
      exact leaf.weaken le_rfl fun inner below => below.inside
    refine (branches_divide ids (free rfl) solves [] value).weaken le_rfl fun inner continued => ?_
    obtain ⟨further, _, _, start⟩ := continued
    exact ⟨_, start, fun other => absurd rfl other⟩

theorem branches_behaviours (limit : Nat) (ids : IdsApart told) : ∀ (branches : List Skeleton)
    (trace : Trace) (index : Nat) (number : UInt64) (value : Value), ((nodesOf branches).map id).Nodup →
    (∀ node ∈ nodesOf branches, node.Spaced) → Free told number →
      ((behaviours limit trace branches).getD index (fun _ value => pure value) number value).Branches told
        (2 ^ 64) fun inner => ∃ branch, branches[index]? = some branch ∧ branch.Below trace number inner
  | [], _, _, _, _, _, _, _ => .pure _
  | branch :: rest, trace, 0, number, value, distinct, spaced, free => by
    rw [nodesOf, List.map_append, List.nodup_append] at distinct
    rw [nodesOf, List.forall_mem_append] at spaced
    have first := branches_behaviour limit ids branch trace number _ value rfl distinct.1 spaced.1 fun _ => free
    exact first.weaken le_rfl fun inner below => ⟨branch, rfl, below⟩
  | branch :: rest, trace, index + 1, number, value, distinct, spaced, free => by
    rw [nodesOf, List.map_append, List.nodup_append] at distinct
    rw [nodesOf, List.forall_mem_append] at spaced
    exact branches_behaviours limit ids rest trace index number value distinct.2.1 spaced.2 free

end

end Skeleton

end Skeletons
