import Skeletons.Proofs.Process.Reports
import Skeletons.Proofs.Skeleton.Nodes
import Skeletons.Proofs.Skeleton.Simulation
import Skeletons.Proofs.Event.Branches

namespace Skeletons

namespace Process

variable {holds : Event → Prop} {trace : Trace}

theorem reports_nested (own : ∀ phase point payload, holds ⟨phase, point, trace, payload⟩) (payload : Value)
    {run : Process Value} (given : run.Reports holds) : (nested trace payload run).Reports holds := by
  apply Reports.note_bind (own .before .nested payload)
  apply given.bind
  exact fun value => .note_bind (own .after .nested payload) (.pure value)

theorem reports_decided (own : ∀ phase point payload, holds ⟨phase, point, trace, payload⟩) (condition : Condition)
    (input : Value) : (decided trace condition input).Reports holds := by
  refine Reports.bind (.ofResult _) fun outcome => ?_
  exact .note_bind (own .after .condition _) (.pure outcome)

theorem reports_merged (own : ∀ phase point payload, holds ⟨phase, point, trace, payload⟩) (payload : Value)
    (merge : Merge) (results : List Value) : (merged trace payload merge results).Reports holds := by
  apply Reports.note_bind (own .before .merge payload)
  refine Reports.bind (.ofResult _) fun value => ?_
  exact .note_bind (own .after .merge payload) (.pure value)

theorem reports_whileRound (own : ∀ phase point payload, holds ⟨phase, point, trace, payload⟩) (condition : Condition)
    {body : UInt64 → Value → Process Value} (given : ∀ round value, (body round value).Reports holds)
    (state : UInt64 × Value) : (whileRound trace condition body state).Reports holds := by
  apply Reports.note_bind (own .before .condition .null)
  apply (reports_decided own condition state.2).bind
  intro outcome
  cases outcome with
  | false => exact .pure _
  | true => exact (reports_nested own _ (given state.1 state.2)).bind fun next => .pure _

theorem reports_scatter (own : ∀ phase point payload, holds ⟨phase, point, trace, payload⟩) (limit : Nat)
    {branches : List (UInt64 → Value → Process Value)} (merge : Merge)
    (given : ∀ branch ∈ branches, ∀ occurrence value, (branch occurrence value).Reports holds)
    (parts : List Value) : (scatter limit trace branches merge parts).Reports holds := by
  rw [scatter]
  split
  · exact .fail _
  split
  · exact .fail _
  · refine (Reports.mapM fun item _ => reports_nested own _ ?_).bind fun results =>
      reports_merged own .null merge results
    rw [branchAt_eq_getD, List.getD_eq_getElem?_getD]
    cases found : branches[branchIndex branches.length item.2]? with
    | none => exact .pure item.1
    | some branch => exact given branch (List.mem_of_getElem? found) _ item.1

theorem reports_divide {outer : Trace} (frame : Frame)
    (own : ∀ occurrence phase point payload, holds ⟨phase, point, outer.nest { frame with occurrence }, payload⟩)
    (limit : Nat) (condition : Condition) (split : Split) (merge : Merge) {solve : Trace → Value → Process Value}
    (given : ∀ occurrence value, (solve (outer.nest { frame with occurrence }) value).Reports holds)
    (occurrence : UInt64) (path : RecursionPath) (input : Value) :
    (divide limit condition split merge solve (outer.nest { frame with occurrence }) path input).Reports holds := by
  induction path using RecursionPath.inductionWithin limit (outer.length + 1) generalizing occurrence input with
  | step path ih =>
    rw [divide]
    apply Reports.note_bind (own occurrence .before .condition path.payload)
    apply (reports_decided (own occurrence) condition input).bind
    intro outcome
    cases outcome with
    | false => exact reports_nested (own occurrence) _ (given occurrence input)
    | true =>
      refine Reports.bind (.ofResult _) fun parts => ?_
      by_cases deep : limit < (outer.nest { frame with occurrence }).length + path.length
      · rw [if_pos deep]
        exact .fail _
      · rw [if_neg deep]
        rw [Trace.length_nest] at deep
        refine (Reports.mapM fun item _ => ?_).bind fun results => reports_merged (own occurrence) _ merge results
        dsimp only
        rw [Trace.length_nest, Nat.add_sub_cancel, Trace.retag_nest_length]
        exact ih (not_lt.mp deep) _ _ _

end Process

namespace Skeleton

/-- Whether an event is reported for a node of a tree that stands under a trace. -/
structure Covers (outer : Trace) (skeleton : Skeleton) (event : Event) : Prop where
  start : outer <+: event.trace
  node : ∃ node ∈ skeleton.nodes, event.trace.innermost?.map (·.skeleton) = some node.id

theorem covers_own (outer : Trace) (skeleton : Skeleton) (number : UInt64) (phase : Phase) (point : Point)
    (payload : Value) : skeleton.Covers outer ⟨phase, point, outer.nest (skeleton.frameAt number), payload⟩ where
  start := List.prefix_append outer _
  node := by
    refine ⟨skeleton, skeleton.mem_nodes_self, ?_⟩
    rw [Trace.innermost?_nest]
    rfl

theorem Covers.of_part {outer : Trace} {skeleton part : Skeleton} {frame : Frame} {event : Event}
    (member : part ∈ skeleton.children) (covers : part.Covers (outer.nest frame) event) :
    skeleton.Covers outer event where
  start := (List.prefix_append outer _).trans covers.start
  node := by
    obtain ⟨node, among, innermost⟩ := covers.node
    exact ⟨node, mem_nodes_of_part member among, innermost⟩

open Process

mutual

theorem reports_behaviour (limit : Nat) : ∀ (skeleton : Skeleton) (outer : Trace) (number : UInt64) (value : Value),
    (skeleton.behaviour limit (outer.nest (skeleton.frameAt number)) value).Reports (skeleton.Covers outer)
  | .seq _ execute, outer, number, value => .ofResult _
  | .pipe id first second, outer, number, value => by
    have own := covers_own outer (.pipe id first second) number
    have upper := reports_behaviour limit first (outer.nest (frameAt (.pipe id first second) number)) 0 value
    refine (reports_nested own _ (upper.weaken fun _ => .of_part (by simp [children]))).bind fun middle => ?_
    have lower := reports_behaviour limit second (outer.nest (frameAt (.pipe id first second) number)) 0 middle
    exact reports_nested own _ (lower.weaken fun _ => .of_part (by simp [children]))
  | .ifElse id condition whenTrue whenFalse, outer, number, value => by
    have own := covers_own outer (.ifElse id condition whenTrue whenFalse) number
    have positive := reports_behaviour limit whenTrue
      (outer.nest (frameAt (.ifElse id condition whenTrue whenFalse) number)) 0 value
    have negative := reports_behaviour limit whenFalse
      (outer.nest (frameAt (.ifElse id condition whenTrue whenFalse) number)) 0 value
    refine .note_bind (own _ _ _) ((reports_decided own condition value).bind fun outcome => ?_)
    apply reports_nested own
    cases outcome with
    | false => exact negative.weaken fun _ => .of_part (by simp [children])
    | true => exact positive.weaken fun _ => .of_part (by simp [children])
  | .whileLoop id condition body, outer, number, value => by
    have own := covers_own outer (.whileLoop id condition body) number
    refine .iterate (fun state => reports_whileRound own condition (fun round value => ?_) state) (0, value)
    exact (reports_behaviour limit body _ round value).weaken fun _ => .of_part (by simp [children])
  | .forLoop id times body, outer, number, value => by
    have own := covers_own outer (.forLoop id times body) number
    refine .foldlM (fun value round => reports_nested own _ ?_) _ value
    exact (reports_behaviour limit body _ _ value).weaken fun _ => .of_part (by simp [children])
  | .map id split body merge, outer, number, value => by
    have own := covers_own outer (.map id split body merge) number
    refine .bind (.ofResult _) fun parts => reports_scatter own limit merge ?_ parts
    intro branch member occurrence value
    cases List.mem_singleton.mp member
    exact (reports_behaviour limit body _ occurrence value).weaken fun _ => .of_part (by simp [children])
  | .fork id split branches merge, outer, number, value => by
    have own := covers_own outer (.fork id split branches merge) number
    refine .bind (.ofResult _) fun parts => reports_scatter own limit merge ?_ parts
    intro branch member occurrence value
    obtain ⟨part, among, reports⟩ := reports_behaviours limit branches _ branch member occurrence value
    exact reports.weaken fun _ => .of_part among
  | .divide id condition split solve merge, outer, number, value => by
    refine reports_divide (frame (.divide id condition split solve merge))
      (covers_own outer (.divide id condition split solve merge)) limit condition split merge ?_ number [] value
    intro occurrence value
    exact (reports_behaviour limit solve _ 0 value).weaken fun _ => .of_part (by simp [children])

theorem reports_behaviours (limit : Nat) : ∀ (branches : List Skeleton) (trace : Trace),
    ∀ branch ∈ behaviours limit trace branches, ∀ occurrence value,
      ∃ part ∈ branches, (branch occurrence value).Reports (part.Covers trace)
  | [], _, _, member, _, _ => nomatch member
  | part :: rest, trace, branch, member, occurrence, value => by
    rcases List.mem_cons.mp member with rfl | member
    · exact ⟨part, List.mem_cons_self .., reports_behaviour limit part trace occurrence value⟩
    · obtain ⟨other, among, reports⟩ := reports_behaviours limit rest trace branch member occurrence value
      exact ⟨other, List.mem_cons_of_mem _ among, reports⟩

end

end Skeleton

end Skeletons
