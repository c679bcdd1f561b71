import Skeletons.Proofs.Run.Instruction

namespace Skeletons

open Process

namespace Split

def templateAt (templates : List Stack) (index : Nat) : Stack :=
  match templates with
  | [only] => only
  | several => several.getD index []

theorem templateAt_of {holds : Stack → Prop} {templates : List Stack}
    (each : ∀ template ∈ templates, holds template) (empty : holds []) (index : Nat) :
    holds (templateAt templates index) := by
  match templates with
  | [] => exact empty
  | [only] => exact each only (List.mem_singleton_self only)
  | first :: second :: others =>
    have same : templateAt (first :: second :: others) index = (first :: second :: others).getD index [] := rfl
    rw [same, List.getD_eq_getElem?_getD]
    cases found : (first :: second :: others)[index]? with
    | none => exact empty
    | some template => exact each template (List.mem_of_getElem? found)

theorem children_eq_map (templates : List Stack) (trace : Trace) (start : Nat) (parts : List Value) :
    children templates trace start parts =
      (parts.zipIdx start).map fun (part, index) =>
        child trace (templateAt templates index) index part := by
  induction parts generalizing start with
  | nil => rfl
  | cons part rest ih =>
    exact congrArg (child trace (templateAt templates start) start part :: ·) (ih (start + 1))

end Split

namespace Stack

variable (limit : Nat)

def merging (merge : Merge) (trace : Trace) (payload : Value) : Stack :=
  [report .before .merge trace payload, .merge merge trace, report .after .merge trace payload]

theorem behaviour_merging (merge : Merge) (trace : Trace) (payload : Value) (results : List Value) :
    behaviour limit (merging merge trace payload) (.list results) ≈ merged trace payload merge results := by
  refine Setoid.trans (behaviour_report limit _ _ .before .merge trace payload).alike ?_
  refine Process.bind_congr (Setoid.refl _) fun _ => ?_
  refine Setoid.trans (behaviour_cons_trails limit _ _ _).alike ?_
  simp only [Instruction.perform, Instruction.effect, liftM_bind, liftM_pure, pure_bind, bind_assoc,
    Effect.received, note_nil_bind, List.nil_append]
  refine Process.bind_congr (Setoid.refl _) fun value => ?_
  refine Setoid.trans (behaviour_report limit _ value .after .merge trace payload).alike ?_
  exact Process.bind_congr (Setoid.refl _) fun _ => (behaviour_nil_trails limit value).alike

theorem received_list (children : List Child) (pushed : Stack) :
    Effect.received limit { value := .list [], pushed, children } =
      Value.list <$> children.mapM fun child => behaviour limit child.stack child.input := by
  cases children with
  | nil => rfl
  | cons child rest => rfl

theorem effect_split (templates : List Stack) (merge : Merge) (trace : Trace)
    (path : Option RecursionPath) (parts : List Value) :
    (Instruction.split templates merge trace path).effect limit (.list parts) =
      (if limit < trace.length + (path.getD []).length then
        .error (.configuration (.depthExceeded limit))
      else do
        let children ← Split.spawn templates trace path parts
        return {
          value := .list []
          pushed := merging merge trace (path.elim .null RecursionPath.payload)
          children }) := by
  cases path with
  | none => rfl
  | some path => rfl

theorem behaviour_split_list (templates : List Stack) (merge : Merge) (trace : Trace)
    (path : Option RecursionPath) (parts : List Value) :
    behaviour limit [.split templates merge trace path] (.list parts) ≈
      (if limit < trace.length + (path.getD []).length then
        fail (.configuration (.depthExceeded limit))
      else do
        let children ← Split.spawn templates trace path parts
        let results ← children.mapM fun child => behaviour limit child.stack child.input
        merged trace (path.elim .null RecursionPath.payload) merge results) := by
  refine Setoid.trans (behaviour_cons_trails limit [] _ _).alike ?_
  rw [Instruction.perform, effect_split]
  split
  · refine alike_of_eq ?_
    rw [liftM_error, fail_bind, fail_bind]
  · simp only [liftM_bind, bind_assoc]
    refine Process.bind_congr (Setoid.refl _) fun children => ?_
    simp only [liftM_pure, pure_bind, note_nil_bind, received_list, bind_map_left, List.append_nil]
    exact Process.bind_congr (Setoid.refl _) fun results => behaviour_merging limit merge trace _ results

/-- A plain split runs its branches on the parts, each under the number of its part. -/
theorem behaviour_split (templates : List Stack) (merge : Merge) (trace : Trace)
    {branches : List (UInt64 → Value → Process Value)} (counted : branches.length = templates.length)
    (alike : ∀ index occurrence value,
      behaviour limit (Stack.retag trace.length occurrence (Split.templateAt templates index)) value ≈
        branchAt branches index occurrence value) (parts : List Value) :
    behaviour limit [.split templates merge trace none] (.list parts) ≈
      scatter limit trace branches merge parts := by
  refine Setoid.trans (behaviour_split_list limit templates merge trace none parts) ?_
  simp only [scatter, counted, Split.spawn, Option.getD_none, List.length_nil, Nat.add_zero,
    Option.elim_none]
  split
  · exact Setoid.refl _
  · split
    · refine alike_of_eq ?_
      rw [liftM_error, fail_bind]
    · change liftM (pure _) >>= _ ≈ _
      rw [liftM_pure, pure_bind, Split.children_eq_map, List.mapM_map]
      refine Process.bind_congr (mapM_congr _ fun item member => ?_) fun results => Setoid.refl _
      refine Setoid.trans (behaviour_nested_last limit item.1 trace (countPayload item.2) _) ?_
      exact nested_congr trace _ (alike item.2 _ item.1)

end Stack

end Skeletons
