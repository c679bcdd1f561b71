import Skeletons.Proofs.Run.Divide
import Skeletons.Proofs.Run.Loop
import Skeletons.Proofs.Skeleton.Compile

namespace Skeletons

open Process

def branchIndex (count index : Nat) : Nat := if count = 1 then 0 else index

theorem Split.templateAt_eq_getD (templates : List Stack) (index : Nat) :
    templateAt templates index = templates.getD (branchIndex templates.length index) [] := by
  match templates with
  | [] => rfl
  | [only] => rfl
  | first :: second :: rest => rfl

theorem Process.branchAt_eq_getD (branches : List (UInt64 → Value → Process Value)) (index : Nat) :
    branchAt branches index =
      branches.getD (branchIndex branches.length index) fun _ value => pure value := by
  match branches with
  | [] => rfl
  | [only] => rfl
  | first :: second :: rest => rfl

namespace Skeleton

variable (limit : Nat)

theorem behaviour_retagged {part : Skeleton}
    (alike : ∀ (trace : Trace) (value : Value), trace ≠ [] →
      (part.compile trace).behaviour limit value ≈ part.behaviour limit trace value)
    (trace : Trace) (occurrence : UInt64) (value : Value) :
    Stack.behaviour limit
        (Stack.retag trace.length occurrence (part.compile (trace.nest part.frame))) value ≈
      part.behaviour limit (trace.nest (part.frameAt occurrence)) value := by
  rw [retag_length_compile]
  exact alike _ value (Trace.nest_ne_nil trace _)

mutual

theorem behaviour_compile : ∀ (skeleton : Skeleton) (trace : Trace) (value : Value), trace ≠ [] →
    (skeleton.compile trace).behaviour limit value ≈ skeleton.behaviour limit trace value
  | .seq _ execute, trace, value, traced => by
    refine Setoid.trans (Stack.behaviour_seq limit [] value execute trace) ?_
    refine Setoid.trans (Trails.bind (Trails.refl _) (Stack.behaviour_nil_trails limit)).alike ?_
    exact alike_of_eq (bind_pure _)
  | .pipe _ first second, trace, value, traced => by
    have firstAlike := behaviour_compile first (trace.nest first.frame) value (Trace.nest_ne_nil trace _)
    rw [compile, behaviour, List.append_assoc]
    refine Setoid.trans (Stack.behaviour_nested limit
      (report .before .nested trace (countPayload 1) :: second.compile (trace.nest second.frame)
        ++ [report .after .nested trace (countPayload 1)]) value trace (countPayload 0) _).alike ?_
    refine Process.bind_congr (nested_congr trace _ firstAlike) fun middle => ?_
    refine Setoid.trans (Stack.behaviour_nested_last limit middle trace (countPayload 1) _) ?_
    exact nested_congr trace _
      (behaviour_compile second (trace.nest second.frame) middle (Trace.nest_ne_nil trace _))
  | .ifElse _ condition whenTrue whenFalse, trace, value, traced => by
    refine Setoid.trans (Stack.behaviour_report limit _ value .before .condition trace .null).alike ?_
    refine Process.bind_congr (Setoid.refl _) fun _ => ?_
    refine Setoid.trans (Stack.behaviour_ifElse limit value condition _ _ trace) ?_
    refine Process.bind_congr (Setoid.refl _) fun outcome => nested_congr trace _ ?_
    cases outcome with
    | false => exact behaviour_compile whenFalse _ value (Trace.nest_ne_nil trace _)
    | true => exact behaviour_compile whenTrue _ value (Trace.nest_ne_nil trace _)
  | .whileLoop _ condition body, trace, value, traced =>
    Stack.behaviour_whileLoop limit condition _ trace
      (behaviour_retagged limit (behaviour_compile body) trace) value
  | .forLoop _ times body, trace, value, traced => by
    rw [compile, behaviour]
    exact Stack.behaviour_forLoop limit times _ trace
      (behaviour_retagged limit (behaviour_compile body) trace) value
  | .map _ split body merge, trace, value, traced => by
    refine Setoid.trans (Stack.behaviour_seq_split limit _ value split trace) ?_
    refine Process.bind_congr (Setoid.refl _) fun parts => ?_
    refine Stack.behaviour_split limit _ merge trace rfl (fun index occurrence value => ?_) parts
    exact behaviour_retagged limit (behaviour_compile body) trace occurrence value
  | .fork _ split branches merge, trace, value, traced => by
    refine Setoid.trans (Stack.behaviour_seq_split limit _ value split trace) ?_
    refine Process.bind_congr (Setoid.refl _) fun parts => ?_
    refine Stack.behaviour_split limit _ merge trace ?_ (fun index occurrence value => ?_) parts
    · rw [length_behaviours, length_compileAll]
    · rw [Split.templateAt_eq_getD, branchAt_eq_getD, length_behaviours, length_compileAll]
      exact behaviour_compileAll branches trace _ occurrence value traced
  | .divide _ condition split solve merge, trace, value, traced => by
    refine Stack.behaviour_divide limit condition split merge
      (fun trace => solve.compile (trace.nest solve.frame)) ?_ ?_ trace traced [] value
    · intro trace occurrence traced
      refine retag_part (retag_compile _ occurrence solve) ?_
      have filled := List.length_pos_iff.mpr traced
      omega
    · exact fun trace value => behaviour_compile solve _ value (Trace.nest_ne_nil trace _)

theorem behaviour_compileAll : ∀ (branches : List Skeleton) (trace : Trace) (index : Nat)
    (occurrence : UInt64) (value : Value), trace ≠ [] →
    Stack.behaviour limit
        (Stack.retag trace.length occurrence ((compileAll trace branches).getD index [])) value ≈
      (behaviours limit trace branches).getD index (fun _ value => pure value) occurrence value
  | [], _, _, _, value, _ => (Stack.behaviour_nil_trails limit value).alike
  | branch :: _, trace, 0, occurrence, value, _ =>
    behaviour_retagged limit (behaviour_compile branch) trace occurrence value
  | _ :: rest, trace, index + 1, occurrence, value, traced =>
    behaviour_compileAll rest trace index occurrence value traced

end

end Skeleton

end Skeletons
