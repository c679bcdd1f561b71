import Skeletons.Proofs.Instruction.Routine
import Skeletons.Proofs.Stack.Traces
import Skeletons.Run

namespace Skeletons

namespace Trace

theorem retag_retag (trace : Trace) (depth : Nat) (number other : UInt64) :
    (trace.retag depth number).retag depth other = trace.retag depth other :=
  List.modify_modify_eq _ _ depth trace

theorem retag_comm (trace : Trace) {depth level : Nat} (apart : depth ≠ level) (number other : UInt64) :
    (trace.retag depth number).retag level other = (trace.retag level other).retag depth number :=
  List.modify_modify_ne _ _ trace apart

theorem Renumbered.eq_retag {depth : Nat} {number : UInt64} {original copy : Trace}
    (renumbered : Renumbered depth number original copy) : copy = original.retag depth number := by
  have expected := original.renumbered_retag depth number
  apply List.ext_getElem?
  intro place
  by_cases here : place = depth
  · subst here
    cases found : original[place]? with
    | none =>
      rw [List.getElem?_eq_none_iff] at found
      rw [List.getElem?_eq_none (renumbered.length ▸ found), List.getElem?_eq_none (expected.length ▸ found)]
    | some frame => rw [renumbered.there frame found, expected.there frame found]
  · rw [renumbered.elsewhere place here, expected.elsewhere place here]

theorem eq_map_of_renumbered {depth : Nat} {number : UInt64} {originals copies : List Trace}
    (renumbered : List.Forall₂ (Renumbered depth number) originals copies) :
    copies = originals.map (retag · depth number) := by
  induction renumbered with
  | nil => rfl
  | cons first _ ih => rw [List.map_cons, first.eq_retag, ih]

end Trace

theorem Instruction.length_traces_of_alike {first second : Instruction} (alike : first.untraced = second.untraced) :
    first.traces.length = second.traces.length := by
  have blanked := congrArg (List.length ∘ traces) alike
  simpa only [untraced, traces_retrace, Function.comp_apply, List.length_map] using blanked

theorem Stack.length_traces_of_alike {first second : Stack} (alike : first.untraced = second.untraced) :
    (traces first).length = (traces second).length := by
  have blanked := congrArg (List.length ∘ traces) alike
  simpa only [untraced, traces_retrace, Function.comp_apply, List.length_map] using blanked

mutual

/-- An instruction is told by what it is without its traces and by the traces in it. -/
theorem Instruction.eq_of_traces : ∀ {first second : Instruction},
    first.untraced = second.untraced → first.traces = second.traces → first = second
  | .seq _ _, second, alike, same => by
    cases second with
    | seq =>
      obtain ⟨rfl, _⟩ := Instruction.seq.inj alike
      obtain ⟨rfl, _⟩ := List.cons.inj same
      rfl
    | _ => simp at alike
  | .merge _ _, second, alike, same => by
    cases second with
    | merge =>
      obtain ⟨rfl, _⟩ := Instruction.merge.inj alike
      obtain ⟨rfl, _⟩ := List.cons.inj same
      rfl
    | _ => simp at alike
  | .signal ⟨_, _, _, _⟩, second, alike, same => by
    cases second with
    | signal other =>
      obtain ⟨_, _, _, _⟩ := other
      obtain ⟨rfl, rfl, _, rfl⟩ := Event.mk.inj (Instruction.signal.inj alike)
      obtain ⟨rfl, _⟩ := List.cons.inj same
      rfl
    | _ => simp at alike
  | .ifElse _ _ _ _, second, alike, same => by
    cases second with
    | ifElse =>
      obtain ⟨rfl, alikeTrue, alikeFalse, _⟩ := Instruction.ifElse.inj alike
      obtain ⟨rfl, inner⟩ := List.cons.inj same
      obtain ⟨sameTrue, sameFalse⟩ := List.append_inj inner (Stack.length_traces_of_alike alikeTrue)
      rw [Stack.eq_of_traces alikeTrue sameTrue, Stack.eq_of_traces alikeFalse sameFalse]
    | _ => simp at alike
  | .choice _ _ _ _, second, alike, same => by
    cases second with
    | choice =>
      obtain ⟨rfl, alikeTrue, alikeFalse, _⟩ := Instruction.choice.inj alike
      obtain ⟨rfl, inner⟩ := List.cons.inj same
      obtain ⟨sameTrue, sameFalse⟩ := List.append_inj inner (Stack.length_traces_of_alike alikeTrue)
      rw [Stack.eq_of_traces alikeTrue sameTrue, Stack.eq_of_traces alikeFalse sameFalse]
    | _ => simp at alike
  | .split _ _ _ _, second, alike, same => by
    cases second with
    | split =>
      obtain ⟨alikeAll, rfl, _, rfl⟩ := Instruction.split.inj alike
      obtain ⟨rfl, inner⟩ := List.cons.inj same
      rw [Stack.eq_of_tracesAll alikeAll inner]
    | _ => simp at alike
  | .divide _ _ _ _ _ _, second, alike, same => by
    cases second with
    | divide =>
      obtain ⟨rfl, rfl, rfl, alikeBody, _, rfl⟩ := Instruction.divide.inj alike
      obtain ⟨rfl, inner⟩ := List.cons.inj same
      rw [Stack.eq_of_traces alikeBody inner]
    | _ => simp at alike
  | .whileLoop _ _ _ _, second, alike, same => by
    cases second with
    | whileLoop =>
      obtain ⟨rfl, alikeBody, _, rfl⟩ := Instruction.whileLoop.inj alike
      obtain ⟨rfl, inner⟩ := List.cons.inj same
      rw [Stack.eq_of_traces alikeBody inner]
    | _ => simp at alike
  | .forLoop _ _ _ _, second, alike, same => by
    cases second with
    | forLoop =>
      obtain ⟨rfl, alikeBody, _, rfl⟩ := Instruction.forLoop.inj alike
      obtain ⟨rfl, inner⟩ := List.cons.inj same
      rw [Stack.eq_of_traces alikeBody inner]
    | _ => simp at alike

theorem Stack.eq_of_traces : ∀ {first second : List Instruction},
    Stack.untraced first = Stack.untraced second → Stack.traces first = Stack.traces second → first = second
  | [], second, alike, _ => by
    cases second with
    | nil => rfl
    | cons => simp at alike
  | instruction :: rest, second, alike, same => by
    cases second with
    | nil => simp at alike
    | cons other others =>
      obtain ⟨alikeTop, alikeRest⟩ := List.cons.inj alike
      obtain ⟨sameTop, sameRest⟩ := List.append_inj same (Instruction.length_traces_of_alike alikeTop)
      rw [Instruction.eq_of_traces alikeTop sameTop, Stack.eq_of_traces alikeRest sameRest]

theorem Stack.eq_of_tracesAll : ∀ {first second : List (List Instruction)},
    Stack.retraceAll Trace.blank first = Stack.retraceAll Trace.blank second →
      Stack.tracesAll first = Stack.tracesAll second → first = second
  | [], second, alike, _ => by
    cases second with
    | nil => rfl
    | cons => simp [Stack.retraceAll] at alike
  | stack :: rest, second, alike, same => by
    cases second with
    | nil => simp [Stack.retraceAll] at alike
    | cons other others =>
      obtain ⟨alikeTop, alikeRest⟩ := List.cons.inj alike
      obtain ⟨sameTop, sameRest⟩ := List.append_inj same (Stack.length_traces_of_alike alikeTop)
      rw [Stack.eq_of_traces alikeTop sameTop, Stack.eq_of_tracesAll alikeRest sameRest]

end

namespace Stack

variable (stack : Stack) (depth : Nat) (number : UInt64)

theorem renumbered_iff {copy : Stack} :
    Renumbered depth number stack copy ↔ copy = Stack.retag depth number stack := by
  constructor
  · intro renumbered
    have expected := renumbered_retag depth number stack
    apply eq_of_traces (renumbered.alike.trans expected.alike.symm)
    rw [Trace.eq_map_of_renumbered renumbered.traces, Trace.eq_map_of_renumbered expected.traces]
  · intro same
    subst same
    exact renumbered_retag depth number stack

theorem retag_retag (other : UInt64) :
    Stack.retag depth other (Stack.retag depth number stack) = Stack.retag depth other stack := by
  simp only [retag_eq_retrace, retrace_retrace, Trace.retag_retag]

theorem retag_comm {depth level : Nat} (apart : depth ≠ level) (other : UInt64) :
    Stack.retag level other (Stack.retag depth number stack) =
      Stack.retag depth number (Stack.retag level other stack) := by
  simp only [retag_eq_retrace, retrace_retrace, Trace.retag_comm _ apart]

/-- A stack can always be renumbered. What comes of it is the stack that differs from the given one in nothing but
    the number at the given depth of every trace that reaches so far, in every instruction and in every stack inside
    one. Of two numbers at one depth the later one stays, numbers at different depths do not disturb each other, and
    copying makes no difference to either. -/
theorem renumber_laws :
    (∀ copy, Stack.renumber depth number stack = .ok copy ↔ Renumbered depth number stack copy) ∧
      (∃ copy, Stack.renumber depth number stack = .ok copy) ∧
      (∀ other, (Stack.renumber depth number stack >>= Stack.renumber depth other) =
        Stack.renumber depth other stack) ∧
      (∀ level other, depth ≠ level →
        (Stack.renumber depth number stack >>= Stack.renumber level other) =
          (Stack.renumber level other stack >>= Stack.renumber depth number)) ∧
      Stack.renumber depth number (Stack.copy stack) = Stack.copy <$> Stack.renumber depth number stack := by
  have renumbered (depth : Nat) (number : UInt64) (stack : Stack) :
      Stack.renumber depth number stack = .ok (Stack.retag depth number stack) :=
    Stack.renumber_eq depth number stack
  refine ⟨?_, ⟨_, renumbered depth number stack⟩, ?_, ?_, ?_⟩
  · intro copy
    rw [renumbered, renumbered_iff, Except.ok.injEq, eq_comm]
  · intro other
    rw [renumbered, renumbered, ← retag_retag stack depth number other]
    exact renumbered depth other _
  · intro level other apart
    rw [renumbered, renumbered]
    change Stack.renumber level other _ = Stack.renumber depth number _
    rw [renumbered, renumbered, retag_comm stack number apart other]
  · rw [Stack.copy_eq, renumbered]
    exact congrArg Except.ok (Stack.copy_eq _).symm

theorem renumber_laws_template :
    let collect : Merge := ⟨"collect", fun results => .ok (.list results)⟩
    let spread (child : UInt64) : Stack :=
      [.split [[.merge collect [⟨2, .map, 0⟩, ⟨1, .fork, child⟩]]] collect [⟨2, .map, 0⟩] none]
    (0 : Nat) ≠ 1 ∧ Stack.renumber 1 7 (spread 0) = .ok (spread 7) ∧
      Renumbered 1 7 (spread 0) (spread 7) ∧
      (Stack.renumber 0 5 (spread 0) >>= Stack.renumber 1 7) =
        (Stack.renumber 1 7 (spread 0) >>= Stack.renumber 0 5) := by
  intro collect spread
  have numbered : Stack.renumber 1 7 (spread 0) = .ok (spread 7) := rfl
  have apart : (0 : Nat) ≠ 1 := by decide
  refine ⟨apart, numbered, (renumber_laws (spread 0) 1 7).1 (spread 7) |>.mp numbered, ?_⟩
  exact (renumber_laws (spread 0) 0 5).2.2.2.1 1 7 apart

/-- A copy has every instruction of the stack in its place, with every field and every stack inside it as it is. A
    copy of a copy is no different, and a copy runs as the stack itself does, at once or as a task that stops when it
    is split. -/
theorem copy_faithful :
    Stack.copy stack = stack ∧ Stack.copy (Stack.copy stack) = Stack.copy stack ∧
      (∀ limit budget input, run (Stack.copy stack) limit budget input = run stack limit budget input) ∧
      ∀ value children limit budget,
        Task.advance ⟨Stack.copy stack, value, children⟩ limit budget =
          Task.advance ⟨stack, value, children⟩ limit budget := by
  have same : Stack.copy stack = stack := Stack.copy_eq stack
  refine ⟨same, congrArg Stack.copy same, ?_, ?_⟩
  · intro limit budget input
    rw [same]
  · intro value children limit budget
    rw [same]

end Stack

end Skeletons
