import Skeletons.Program
import Skeletons.Proofs.Skeleton.Behaviour
import Skeletons.Proofs.Stack.Retag

namespace Skeletons

@[simp] theorem retag_report (depth : Nat) (occurrence : UInt64) (phase : Phase) (point : Point)
    (trace : Trace) (payload : Value) :
    (report phase point trace payload).retag depth occurrence =
      report phase point (trace.retag depth occurrence) payload := rfl

namespace Skeleton

theorem length_compileAll (trace : Trace) (branches : List Skeleton) :
    (compileAll trace branches).length = branches.length := by
  induction branches with
  | nil => rfl
  | cons branch rest ih => simp only [compileAll, List.length_cons, ih]

theorem retag_part {depth : Nat} {occurrence : UInt64} {part : Skeleton} {trace : Trace}
    (compiled : ∀ trace : Trace, depth < trace.length →
      Stack.retag depth occurrence (part.compile trace) = part.compile (trace.retag depth occurrence))
    (reached : depth < trace.length) :
    Stack.retag depth occurrence (part.compile (trace.nest part.frame)) =
      part.compile ((trace.retag depth occurrence).nest part.frame) := by
  have below : depth < (trace.nest part.frame).length := by
    rw [Trace.length_nest]
    omega
  rw [compiled _ below, Trace.retag_nest_of_lt _ _ _ reached]

mutual

theorem retag_compile (depth : Nat) (occurrence : UInt64) :
    ∀ (skeleton : Skeleton) (trace : Trace), depth < trace.length →
      Stack.retag depth occurrence (skeleton.compile trace) =
        skeleton.compile (trace.retag depth occurrence)
  | .seq _ execute, trace, reached => rfl
  | .pipe _ first second, trace, reached => by
    simp only [compile, Stack.retag_cons, Stack.retag_append, retag_report]
    rw [retag_part (retag_compile depth occurrence first) reached,
      retag_part (retag_compile depth occurrence second) reached]
    rfl
  | .ifElse _ condition whenTrue whenFalse, trace, reached => by
    simp only [compile, Stack.retag_cons, retag_report, Instruction.retag]
    rw [retag_part (retag_compile depth occurrence whenTrue) reached,
      retag_part (retag_compile depth occurrence whenFalse) reached]
    rfl
  | .whileLoop _ condition body, trace, reached => by
    simp only [compile, Stack.retag_cons, retag_report, Instruction.retag]
    rw [retag_part (retag_compile depth occurrence body) reached]
    rfl
  | .forLoop _ times body, trace, reached => by
    simp only [compile, Stack.retag_cons, Instruction.retag]
    rw [retag_part (retag_compile depth occurrence body) reached]
    rfl
  | .map _ split body merge, trace, reached => by
    simp only [compile, Stack.retag_cons, Instruction.retag, Stack.retagAll]
    rw [retag_part (retag_compile depth occurrence body) reached]
    rfl
  | .fork _ split branches merge, trace, reached => by
    simp only [compile, Stack.retag_cons, Instruction.retag]
    rw [retagAll_compileAll depth occurrence branches trace reached]
    rfl
  | .divide _ condition split solve merge, trace, reached => by
    simp only [compile, Stack.retag_cons, retag_report, Instruction.retag]
    rw [retag_part (retag_compile depth occurrence solve) reached]
    rfl

theorem retagAll_compileAll (depth : Nat) (occurrence : UInt64) :
    ∀ (branches : List Skeleton) (trace : Trace), depth < trace.length →
      Stack.retagAll depth occurrence (compileAll trace branches) =
        compileAll (trace.retag depth occurrence) branches
  | [], trace, reached => rfl
  | branch :: rest, trace, reached => by
    rw [compileAll, Stack.retagAll, retag_part (retag_compile depth occurrence branch) reached,
      retagAll_compileAll depth occurrence rest trace reached]
    rfl

end

theorem retag_length_compile (part : Skeleton) (trace : Trace) (occurrence : UInt64) :
    Stack.retag trace.length occurrence (part.compile (trace.nest part.frame)) =
      part.compile (trace.nest (part.frameAt occurrence)) := by
  rw [retag_compile trace.length occurrence part _ (by simp), Trace.retag_nest_length]
  rfl

end Skeleton

theorem Program.instantiate_ofSkeleton (skeleton : Skeleton) :
    (Program.ofSkeleton skeleton).instantiate = skeleton.compile (Trace.nest [] skeleton.frame) :=
  Stack.copy_eq _

end Skeletons
