import Skeletons.Proofs.Stack.Throughout
import Skeletons.Proofs.Task.Lineage

namespace Skeletons

def Instruction.Counted : Instruction → Prop
  | .forLoop times _ _ iteration => iteration ≤ times
  | _ => True

namespace Stack

/-- Every loop with a number of rounds, also inside other instructions, has not counted beyond it. -/
def Counted (stack : Stack) : Prop := Throughout Instruction.Counted stack

theorem toNat_succ_of_lt {count bound : UInt64} (less : count < bound) :
    (count + 1).toNat = count.toNat + 1 := by
  have below := UInt64.lt_iff_toNat_lt.mp less
  have bounded := bound.toNat_lt
  rw [UInt64.toNat_add, UInt64.toNat_one]
  omega

theorem succ_le_of_lt {count bound : UInt64} (less : count < bound) : count + 1 ≤ bound := by
  have below := UInt64.lt_iff_toNat_lt.mp less
  rw [UInt64.le_iff_toNat_le, toNat_succ_of_lt less]
  omega

end Stack

theorem Instruction.Counted.lasting : Instruction.Lasting Instruction.Counted where
  plain {instruction} plain := by
    cases instruction with
    | forLoop => cases plain
    | _ => trivial
  fresh := UInt64.zero_le
  next := Stack.succ_le_of_lt
  retag {instruction} _ _ counted := by
    cases instruction with
    | forLoop => exact counted
    | _ => trivial

namespace Stack

theorem Counted.kept (limit : Nat) : Stack.Kept limit fun _ stack => stack.Counted where
  below given := ((throughout_cons _ _).mp given).2
  onward given leads := by
    rcases throughout_onward Instruction.Counted.lasting given leads with
      ⟨counted, _⟩ | ⟨_, merge, trace, path, rfl, pushed, _⟩
    · exact counted
    · have below := ((throughout_cons _ _).mp given).2
      rw [pushed]
      simpa [Counted, merging, report, Instruction.parts, Instruction.Counted] using below
  spawned given leads := throughout_spawned Instruction.Counted.lasting given leads

end Stack

end Skeletons
