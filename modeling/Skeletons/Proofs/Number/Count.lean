import Mathlib.Algebra.Group.Nat.Defs
import Mathlib.Order.Nat
import Skeletons.Instruction.Interpret
import Skeletons.Number.Rounding

namespace Skeletons

theorem eq_of_ofNat_eq {first second : Nat} (small : first < 2 ^ 64) (less : second < 2 ^ 64)
    (same : UInt64.ofNat first = UInt64.ofNat second) : first = second := by
  have numbers := congrArg UInt64.toNat same
  rwa [UInt64.toNat_ofNat_of_lt' small, UInt64.toNat_ofNat_of_lt' less] at numbers

theorem le_roundDiv (numerator denominator : Nat) : numerator / denominator ≤ roundDiv numerator denominator := by
  rw [roundDiv]
  split
  · exact le_rfl
  · split
    · exact Nat.le_succ _
    · exact Nat.le_add_right _ _

theorem roundDiv_one (numerator : Nat) : roundDiv numerator 1 = numerator := by
  rw [roundDiv, Nat.div_one, Nat.mod_one]
  rfl

namespace Number

theorem unitExponent_one {count : Nat} (positive : count ≠ 0) : unitExponent count 1 = (count.log2 : Int) - 52 := by
  have reached : 2 ^ count.log2 ≤ count := Nat.log2_self_le positive
  have above : ratioBelowPower count 1 (count.log2 : Int) = false := by
    rw [ratioBelowPower, if_pos (Int.natCast_nonneg _)]
    simpa using reached
  have one : ((1 : Nat).log2 : Int) = 0 := by decide
  rw [unitExponent, one, Int.sub_zero, above]
  simp only [Bool.false_eq_true, if_false]
  omega

/-- The magnitude of a count: its exponent, and a fraction that is the count itself where it fits. -/
theorem exists_nearestMagnitude {count : Nat} (positive : count ≠ 0) :
    ∃ fraction, 2 ^ 52 ≤ fraction ∧ (count < 2 ^ 53 → fraction = count * 2 ^ (52 - count.log2)) ∧
      nearestMagnitude count 1 = min ((count.log2 + 1022) * 2 ^ 52 + fraction) infinityMagnitude := by
  have reached : 2 ^ count.log2 ≤ count := Nat.log2_self_le positive
  rw [nearestMagnitude, if_neg positive, unitExponent_one positive]
  dsimp only
  by_cases wide : 52 ≤ count.log2
  · have split : 2 ^ 52 * 2 ^ (count.log2 - 52) = 2 ^ count.log2 := by
      rw [← Nat.pow_add, Nat.add_sub_cancel' wide]
    have exponent : ((count.log2 : Int) - 52).toNat = count.log2 - 52 := by omega
    have shifted : ((count.log2 : Int) - 52 + 1074).toNat = count.log2 + 1022 := by omega
    rw [if_pos (by omega), exponent, shifted]
    refine ⟨_, ?_, ?_, rfl⟩
    · refine Nat.le_trans ?_ (le_roundDiv _ _)
      rw [Nat.one_mul]
      exact (Nat.le_div_iff_mul_le (Nat.pow_pos Nat.zero_lt_two)).mpr (split ▸ reached)
    · intro small
      have narrow : count.log2 < 53 := (Nat.log2_lt positive).mpr small
      have whole : count.log2 - 52 = 0 := by omega
      have none : 52 - count.log2 = 0 := by omega
      rw [whole, none]
      simpa using roundDiv_one count
  · have split : 2 ^ count.log2 * 2 ^ (52 - count.log2) = 2 ^ 52 := by
      rw [← Nat.pow_add, Nat.add_sub_cancel' (by omega)]
    have exponent : (-((count.log2 : Int) - 52)).toNat = 52 - count.log2 := by omega
    have shifted : ((count.log2 : Int) - 52 + 1074).toNat = count.log2 + 1022 := by omega
    rw [if_neg (by omega), exponent, shifted, roundDiv_one]
    refine ⟨_, ?_, fun _ => rfl, rfl⟩
    rw [← split]
    exact Nat.mul_le_mul_right _ reached

theorem fraction_lt {count : Nat} (positive : count ≠ 0) (small : count < 2 ^ 53) :
    count * 2 ^ (52 - count.log2) < 2 * 2 ^ 52 := by
  have narrow : count.log2 < 53 := (Nat.log2_lt positive).mpr small
  have power : 2 ^ count.log2 * 2 ^ (52 - count.log2) = 2 ^ 52 := by
    rw [← Nat.pow_add, Nat.add_sub_cancel' (by omega)]
  rw [← power, ← Nat.mul_assoc, ← Nat.pow_succ']
  exact Nat.mul_lt_mul_of_pos_right Nat.lt_log2_self (Nat.pow_pos Nat.zero_lt_two)

theorem fields_eq {first second fraction piece : Nat} (narrow : second < 53) (least : 2 ^ 52 ≤ fraction)
    (fits : piece < 2 * 2 ^ 52)
    (same : min ((first + 1022) * 2 ^ 52 + fraction) (2047 * 2 ^ 52) =
      min ((second + 1022) * 2 ^ 52 + piece) (2047 * 2 ^ 52)) (also : 2 ^ 52 ≤ piece) :
    first < 53 ∧ (fraction < 2 * 2 ^ 52 → first = second ∧ fraction = piece) := by
  omega

theorem nearestMagnitude_inj {count other : Nat} (small : other < 2 ^ 53)
    (same : nearestMagnitude count 1 = nearestMagnitude other 1) : count = other := by
  have bounded : infinityMagnitude = 2047 * 2 ^ 52 := by decide
  have zero : nearestMagnitude 0 1 = 0 := by decide
  by_cases first : count = 0
  · by_cases second : other = 0
    · rw [first, second]
    · obtain ⟨fraction, least, _, magnitude⟩ := exists_nearestMagnitude second
      rw [first, zero, magnitude] at same
      omega
  · obtain ⟨fraction, least, full, magnitude⟩ := exists_nearestMagnitude first
    by_cases second : other = 0
    · rw [second, zero, magnitude] at same
      omega
    · obtain ⟨piece, also, whole, size⟩ := exists_nearestMagnitude second
      have narrow : other.log2 < 53 := (Nat.log2_lt second).mpr small
      rw [magnitude, size, bounded] at same
      obtain ⟨wide, fields⟩ := fields_eq narrow least (whole small ▸ fraction_lt second small) same also
      have exceeds : count < 2 ^ 53 := (Nat.log2_lt first).mp wide
      obtain ⟨logs, pieces⟩ := fields (full exceeds ▸ fraction_lt first exceeds)
      rw [full exceeds, whole small, logs] at pieces
      exact Nat.eq_of_mul_eq_mul_right (Nat.pow_pos Nat.zero_lt_two) pieces

theorem nearestMagnitude_le (numerator denominator : Nat) :
    nearestMagnitude numerator denominator ≤ infinityMagnitude := by
  rw [nearestMagnitude]
  split
  · exact Nat.zero_le _
  · exact Nat.min_le_right _ _

theorem bits_ofNat (count : Nat) : (ofNat count).bits = UInt64.ofNat (nearestMagnitude count 1) := by
  simp only [ofNat, ofRatio, ofMagnitude, Bool.false_eq_true, if_false, Nat.zero_add]

theorem ofNat_inj_of_lt {count other : Nat} (small : other < 2 ^ 53) (same : ofNat count = ofNat other) :
    count = other := by
  have bounded : infinityMagnitude < 2 ^ 64 := by decide
  have below := (nearestMagnitude_le count 1).trans_lt bounded
  have under := (nearestMagnitude_le other 1).trans_lt bounded
  have words := congrArg Number.bits same
  rw [bits_ofNat, bits_ofNat] at words
  exact nearestMagnitude_inj small (eq_of_ofNat_eq below under words)

end Number

theorem countPayload_inj_of_lt {count other : Nat} (small : other < 2 ^ 53)
    (same : countPayload count = countPayload other) : count = other :=
  Number.ofNat_inj_of_lt small (Value.number.inj same)

theorem RecursionPath.payload_inj_of_lt {first second : RecursionPath}
    (small : ∀ index ∈ second, index.toNat < 2 ^ 53) (same : first.payload = second.payload) :
    first = second := by
  have numbers := Value.list.inj same
  induction first generalizing second with
  | nil => exact (List.map_eq_nil_iff.mp numbers.symm).symm
  | cons index rest ih =>
    match second with
    | [] => cases numbers
    | other :: others =>
      rw [List.map_cons, List.map_cons, List.cons.injEq] at numbers
      have bounded := List.forall_mem_cons.mp small
      have head : index = other := UInt64.toNat_inj.mp (countPayload_inj_of_lt bounded.1 numbers.1)
      rw [head, ih bounded.2 (congrArg Value.list numbers.2) numbers.2]

end Skeletons
