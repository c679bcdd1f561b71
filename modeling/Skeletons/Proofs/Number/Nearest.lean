import Mathlib.Algebra.Order.Field.Power
import Mathlib.Data.Rat.Cast.Order
import Mathlib.Tactic.Positivity
import Mathlib.Tactic.Ring
import Skeletons.Proofs.Number.Count

namespace Skeletons

theorem roundDiv_le (numerator denominator : Nat) : roundDiv numerator denominator ≤ numerator / denominator + 1 := by
  rw [roundDiv]
  split
  · omega
  · split
    · omega
    · omega

theorem roundDiv_half {divisor : Nat} (positive : 0 < divisor) (count : Nat) :
    2 * |(count : Int) - roundDiv count divisor * divisor| ≤ divisor := by
  have parts := Nat.div_add_mod count divisor
  have small := Nat.mod_lt count positive
  unfold roundDiv
  dsimp only
  generalize count / divisor = quotient at *
  generalize count % divisor = remainder at *
  have whole : (count : Int) = quotient * divisor + remainder := by
    rw [← parts]
    push_cast
    ring
  have down : |(count : Int) - quotient * divisor| = remainder := by
    rw [whole, add_sub_cancel_left]
    exact abs_of_nonneg (Int.natCast_nonneg remainder)
  have up : |(count : Int) - (quotient + 1 : Nat) * divisor| = divisor - remainder := by
    rw [whole, abs_sub_comm, abs_of_nonneg]
    · push_cast
      ring
    · push_cast
      rw [Int.add_mul]
      omega
  split
  · omega
  · split
    · omega
    · rcases Nat.mod_two_eq_zero_or_one quotient with even | odd
      · rw [even, Nat.add_zero]
        omega
      · rw [odd]
        omega

theorem roundDiv_nearest {divisor : Nat} (positive : 0 < divisor) (count multiple : Nat) :
    |(count : Int) - roundDiv count divisor * divisor| ≤ |(count : Int) - multiple * divisor| := by
  have half := roundDiv_half positive count
  by_contra nearer
  rw [not_le] at nearer
  have close : |(multiple : Int) * divisor - roundDiv count divisor * divisor| < divisor := by
    have via := abs_sub_le ((multiple : Int) * divisor) count (roundDiv count divisor * divisor)
    rw [abs_sub_comm ((multiple : Int) * divisor) count] at via
    omega
  rw [← Int.sub_mul, abs_mul, Nat.abs_cast] at close
  have within : |(multiple : Int) - roundDiv count divisor| < 1 := by
    by_contra far
    have scaled := Int.mul_le_mul_of_nonneg_right (not_lt.mp far) (Int.natCast_nonneg divisor)
    omega
  have same : (multiple : Int) = roundDiv count divisor := by
    rw [Int.abs_lt_one_iff] at within
    omega
  rw [same] at nearer
  exact lt_irrefl _ nearer

namespace Number

def value (x : Number) : ℚ := (if x.isNegative then -1 else 1) * x.significand * 2 ^ x.exponent

theorem significand_lt (x : Number) : x.significand < 2 ^ 53 := by
  unfold significand exponentWeight
  split
  · omega
  · omega

section

variable {negative : Bool} {size : Nat}

theorem toNat_bits_ofMagnitude (fits : size < signWeight) :
    (ofMagnitude negative size).bits.toNat = (if negative then signWeight else 0) + size := by
  apply UInt64.toNat_ofNat_of_lt'
  unfold signWeight at fits ⊢
  change _ < 2 ^ 64
  split
  · omega
  · omega

theorem magnitude_ofMagnitude (fits : size < signWeight) : (ofMagnitude negative size).magnitude = size := by
  rw [magnitude, toNat_bits_ofMagnitude fits]
  split
  · rw [Nat.add_mod_left, Nat.mod_eq_of_lt fits]
  · rw [Nat.zero_add, Nat.mod_eq_of_lt fits]

theorem isNegative_ofMagnitude (fits : size < signWeight) : (ofMagnitude negative size).isNegative = negative := by
  rw [isNegative, toNat_bits_ofMagnitude fits]
  cases negative with
  | true => exact decide_eq_true (Nat.le_add_right _ _)
  | false => exact decide_eq_false (by simpa using fits)

/-- Exponent and fraction of a normal number; a fraction of fifty-four bits is carried into the exponent. -/
theorem value_ofMagnitude {order fraction : Nat} (least : 2 ^ 52 ≤ fraction) (most : fraction ≤ 2 ^ 53)
    (split : size = (order + 1022) * 2 ^ 52 + fraction) (finite : size < infinityMagnitude) :
    (ofMagnitude negative size).value =
      (if negative then -1 else 1) * (fraction * 2 ^ ((order : Int) - 52)) := by
  have fits : size < signWeight := finite.trans (by decide)
  have weight : exponentWeight = 2 ^ 52 := rfl
  have normal : ¬ size < exponentWeight := by omega
  rw [value, isNegative_ofMagnitude fits, mul_assoc, significand, exponent, magnitude_ofMagnitude fits,
    if_neg normal, if_neg normal, weight]
  congr 1
  rcases Nat.lt_or_eq_of_le most with inside | carried
  · have quotient : size / 2 ^ 52 = order + 1023 := by omega
    have rest : size % 2 ^ 52 + 2 ^ 52 = fraction := by omega
    have power : ((order + 1023 : Nat) : Int) - 1075 = order - 52 := by omega
    rw [quotient, rest, power]
  · have quotient : size / 2 ^ 52 = order + 1024 := by omega
    have rest : size % 2 ^ 52 + 2 ^ 52 = 2 ^ 52 := by omega
    have power : ((order + 1024 : Nat) : Int) - 1075 = 1 + (order - 52) := by omega
    rw [quotient, rest, power, carried, zpow_add₀ two_ne_zero, ← mul_assoc]
    norm_num

end

/-- The numbers that doubles are taken from: fifty-three bits times a power of two. -/
def Representable (r : ℚ) : Prop := ∃ significand exponent : Int, |significand| < 2 ^ 53 ∧ r = significand * 2 ^ exponent

theorem representable_value (x : Number) : Representable x.value := by
  refine ⟨(if x.isNegative then -1 else 1) * x.significand, x.exponent, ?_, ?_⟩
  · have bound := x.significand_lt
    split
    · rw [neg_one_mul, abs_neg, Nat.abs_cast]
      omega
    · rw [one_mul, Nat.abs_cast]
      omega
  · unfold value
    push_cast
    rfl

theorem Representable.neg {r : ℚ} (representable : Representable r) : Representable (-r) := by
  obtain ⟨significand, exponent, bound, rfl⟩ := representable
  refine ⟨-significand, exponent, by rwa [abs_neg], ?_⟩
  push_cast
  ring

theorem Representable.multiple {r : ℚ} (representable : Representable r) {places : Nat}
    (large : (2 : ℚ) ^ (places + 52) ≤ r) : ∃ multiple : Nat, r = multiple * 2 ^ places := by
  obtain ⟨significand, exponent, bound, rfl⟩ := representable
  have unit : (0 : ℚ) < 2 ^ exponent := zpow_pos two_pos exponent
  have positive : 0 < significand := by
    have whole : (0 : ℚ) < significand * 2 ^ exponent := lt_of_lt_of_le (by positivity) large
    exact Int.cast_pos.mp ((mul_pos_iff_of_pos_right unit).mp whole)
  have fits : (significand : ℚ) < 2 ^ 53 := by
    have cast : (significand : ℚ) < ((2 ^ 53 : Int) : ℚ) := Int.cast_lt.mpr (abs_lt.mp bound).2
    simpa only [Int.cast_pow, Int.cast_ofNat] using cast
  have powers : (2 : ℚ) ^ ((places + 52 : Nat) : Int) < 2 ^ (53 + exponent) := by
    calc (2 : ℚ) ^ ((places + 52 : Nat) : Int) = 2 ^ (places + 52) := zpow_natCast 2 (places + 52)
      _ ≤ significand * 2 ^ exponent := large
      _ < 2 ^ 53 * 2 ^ exponent := mul_lt_mul_of_pos_right fits unit
      _ = 2 ^ (53 + exponent) := by rw [zpow_add₀ two_ne_zero, zpow_ofNat]
  have exponents := (zpow_lt_zpow_iff_right₀ one_lt_two).mp powers
  obtain ⟨count, rfl⟩ := Int.eq_ofNat_of_zero_le positive.le
  obtain ⟨more, rfl⟩ : ∃ more : Nat, exponent = ((more + places : Nat) : Int) := ⟨(exponent - places).toNat, by omega⟩
  refine ⟨count * 2 ^ more, ?_⟩
  rw [zpow_natCast, pow_add, Int.cast_natCast, Nat.cast_mul, Nat.cast_pow, Nat.cast_ofNat, mul_assoc]

/-- A count of more than fifty-three bits is nearest to its rounded quotient by the unit in its last place. -/
theorem nearest_wide {count places : Nat} (reached : 2 ^ (places + 52) ≤ count) {r : ℚ}
    (representable : Representable r) :
    |(count : ℚ) - roundDiv count (2 ^ places) * 2 ^ places| ≤ |(count : ℚ) - r| := by
  have nearest (multiple : Nat) :
      |(count : ℚ) - roundDiv count (2 ^ places) * 2 ^ places| ≤ |(count : ℚ) - multiple * 2 ^ places| := by
    have whole := Int.cast_le (R := ℚ).mpr (roundDiv_nearest (Nat.two_pow_pos places) count multiple)
    push_cast at whole
    exact whole
  by_cases large : (2 : ℚ) ^ (places + 52) ≤ r
  · obtain ⟨multiple, rfl⟩ := representable.multiple large
    exact nearest multiple
  · -- Whatever is below the power of two is farther away than the power itself, which is a multiple too.
    have power : ((2 ^ 52 : Nat) : ℚ) * 2 ^ places = 2 ^ (places + 52) := by
      rw [Nat.cast_pow, Nat.cast_ofNat, ← pow_add, Nat.add_comm]
    have lower : (2 : ℚ) ^ (places + 52) ≤ count := by
      have cast := Nat.cast_le (α := ℚ).mpr reached
      rwa [Nat.cast_pow, Nat.cast_ofNat] at cast
    calc |(count : ℚ) - roundDiv count (2 ^ places) * 2 ^ places|
        ≤ |(count : ℚ) - (2 ^ 52 : Nat) * 2 ^ places| := nearest (2 ^ 52)
      _ = count - 2 ^ (places + 52) := by rw [power, abs_of_nonneg (sub_nonneg.mpr lower)]
      _ ≤ count - r := sub_le_sub_left (not_le.mp large).le _
      _ ≤ |(count : ℚ) - r| := le_abs_self _

theorem exists_nearest {count : Nat} (positive : count ≠ 0) (small : count < 2 ^ 64) :
    ∃ fraction : Nat, 2 ^ 52 ≤ fraction ∧ fraction ≤ 2 ^ 53 ∧
      nearestMagnitude count 1 = (count.log2 + 1022) * 2 ^ 52 + fraction ∧
      ∀ r, Representable r → |(count : ℚ) - fraction * 2 ^ ((count.log2 : Int) - 52)| ≤ |(count : ℚ) - r| := by
  have reached : 2 ^ count.log2 ≤ count := Nat.log2_self_le positive
  have passed : count < 2 ^ (count.log2 + 1) := Nat.lt_log2_self
  have order : count.log2 < 64 := (Nat.log2_lt positive).mpr small
  have bounded : infinityMagnitude = 2047 * 2 ^ 52 := by decide
  have weight : exponentWeight = 2 ^ 52 := rfl
  have shifted : ((count.log2 : Int) - 52 + 1074).toNat = count.log2 + 1022 := by omega
  rw [nearestMagnitude, if_neg positive, unitExponent_one positive]
  dsimp only
  rw [shifted, weight, bounded]
  by_cases wide : 52 ≤ count.log2
  · obtain ⟨places, split⟩ := Nat.exists_eq_add_of_le' wide
    have exponent : ((count.log2 : Int) - 52).toNat = places := by omega
    have unit : 0 < 2 ^ places := Nat.two_pow_pos places
    have least : 2 ^ 52 ≤ count / 2 ^ places := by
      rw [Nat.le_div_iff_mul_le unit, ← Nat.pow_add, Nat.add_comm, ← split]
      exact reached
    have most : count / 2 ^ places < 2 ^ 53 := by
      rw [Nat.div_lt_iff_lt_mul unit, ← Nat.pow_add]
      exact passed.trans_eq (congrArg (2 ^ ·) (by omega))
    have above := le_roundDiv count (2 ^ places)
    have under := roundDiv_le count (2 ^ places)
    have place : (count.log2 : Int) - 52 = (places : Nat) := by omega
    rw [if_pos (by omega), exponent, Nat.one_mul, Nat.pow_eq, place, zpow_natCast]
    refine ⟨roundDiv count (2 ^ places), by omega, by omega, Nat.min_eq_left (by omega), ?_⟩
    intro r representable
    exact nearest_wide (split ▸ reached) representable
  · obtain ⟨places, split⟩ := Nat.exists_eq_add_of_le (Nat.le_of_lt (not_le.mp wide))
    have exponent : (-((count.log2 : Int) - 52)).toNat = places := by omega
    have least : 2 ^ 52 ≤ count * 2 ^ places := by
      rw [split, Nat.pow_add]
      exact Nat.mul_le_mul_right _ reached
    have most : count * 2 ^ places < 2 ^ 53 := by
      have power : 2 ^ 53 = 2 ^ (count.log2 + 1) * 2 ^ places := by
        rw [← Nat.pow_add]
        exact congrArg (2 ^ ·) (by omega)
      rw [power]
      exact Nat.mul_lt_mul_of_pos_right passed (Nat.two_pow_pos places)
    have place : (count.log2 : Int) - 52 = -(places : Nat) := by omega
    rw [if_neg (by omega), exponent, roundDiv_one, Nat.pow_eq, place, zpow_neg, zpow_natCast]
    refine ⟨count * 2 ^ places, least, most.le, Nat.min_eq_left (by omega), ?_⟩
    intro r _
    have restored : ((count * 2 ^ places : Nat) : ℚ) * (2 ^ places)⁻¹ = count := by
      rw [Nat.cast_mul, Nat.cast_pow, Nat.cast_ofNat, mul_inv_cancel_right₀ (by positivity)]
    rw [restored, sub_self, abs_zero]
    exact abs_nonneg _

theorem ofInt_nearest {n : Int} (small : n.natAbs < 2 ^ 64) :
    (ofInt n).isFinite = true ∧ ∀ x : Number, |(n : ℚ) - (ofInt n).value| ≤ |(n : ℚ) - x.value| := by
  by_cases nothing : n = 0
  · subst nothing
    have zeroValue : (ofInt 0).value = 0 := by
      have zero : (ofInt 0).significand = 0 := by decide
      rw [value, zero, Nat.cast_zero, mul_zero, zero_mul]
    refine ⟨by decide, ?_⟩
    intro x
    rw [zeroValue, Int.cast_zero, sub_zero, abs_zero]
    exact abs_nonneg _
  · obtain ⟨fraction, least, most, size, nearest⟩ := exists_nearest (Int.natAbs_ne_zero.mpr nothing) small
    have order : n.natAbs.log2 < 64 := (Nat.log2_lt (Int.natAbs_ne_zero.mpr nothing)).mpr small
    have bounded : infinityMagnitude = 2047 * 2 ^ 52 := by decide
    have finite : nearestMagnitude n.natAbs 1 < infinityMagnitude := by omega
    refine ⟨?_, ?_⟩
    · rw [isFinite, ofInt, ofRatio, magnitude_ofMagnitude (finite.trans (by decide))]
      exact decide_eq_true finite
    · intro x
      rw [ofInt, ofRatio, value_ofMagnitude least most size finite]
      rcases lt_or_gt_of_ne nothing with negative | positive
      · have opposite : (n : ℚ) = -(n.natAbs : ℚ) := by
          rw [Nat.cast_natAbs, abs_of_neg negative, Int.cast_neg, neg_neg]
        have mirrored := nearest _ (representable_value x).neg
        rw [decide_eq_true negative, if_pos rfl, opposite, neg_one_mul, ← neg_sub', abs_neg]
        rw [sub_neg_eq_add] at mirrored
        rwa [← neg_add', abs_neg]
      · have alike : (n : ℚ) = n.natAbs := by rw [Nat.cast_natAbs, abs_of_pos positive]
        rw [decide_eq_false (by omega), if_neg Bool.false_ne_true, one_mul, alike]
        exact nearest _ (representable_value x)

end Number

end Skeletons
