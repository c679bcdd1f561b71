import Skeletons.Number

namespace Skeletons.Number

variable {x y : Number}

theorem toNat_bits (x : Number) :
    x.bits.toNat = (if x.isNegative then signWeight else 0) + x.magnitude := by
  have bound := x.bits.toNat_lt
  unfold isNegative magnitude signWeight
  split
  · rename_i negative
    have heavy := of_decide_eq_true negative
    omega
  · rename_i positive
    have light := of_decide_eq_false (Bool.eq_false_iff.mpr positive)
    omega

theorem eq_of_sign_of_magnitude (sign : x.isNegative = y.isNegative) (size : x.magnitude = y.magnitude) : x = y := by
  have same : x.bits.toNat = y.bits.toNat := by rw [toNat_bits, toNat_bits, sign, size]
  obtain ⟨bits⟩ := x
  exact congrArg Number.mk (UInt64.toNat_inj.mp same)

/-- Only the zeros share a place. -/
theorem eq_of_rank_eq (same : x.rank = y.rank) : x = y ∨ x.magnitude = 0 ∧ y.magnitude = 0 := by
  unfold rank at same
  cases first : x.isNegative with
  | false =>
    cases second : y.isNegative with
    | false =>
      left
      apply eq_of_sign_of_magnitude (first.trans second.symm)
      simp only [first, second, Bool.false_eq_true, if_false] at same
      omega
    | true =>
      right
      simp only [first, second, Bool.false_eq_true, if_false, if_true] at same
      omega
  | true =>
    cases second : y.isNegative with
    | false =>
      right
      simp only [first, second, Bool.false_eq_true, if_false, if_true] at same
      omega
    | true =>
      left
      apply eq_of_sign_of_magnitude (first.trans second.symm)
      simp only [first, second, if_true] at same
      omega

theorem zero_of_magnitude (nothing : x.magnitude = 0) : x = zero ∨ x = -zero := by
  cases sign : x.isNegative with
  | false => exact Or.inl (eq_of_sign_of_magnitude (sign.trans (by decide)) (nothing.trans (by decide)))
  | true => exact Or.inr (eq_of_sign_of_magnitude (sign.trans (by decide)) (nothing.trans (by decide)))

theorem le_iff_rank (proper : x.isNaN = false) (other : y.isNaN = false) : x.le y = true ↔ x.rank ≤ y.rank := by
  simp [le, proper, other]

theorem totalLe_trans (x y z : Number) (first : x.totalLe y = true) (second : y.totalLe z = true) :
    x.totalLe z = true := by
  simp only [totalLe, decide_eq_true_eq] at *
  omega

theorem totalLe_total (x y : Number) : (x.totalLe y || y.totalLe x) = true := by
  simp only [totalLe, Bool.or_eq_true, decide_eq_true_eq]
  omega

theorem rank_le_of_totalLe (below : x.totalLe y = true) : x.rank ≤ y.rank := by
  have places : x.totalRank ≤ y.totalRank := of_decide_eq_true below
  unfold totalRank at places
  unfold rank
  cases first : x.isNegative with
  | false =>
    cases second : y.isNegative with
    | false => simpa [first, second] using places
    | true =>
      simp only [first, second, Bool.false_eq_true, if_false, if_true] at places
      omega
  | true =>
    cases second : y.isNegative with
    | false =>
      simp only [Bool.false_eq_true, if_false, if_true]
      omega
    | true => simpa [first, second] using places

end Skeletons.Number
