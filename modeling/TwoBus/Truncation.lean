/-!
# Truncation

Storing an integer in `w` bits keeps its sign and the low `w` bits of its magnitude. That is the
remainder of a division by `2 ^ w` that rounds toward zero, so its laws are those of the remainder:
what fits is kept (`truncate_of_natAbs_lt`), negation passes through (`truncate_neg`), and what is
lost is a multiple of `2 ^ w` (`twoPow_dvd_sub_truncate`).
-/

namespace TwoBus

/-- Two to the power `w`: how many magnitudes have `w` bits, and how many cells `w` address bits
select. -/
def twoPow (w : Nat) : Nat := Nat.pow 2 w

/-- The value that `w` bits of magnitude store for `v`. -/
def truncate (w : Nat) (v : Int) : Int := v.tmod (twoPow w)

theorem twoPow_zero : twoPow 0 = 1 := rfl

theorem twoPow_pos (w : Nat) : 0 < twoPow w := Nat.two_pow_pos w

/-- The widest magnitudes have 62 bits, and two of them add up to one of 63. -/
theorem twoPow_le_of_le {w : Nat} (hw : w ≤ 62) : twoPow w ≤ 4611686018427387904 :=
  Nat.pow_le_pow_right (by decide) hw

theorem twoPow_dvd_twoPow {w w' : Nat} (h : w ≤ w') : (twoPow w : Int) ∣ twoPow w' :=
  Int.natCast_dvd_natCast.mpr (Nat.pow_dvd_pow 2 h)

theorem natAbs_truncate (w : Nat) (v : Int) : (truncate w v).natAbs = v.natAbs % twoPow w := by
  unfold truncate
  rw [Int.natAbs_tmod, Int.natAbs_natCast]

/-- The magnitude of what is stored has `w` bits. -/
theorem natAbs_truncate_lt (w : Nat) (v : Int) : (truncate w v).natAbs < twoPow w := by
  rw [natAbs_truncate]
  exact Nat.mod_lt _ (twoPow_pos w)

@[simp] theorem truncate_zero (w : Nat) : truncate w 0 = 0 := Int.zero_tmod _

/-- Truncation commutes with negation, since both leave sign and magnitude apart. -/
@[simp] theorem truncate_neg (w : Nat) (v : Int) : truncate w (-v) = -truncate w v :=
  Int.neg_tmod v _

/-- A value whose magnitude has `w` bits is stored as it is. -/
theorem truncate_of_natAbs_lt {w : Nat} {v : Int} (h : v.natAbs < twoPow w) :
    truncate w v = v := by
  rcases Int.natAbs_eq v with hv | hv
  · rw [hv]
    exact Int.tmod_eq_of_lt (Int.natCast_nonneg _) (Int.ofNat_lt.mpr h)
  · rw [hv, truncate_neg]
    exact congrArg Neg.neg (Int.tmod_eq_of_lt (Int.natCast_nonneg _) (Int.ofNat_lt.mpr h))

/-- Of a value that is not negative its residue is stored. -/
theorem truncate_of_nonneg {w : Nat} {v : Int} (h : 0 ≤ v) : truncate w v = v % twoPow w :=
  Int.tmod_eq_emod_of_nonneg h

/-- What is lost in storing is a multiple of `2 ^ w`. -/
theorem twoPow_dvd_sub_truncate (w : Nat) (v : Int) : (twoPow w : Int) ∣ v - truncate w v := by
  refine ⟨v.tdiv (twoPow w), ?_⟩
  have hdivision := Int.mul_tdiv_add_tmod v (twoPow w)
  unfold truncate
  omega

/-- So what is stored has the residue of what it is stored for. -/
theorem truncate_emod (w : Nat) (v : Int) : truncate w v % twoPow w = v % twoPow w := by
  have hdvd := twoPow_dvd_sub_truncate w v
  exact (Int.emod_eq_emod_iff_emod_sub_eq_zero.mpr (Int.emod_eq_zero_of_dvd hdvd)).symm

/-- What is stored is stored again as it is. -/
@[simp] theorem truncate_truncate (w : Nat) (v : Int) :
    truncate w (truncate w v) = truncate w v :=
  truncate_of_natAbs_lt (natAbs_truncate_lt w v)

/-- What is stored at one width and then at another is stored as at the narrower of the two. -/
theorem truncate_truncate_min (w w' : Nat) (v : Int) :
    truncate w' (truncate w v) = truncate (min w w') v := by
  rcases Nat.le_total w' w with hle | hle
  · rw [Nat.min_eq_right hle]
    exact Int.tmod_tmod_of_dvd v (twoPow_dvd_twoPow hle)
  · -- what the first width has left fits the second
    have hpow : twoPow w ≤ twoPow w' := Nat.pow_le_pow_right (by decide) hle
    rw [Nat.min_eq_left hle]
    exact truncate_of_natAbs_lt (Nat.lt_of_lt_of_le (natAbs_truncate_lt w v) hpow)

end TwoBus
