import TwoBus.Buses
import TwoBus.Number

/-!
# Truncation by masks

In arithmetic of 64 bits an integer is truncated by masking its magnitude and putting its sign back.
Two things could go wrong there. The least integer has a magnitude that no integer of 64 bits
reaches, so magnitudes are read without a sign; and what is masked has to be negated with one. Both
go well for every supported width, since 62 bits of a magnitude leave the sign bit clear.

* `Level.toInt_stored`, `Level.negOverflow_masked`: the mask computes the truncation, and nothing
  overflows.
* `Keeps.unique`, `keeps_iff`: range, residue and sign leave one integer to be stored.
* `Number.truncation_law`: what a number stores for an integer of 64 bits.
-/

namespace TwoBus

/-! ## Arithmetic of 64 bits -/

namespace Level

/-- The level whose lowest `w` bits are set. -/
def mask (w : Nat) : Level := (1#64 <<< w) - 1#64

/-- The lowest `w` bits of the magnitude of an integer. -/
def masked (w : Nat) (v : Level) : Level := v.abs &&& mask w

/-- Store an integer in `w` bits: mask its magnitude and put its sign back. -/
def stored (w : Nat) (v : Level) : Level := if v.msb then -v.masked w else v.masked w

/-- Make a place of `w` bits for an integer. It starts with zero, and a zero is not stored again. -/
def made (w : Nat) (v : Level) : Level := if v = 0#64 then 0#64 else v.stored w

theorem toNat_mask {w : Nat} (hw : w ≤ 62) : (mask w).toNat = twoPow w - 1 := by
  have hle := twoPow_le_of_le hw
  have hpos := twoPow_pos w
  have hbit : (1#64 <<< w).toNat = twoPow w := by
    rw [BitVec.toNat_shiftLeft, BitVec.toNat_ofNat, Nat.shiftLeft_eq]
    show 1 % 2 ^ 64 * twoPow w % 2 ^ 64 = twoPow w
    omega
  rw [mask, BitVec.toNat_sub, hbit, BitVec.toNat_ofNat]
  omega

/-- Read without a sign, the magnitude is right for every integer, the least one included. -/
theorem toNat_abs (v : Level) : v.abs.toNat = v.toInt.natAbs := by
  have hlt := v.isLt
  have hsigned := BitVec.toInt_eq_toNat_cond v
  rw [BitVec.toNat_abs, BitVec.msb_eq_toInt]
  by_cases hneg : v.toInt < 0
  · rw [if_pos (decide_eq_true hneg)]
    split at hsigned <;> omega
  · rw [if_neg (by simpa using hneg)]
    split at hsigned <;> omega

/-- The mask leaves the sign bit clear. -/
theorem toInt_masked {w : Nat} (hw : w ≤ 62) (v : Level) :
    (v.masked w).toInt = v.toInt.natAbs % twoPow w := by
  have hmask : (v.masked w).toNat = v.toInt.natAbs % twoPow w := by
    rw [masked, BitVec.toNat_and, toNat_abs, toNat_mask hw]
    exact Nat.and_two_pow_sub_one_eq_mod _ _
  have hlt := Nat.mod_lt v.toInt.natAbs (twoPow_pos w)
  have hle := twoPow_le_of_le hw
  rw [BitVec.toInt_eq_toNat_of_lt (by omega), hmask]
  rfl

/-- A magnitude of 62 bits can be negated. -/
theorem negOverflow_of_natAbs_lt {w : Nat} (hw : w ≤ 62) {v : Level}
    (h : v.toInt.natAbs < twoPow w) : v.negOverflow = false := by
  have hle := twoPow_le_of_le hw
  unfold BitVec.negOverflow
  rw [beq_eq_false_iff_ne]
  omega

theorem negOverflow_masked {w : Nat} (hw : w ≤ 62) (v : Level) :
    (v.masked w).negOverflow = false := by
  have hlt := Nat.mod_lt v.toInt.natAbs (twoPow_pos w)
  have hmasked := toInt_masked hw v
  exact negOverflow_of_natAbs_lt hw (by omega)

/-- The mask computes the truncation. -/
theorem toInt_stored {w : Nat} (hw : w ≤ 62) (v : Level) :
    (v.stored w).toInt = truncate w v.toInt := by
  have hmasked := toInt_masked hw v
  have hnegation := BitVec.toInt_neg_of_not_negOverflow
    (Bool.eq_false_iff.mp (negOverflow_masked hw v))
  unfold stored
  rw [BitVec.msb_eq_toInt]
  by_cases hneg : v.toInt < 0
  · have hmagnitude : (v.toInt.natAbs : Int) = -v.toInt := by omega
    rw [if_pos (decide_eq_true hneg), hnegation, hmasked, hmagnitude,
      ← truncate_of_nonneg (by omega), truncate_neg, Int.neg_neg]
  · have hmagnitude : (v.toInt.natAbs : Int) = v.toInt := by omega
    rw [if_neg (by simpa using hneg), hmasked, hmagnitude, truncate_of_nonneg (by omega)]

/-- What is stored can be negated. -/
theorem negOverflow_stored {w : Nat} (hw : w ≤ 62) (v : Level) :
    (v.stored w).negOverflow = false := by
  apply negOverflow_of_natAbs_lt hw
  rw [toInt_stored hw]
  exact natAbs_truncate_lt w v.toInt

/-- If it can be negated, an integer has its magnitude among the signed ones. -/
theorem toInt_abs {v : Level} (h : v.negOverflow = false) : v.abs.toInt = v.toInt.natAbs := by
  rw [BitVec.abs, BitVec.msb_eq_toInt]
  split
  · next hneg =>
    have hlt := of_decide_eq_true hneg
    have hnegation := BitVec.toInt_neg_of_not_negOverflow (Bool.eq_false_iff.mp h)
    show (-v).toInt = _
    omega
  · next hpos =>
    have hle : ¬v.toInt < 0 := by simpa using hpos
    omega

theorem made_eq_stored {w : Nat} (hw : w ≤ 62) (v : Level) : v.made w = v.stored w := by
  unfold made
  split
  · next hzero =>
    subst hzero
    apply BitVec.eq_of_toInt_eq
    rw [toInt_stored hw]
    exact (truncate_zero w).symm
  · rfl

end Level

/-! ## The law -/

/-- Of an integer `v` a place of `b` bits keeps `w`. -/
structure Keeps (b : Nat) (v w : Int) : Prop where
  /-- The magnitude has `b` bits. -/
  natAbs_le : w.natAbs ≤ twoPow b - 1
  /-- The two are congruent modulo `2 ^ b`. -/
  residue : w % twoPow b = v % twoPow b
  sign : w = 0 ∨ w.sign = v.sign

namespace Keeps

variable {b : Nat} {v w w' : Int}

/-- What is kept is on the same side of zero. -/
theorem nonneg (h : Keeps b v w) (hv : 0 ≤ v) : 0 ≤ w := by
  rcases h.sign with hzero | hsign
  · omega
  · rw [← Int.sign_nonneg_iff, hsign, Int.sign_nonneg_iff]
    exact hv

theorem nonpos (h : Keeps b v w) (hv : v ≤ 0) : w ≤ 0 := by
  rcases h.sign with hzero | hsign
  · omega
  · rw [← Int.sign_nonpos_iff, hsign, Int.sign_nonpos_iff]
    exact hv

/-- On one side of zero there is one integer to each residue. -/
theorem unique (h : Keeps b v w) (h' : Keeps b v w') : w = w' := by
  have hpos := twoPow_pos b
  have hrange := h.natAbs_le
  have hrange' := h'.natAbs_le
  have hdvd : (twoPow b : Int) ∣ w - w' := by
    apply Int.dvd_of_emod_eq_zero
    rw [← Int.emod_eq_emod_iff_emod_sub_eq_zero]
    exact h.residue.trans h'.residue.symm
  have hclose : (w - w').natAbs < (twoPow b : Int).natAbs := by
    rcases Int.le_total 0 v with hv | hv
    · have hw := h.nonneg hv
      have hw' := h'.nonneg hv
      omega
    · have hw := h.nonpos hv
      have hw' := h'.nonpos hv
      omega
  have hzero := Int.eq_zero_of_dvd_of_natAbs_lt_natAbs hdvd hclose
  omega

end Keeps

theorem keeps_truncate (b : Nat) (v : Int) : Keeps b v (truncate b v) where
  natAbs_le := Nat.le_sub_one_of_lt (natAbs_truncate_lt b v)
  residue := truncate_emod b v
  sign := by
    have hsign := Int.sign_tmod v (twoPow b)
    split at hsign
    · exact .inl (Int.sign_eq_zero_iff_zero.mp hsign)
    · exact .inr hsign

/-- The truncation is what is kept, and nothing else is. -/
theorem keeps_iff {b : Nat} {v w : Int} : Keeps b v w ↔ w = truncate b v := by
  constructor
  · intro h
    exact h.unique (keeps_truncate b v)
  · rintro rfl
    exact keeps_truncate b v

namespace Number

theorem ofInt_eq_zero_iff {width : Width} {v : Int} :
    ofInt width v = ofInt width 0 ↔ (twoPow width.bits : Int) ∣ v := by
  rw [ext_iff, value_ofInt, value_ofInt, truncate_zero, Int.dvd_iff_tmod_eq_zero]
  exact and_iff_right rfl

/-- What a number stores for an integer of 64 bits, whichever it is. A number that is made for the
integer and a number of the same width that had held another value both store the one integer that
fits the width, has the residue and has no other sign. Arithmetic of 64 bits finds it by its masks,
without an overflow, also if a zero is not stored at all. Negation passes through. What is a
multiple of `2 ^ b` is stored as the one zero there is, whatever its sign. The magnitude of what is
stored needs no more than 64 bits, the sign included. -/
theorem truncation_law (n : Number) (v : Level) :
    (∀ w, Keeps n.width.bits v.toInt w ↔ w = (ofInt n.width v.toInt).value)
      ∧ n.store v.toInt = ofInt n.width v.toInt
      ∧ (v.stored n.width.bits).toInt = (ofInt n.width v.toInt).value
      ∧ (v.made n.width.bits).toInt = (ofInt n.width v.toInt).value
      ∧ (v.masked n.width.bits).negOverflow = false
      ∧ (ofInt n.width (-v.toInt)).value = -(ofInt n.width v.toInt).value
      ∧ (ofInt n.width v.toInt = ofInt n.width 0 ↔ (twoPow n.width.bits : Int) ∣ v.toInt)
      ∧ (v.stored n.width.bits).negOverflow = false
      ∧ (v.stored n.width.bits).abs.toInt = (ofInt n.width v.toInt).magnitude := by
  have hw := n.width.bits_le
  have hstored : (v.stored n.width.bits).toInt = (ofInt n.width v.toInt).value :=
    Level.toInt_stored hw v
  have hsafe := Level.negOverflow_stored hw v
  refine ⟨?_, rfl, hstored, ?_, ?_, ?_, ofInt_eq_zero_iff, hsafe, ?_⟩
  · intro w
    exact keeps_iff
  · rw [Level.made_eq_stored hw, hstored]
  · exact Level.negOverflow_masked hw v
  · exact truncate_neg n.width.bits v.toInt
  · rw [Level.toInt_abs hsafe, hstored]
    rfl

/-- The least integer is a multiple of every `2 ^ b`. -/
example : Level.stored 62 (BitVec.intMin 64) = 0#64 := by decide

end Number

end TwoBus
