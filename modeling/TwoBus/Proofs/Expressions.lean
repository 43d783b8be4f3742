import TwoBus.Proofs.BusCycle
import TwoBus.Proofs.Masking

/-!
# Expressions over numbers

An expression adds and subtracts numbers of any widths. Each sum is truncated to the smaller width
of its two operands, so widths shrink from the leaves to the root, and truncation is not
associative. Three things still hold of every expression:

* **it is safe** — no operation of 64 bits on the way overflows, because 62 bits of magnitude leave
  room for one sum (`Expression.overflows_eq_false`), and so 64 bits compute its value
  (`Expression.toInt_level`);
* **it is right modulo its width** — the width is the smallest of the leaves
  (`Expression.isLeast_width`), and the value is congruent to the exact one
  (`Expression.dvd_exact_sub_value`);
* **it is exact if nothing was lost** — if all widths are equal and every exact value on the way
  fits, the value is the exact one (`Expression.value_eq_exact`).
-/

namespace TwoBus

/-! ## One operation -/

/-- The two operations on numbers. -/
inductive Operator
  | plus
  | minus
  deriving DecidableEq, Repr

namespace Operator

/-- The result among the integers. -/
def exact : Operator → Int → Int → Int
  | plus, x, y => x + y
  | minus, x, y => x - y

/-- The result among the numbers. -/
def apply : Operator → Number → Number → Number
  | plus, a, b => a + b
  | minus, a, b => a - b

/-- The result in arithmetic of 64 bits. -/
def compute : Operator → Level → Level → Level
  | plus, x, y => x + y
  | minus, x, y => x - y

/-- The result does not fit 64 bits with a sign. -/
def overflows : Operator → Level → Level → Bool
  | plus, x, y => x.saddOverflow y
  | minus, x, y => x.ssubOverflow y

variable (op : Operator)

theorem width_apply (a b : Number) : (op.apply a b).width = min a.width b.width := by
  cases op with
  | plus => exact Number.width_add a b
  | minus => exact Number.width_sub a b

theorem value_apply (a b : Number) :
    (op.apply a b).value
      = truncate (min a.width.bits b.width.bits) (op.exact a.value b.value) := by
  rw [← Width.bits_min]
  cases op with
  | plus => exact Number.value_add a b
  | minus => exact Number.value_sub a b

/-- What the operands are short of, the result is short of. -/
theorem exact_sub_exact (x x' y y' : Int) :
    op.exact x y - op.exact x' y' = op.exact (x - x') (y - y') := by
  cases op <;> simp only [exact] <;> omega

theorem dvd_exact {d x y : Int} (hx : d ∣ x) (hy : d ∣ y) : d ∣ op.exact x y := by
  cases op with
  | plus => exact Int.dvd_add hx hy
  | minus => exact Int.dvd_sub hx hy

/-- Two magnitudes of 62 bits do not overflow 64. -/
theorem overflows_of_natAbs_lt {x y : Level} (hx : x.toInt.natAbs < 4611686018427387904)
    (hy : y.toInt.natAbs < 4611686018427387904) : op.overflows x y = false := by
  cases op with
  | plus =>
    show x.saddOverflow y = false
    simp only [BitVec.saddOverflow, Bool.or_eq_false_iff, decide_eq_false_iff_not]
    omega
  | minus =>
    show x.ssubOverflow y = false
    simp only [BitVec.ssubOverflow, Bool.or_eq_false_iff, decide_eq_false_iff_not]
    omega

/-- Without an overflow the computed result is the exact one. -/
theorem toInt_compute {x y : Level} (h : op.overflows x y = false) :
    (op.compute x y).toInt = op.exact x.toInt y.toInt := by
  cases op with
  | plus => exact BitVec.toInt_add_of_not_saddOverflow (Bool.eq_false_iff.mp h)
  | minus => exact BitVec.toInt_sub_of_not_ssubOverflow (Bool.eq_false_iff.mp h)

end Operator

/-! ## Expressions -/

/-- A tree of sums and differences over numbers. -/
inductive Expression
  | number (n : Number)
  | combine (op : Operator) (left right : Expression)

namespace Expression

/-- The value as a number. -/
def eval : Expression → Number
  | number n => n
  | combine op left right => op.apply left.eval right.eval

/-- The value among the integers. -/
def exact : Expression → Int
  | number n => n.value
  | combine op left right => op.exact left.exact right.exact

/-- The numbers that the expression is made of. -/
def leaves : Expression → List Number
  | number n => [n]
  | combine _ left right => left.leaves ++ right.leaves

/-- The expression with all expressions within it. -/
def nodes : Expression → List Expression
  | number n => [number n]
  | combine op left right => combine op left right :: (left.nodes ++ right.nodes)

/-- The value in arithmetic of 64 bits: the operands are computed, then the result, and a place of
the smaller width is made for it. -/
def level : Expression → Level
  | number n => BitVec.ofInt 64 n.value
  | combine op left right =>
    (op.compute left.level right.level).made (min left.eval.width right.eval.width).bits

/-- An operation of 64 bits at the root overflows: the sum or difference, or the negation that puts
its sign back. -/
def overflows : Expression → Bool
  | number _ => false
  | combine op left right =>
    op.overflows left.level right.level
      || ((op.compute left.level right.level).masked
          (min left.eval.width right.eval.width).bits).negOverflow

theorem width_combine (op : Operator) (left right : Expression) :
    (combine op left right).eval.width.bits = min left.eval.width.bits right.eval.width.bits := by
  show (op.apply left.eval right.eval).width.bits = _
  rw [op.width_apply, Width.bits_min]

theorem value_combine (op : Operator) (left right : Expression) :
    (combine op left right).eval.value
      = truncate (combine op left right).eval.width.bits
          (op.exact left.eval.value right.eval.value) := by
  rw [width_combine]
  exact op.value_apply left.eval right.eval

/-! ### No overflow -/

theorem natAbs_value_lt (e : Expression) : e.eval.value.natAbs < 4611686018427387904 :=
  Nat.lt_of_lt_of_le e.eval.magnitude_lt (twoPow_le_of_le e.eval.width.bits_le)

/-- Operands that are computed rightly do not overflow. -/
theorem overflows_levels (op : Operator) {left right : Expression}
    (hleft : left.level.toInt = left.eval.value) (hright : right.level.toInt = right.eval.value) :
    op.overflows left.level right.level = false := by
  apply op.overflows_of_natAbs_lt
  · rw [hleft]
    exact left.natAbs_value_lt
  · rw [hright]
    exact right.natAbs_value_lt

/-- Arithmetic of 64 bits computes the value. -/
theorem toInt_level (e : Expression) : e.level.toInt = e.eval.value := by
  induction e with
  | number n => exact n.word.toInt_ofInt_level n.width.bits_le
  | combine op left right hleft hright =>
    have hw := (min left.eval.width right.eval.width).bits_le
    have hsafe := overflows_levels op hleft hright
    rw [level, Level.made_eq_stored hw, Level.toInt_stored hw, op.toInt_compute hsafe, hleft,
      hright, value_combine, width_combine, Width.bits_min]

theorem overflows_eq_false (e : Expression) : e.overflows = false := by
  cases e with
  | number n => rfl
  | combine op left right =>
    rw [overflows, Bool.or_eq_false_iff]
    exact ⟨overflows_levels op left.toInt_level right.toInt_level,
      Level.negOverflow_masked (Width.bits_le _) _⟩

/-! ### The width -/

theorem width_le_of_mem_leaves {e : Expression} {n : Number} (h : n ∈ e.leaves) :
    e.eval.width.bits ≤ n.width.bits := by
  induction e with
  | number m =>
    rw [List.mem_singleton.mp h]
    exact Nat.le_refl _
  | combine op left right hleft hright =>
    rw [width_combine]
    rcases List.mem_append.mp h with h | h
    · exact Nat.le_trans (Nat.min_le_left _ _) (hleft h)
    · exact Nat.le_trans (Nat.min_le_right _ _) (hright h)

/-- The smallest width is that of a leaf. -/
theorem exists_leaf_width (e : Expression) : ∃ n ∈ e.leaves, n.width = e.eval.width := by
  induction e with
  | number n => exact ⟨n, List.mem_singleton_self n, rfl⟩
  | combine op left right hleft hright =>
    have hwidth := width_combine op left right
    rcases Nat.le_total left.eval.width.bits right.eval.width.bits with hle | hle
    · obtain ⟨n, hn, hnwidth⟩ := hleft
      rw [Nat.min_eq_left hle, ← hnwidth] at hwidth
      exact ⟨n, List.mem_append_left _ hn, Width.ext hwidth.symm⟩
    · obtain ⟨n, hn, hnwidth⟩ := hright
      rw [Nat.min_eq_right hle, ← hnwidth] at hwidth
      exact ⟨n, List.mem_append_right _ hn, Width.ext hwidth.symm⟩

/-! ### The residue -/

/-- The value is congruent to the exact one. An operand is so modulo its own width, which is no
smaller. -/
theorem dvd_exact_sub_value (e : Expression) :
    (twoPow e.eval.width.bits : Int) ∣ e.exact - e.eval.value := by
  induction e with
  | number n => exact ⟨0, Int.sub_self _⟩
  | combine op left right hleft hright =>
    have hwidth := width_combine op left right
    have hlost := twoPow_dvd_sub_truncate (combine op left right).eval.width.bits
      (op.exact left.eval.value right.eval.value)
    have hoperands : (twoPow (combine op left right).eval.width.bits : Int)
        ∣ op.exact (left.exact - left.eval.value) (right.exact - right.eval.value) := by
      apply op.dvd_exact
      · exact Int.dvd_trans (twoPow_dvd_twoPow (hwidth ▸ Nat.min_le_left _ _)) hleft
      · exact Int.dvd_trans (twoPow_dvd_twoPow (hwidth ▸ Nat.min_le_right _ _)) hright
    rw [← op.exact_sub_exact] at hoperands
    rw [← value_combine] at hlost
    have hsplit : (combine op left right).exact - (combine op left right).eval.value
        = (op.exact left.exact right.exact - op.exact left.eval.value right.eval.value)
          + (op.exact left.eval.value right.eval.value - (combine op left right).eval.value) := by
      rw [exact]
      omega
    rw [hsplit]
    exact Int.dvd_add hoperands hlost

/-- Of two values of `N` magnitudes that are congruent modulo `N`, one is the other or `N` away. -/
theorem eq_or_natAbs_sub_eq {N : Nat} {x y : Int} (hx : x.natAbs < N) (hy : y.natAbs < N)
    (h : (N : Int) ∣ x - y) : x = y ∨ (x - y).natAbs = N := by
  obtain ⟨k, hk⟩ := h
  have hmul : (x - y).natAbs = N * k.natAbs := by
    rw [hk, Int.natAbs_mul, Int.natAbs_natCast]
  have hlt : k.natAbs < 2 := by
    refine Nat.lt_of_mul_lt_mul_left (a := N) ?_
    omega
  match hcases : k.natAbs, hlt with
  | 0, _ =>
    rw [hcases] at hmul
    exact .inl (by omega)
  | 1, _ =>
    rw [hcases, Nat.mul_one] at hmul
    exact .inr hmul

/-- Two expressions of one exact value and one width differ by no more than the sign bit. -/
theorem value_eq_or_apart {e e' : Expression} (hexact : e'.exact = e.exact)
    (hwidth : e'.eval.width = e.eval.width) :
    e'.eval.value = e.eval.value
      ∨ (e'.eval.value - e.eval.value).natAbs = twoPow e.eval.width.bits := by
  have hlt : e'.eval.value.natAbs < twoPow e.eval.width.bits := hwidth ▸ e'.eval.magnitude_lt
  have hdvd := e.dvd_exact_sub_value
  have hdvd' := e'.dvd_exact_sub_value
  rw [hwidth, hexact] at hdvd'
  have hsub := Int.dvd_sub hdvd hdvd'
  have hcancel : e.exact - e.eval.value - (e.exact - e'.eval.value)
      = e'.eval.value - e.eval.value := by omega
  rw [hcancel] at hsub
  exact eq_or_natAbs_sub_eq hlt e.eval.magnitude_lt hsub

/-! ### Exact values -/

/-- If all exact values within an expression fit a width that no operand falls below, nothing is
lost. -/
theorem value_eq_exact {e : Expression} {w : Nat} (hw : w ≤ e.eval.width.bits)
    (hfits : ∀ d ∈ e.nodes, d.exact.natAbs < twoPow w) : e.eval.value = e.exact := by
  induction e with
  | number n => rfl
  | combine op left right hleft hright =>
    have hwidth := width_combine op left right
    have hroot : (op.exact left.exact right.exact).natAbs < twoPow w :=
      hfits _ List.mem_cons_self
    have hle : twoPow w ≤ twoPow (combine op left right).eval.width.bits :=
      Nat.pow_le_pow_right (by decide) hw
    rw [value_combine, hleft (by omega), hright (by omega)]
    · exact truncate_of_natAbs_lt (Nat.lt_of_lt_of_le hroot hle)
    · intro d hd
      exact hfits d (List.mem_cons_of_mem _ (List.mem_append_right _ hd))
    · intro d hd
      exact hfits d (List.mem_cons_of_mem _ (List.mem_append_left _ hd))

/-! ### The law of expressions -/

/-- Every expression over numbers is safe and right modulo its width. At no node of it does an
operation of 64 bits overflow, and these operations compute its value. Its width is the smallest
among the leaves. Its value fits that width and is congruent to the exact value modulo `2 ^ b`. So
every other expression of the same exact value and the same smallest width has the same value, or
one that is `2 ^ b` away. If the exact values at all nodes fit the width, as they may if all widths
are equal, the value is the exact one. -/
theorem value_modulo_width (e : Expression) :
    (∀ d ∈ e.nodes, d.overflows = false)
      ∧ e.level.toInt = e.eval.value
      ∧ (∃ n ∈ e.leaves, n.width = e.eval.width)
      ∧ (∀ n ∈ e.leaves, e.eval.width.bits ≤ n.width.bits)
      ∧ e.eval.value.natAbs ≤ twoPow e.eval.width.bits - 1
      ∧ e.eval.value % twoPow e.eval.width.bits = e.exact % twoPow e.eval.width.bits
      ∧ (∀ e' : Expression, e'.exact = e.exact → e'.eval.width = e.eval.width →
          e'.eval.value = e.eval.value
            ∨ (e'.eval.value - e.eval.value).natAbs = twoPow e.eval.width.bits)
      ∧ ((∀ d ∈ e.nodes, d.exact.natAbs < twoPow e.eval.width.bits) →
          e.eval.value = e.exact) := by
  refine ⟨?_, e.toInt_level, e.exists_leaf_width, ?_, ?_, ?_, ?_, ?_⟩
  · intro d _
    exact d.overflows_eq_false
  · intro n hn
    exact width_le_of_mem_leaves hn
  · exact Nat.le_sub_one_of_lt e.eval.magnitude_lt
  · have hresidue := Int.emod_eq_zero_of_dvd e.dvd_exact_sub_value
    exact (Int.emod_eq_emod_iff_emod_sub_eq_zero.mpr hresidue).symm
  · intro e' hexact hwidth
    exact value_eq_or_apart hexact hwidth
  · intro hfits
    exact value_eq_exact (Nat.le_refl _) hfits

/-- A nine of four bits, or of as many as there can be. -/
def nine (width : Width) : Expression := .number (.ofInt width 9)

/-- Nine and nine, less nine, where the sum does not fit four bits. -/
def grouped : Expression :=
  .combine .minus
    (.combine .plus (nine ⟨62, by decide, by decide⟩) (nine ⟨4, by decide, by decide⟩))
    (nine ⟨4, by decide, by decide⟩)

/-- Nine, and nine less nine. -/
def regrouped : Expression :=
  .combine .plus (nine ⟨62, by decide, by decide⟩)
    (.combine .minus (nine ⟨4, by decide, by decide⟩) (nine ⟨4, by decide, by decide⟩))

/-- The two differ in how they are grouped. One has the exact value, and the other is `2 ^ 4` away
from it. -/
theorem value_modulo_width_regrouped :
    regrouped.eval.value = 9
      ∧ grouped.eval.value % 16 = 9
      ∧ (regrouped.eval.value - grouped.eval.value).natAbs = 16 := by
  obtain ⟨-, -, -, -, -, hresidue, hapart, -⟩ := value_modulo_width grouped
  obtain ⟨-, -, -, -, -, -, -, hexact⟩ := value_modulo_width regrouped
  refine ⟨hexact ?_, hresidue, ?_⟩
  · decide
  · exact (hapart regrouped rfl rfl).resolve_left (by decide)

end Expression

end TwoBus
