import TwoBus.Truncation

/-!
# Words

A word of width `w` is an integer whose magnitude has `w` bits; the sign is kept apart, so there is
one zero and as many values below it as above. A wider integer is stored by truncation
(`toInt_ofInt`).

The width is part of the type. A place that holds a word takes any integer and truncates it to its
own width, so values pass between places of different widths as integers.
-/

namespace TwoBus

/-- A sign and a magnitude of `w` bits. -/
structure Word (w : Nat) where
  toInt : Int
  natAbs_lt : toInt.natAbs < twoPow w
  deriving DecidableEq, Repr

namespace Word

variable {w : Nat}

/-- The word that stores `v`. -/
def ofInt (w : Nat) (v : Int) : Word w := ⟨truncate w v, natAbs_truncate_lt w v⟩

instance : Zero (Word w) where
  zero := ⟨0, twoPow_pos w⟩

instance : Inhabited (Word w) where
  default := 0

/-- Negation changes the sign alone and never truncates. -/
instance : Neg (Word w) where
  neg x := ⟨-x.toInt, by rw [Int.natAbs_neg]; exact x.natAbs_lt⟩

/-- The sum of two words is truncated to their width. -/
instance : Add (Word w) where
  add x y := ofInt w (x.toInt + y.toInt)

@[ext] theorem ext {x y : Word w} (h : x.toInt = y.toInt) : x = y := by
  cases x
  cases y
  cases h
  rfl

/-- A word stores the truncation of what it is made from. -/
@[simp] theorem toInt_ofInt (v : Int) : (ofInt w v).toInt = truncate w v := rfl

@[simp] theorem toInt_zero : (0 : Word w).toInt = 0 := rfl

@[simp] theorem toInt_neg (x : Word w) : (-x).toInt = -x.toInt := rfl

theorem toInt_add (x y : Word w) : (x + y).toInt = truncate w (x.toInt + y.toInt) := rfl

/-- Storing a word again at its own width changes nothing. -/
@[simp] theorem ofInt_toInt (x : Word w) : ofInt w x.toInt = x :=
  ext (truncate_of_natAbs_lt x.natAbs_lt)

@[simp] theorem truncate_toInt (x : Word w) : truncate w x.toInt = x.toInt :=
  truncate_of_natAbs_lt x.natAbs_lt

@[simp] theorem ofInt_zero : ofInt w 0 = 0 := ofInt_toInt 0

theorem ofInt_neg (v : Int) : ofInt w (-v) = -ofInt w v :=
  ext (truncate_neg w v)

end Word

end TwoBus
