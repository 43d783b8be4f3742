import TwoBus.Fault
import TwoBus.Word

/-!
# Numbers

A number is a word together with its width, for the places where the width is known only at run
time. Widths run from 1 to 62 bits: two magnitudes of 62 bits still add up within 64.

The sum and the difference of two numbers have the smaller of their widths.
-/

namespace TwoBus

/-- A supported width. -/
structure Width where
  bits : Nat
  /-- There is at least one bit. -/
  bits_pos : 1 ≤ bits
  /-- Sums of two magnitudes fit 64 bits. -/
  bits_le : bits ≤ 62
  deriving DecidableEq, Repr

namespace Width

/-- The width of the machine's registers, of its data cells and of its arithmetic unit. -/
def machine : Width := ⟨16, by decide, by decide⟩

/-- The width of that many bits, if it is supported. -/
def ofNat? (bits : Nat) : Except Fault Width :=
  if h : 1 ≤ bits ∧ bits ≤ 62 then .ok ⟨bits, h.1, h.2⟩ else .error (.unsupportedWidth bits)

/-- The smaller of two widths. -/
instance : Min Width where
  min a b := if a.bits ≤ b.bits then a else b

@[ext] theorem ext {a b : Width} (h : a.bits = b.bits) : a = b := by
  cases a
  cases b
  cases h
  rfl

@[simp] theorem bits_min (a b : Width) : (min a b).bits = min a.bits b.bits := by
  show (if a.bits ≤ b.bits then a else b).bits = _
  split <;> omega

@[simp] theorem bits_machine : machine.bits = 16 := rfl

end Width

/-- A word with its width. -/
structure Number where
  width : Width
  word : Word width.bits
  deriving DecidableEq, Repr

namespace Number

/-- The number of a given width that stores `v`. -/
def ofInt (width : Width) (v : Int) : Number := ⟨width, .ofInt width.bits v⟩

def value (n : Number) : Int := n.word.toInt

def magnitude (n : Number) : Nat := n.value.natAbs

/-- Store another value at the width the number has. -/
def store (n : Number) (v : Int) : Number := ofInt n.width v

/-- The sum, at the smaller width. -/
instance : Add Number where
  add a b := ofInt (min a.width b.width) (a.value + b.value)

/-- The difference, at the smaller width. -/
instance : Sub Number where
  sub a b := ofInt (min a.width b.width) (a.value - b.value)

/-- Two numbers are equal if their widths and their values are. -/
theorem ext_iff {a b : Number} : a = b ↔ a.width = b.width ∧ a.value = b.value := by
  constructor
  · rintro rfl
    exact ⟨rfl, rfl⟩
  · obtain ⟨wa, xa⟩ := a
    obtain ⟨wb, xb⟩ := b
    rintro ⟨hw, hv⟩
    cases hw
    exact congrArg (Number.mk wa) (Word.ext hv)

@[simp] theorem width_ofInt (width : Width) (v : Int) : (ofInt width v).width = width := rfl

@[simp] theorem value_ofInt (width : Width) (v : Int) :
    (ofInt width v).value = truncate width.bits v := rfl

@[simp] theorem width_store (n : Number) (v : Int) : (n.store v).width = n.width := rfl

@[simp] theorem value_store (n : Number) (v : Int) :
    (n.store v).value = truncate n.width.bits v := rfl

@[simp] theorem width_add (a b : Number) : (a + b).width = min a.width b.width := rfl

@[simp] theorem width_sub (a b : Number) : (a - b).width = min a.width b.width := rfl

theorem value_add (a b : Number) :
    (a + b).value = truncate (min a.width b.width).bits (a.value + b.value) := rfl

theorem value_sub (a b : Number) :
    (a - b).value = truncate (min a.width b.width).bits (a.value - b.value) := rfl

/-- The magnitude of a number fits its width. -/
theorem magnitude_lt (n : Number) : n.magnitude < twoPow n.width.bits := n.word.natAbs_lt

end Number

end TwoBus
