import TwoBus.Architecture
import TwoBus.Number

/-!
# Memory banks

A bank of width `w` has `2 ^ w` cells. It is a binary tree whose depth is at most `w`: the highest
address bit selects the half, and a part whose cells all hold the same content is a single leaf. So
a memory of the full size costs nothing until it is written to, and writing one cell copies only the
path to it.

A bank is known by what `get` finds at each address. Addresses count modulo the size, of which the
parts of the machine make no use: they check an address first.

* `get_set`: a write is seen at its own address and nowhere else.
* `get_ofList`: a bank made from a list holds the list, and the filling past its end.
-/

namespace TwoBus

/-- Refuse a width that is too wide for the address register of a memory. -/
def Width.checkAddress (width : Width) : Except Fault Unit :=
  if maxAddressBits < width.bits then .error .addressTooWide else .ok ()

/-- A memory of `2 ^ w` cells. -/
inductive Bank (α : Type) : Nat → Type
  /-- All cells hold the same content. -/
  | uniform {w : Nat} (content : α) : Bank α w
  /-- The half with the highest address bit clear, and the half with it set. -/
  | split {w : Nat} (low high : Bank α w) : Bank α (w + 1)

namespace Bank

variable {α : Type}

def size {w : Nat} (_ : Bank α w) : Nat := twoPow w

/-- The half with the highest address bit clear. -/
def low {w : Nat} : Bank α (w + 1) → Bank α w
  | .uniform content => .uniform content
  | .split low _ => low

/-- The half with the highest address bit set. -/
def high {w : Nat} : Bank α (w + 1) → Bank α w
  | .uniform content => .uniform content
  | .split _ high => high

def get {w : Nat} (bank : Bank α w) (address : Nat) : α :=
  match w, bank with
  | _, .uniform content => content
  | w + 1, .split low high => if address.testBit w then high.get address else low.get address

def set {w : Nat} (bank : Bank α w) (address : Nat) (content : α) : Bank α w :=
  match w with
  | 0 => .uniform content
  | w + 1 =>
    if address.testBit w then .split bank.low (bank.high.set address content)
    else .split (bank.low.set address content) bank.high

/-- The bank that holds a list from address zero on, and `filling` past its end. What does not fit
is left out. -/
def ofList (w : Nat) (filling : α) (contents : List α) : Bank α w :=
  match w, contents with
  | _, [] => .uniform filling
  | 0, content :: _ => .uniform content
  | w + 1, content :: rest =>
    .split (ofList w filling ((content :: rest).take (twoPow w)))
      (ofList w filling ((content :: rest).drop (twoPow w)))

/-- The cells of `bank` whose content differs from that in an `earlier` bank, by ascending address.
The addresses start at `start`. -/
def changesFrom [DecidableEq α] (start : Nat) {w : Nat} (bank earlier : Bank α w) :
    List (Nat × α) :=
  match w, bank, earlier with
  | 0, bank, earlier =>
    if bank.get 0 = earlier.get 0 then [] else [(start, bank.get 0)]
  | w + 1, .uniform content, .uniform content' =>
    if content = content' then []
    else (List.range (twoPow (w + 1))).map fun i => (start + i, content)
  | w + 1, bank, earlier =>
    bank.low.changesFrom start earlier.low
      ++ bank.high.changesFrom (start + twoPow w) earlier.high

/-- The cells whose content differs from that in an `earlier` bank, by ascending address. -/
def changes [DecidableEq α] {w : Nat} (bank earlier : Bank α w) : List (Nat × α) :=
  bank.changesFrom 0 earlier

@[simp] theorem get_uniform {w : Nat} (content : α) (a : Nat) :
    (uniform content : Bank α w).get a = content := by
  cases w <;> rfl

/-- The highest address bit selects the half. -/
theorem get_succ {w : Nat} (bank : Bank α (w + 1)) (a : Nat) :
    bank.get a = if a.testBit w then bank.high.get a else bank.low.get a := by
  cases bank with
  | uniform content => simp [high, low]
  | split low high => rfl

/-- The place of an address in its half, and the bit that selects the half. -/
theorem mod_twoPow_succ (a w : Nat) :
    a % twoPow (w + 1) = a % twoPow w + (if a.testBit w then twoPow w else 0) := by
  have hmod : a % twoPow (w + 1) = a % twoPow w + twoPow w * (a / twoPow w % 2) :=
    Nat.mod_pow_succ
  have hbit : a.testBit w = decide (a / twoPow w % 2 = 1) := Nat.testBit_eq_decide_div_mod_eq
  rw [hmod, hbit]
  rcases Nat.mod_two_eq_zero_or_one (a / twoPow w) with h | h <;> simp [h]

/-- The bits of an address below the width decide the cell. -/
theorem mod_twoPow_succ_eq_iff {w a b : Nat} :
    a % twoPow (w + 1) = b % twoPow (w + 1)
      ↔ a.testBit w = b.testBit w ∧ a % twoPow w = b % twoPow w := by
  have ha := Nat.mod_lt a (twoPow_pos w)
  have hb := Nat.mod_lt b (twoPow_pos w)
  rw [mod_twoPow_succ, mod_twoPow_succ]
  cases a.testBit w <;> cases b.testBit w <;> simp <;> omega

/-- A write is seen at its own address, counted modulo the size, and nowhere else. -/
theorem get_set {w : Nat} (bank : Bank α w) (a b : Nat) (content : α) :
    (bank.set a content).get b
      = if a % twoPow w = b % twoPow w then content else bank.get b := by
  induction w with
  | zero => simp [set, twoPow_zero, Nat.mod_one]
  | succ w ih =>
    have hiff := mod_twoPow_succ_eq_iff (w := w) (a := a) (b := b)
    rw [get_succ bank b]
    unfold set
    cases ha : a.testBit w <;> cases hb : b.testBit w <;>
      simp [get_succ, low, high, hb, ih, hiff, ha]

theorem get_set_self {w : Nat} (bank : Bank α w) (a : Nat) (content : α) :
    (bank.set a content).get a = content := by
  rw [get_set]
  exact if_pos rfl

/-- A write leaves every other cell as it is. -/
theorem get_set_of_ne {w : Nat} (bank : Bank α w) {a b : Nat} (ha : a < twoPow w)
    (hb : b < twoPow w) (h : a ≠ b) (content : α) : (bank.set a content).get b = bank.get b := by
  rw [get_set, Nat.mod_eq_of_lt ha, Nat.mod_eq_of_lt hb]
  exact if_neg h

/-- A bank made from a list holds at an address, counted modulo the size, what the list does. -/
theorem get_ofList_mod {w : Nat} (filling : α) (contents : List α) (a : Nat) :
    (ofList w filling contents).get a = contents[a % twoPow w]?.getD filling := by
  induction w generalizing contents with
  | zero => cases contents <;> simp [ofList, twoPow_zero, Nat.mod_one]
  | succ w ih =>
    cases contents with
    | nil => simp [ofList]
    | cons content rest =>
      have hlt := Nat.mod_lt a (twoPow_pos w)
      rw [get_succ, mod_twoPow_succ]
      cases a.testBit w
      · simp only [ofList, low, ih]
        rw [List.getElem?_take_of_lt hlt]
        rfl
      · simp only [ofList, high, ih, List.getElem?_drop]
        rw [Nat.add_comm]
        rfl

/-- A bank made from a list holds the list, and the filling past its end. -/
theorem get_ofList {w : Nat} (filling : α) (contents : List α) {a : Nat}
    (ha : a < twoPow w) : (ofList w filling contents).get a = contents[a]?.getD filling := by
  rw [get_ofList_mod, Nat.mod_eq_of_lt ha]

end Bank

end TwoBus
