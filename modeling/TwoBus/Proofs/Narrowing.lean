import TwoBus.Memory.Data
import TwoBus.Number
import TwoBus.Proofs.BusCycle

/-!
# Narrowing

On its way through the machine a value is stored over and over, and not always at the same width:
in numbers, in registers, in the operands of the arithmetic unit, in cells of the data memory. Each
place truncates what it is offered, so all that can happen to a value is that its magnitude loses
bits from above. What is lost is lost at the narrowest place, be it the first or the last, and that
includes the sign of a value of which nothing is left.

* `Place.keep_eq_truncate`: every place truncates, whatever it is and whatever it held before.
* `Place.passed_eq_truncate`: some places in turn truncate as the narrowest of them does.
* `Place.narrowest_decides`: so neither the other places matter nor their order.
-/

namespace TwoBus

/-- Somewhere to store a value, with what is there before. -/
inductive Place
  /-- A number that is made for the value. -/
  | made (width : Width)
  /-- A number that holds another value. -/
  | number (n : Number)
  /-- A register, which is written and then read through its opened gates. -/
  | register (width : Width) (x : Register width.bits)
  /-- One side of the arithmetic unit, with nothing on the other. -/
  | operand (side : Bus)
  /-- A cell of a data memory. -/
  | cell (width : Width) {addressBits : Nat} (memory : DataMemory addressBits width.bits)
    (address : Nat)

namespace Place

def width : Place → Width
  | made width | register width _ | cell width _ _ => width
  | number n => n.width
  | operand _ => .machine

/-- What is found in a place after a value has been stored there. -/
def keep (v : Int) : Place → Int
  | made width => (Number.ofInt width v).value
  | number n => (n.store v).value
  | register _ x => (((x.setGate .write true).write v).setGate .read true).read.toInt
  | operand .a => (Signals.none.combine v 0).toInt
  | operand .b => (Signals.none.combine 0 v).toInt
  | cell _ memory address => ((memory.put address (.ofInt _ v)).cells.get address).toInt

/-- What is left of a value that has passed through some places in turn. -/
def passed (places : List Place) (v : Int) : Int := places.foldl keep v

/-- The least width among some places. -/
def narrowest (places : List Place) (h : places ≠ []) : Width :=
  (places.map width).min (mt List.map_eq_nil_iff.mp h)

/-! ## One place -/

theorem keep_eq_truncate (place : Place) (v : Int) :
    place.keep v = truncate place.width.bits v := by
  cases place with
  | made | number => rfl
  | register width x =>
    have hopen : (x.setGate .write true).writeOpen = true := rfl
    rw [keep, Register.write_of_open hopen]
    rfl
  | operand side =>
    cases side <;> simp [keep, width, Signals.toInt_combine, Signals.none]
  | cell width memory address =>
    rw [keep, DataMemory.put, Bank.get_set_self]
    rfl

/-- A number is kept as it is by every place that is at least as wide. -/
theorem keep_value_of_le {n : Number} {place : Place} (h : n.width.bits ≤ place.width.bits) :
    place.keep n.value = n.value := by
  have hpow : twoPow n.width.bits ≤ twoPow place.width.bits :=
    Nat.pow_le_pow_right (by decide) h
  rw [keep_eq_truncate]
  exact truncate_of_natAbs_lt (Nat.lt_of_lt_of_le n.magnitude_lt hpow)

/-! ## Some places in turn -/

/-- Only the widths of the places matter. -/
theorem passed_eq_foldl (places : List Place) (v : Int) :
    passed places v = (places.map width).foldl (fun v width => truncate width.bits v) v := by
  rw [passed, List.foldl_map]
  congr 1
  funext v place
  exact place.keep_eq_truncate v

/-- After a first truncation, some more truncate as the narrowest of all. -/
theorem foldl_truncate (first : Width) (widths : List Width) (v : Int) :
    widths.foldl (fun v width => truncate width.bits v) (truncate first.bits v)
      = truncate (widths.foldl min first).bits v := by
  induction widths generalizing first with
  | nil => rfl
  | cons width widths ih =>
    rw [List.foldl_cons, List.foldl_cons, truncate_truncate_min, ← Width.bits_min]
    exact ih (min first width)

theorem passed_eq_truncate {places : List Place} (h : places ≠ []) (v : Int) :
    passed places v = truncate (narrowest places h).bits v := by
  cases places with
  | nil => exact absurd rfl h
  | cons place places =>
    rw [passed_eq_foldl]
    exact foldl_truncate place.width (places.map width) v

/-- Two truncations may be exchanged, so any two places may. -/
theorem passed_eq_of_perm {places places' : List Place}
    (h : (places'.map width).Perm (places.map width)) (v : Int) :
    passed places' v = passed places v := by
  rw [passed_eq_foldl, passed_eq_foldl]
  refine h.foldl_eq' (fun first _ second _ v => ?_) v
  rw [truncate_truncate_min, truncate_truncate_min, Nat.min_comm]

/-- A value that passes through some places ends as what a single number of the least of their
widths stores for it. It passes unchanged through every place that is at least as wide as the number
it comes from. And the order of the widths does not matter, nor which places they are the widths
of. -/
theorem narrowest_decides {places : List Place} (h : places ≠ []) (v : Int) :
    passed places v = (Number.ofInt (narrowest places h) v).value
      ∧ (∀ (n : Number) (place : Place), n.width.bits ≤ place.width.bits →
          place.keep n.value = n.value)
      ∧ ∀ places', (places'.map width).Perm (places.map width) →
          passed places' v = passed places v :=
  ⟨passed_eq_truncate h v, fun _ _ => keep_value_of_le, fun _ hperm => passed_eq_of_perm hperm v⟩

/-- Through a number, the arithmetic unit, a register and a cell into another number. -/
def detour : List Place :=
  [.made ⟨20, by decide, by decide⟩, .operand .b,
    .register ⟨9, by decide, by decide⟩ { word := .ofInt 9 (-5) },
    .cell ⟨12, by decide, by decide⟩ (⟨.uniform 0, {}⟩ : DataMemory 4 12) 3,
    .number (.ofInt ⟨30, by decide, by decide⟩ 7)]

/-- The nine bits of the register decide, also on the way back, and a number of seven bits gets
through unharmed. -/
theorem narrowest_decides_detour :
    passed detour (-5312880) = -368 ∧ passed detour.reverse (-5312880) = -368
      ∧ ∀ place ∈ detour, place.keep (-127) = -127 := by
  obtain ⟨hleast, hkept, horder⟩ := @narrowest_decides detour (List.cons_ne_nil _ _) (-5312880)
  have hvalue : passed detour (-5312880) = -368 := hleast
  have hwide : ∀ place ∈ detour, 7 ≤ place.width.bits := by
    simp [detour, width]
  refine ⟨hvalue, ?_, ?_⟩
  · have hreversed := horder detour.reverse ((List.reverse_perm detour).map width)
    rw [hreversed, hvalue]
  · intro place hplace
    exact hkept (.ofInt ⟨7, by decide, by decide⟩ (-127)) place (hwide place hplace)

end Place

end TwoBus
