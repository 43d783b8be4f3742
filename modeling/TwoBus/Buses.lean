import TwoBus.Activity

/-!
# Buses

The two buses carry levels of 64 bits for the length of one operation of the arithmetic unit. First
registers drive them, then they are frozen, then they are sampled. Two drivers of one bus are no
fault: their levels are or-ed together. An undriven bus reads as zero.
-/

namespace TwoBus

/-- What a bus carries: an integer in two's complement. -/
abbrev Level := BitVec 64

/-- The two buses during one operation. -/
structure Buses where
  a : Option Level := none
  b : Option Level := none
  /-- Driving has ended and sampling may begin. -/
  frozen : Bool := false
  deriving DecidableEq, Repr

namespace Buses

def level (buses : Buses) : Bus → Option Level
  | .a => buses.a
  | .b => buses.b

/-- Some value was driven onto the bus, be it zero. -/
def isDriven (buses : Buses) (bus : Bus) : Bool :=
  (buses.level bus).isSome

def value (buses : Buses) (bus : Bus) : Int :=
  ((buses.level bus).getD 0).toInt

/-- Add one more driver to a bus. -/
def drive (buses : Buses) (bus : Bus) (v : Int) : Buses :=
  let joined := some ((buses.level bus).getD 0 ||| BitVec.ofInt 64 v)
  match bus with
  | .a => { buses with a := joined }
  | .b => { buses with b := joined }

/-- Drive a value onto a bus, which must not be frozen. -/
def assign (bus : Bus) (v : Int) : Activity Buses Unit := do
  Activity.emit .buses (.assign bus v)
  let buses ← get
  if buses.frozen then Activity.fail .busFrozen else set (buses.drive bus v)

/-- End the driving, once. -/
def freeze : Activity Buses Unit := do
  let buses ← get
  if buses.frozen then Activity.fail .busFrozenTwice else set { buses with frozen := true }

/-- Sample a frozen bus. -/
def sample (bus : Bus) : Activity Buses Int := do
  let buses ← get
  if buses.frozen then
    Activity.emit .buses (.sample bus (buses.value bus))
    return buses.value bus
  else Activity.fail .busNotFrozen

@[simp] theorem level_drive_self (buses : Buses) (bus : Bus) (v : Int) :
    (buses.drive bus v).level bus = some ((buses.level bus).getD 0 ||| BitVec.ofInt 64 v) := by
  cases bus <;> rfl

theorem level_drive_of_ne {bus bus' : Bus} (h : bus ≠ bus') (buses : Buses) (v : Int) :
    (buses.drive bus v).level bus' = buses.level bus' := by
  cases bus <;> cases bus' <;> simp_all [drive, level]

@[simp] theorem frozen_drive (buses : Buses) (bus : Bus) (v : Int) :
    (buses.drive bus v).frozen = buses.frozen := by
  cases bus <;> rfl

end Buses

end TwoBus
