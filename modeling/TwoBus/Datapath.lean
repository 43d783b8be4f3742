import TwoBus.Buses
import TwoBus.Register

/-!
# The data path

The arithmetic unit is the only way from register to register. One operation lets every register
with an open read gate drive its bus, freezes and samples the buses, computes, and offers the result
to all registers, of which those with an open write gate take it.

The unit is 16 bits wide whatever the width of the registers. Each intermediate sum is truncated on
its own (`Signals.combine`).
-/

namespace TwoBus

/-- The result of the arithmetic unit for the values on its two buses: the increment plus the left
operand, truncated, plus the right operand, truncated. -/
def Signals.combine (signals : Signals) (left right : Int) : Word 16 :=
  let carry : Word 16 := .ofInt 16 (if signals.increment then 1 else 0)
  let l : Word 16 := .ofInt 16 left
  let r : Word 16 := .ofInt 16 right
  carry + (if signals.invertLeft then -l else l) + (if signals.invertRight then -r else r)

namespace RegisterFile

variable {w : Nat}

/-- Every register with an open read gate drives its bus. -/
def driveBuses (file : RegisterFile w) : Activity Buses Unit :=
  (file.openRegs .read).forM fun r => do
    Activity.emit .buses (.drive r)
    Buses.assign r.bus (file.get r).read.toInt

/-- One bus cycle: drive, freeze, and sample both buses. -/
def sampleBuses (file : RegisterFile w) : Activity Buses (Int × Int) := do
  file.driveBuses
  Buses.freeze
  let left ← Buses.sample .a
  let right ← Buses.sample .b
  return (left, right)

/-- What is recorded about a value offered to the registers. -/
def latchEvents (file : RegisterFile w) (v : Int) : List Event :=
  (file.openRegs .write).map (Event.latch · v)

def report (file : RegisterFile w) : List Event :=
  Reg.all.map fun r =>
    .register r (file.get r).word.toInt (file.get r).readOpen (file.get r).writeOpen

end RegisterFile

/-- The registers and the arithmetic unit between them. -/
structure Datapath (w : Nat) where
  registers : RegisterFile w := {}
  result : Word 16 := 0
  deriving DecidableEq, Repr

namespace Datapath

variable {w : Nat}

/-- Offer a value to all registers. -/
def latch (v : Int) : Activity (Datapath w) Unit := do
  let d ← get
  (d.registers.openRegs .write).forM fun r => Activity.emit .buses (.latch r v)
  set { d with registers := d.registers.latch v }

/-- One operation of the arithmetic unit. -/
def operate (signals : Signals) : Activity (Datapath w) Unit := do
  Activity.emit .buses (.operate signals)
  let d ← get
  let (left, right) ← Activity.isolate {} d.registers.sampleBuses
  let result := signals.combine left right
  set { d with result := result }
  latch result.toInt

end Datapath

end TwoBus
