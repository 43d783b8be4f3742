import TwoBus.Device.Input
import TwoBus.Device.Output
import TwoBus.Device.Window

/-!
# The devices of the machine

The machine has one input device on slot zero and one output device on slot one. The other slots of
the window are reserved and nothing is wired to them.
-/

namespace TwoBus

/-- The two devices by name. -/
inductive Peripheral
  | input
  | output
  deriving DecidableEq, Repr

/-- The input and the output device. -/
structure IoUnit where
  input : InputDevice := {}
  output : OutputDevice := {}
  deriving DecidableEq, Repr

namespace IoUnit

/-- The wiring of the machine's window. -/
def window : Window Peripheral := ⟨[.input, .output], by decide⟩

def inputPart : Part IoUnit InputDevice where
  get io := io.input
  set io d := { io with input := d }

def outputPart : Part IoUnit OutputDevice where
  get io := io.output
  set io d := { io with output := d }

/-- A unit whose input device is made over a source, and whose sink is good. -/
def ofSource? (source : Option (List UInt8)) : Except Fault IoUnit := do
  return { input := ← InputDevice.ofSource? source }

/-- Read from a device by name. -/
def readPeripheral : Peripheral → Activity IoUnit (Word 16)
  | .input => Activity.focus inputPart InputDevice.read
  | .output => Activity.focus outputPart OutputDevice.read

/-- Write to a device by name. -/
def writePeripheral : Peripheral → Int → Activity IoUnit Unit
  | .input, _ => pure ()
  | .output, v => Activity.focus outputPart (OutputDevice.write v)

def read (slot : Nat) : Activity IoUnit (Word 16) := window.read readPeripheral slot

def write (slot : Nat) (v : Int) : Activity IoUnit Unit := window.write writePeripheral slot v

def report (io : IoUnit) : List Event := window.report ++ [.pending io.input.remaining]

end IoUnit

end TwoBus
