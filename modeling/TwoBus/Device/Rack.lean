import TwoBus.Device.Input
import TwoBus.Device.Output
import TwoBus.Device.Window

/-!
# A rack of devices

A rack holds any number of devices and one window, to which they may be wired in any order, and the
same device more than once. Each device can also be used directly.
-/

namespace TwoBus

/-- A device of either kind. -/
inductive Device
  | input (device : InputDevice)
  | output (device : OutputDevice)
  deriving DecidableEq, Repr

namespace Device

/-- The number of characters that wait at an input device. -/
def remaining? : Device → Option Nat
  | input d => some d.remaining
  | output _ => none

def read : Activity Device (Word 16) := do
  match ← get with
  | input d =>
    set (Device.input d.advance)
    return d.next
  | output _ => Activity.fail .readFromOutput

def write (v : Int) : Activity Device Unit := do
  match ← get with
  | input _ => pure ()
  | output d => set (Device.output (← d.put v))

/-- Read from an input device until nothing is left; an output device has nothing to read. -/
def drain : Activity Device (Option (List (Word 16))) := do
  match ← get with
  | input d =>
    set (Device.input .exhausted)
    return some d.pending
  | output _ => return none

/-- Let the sink of an output device fail, or mend it. -/
def setSink (good : Bool) : Device → Device
  | input d => input d
  | output d => output (d.setSink good)

/-- The bytes that the sink of an output device has taken since an `earlier` state of it. -/
def receivedSince : Device → Device → List UInt8
  | output d, output earlier => d.receivedSince earlier
  | _, _ => []

end Device

/-- A number of devices, and a window onto them. -/
structure Rack (n : Nat) where
  devices : Vector Device n
  window : Window (Fin n) := .empty

namespace Rack

variable {n : Nat}

def devicePart (i : Fin n) : Part (Rack n) Device where
  get rack := rack.devices[i]
  set rack d := { rack with devices := rack.devices.set i d }

/-- Wire a device to the next slot. -/
def register (i : Fin n) : Activity (Rack n) Unit := do
  let rack ← get
  let window ← rack.window.register i
  set { rack with window := window }

def readDevice (i : Fin n) : Activity (Rack n) (Word 16) :=
  Activity.focus (devicePart i) Device.read

def writeDevice (i : Fin n) (v : Int) : Activity (Rack n) Unit :=
  Activity.focus (devicePart i) (Device.write v)

def read (slot : Nat) : Activity (Rack n) (Word 16) := do
  (← get).window.read readDevice slot

def write (slot : Nat) (v : Int) : Activity (Rack n) Unit := do
  (← get).window.write writeDevice slot v

/-- The bytes that all sinks have taken since an `earlier` state, in the order of the devices. -/
def receivedSince (rack earlier : Rack n) : List UInt8 :=
  (List.finRange n).flatMap fun i => (rack.devices[i]).receivedSince earlier.devices[i]

end Rack

end TwoBus
