import TwoBus.Activity
import TwoBus.Text.Utf8
import TwoBus.Word

/-!
# The input device

The input device holds the characters of a text that is read in full when the device is made. Each
read hands out the next character as a word of 16 bits, and zero once there is none left. Writes
are ignored.
-/

namespace TwoBus

/-- A device that hands out characters. -/
structure InputDevice where
  /-- The characters not yet read. -/
  pending : List (Word 16) := []
  deriving DecidableEq, Repr

namespace InputDevice

/-- The device over a source of bytes, of which `none` cannot be read. -/
def ofSource? : Option (List UInt8) → Except Fault InputDevice
  | none => .error .unreadableSource
  | some bytes =>
    match Text.decode bytes with
    | .error offset => .error (.malformedText offset)
    | .ok codes => .ok ⟨codes.map fun c : Nat => .ofInt 16 c⟩

def remaining (d : InputDevice) : Nat := d.pending.length

/-- The character that the next read hands out. -/
def next (d : InputDevice) : Word 16 := d.pending.headD 0

/-- The device after one read. -/
def advance (d : InputDevice) : InputDevice := ⟨d.pending.tail⟩

def exhausted : InputDevice := ⟨[]⟩

def read : Activity InputDevice (Word 16) := do
  let d ← get
  set d.advance
  return d.next

@[simp] theorem run_read {logger : Logger} (d : InputDevice) :
    read.run d = ⟨.ok d.next, d.advance, []⟩ := rfl

end InputDevice

end TwoBus
