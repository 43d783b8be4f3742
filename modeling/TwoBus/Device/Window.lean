import TwoBus.Activity
import TwoBus.Word

/-!
# The device window

The lowest data addresses are slots of a window onto devices. Devices are wired to the slots in the
order in which they are registered, from slot zero. An access to a slot goes to the device wired to
it; an access to a slot that has none is a fault, and never reaches memory.

The window knows its devices by names of any type `δ`; what a device does on an access is given at
each access. A read is recorded after the device has answered, a write before the device is asked.
-/

namespace TwoBus

/-- The wiring of the slots, from slot zero. -/
structure Window (δ : Type) where
  slots : List δ
  length_le : slots.length ≤ windowSize

namespace Window

variable {δ σ : Type}

/-- The window with nothing wired. -/
def empty : Window δ := ⟨[], Nat.zero_le _⟩

/-- Whether an address belongs to the window, wired or not. -/
def contains (address : Nat) : Bool := address < windowSize

/-- Wire one more device to the next slot. -/
def register (window : Window δ) (device : δ) : Except Fault (Window δ) :=
  if h : window.slots.length < windowSize then
    .ok ⟨window.slots ++ [device], by rw [List.length_append]; exact h⟩
  else .error .windowFull

/-- The device wired to a slot. -/
def route (window : Window δ) (slot : Nat) : Except Fault δ :=
  match window.slots[slot]? with
  | some device => .ok device
  | none => .error (.unbackedSlot slot)

def read (window : Window δ) (readDevice : δ → Activity σ (Word 16)) (slot : Nat) :
    Activity σ (Word 16) := do
  let device ← window.route slot
  let v ← readDevice device
  Activity.emit .buses (.deviceRead slot v.toInt)
  return v

def write (window : Window δ) (writeDevice : δ → Int → Activity σ Unit) (slot : Nat) (v : Int) :
    Activity σ Unit := do
  let device ← window.route slot
  Activity.emit .buses (.deviceWrite slot v)
  writeDevice device v

def report (window : Window δ) : List Event := [.wired window.slots.length]

theorem route_eq_ok_iff {window : Window δ} {slot : Nat} {device : δ} :
    window.route slot = .ok device ↔ window.slots[slot]? = some device := by
  unfold route
  split <;> simp_all

end Window

end TwoBus
