import TwoBus.Activity
import TwoBus.Text.Utf8

/-!
# The output device

The output device turns each value it is given into a character and hands the bytes of the character
to a sink. A value that is no character is refused before the sink is asked. A sink that has failed
takes nothing, and the device reports that.
-/

namespace TwoBus

/-- A device that emits characters. -/
structure OutputDevice where
  /-- The sink takes what it is given. -/
  sinkGood : Bool := true
  /-- The bytes the sink has taken so far, the latest first. -/
  taken : List UInt8 := []
  deriving DecidableEq, Repr

namespace OutputDevice

/-- The bytes the sink has taken so far, in the order in which it took them. -/
def received (d : OutputDevice) : List UInt8 := d.taken.reverse

def take (d : OutputDevice) (bytes : List UInt8) : OutputDevice :=
  { d with taken := bytes.reverseAux d.taken }

/-- Nothing can be read from an output device. -/
def read {α : Type} : Activity OutputDevice α :=
  Activity.fail .readFromOutput

/-- The device after it has emitted the character that a value stands for. -/
def put (d : OutputDevice) (v : Int) : Except Fault OutputDevice :=
  if Text.IsCharacter v then
    if d.sinkGood then .ok (d.take (Text.encodePoint (.ofInt v))) else .error .sinkFailed
  else .error (.notCharacter v)

/-- Emit the character that a value stands for. -/
def write (v : Int) : Activity OutputDevice Unit := do
  set (← (← get).put v)

/-- Ask the sink to pass on what it holds. The sink keeps nothing back, so there is nothing to
do. -/
def flush : Activity OutputDevice Unit :=
  pure ()

def setSink (good : Bool) (d : OutputDevice) : OutputDevice :=
  { d with sinkGood := good }

/-- The bytes that the sink has taken since the device was in an `earlier` state. -/
def receivedSince (d earlier : OutputDevice) : List UInt8 :=
  (d.taken.take (d.taken.length - earlier.taken.length)).reverse

@[simp] theorem received_take (d : OutputDevice) (bytes : List UInt8) :
    (d.take bytes).received = d.received ++ bytes := by
  simp [received, take, List.reverseAux_eq]

@[simp] theorem sinkGood_take (d : OutputDevice) (bytes : List UInt8) :
    (d.take bytes).sinkGood = d.sinkGood := rfl

end OutputDevice

end TwoBus
