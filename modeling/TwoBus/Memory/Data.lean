import TwoBus.Device.IoUnit
import TwoBus.Memory.Bank
import TwoBus.Register

/-!
# Data memory

Data memory is addressed through one register and delivers into, or takes from, another. The lowest
addresses reach devices. There a load first copies what the device delivers into the cell, and a
store first hands the value to the device and then keeps it in the cell, so a cell of the window
shows the last value that passed through it.

An access that faults has changed nothing but the log: the address is checked before anything else,
a device that is missing or refuses is found out before the cell changes.
-/

namespace TwoBus

/-- The data cells, and the devices behind the lowest of them. -/
structure DataMemory (aw dw : Nat) where
  cells : Bank (Word dw) aw
  io : IoUnit := {}

namespace DataMemory

variable {aw dw : Nat}

def ioPart : Part (DataMemory aw dw) IoUnit where
  get memory := memory.io
  set memory io := { memory with io := io }

/-- The memory that holds a list of values, each truncated to the width of a cell, and zeros past
its end. -/
def ofData? (address data : Width) (values : List Int) (io : IoUnit) :
    Except Fault (DataMemory address.bits data.bits) := do
  address.checkAddress
  if twoPow address.bits < values.length then
    .error (.dataTooLong values.length (twoPow address.bits))
  else return { cells := .ofList address.bits 0 (values.map (.ofInt data.bits)), io }

/-- The content of a cell, seen without an access: devices are not asked. -/
def peek (memory : DataMemory aw dw) (address : Nat) : Except Fault (Word dw) :=
  if address < memory.cells.size then .ok (memory.cells.get address)
  else .error .peekOutOfBounds

/-- The cell that an address stands for. -/
def locate (memory : DataMemory aw dw) (address : Int) : Except Fault Nat :=
  if address < 0 then .error (.negativeDataAddress address)
  else if address < memory.cells.size then .ok address.toNat
  else .error .dataOutOfBounds

def put (cell : Nat) (content : Word dw) (memory : DataMemory aw dw) : DataMemory aw dw :=
  { memory with cells := memory.cells.set cell content }

/-- A cell of the window first takes what its device delivers. -/
def receive (cell : Nat) : Activity (DataMemory aw dw) Unit :=
  if Window.contains cell then do
    let v ← Activity.focus ioPart (IoUnit.read cell)
    modify (put cell (.ofInt dw v.toInt))
  else pure ()

/-- The device behind a cell of the window takes its value first. -/
def send (cell : Nat) (content : Word dw) : Activity (DataMemory aw dw) Unit :=
  if Window.contains cell then Activity.focus ioPart (IoUnit.write cell content.toInt)
  else pure ()

def load (address : Int) : Activity (DataMemory aw dw) (Word dw) := do
  Activity.emit .buses (.present address)
  let cell ← (← get).locate address
  receive cell
  let content := (← get).cells.get cell
  Activity.emit .buses (.load cell content.toInt)
  return content

def store (address : Int) (content : Word dw) : Activity (DataMemory aw dw) Unit := do
  Activity.emit .buses (.present address)
  let cell ← (← get).locate address
  send cell content
  Activity.emit .buses (.store cell content.toInt)
  modify (put cell content)

end DataMemory

/-- Data memory with the register that addresses it and the register that its data passes
through. -/
structure DataUnit (aw dw : Nat) where
  address : Register aw := {}
  data : Register dw := {}
  memory : DataMemory aw dw

namespace DataUnit

variable {aw dw : Nat}

def memoryPart : Part (DataUnit aw dw) (DataMemory aw dw) where
  get unit := unit.memory
  set unit memory := { unit with memory := memory }

/-- Offer the data register what the memory holds at the address that the address register shows. -/
def load : Activity (DataUnit aw dw) Unit := do
  let unit ← get
  let content ← Activity.focus memoryPart (DataMemory.load unit.address.read.toInt)
  modify fun unit => { unit with data := unit.data.write content.toInt }

/-- Store what the data register shows at the address that the address register shows. -/
def store : Activity (DataUnit aw dw) Unit := do
  let unit ← get
  Activity.focus memoryPart (DataMemory.store unit.address.read.toInt unit.data.read)

end DataUnit

end TwoBus
