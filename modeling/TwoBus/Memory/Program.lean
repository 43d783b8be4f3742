import TwoBus.Memory.Bank
import TwoBus.Register
import TwoBus.Trace

/-!
# Program memory

Program memory holds one instruction, or none, in each of its cells. A program is placed at address
zero when the memory is made and never changes. An instruction is fetched at the address that the
instruction pointer shows, so with its read gate closed the pointer fetches from zero.
-/

namespace TwoBus

/-- The cells of a program. -/
structure ProgramMemory (w : Nat) where
  cells : Bank (Option Instruction) w

namespace ProgramMemory

variable {w : Nat}

/-- The memory that holds a program, and empty cells past its end. -/
def ofProgram? (width : Width) (program : List (Option Instruction)) :
    Except Fault (ProgramMemory width.bits) := do
  width.checkAddress
  if twoPow width.bits < program.length then
    .error (.programTooLong program.length (twoPow width.bits))
  else return ⟨.ofList width.bits none program⟩

def peek (memory : ProgramMemory w) (address : Nat) : Except Fault (Option Instruction) :=
  if address < memory.cells.size then .ok (memory.cells.get address)
  else .error .instructionOutOfBounds

/-- The content of the cell at an instruction address, which must not be negative. -/
def fetch (memory : ProgramMemory w) (address : Int) : Except Fault (Option Instruction) :=
  if address < 0 then .error (.negativeInstructionAddress address)
  else memory.peek address.toNat

/-- The line of a disassembly for an address, be it of a cell or not. -/
def listing (memory : ProgramMemory w) (address : Int) : Event :=
  if 0 ≤ address ∧ address < memory.cells.size then
    .listing address.toNat (memory.cells.get address.toNat)
  else .unlisted address

end ProgramMemory

/-- Program memory with the register that addresses it. -/
structure ProgramUnit (w : Nat) where
  pointer : Register w := {}
  memory : ProgramMemory w

namespace ProgramUnit

/-- The unit of a program, with its pointer at zero and both gates closed. -/
def ofProgram? (width : Width) (program : List (Option Instruction)) :
    Except Fault (ProgramUnit width.bits) := do
  return { memory := ← ProgramMemory.ofProgram? width program }

/-- Fetch the instruction at the address that the pointer shows. -/
def fetch {w : Nat} (unit : ProgramUnit w) : Except Fault (Option Instruction) :=
  unit.memory.fetch unit.pointer.read.toInt

end ProgramUnit

end TwoBus
