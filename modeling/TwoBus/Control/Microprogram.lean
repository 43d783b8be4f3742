import TwoBus.Architecture
import TwoBus.Word

/-!
# Microprograms

The control unit carries out an instruction as a short list of microoperations. Which list that is
depends on the instruction and on the sign of the accumulator, and on nothing else: where a later
microoperation needs what an earlier one computed, it finds it in a register. The whole list is
known, or the instruction refused, before the first microoperation is performed.

An operand is brought into the data register first (`Instruction.operand`), and all else follows
from there.
-/

namespace TwoBus

/-- One action of the control unit. -/
inductive Microop
  /-- Let the sources drive their buses, and let the targets take the result. -/
  | transfer (sources targets : List Reg) (signals : Signals)
  | immediate (target : Reg) (v : Word 16)
  /-- Add a word to what a register stores. -/
  | displace (target : Reg) (v : Word 16)
  /-- Load the data register from the cell that the address register selects. -/
  | load
  /-- Store the data register into the cell that the address register selects. -/
  | store
  | hold
  | halt
  deriving DecidableEq, Repr

/-- A list of actions, performed in order until one faults. -/
abbrev Microprogram := List Microop

/-- Move the instruction pointer on by one, with bus B undriven. -/
def Microop.advance : Microop := .transfer [.ip] [.ip] { increment := true }

namespace Instruction

/-- The immediate, truncated to a word of the machine. -/
def immediate? (inst : Instruction) : Except InstructionFault (Word 16) :=
  match inst.data with
  | some v => .ok (.ofInt 16 v)
  | none => .error .missingData

/-- The actions that bring the operand into the data register. A missing mode is found before an
unknown one, and that before a missing immediate. -/
def operand (inst : Instruction) : Except InstructionFault Microprogram :=
  match inst.mode with
  | none => .error .missingMode
  | some name =>
    match Mode.ofName? name with
    | none => .error .unknownMode
    | some .constant => do return [.immediate .dr (← inst.immediate?)]
    | some .relativeConstant => do
      return [.immediate .dr (← inst.immediate?), .transfer [.ip, .dr] [.dr] .none]
    | some .accumulator => .ok [.transfer [.acc] [.dr] .none]
    | some .absolute => do return [.immediate .ar (← inst.immediate?), .load]
    | some .relative => do return [.displace .ar (← inst.immediate?), .load]

def jump (inst : Instruction) : Except InstructionFault Microprogram := do
  return (← inst.operand) ++ [.hold, .transfer [.dr] [.ip] .none]

/-- The actions of an instruction, given the value stored in the accumulator, on which the
conditional jumps depend. A jump that is not taken does not look at its operand. -/
def microprogram (inst : Instruction) (acc : Int) : Except InstructionFault Microprogram :=
  match inst.opcode? with
  | none => .error .unknownOperation
  | some .increment => .ok [.transfer [.acc] [.acc] { increment := true }]
  | some .invert => .ok [.transfer [.acc] [.acc] { invertLeft := true }]
  | some .add => do return (← inst.operand) ++ [.transfer [.dr, .acc] [.acc] .none]
  | some .subtract => do
    return (← inst.operand) ++ [.transfer [.dr, .acc] [.acc] { invertRight := true }]
  | some .load => do
    return (← inst.operand)
      ++ [.transfer [.dr] [.ar] .none, .load, .transfer [.dr] [.acc] .none]
  | some .save => do
    return (← inst.operand)
      ++ [.transfer [.dr] [.ar] .none, .transfer [.acc] [.dr] .none, .store]
  | some .jump => inst.jump
  | some .jumpIfZero => if acc = 0 then inst.jump else .ok []
  | some .jumpIfPositive => if 0 < acc then inst.jump else .ok []
  | some .jumpIfNegative => if acc < 0 then inst.jump else .ok []
  | some .halt => .ok [.halt]

end Instruction

end TwoBus
