import TwoBus.Instruction

/-!
# Faults

Everything that can go wrong while a machine is built or run, as a cause. `Fault.kind` sorts the
causes into the four kinds a caller can tell apart, and `Fault.message` words them.

A program that has ended is reported as a fault too: `Fault.halted` says that there is nothing left
to execute.
-/

namespace TwoBus

/-- What is wrong with an instruction that cannot be executed. -/
inductive InstructionFault
  | missingData
  | missingMode
  | unknownMode
  | unknownOperation
  | emptyCell (address : Int)
  deriving DecidableEq, Repr

namespace InstructionFault

def message : InstructionFault → String
  | missingData => "missing operand data"
  | missingMode => "missing fetch_type"
  | unknownMode => "invalid fetch_type"
  | unknownOperation => "invalid operation code"
  | emptyCell address => "empty instruction cell at " ++ toString address

end InstructionFault

/-- The cause of a fault. -/
inductive Fault
  | unsupportedWidth (width : Nat)
  | unknownRegister
  | unknownSignal
  | busFrozen
  | busFrozenTwice
  | busNotFrozen
  /-- An address register whose memory would not fit the machine. -/
  | addressTooWide
  | programTooLong (length capacity : Nat)
  | dataTooLong (length capacity : Nat)
  | negativeInstructionAddress (address : Int)
  | instructionOutOfBounds
  | negativeDataAddress (address : Int)
  | dataOutOfBounds
  | peekOutOfBounds
  /-- One device more than the window has slots. -/
  | windowFull
  | unbackedSlot (slot : Nat)
  | unreadableSource
  | malformedText (offset : Nat)
  | readFromOutput
  /-- A value written to the output device that is no character. -/
  | notCharacter (value : Int)
  | sinkFailed
  | instruction (inst : Instruction) (cause : InstructionFault)
  /-- There is nothing left to execute. -/
  | halted
  deriving DecidableEq, Repr

namespace Fault

/-- The kinds of fault that a caller can tell apart. -/
inductive Kind
  /-- A fault of the machine, with a message only. -/
  | machine
  /-- A fault that carries the instruction it arose in. -/
  | instruction
  /-- An address that nothing answers to. -/
  | address
  /-- The end of the program. -/
  | halt
  deriving DecidableEq, Repr

/-- The kind of a fault. An address past the end of a memory is a fault of the machine, which never
makes one by itself; a negative address or an empty slot is the program's. -/
def kind : Fault → Kind
  | negativeInstructionAddress _ | negativeDataAddress _ | unbackedSlot _ => .address
  | instruction _ _ => .instruction
  | halted => .halt
  | unsupportedWidth _ | unknownRegister | unknownSignal | busFrozen | busFrozenTwice
  | busNotFrozen | addressTooWide | programTooLong _ _ | dataTooLong _ _ | instructionOutOfBounds
  | dataOutOfBounds | peekOutOfBounds | windowFull | unreadableSource | malformedText _
  | readFromOutput | notCharacter _ | sinkFailed => .machine

def instruction? : Fault → Option Instruction
  | instruction inst _ => some inst
  | _ => none

def description : Fault → String
  | unsupportedWidth width => "unsupported bit depth " ++ toString width
  | unknownRegister => "invalid preg id"
  | unknownSignal => "unknown ALU signal"
  | busFrozen => "bus state frozen!"
  | busFrozenTwice => "bus state already frozen!"
  | busNotFrozen => "bus state not yet frozen!"
  | addressTooWide => "address register too wide"
  | programTooLong length capacity =>
    "program of " ++ toString length ++ " cells does not fit in " ++ toString capacity
      ++ " instruction cells"
  | dataTooLong length capacity =>
    "data of " ++ toString length ++ " cells does not fit in " ++ toString capacity
      ++ " data cells"
  | negativeInstructionAddress address =>
    "invalid instruction address (" ++ toString address ++ ") in instruction pointer"
  | instructionOutOfBounds => "out of bounds instruction load"
  | negativeDataAddress address =>
    "invalid address (" ++ toString address ++ ") in address register"
  | dataOutOfBounds => "out of bounds memory access"
  | peekOutOfBounds => "out of bounds memory peek"
  | windowFull => "device window is full"
  | unbackedSlot slot => "access to unbacked device address: " ++ toString slot
  | unreadableSource => "could not read input device source"
  | malformedText offset =>
    "malformed UTF-8 in input device source at byte " ++ toString offset
  | readFromOutput => "reading from output device"
  | notCharacter value => "value " ++ toString value ++ " is not a character"
  | sinkFailed => "output device sink failed"
  | instruction inst cause => "error in instruction '" ++ inst.text ++ "': " ++ cause.message
  | halted => "cpu halted"

/-- The message a caller sees. The text of an instruction may hold a NUL, and the message ends
there. -/
def message (fault : Fault) : String :=
  Text.untilNul fault.description

end Fault

end TwoBus
