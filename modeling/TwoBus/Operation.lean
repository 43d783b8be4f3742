import TwoBus.Machine
import TwoBus.Number

/-!
# Operations

What can be done to a machine from outside: to step and run it, but also to set its registers and
gates by hand, to work its arithmetic unit, its memories and its devices, and to look at them. An
operation answers, or faults as the part it works on does.
-/

namespace TwoBus

/-- The answer to an operation. -/
inductive Answer
  | done
  /-- A word of that many bits. -/
  | word (bits : Nat) (value : Int)
  | cell (content : Option Instruction)
  /-- For each bus, whether it was driven, and what it carried. -/
  | buses (drivenA : Bool) (a : Int) (drivenB : Bool) (b : Int)
  | status (status : Status)
  | ended (runEnd : RunEnd)
  deriving DecidableEq, Repr

namespace Datapath

variable {w : Nat}

/-- What can be done to a data path. -/
inductive Operation
  /-- Store a value in a register, past its gates. -/
  | poke (r : Reg) (v : Int)
  | setGate (r : Reg) (gate : Gate) (isOpen : Bool)
  | read (r : Reg)
  | write (r : Reg) (n : Number)
  /-- One operation of the arithmetic unit, controlled by a byte. -/
  | operate (byte : UInt8)
  /-- Offer a number to all registers. -/
  | latch (n : Number)
  /-- Drive a fresh pair of buses, frozen beforehand or not, and sample them. -/
  | drive (frozen : Bool)
  | report
  deriving DecidableEq, Repr

def mapRegisters (f : RegisterFile w → RegisterFile w) (d : Datapath w) : Datapath w :=
  { d with registers := f d.registers }

/-- Drive a pair of buses and sample them, with a note on which were driven. -/
def observe (file : RegisterFile w) : Activity Buses Answer := do
  file.driveBuses
  Buses.freeze
  let buses ← get
  let a ← Buses.sample .a
  let b ← Buses.sample .b
  return .buses (buses.isDriven .a) a (buses.isDriven .b) b

def Operation.perform : Operation → Activity (Datapath w) Answer
  | .poke r v => do
    modify (mapRegisters (·.modify r (·.poke v)))
    return .done
  | .setGate r gate isOpen => do
    modify (mapRegisters (·.modify r (·.setGate gate isOpen)))
    return .done
  | .read r => do
    let d ← get
    return .word w (d.registers.get r).read.toInt
  | .write r n => do
    modify (mapRegisters (·.modify r (·.write n.value)))
    return .done
  | .operate byte => do
    let signals ← Signals.ofByte? byte
    Datapath.operate signals
    return .done
  | .latch n => do
    Datapath.latch n.value
    return .done
  | .drive frozen => do
    let d ← get
    Activity.isolate { frozen } (observe d.registers)
  | .report => do
    let d ← get
    Activity.report (d.registers.report ++ [.result d.result.toInt])
    return .done

end Datapath

namespace Machine

/-- What can be done to a machine. -/
inductive Operation
  /-- Something done to its data path. -/
  | datapath (op : Datapath.Operation)
  | step
  | run (budget : Nat)
  /-- One step of the processor alone, which is not counted. -/
  | processorStep
  | report
  /-- One load, through the gates as they are. -/
  | load
  /-- One store, through the gates as they are. -/
  | store
  /-- One instruction fetch, through the gates as they are. -/
  | fetch
  | peek (address : Nat)
  | peekInstruction (address : Nat)
  | deviceRead (slot : Nat)
  | deviceWrite (slot : Nat) (n : Number)
  | flush
  /-- Let the sink fail, or mend it. -/
  | setSink (good : Bool)
  deriving DecidableEq, Repr

def onProcessor {α : Type} (x : Activity Processor α) : Activity Machine α :=
  Activity.focus processorPart x

def onIo {α : Type} (x : Activity IoUnit α) : Activity Machine α :=
  onProcessor (Activity.focus Processor.ioPart x)

/-- Carry out an operation on a machine. -/
def Operation.perform : Operation → Activity Machine Answer
  | .datapath op => onProcessor (Activity.focus Processor.datapathPart op.perform)
  | .step => do return .status (← singleStep)
  | .run budget => do return .ended (← Machine.run budget)
  | .processorStep => do
    onProcessor Processor.step
    return .done
  | .report => do
    onProcessor Processor.dumpRegisters
    return .done
  | .load => do
    onProcessor Processor.load
    return .done
  | .store => do
    onProcessor Processor.store
    return .done
  | .fetch => do
    let m ← get
    return .cell (← m.processor.fetchCell)
  | .peek address => do
    let m ← get
    let content ← m.processor.memory.peek address
    return .word 16 content.toInt
  | .peekInstruction address => do
    let m ← get
    return .cell (← m.processor.program.peek address)
  | .deviceRead slot => do
    let v ← onIo (IoUnit.read slot)
    return .word 16 v.toInt
  | .deviceWrite slot n => do
    onIo (IoUnit.write slot n.value)
    return .done
  | .flush => do
    onIo (Activity.focus IoUnit.outputPart OutputDevice.flush)
    return .done
  | .setSink good => do
    onIo (Activity.focus IoUnit.outputPart (modify (OutputDevice.setSink good)))
    return .done

end Machine

end TwoBus
