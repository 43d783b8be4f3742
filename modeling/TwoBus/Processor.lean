import TwoBus.Control.Microprogram
import TwoBus.Datapath
import TwoBus.Memory.Data
import TwoBus.Memory.Program

/-!
# The processor

The processor is the data path with both memories and the control unit. A step fetches the
instruction that the instruction pointer selects, performs its microprogram, and moves the pointer
on unless the instruction was a jump.

The control unit opens gates only for the length of one action and closes them again on every way
out (`Processor.connecting`). A step that faults leaves the control unit idle, and what was done
before the fault stays done.
-/

namespace TwoBus

/-- The data path, the memories and the control unit. -/
structure Processor where
  datapath : Datapath 16 := {}
  program : ProgramMemory 16
  memory : DataMemory 16 16
  phase : Phase := .idle
  /-- The instruction pointer stays where it is at the end of this step. -/
  hold : Bool := false
  /-- The content of the program cell fetched last. -/
  current : Option Instruction := none

namespace Processor

def datapathPart : Part Processor (Datapath 16) where
  get p := p.datapath
  set p d := { p with datapath := d }

/-- The data memory, with the address and the data register. -/
def dataPart : Part Processor (DataUnit 16 16) where
  get p := ⟨p.datapath.registers.ar, p.datapath.registers.dr, p.memory⟩
  set p unit :=
    { p with
      datapath.registers.ar := unit.address
      datapath.registers.dr := unit.data
      memory := unit.memory }

/-- The devices behind the data memory. -/
def ioPart : Part Processor IoUnit where
  get p := p.memory.io
  set p io := { p with memory.io := io }

def registers (p : Processor) : RegisterFile 16 := p.datapath.registers

def mapRegisters (f : RegisterFile 16 → RegisterFile 16) (p : Processor) : Processor :=
  { p with datapath.registers := f p.datapath.registers }

/-- The program has ended. -/
def isHalted (p : Processor) : Bool := p.phase = .halted

/-- Hold the read gates of the sources and the write gates of the targets open for the length of an
activity. They are closed afterwards, also if it faults and also if they were open before. -/
def connecting {α : Type} (sources targets : List Reg) (x : Activity Processor α) :
    Activity Processor α :=
  Activity.bracket
    (mapRegisters fun file => (file.setGates .read true sources).setGates .write true targets)
    (mapRegisters fun file => (file.setGates .read false sources).setGates .write false targets)
    x

/-- Offer a value to one register, through its opened write gate. -/
def put (r : Reg) (v : Int) : Activity Processor Unit :=
  connecting [] [r] (modify (mapRegisters fun file => file.modify r (·.write v)))

/-- Load the data register through the data memory. -/
def load : Activity Processor Unit := Activity.focus dataPart DataUnit.load

/-- Store the data register into the data memory. -/
def store : Activity Processor Unit := Activity.focus dataPart DataUnit.store

/-- The content of the program cell that the instruction pointer shows. -/
def fetchCell (p : Processor) : Except Fault (Option Instruction) :=
  p.program.fetch p.registers.ip.read.toInt

/-- Perform one action of the control unit. -/
def perform : Microop → Activity Processor Unit
  | .transfer sources targets signals =>
    connecting sources targets (Activity.focus datapathPart (Datapath.operate signals))
  | .immediate target v => put target v.toInt
  | .displace target v => do
    let p ← get
    put target ((p.registers.get target).word + v).toInt
  | .load => connecting [.ar] [.dr] load
  | .store => connecting [.dr, .ar] [] store
  | .hold => modify fun p => { p with hold := true }
  | .halt => modify fun p => { p with phase := .halted }

def enter (phase : Phase) : Activity Processor Unit :=
  modify fun p => { p with phase := phase }

/-- Fetch the next instruction. A fetch from no address leaves the current instruction as it was; a
fetch from an empty cell does not. -/
def fetch : Activity Processor Instruction := do
  let cell ← connecting [.ip] [] do
    let cell ← (← get).fetchCell
    modify fun p => { p with current := cell }
    return cell
  match cell with
  | some inst => return inst
  | none =>
    let p ← get
    Activity.fail (.instruction {} (.emptyCell p.registers.ip.word.toInt))

/-- Execute an instruction, or refuse it before it has done anything. -/
def execute (inst : Instruction) : Activity Processor Unit := do
  let p ← get
  match inst.microprogram p.registers.acc.word.toInt with
  | .error cause => Activity.fail (.instruction inst cause)
  | .ok ops => ops.forM perform

/-- Move the instruction pointer on, unless it is held. -/
def advance : Activity Processor Unit := do
  let p ← get
  if p.hold then pure () else perform .advance

/-- One pass through the phases. The end of the program is noticed while executing, and still moves
the pointer on. -/
def pass : Activity Processor Unit := do
  enter .fetch
  let inst ← fetch
  enter .execute
  execute inst
  let halting := (← get).isHalted
  enter .advance
  advance
  enter (if halting then .halted else .idle)

/-- One step, refused after the program has ended. -/
def step : Activity Processor Unit := do
  let p ← get
  if p.isHalted then Activity.fail .halted
  else
    modify fun p => { p with hold := false }
    Activity.onFault (fun p => { p with phase := .idle }) pass

/-- Print the program cell that the instruction pointer stores the address of. The pointer is seen
without its gate, and only an address of a cell is looked up. -/
def disassembleCurrent : Activity Processor Unit := do
  let p ← get
  let address := p.registers.ip.word.toInt
  Activity.announce .rule
  if address < 0 ∨ p.program.cells.size ≤ address then
    Activity.announce (.unlisted address)
  else
    let cell ← p.program.peek address.toNat
    Activity.announce (.listing address.toNat cell)

/-- A report on the control unit, the registers, the arithmetic unit and the devices. -/
def report (p : Processor) : List Event :=
  [.rule, .control p.phase p.hold] ++ p.registers.report ++ [.result p.datapath.result.toInt]
    ++ p.memory.io.report ++ [.blank]

/-- Print a report on the processor. -/
def dumpRegisters : Activity Processor Unit := do
  Activity.report (← get).report

/-- What the disassembly prints under the rule. -/
def listing (p : Processor) : Event :=
  p.program.listing p.registers.ip.word.toInt

/-- The disassembly looks up no address that it has not tested, so it cannot fault. -/
theorem run_disassembleCurrent [Logger] (p : Processor) :
    disassembleCurrent.run p = ⟨.ok (), p, [Event.rule, p.listing].map (.of none)⟩ := by
  unfold disassembleCurrent
  by_cases hcell : 0 ≤ p.registers.ip.word.toInt ∧ p.registers.ip.word.toInt < p.program.cells.size
  · have hpeek : p.program.peek p.registers.ip.word.toInt.toNat
        = .ok (p.program.cells.get p.registers.ip.word.toInt.toNat) := if_pos (by omega)
    have hlisting : p.listing = .listing p.registers.ip.word.toInt.toNat
        (p.program.cells.get p.registers.ip.word.toInt.toNat) := if_pos hcell
    have htest : ¬(p.registers.ip.word.toInt < 0
        ∨ (p.program.cells.size : Int) ≤ p.registers.ip.word.toInt) := by omega
    simp [hpeek, hlisting, htest]
  · have hlisting : p.listing = .unlisted p.registers.ip.word.toInt := if_neg hcell
    have htest : p.registers.ip.word.toInt < 0
        ∨ (p.program.cells.size : Int) ≤ p.registers.ip.word.toInt := by omega
    simp [hlisting, htest]

theorem run_dumpRegisters [Logger] (p : Processor) :
    dumpRegisters.run p = ⟨.ok (), p, p.report.map (.of none)⟩ := by
  simp [dumpRegisters]

end Processor

end TwoBus
