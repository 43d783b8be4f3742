import TwoBus.Fault

/-!
# The shape of the machine

Four registers hang on two buses. The accumulator and the instruction pointer drive bus A, the
address and the data register drive bus B, so one register of each pair can meet one of the other
pair in the arithmetic unit. Three signals control that unit, and the control unit walks through
five phases.
-/

namespace TwoBus

/-- The buses that feed the arithmetic unit: A on its left, B on its right. -/
inductive Bus
  | a
  | b
  deriving DecidableEq, Repr

def Bus.name : Bus → String
  | .a => "BUS_A"
  | .b => "BUS_B"

inductive Reg
  /-- The accumulator. -/
  | acc
  /-- The address register of the data memory. -/
  | ar
  /-- The data register, which operands pass through. -/
  | dr
  /-- The instruction pointer. -/
  | ip
  deriving DecidableEq, Repr

namespace Reg

/-- The registers in the order in which they are clocked and printed. -/
def all : List Reg := [acc, ar, dr, ip]

def name : Reg → String
  | acc => "acc"
  | ar => "ar"
  | dr => "dr"
  | ip => "ip"

/-- The bus that a register drives. -/
def bus : Reg → Bus
  | acc | ip => .a
  | ar | dr => .b

/-- The register with a given number, counted in the order of `all`. -/
def ofNat? (n : Nat) : Except Fault Reg :=
  match all[n]? with
  | some r => .ok r
  | none => .error .unknownRegister

end Reg

/-- The two gates of a register. -/
inductive Gate
  /-- Open, the register drives its bus. -/
  | read
  /-- Open, the register takes what is offered to it. -/
  | write
  deriving DecidableEq, Repr

/-- The control signals of the arithmetic unit. -/
structure Signals where
  increment : Bool := false
  invertLeft : Bool := false
  invertRight : Bool := false
  deriving DecidableEq, Repr

namespace Signals

/-- No signal: the two operands are added. -/
def none : Signals := {}

/-- The signals of a control byte: bits 0, 1 and 2 in the order of the fields. Any other bit is
refused. -/
def ofByte? (byte : UInt8) : Except Fault Signals :=
  if byte &&& 0xF8 = 0 then
    .ok {
      increment := byte &&& 1 ≠ 0
      invertLeft := byte &&& 2 ≠ 0
      invertRight := byte &&& 4 ≠ 0 }
  else .error .unknownSignal

end Signals

/-- The phases of the control unit. -/
inductive Phase
  /-- Between two steps. -/
  | idle
  | fetch
  | execute
  | advance
  /-- After the program has ended. -/
  | halted
  deriving DecidableEq, Repr

def Phase.name : Phase → String
  | .idle => "IDLE"
  | .fetch => "FETCH"
  | .execute => "EXECUTE"
  | .advance => "ADVANCE"
  | .halted => "HALTED"

/-- The number of data addresses, from zero, that reach devices instead of memory. -/
def windowSize : Nat := 4

/-- The widest address register that a memory can be built for. -/
def maxAddressBits : Nat := 24

end TwoBus
