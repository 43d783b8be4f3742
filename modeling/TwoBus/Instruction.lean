import TwoBus.Text.Column

/-!
# Instructions

A program cell holds an instruction as it was written: the operation and the operand mode are
names, and nothing is checked before the instruction is executed. This module gives the names their
meaning (`Opcode.ofName?`, `Mode.ofName?`) and prints an instruction (`Instruction.text`).

Both name tables are read in one direction only: `ofName?` searches the names that `name` and
`spellings` list, so the two cannot disagree (`Opcode.ofName?_eq_some_iff`).
-/

namespace TwoBus

/-- The eleven operations. -/
inductive Opcode
  | increment
  | invert
  | add
  | subtract
  | load
  | save
  | jump
  | jumpIfZero
  | jumpIfPositive
  | jumpIfNegative
  | halt
  deriving DecidableEq, Repr

namespace Opcode

/-- Every operation, in the order of the instruction set. -/
def all : List Opcode :=
  [increment, invert, add, subtract, load, save, jump, jumpIfZero, jumpIfPositive, jumpIfNegative,
    halt]

def name : Opcode → String
  | increment => "INC"
  | invert => "INV"
  | add => "ADD"
  | subtract => "SUB"
  | load => "LD"
  | save => "SV"
  | jump => "JMP"
  | jumpIfZero => "JZ"
  | jumpIfPositive => "JP"
  | jumpIfNegative => "JN"
  | halt => "HLT"

/-- The operation that a name stands for; names are case-sensitive. -/
def ofName? (s : String) : Option Opcode :=
  all.find? (fun op => op.name = s)

/-- Whether an operation reads an operand, at least on one of its paths. -/
def takesOperand : Opcode → Bool
  | increment | invert | halt => false
  | add | subtract | load | save | jump | jumpIfZero | jumpIfPositive | jumpIfNegative => true

theorem mem_all (op : Opcode) : op ∈ all := by
  cases op <;> decide

theorem name_injective {op op' : Opcode} (h : op.name = op'.name) : op = op' := by
  cases op <;> cases op' <;> simp_all [name]

/-- A name that stands for an operation is the name it is written with. -/
theorem name_of_ofName? {s : String} {op : Opcode} (h : ofName? s = some op) : op.name = s := by
  unfold ofName? at h
  simpa using List.find?_some h

/-- A name stands for the operation that is written with it, and for no other. -/
theorem ofName?_eq_some_iff {s : String} {op : Opcode} : ofName? s = some op ↔ s = op.name := by
  constructor
  · intro h
    exact (name_of_ofName? h).symm
  · rintro rfl
    cases h : ofName? op.name with
    | none => exact absurd (List.find?_eq_none.mp h op (mem_all op)) (by simp)
    | some op' => rw [name_injective (name_of_ofName? h)]

end Opcode

/-- How an instruction says where its operand comes from. -/
inductive Mode
  /-- The immediate itself. -/
  | constant
  /-- The immediate, counted from the instruction pointer. -/
  | relativeConstant
  /-- The accumulator. -/
  | accumulator
  /-- The cell at the immediate. -/
  | absolute
  /-- The cell at the immediate, counted from the address register. -/
  | relative
  deriving DecidableEq, Repr

namespace Mode

def all : List Mode :=
  [constant, relativeConstant, accumulator, absolute, relative]

/-- The names a mode may be written with; the memory modes have a long and a short one. -/
def spellings : Mode → List String
  | constant => ["const"]
  | relativeConstant => ["const_rel"]
  | accumulator => ["acc"]
  | absolute => ["abs_mem", "abs"]
  | relative => ["rel_mem", "rel"]

/-- The mode that a name stands for; names are case-sensitive. -/
def ofName? (s : String) : Option Mode :=
  all.find? (fun mode => s ∈ mode.spellings)

end Mode

/-- An instruction as written: an operation, and where present a mode and an immediate. -/
structure Instruction where
  /-- The name of the operation, which need not be one of the eleven. -/
  operation : String := ""
  /-- The name of the operand mode, which need not be a mode. -/
  mode : Option String := none
  data : Option Int := none
  deriving DecidableEq, Repr

namespace Instruction

/-- The operation that the instruction names, if there is one of that name. -/
def opcode? (inst : Instruction) : Option Opcode :=
  Opcode.ofName? inst.operation

/-- The operation reads an operand, and the instruction lacks a mode or an immediate for it. An
immediate is missed also where the mode would not use it. -/
def lacksOperand (inst : Instruction) : Bool :=
  inst.opcode?.any Opcode.takesOperand && (inst.mode.isNone || inst.data.isNone)

/-- The printed form: operation, mode and immediate in that order, and a remark on a missing
operand. -/
def text (inst : Instruction) : String :=
  inst.operation
    ++ (inst.mode.elim "" (" " ++ ·))
    ++ (inst.data.elim "" (fun v => " $" ++ toString v))
    ++ (if inst.lacksOperand then "; ?? missing operand" else "")

end Instruction

end TwoBus
