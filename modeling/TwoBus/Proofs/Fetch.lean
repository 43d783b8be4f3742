import TwoBus.Processor

/-!
# Fetching

A fetch looks at the program cell whose address the instruction pointer stores, with whatever gates
open: it opens the one that it looks through, and closes it afterwards (`Processor.fetched`). What
it finds is settled by that address alone (`Processor.selected`).

* `Processor.run_fetch_of_error`, `Processor.run_fetch_of_none`, `Processor.run_fetch_of_some`: the
  three ways in which a fetch ends.
* `Processor.selected_of_neg`, `Processor.selected_of_nonneg`: no word of 16 bits is past the end of
  a program.
-/

namespace TwoBus.Processor

open Activity

variable {p : Processor} {inst : Instruction}

/-- What the instruction pointer selects in a program. -/
def selected (program : ProgramMemory 16) (p : Processor) : Except Fault (Option Instruction) :=
  program.fetch p.registers.ip.word.toInt

theorem selected_of_neg (hneg : p.registers.ip.word.toInt < 0) (program : ProgramMemory 16) :
    selected program p = .error (.negativeInstructionAddress p.registers.ip.word.toInt) :=
  if_pos hneg

/-- Every address that is not negative is that of a cell. -/
theorem selected_of_nonneg (hpos : ¬p.registers.ip.word.toInt < 0) (program : ProgramMemory 16) :
    selected program p = .ok (program.cells.get p.registers.ip.word.toInt.toNat) := by
  have hlt : p.registers.ip.word.toInt.natAbs < twoPow 16 := Word.natAbs_lt _
  unfold selected ProgramMemory.fetch ProgramMemory.peek
  rw [if_neg hpos, if_pos (by simp only [Bank.size]; omega)]

/-- The processor after a fetch, with the gate that the fetch went through closed. -/
def fetched (p : Processor) : Processor :=
  mapRegisters (fun file => (file.setGates .read false [.ip]).setGates .write false []) p

/-- Through its open gate the instruction pointer shows what it stores. -/
theorem fetchCell_opened (p : Processor) :
    fetchCell (mapRegisters
        (fun file => (file.setGates .read true [.ip]).setGates .write true []) p)
      = selected p.program p := rfl

theorem run_fetch_of_error [Logger] {fault : Fault} (h : selected p.program p = .error fault) :
    fetch.run p = ⟨.error fault, p.fetched, []⟩ := by
  unfold fetch connecting
  rw [run_bind, run_bracket, run_bind, run_get, Reaction.andThen_ok, fetchCell_opened, h]
  rfl

theorem run_fetch_of_none [Logger] (h : selected p.program p = .ok none) :
    fetch.run p
      = ⟨.error (.instruction {} (.emptyCell p.registers.ip.word.toInt)),
          { p.fetched with current := none }, []⟩ := by
  unfold fetch connecting
  rw [run_bind, run_bracket, run_bind, run_get, Reaction.andThen_ok, fetchCell_opened, h]
  rfl

theorem run_fetch_of_some [Logger] (h : selected p.program p = .ok (some inst)) :
    fetch.run p = ⟨.ok inst, { p.fetched with current := some inst }, []⟩ := by
  unfold fetch connecting
  rw [run_bind, run_bracket, run_bind, run_get, Reaction.andThen_ok, fetchCell_opened, h]
  rfl

end TwoBus.Processor
