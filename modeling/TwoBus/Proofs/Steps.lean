import TwoBus.Proofs.InstructionSet
import TwoBus.Proofs.Running

/-!
# Following a program by its table

To follow a program through a run one instruction at a time, it is enough to know the core. A step
of the core that has no cause to fault carries out the instruction it is at
(`Core.steps_carriedOut`), and is one counted step of the machine (`Machine.runs_of_steps`). An
instruction whose operand is its immediate has no cause to fault but its own access to memory
(`Core.stepFault?_of_constant`).

Along a straight line of a program the next instruction is in the next cell, and around the end of
the memory if it comes to that (`Core.StepsOn.cellAfter`).
-/

namespace TwoBus

namespace Core

variable {c c' : Core} {inst : Instruction} {op : Opcode}

/-- A step from one core to another. -/
def Steps [Logger] (c c' : Core) : Prop :=
  ∃ t, Processor.step.run c.toProcessor = ⟨.ok (), c'.toProcessor, t⟩

/-- The cell that comes a number of places after the one at the instruction pointer, around the end
of the memory. -/
def cellAfter (c : Core) (k : Nat) : Option Instruction :=
  c.program.cells.get ((c.ip.toInt.toNat + k) % 65536)

/-- A step that moves on to the next cell. -/
structure StepsOn [Logger] (c c' : Core) : Prop where
  steps : c.Steps c'
  program : c'.program = c.program
  ip : c'.ip = .ofInt 16 (c.ip.toInt + 1)
  phase : c'.phase = .idle

theorem cellAfter_zero (c : Core) : c.cellAfter 0 = c.cell := by
  have hlt : c.ip.toInt.natAbs < 65536 := c.ip.natAbs_lt
  have hplace : (c.ip.toInt.toNat + 0) % 65536 = c.ip.toInt.toNat := by omega
  unfold cellAfter
  rw [hplace]
  rfl

namespace StepsOn

theorem live [Logger] (h : c.StepsOn c') : c'.phase ≠ .halted := by
  rw [h.phase]
  decide

/-- From the last cell the pointer goes to the first. -/
theorem address [Logger] (h : c.StepsOn c') (hpos : 0 ≤ c.ip.toInt) :
    c'.ip.toInt = (c.ip.toInt + 1) % 65536 := by
  rw [h.ip]
  exact truncate_of_nonneg (show 0 ≤ c.ip.toInt + 1 by omega)

theorem nonneg [Logger] (h : c.StepsOn c') (hpos : 0 ≤ c.ip.toInt) : 0 ≤ c'.ip.toInt := by
  have haddress := h.address hpos
  omega

/-- The cells that lie ahead come one place nearer. -/
theorem cellAfter [Logger] (h : c.StepsOn c') (hpos : 0 ≤ c.ip.toInt) (k : Nat) :
    c'.cellAfter k = c.cellAfter (k + 1) := by
  have haddress := h.address hpos
  have hplace : (c'.ip.toInt.toNat + k) % 65536 = (c.ip.toInt.toNat + (k + 1)) % 65536 := by
    omega
  unfold Core.cellAfter
  rw [hplace, h.program]

end StepsOn

/-- A step that has no cause to fault carries out the instruction that it is at. -/
theorem steps_carriedOut [Logger] (hlive : c.phase ≠ .halted) (hcell : c.cell = some inst)
    (hop : inst.opcode? = some op) (hsound : c.stepFault? = none) :
    c.Steps ((c.executing inst).carriedOut inst op) := by
  have hstep := concludes_step hlive
  rw [hsound] at hstep
  obtain ⟨inst', op', t, -, hcell', hop', hrun⟩ := hstep
  obtain rfl := Option.some.inj (hcell.symm.trans hcell')
  obtain rfl := Option.some.inj (hop.symm.trans hop')
  exact ⟨t, hrun⟩

/-- An operand that is the immediate itself goes into the data register as it is. -/
theorem withOperand_of_constant {v : Int} (hmode : inst.mode? = some .constant)
    (hdata : inst.data = some v) : c.withOperand inst = { c with dr := .ofInt 16 v } := by
  unfold withOperand Instruction.immediate
  rw [hmode, hdata]
  rfl

/-- An operation on an immediate faults only where it accesses memory. -/
theorem stepFault?_of_constant {v : Int} (hpos : 0 ≤ c.ip.toInt) (hcell : c.cell = some inst)
    (hop : inst.opcode? = some op) (hmode : inst.mode? = some .constant)
    (hdata : inst.data = some v)
    (haccess : { c with dr := Word.ofInt 16 v }.accessFault? op = none) :
    c.stepFault? = none := by
  have hexecution : c.executionFault? inst op = none := by
    unfold executionFault? operandFault? operandAddress?
    rw [withOperand_of_constant hmode hdata, hmode]
    exact haccess
  have hdefect := Instruction.defect?_of_mode hmode hdata
  unfold stepFault?
  rw [if_neg (Int.not_lt.mpr hpos), hcell]
  simp only [hop, hdefect, hexecution, ite_self]

/-- An operation that does not look at its operand cannot fault. -/
theorem stepFault?_of_not_consults (hpos : 0 ≤ c.ip.toInt) (hcell : c.cell = some inst)
    (hop : inst.opcode? = some op) (hconsults : op.consults c.acc.toInt = false) :
    c.stepFault? = none := by
  unfold stepFault?
  rw [if_neg (Int.not_lt.mpr hpos), hcell]
  simp only [hop, hconsults, Bool.false_eq_true, if_false]

end Core

namespace Machine

/-- A step of the core that does not end the program is one of the machine, which it leaves
running. -/
theorem runs_of_steps [Logger] {m : Machine} {c c' : Core} (hm : m.processor = c.toProcessor)
    (hlive : c.phase ≠ .halted) (hsteps : c.Steps c') (hlive' : c'.phase ≠ .halted) :
    ∃ t, Runs 1 m t ({ m with processor := c'.toProcessor } : Machine).count := by
  obtain ⟨t, hstep⟩ := hsteps
  have hrunning : ({ m with processor := c'.toProcessor } : Machine).status = .running :=
    status_eq_running_iff.mpr hlive'
  have hlive : m.processor.phase ≠ .halted := by rwa [hm]
  rw [← hm] at hstep
  have hsingle := run_singleStep_of_ok hlive hstep
  rw [hrunning] at hsingle
  exact ⟨_, .one hsingle⟩

/-- A step to the next cell is one of the machine. -/
theorem runs_of_stepsOn [Logger] {m : Machine} {c c' : Core} (hm : m.processor = c.toProcessor)
    (hlive : c.phase ≠ .halted) (hsteps : c.StepsOn c') :
    ∃ t m', Runs 1 m t m' ∧ m'.processor = c'.toProcessor := by
  obtain ⟨t, hruns⟩ := runs_of_steps hm hlive hsteps.steps hsteps.live
  exact ⟨t, _, hruns, rfl⟩

/-- Where the step of the core has cause to fault, that of the machine faults. -/
theorem outcome_of_stepFault? [Logger] {m : Machine} {c : Core} {fault : Fault}
    (hm : m.processor = c.toProcessor) (hlive : c.phase ≠ .halted)
    (hfault : c.stepFault? = some fault) : (singleStep.run m).outcome = .error fault := by
  have hstep := Core.concludes_step hlive
  rw [hfault, ← hm] at hstep
  obtain ⟨c', t, hrun, -⟩ := hstep
  have hlive : m.processor.phase ≠ .halted := by rwa [hm]
  exact (fault_singleStep_iff hlive).mpr (congrArg Reaction.outcome hrun)

end Machine

end TwoBus
