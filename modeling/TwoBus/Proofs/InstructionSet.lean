import TwoBus.Proofs.Execution

/-!
# Steps and the instruction set

A step of a processor with closed gates, told without gates: it ends in the first fault that there
is cause for (`Core.stepFault?`), or it has exactly the effect that the table gives to the
instruction under the instruction pointer (`Core.carriedOut`).

* `concludes_step`: the two ways in which a step of a core ends.
* `step_effect`: the effect of a step of a processor, which is left with its gates closed.
-/

namespace TwoBus

namespace Core

/-- Why a step would fault. The causes are looked for in this order. -/
def stepFault? (c : Core) : Option Fault :=
  if c.ip.toInt < 0 then some (.negativeInstructionAddress c.ip.toInt)
  else
    match c.cell with
    | none => some (.instruction {} (.emptyCell c.ip.toInt))
    | some inst =>
      match inst.opcode? with
      | none => some (.instruction inst .unknownOperation)
      | some op =>
        if op.consults c.acc.toInt then
          match inst.defect? with
          | some cause => some (.instruction inst cause)
          | none => c.executionFault? inst op
        else none

/-- How a step concludes that has this cause to fault, or none: between two steps, or with the
instruction carried out. -/
def Concludes (c : Core) (r : Reaction Processor Unit) (fault? : Option Fault) : Prop :=
  match fault? with
  | some fault => ∃ (c' : Core) (t : Trace),
      r = ⟨.error fault, c'.toProcessor, t⟩ ∧ c'.phase = .idle
  | none => ∃ inst op t, 0 ≤ c.ip.toInt ∧ c.cell = some inst ∧ inst.opcode? = some op
      ∧ r = ⟨.ok (), ((c.executing inst).carriedOut inst op).toProcessor, t⟩

/-- A step concludes as its microprogram ends. -/
theorem concludes_of_ends [Logger] {c : Core} {inst : Instruction} {op : Opcode}
    {fault? : Option Fault} (hlive : c.phase ≠ .halted) (hpos : ¬c.ip.toInt < 0)
    (hcell : c.cell = some inst) (hop : inst.opcode? = some op)
    (hends : ∃ ops, inst.microprogram c.acc.toInt = .ok ops
      ∧ Ends ((ops.forM perform).run (c.executing inst)) fault?
          (fun c' => c'.settled = (c.executing inst).carriedOut inst op)) :
    c.Concludes (Processor.step.run c.toProcessor) fault? := by
  obtain ⟨ops, hops, hends⟩ := hends
  cases fault? with
  | some fault =>
    obtain ⟨c', t, hrun⟩ := hends
    exact ⟨_, _, run_step_of_fault hlive hpos hcell hops hrun, rfl⟩
  | none =>
    obtain ⟨c', t, hrun, hsettled⟩ := hends
    have hstep := run_step_of_done hlive hpos hcell hops hrun
    rw [hsettled] at hstep
    exact ⟨inst, op, _, by omega, hcell, hop, hstep⟩

/-- A step ends in the first fault that there is cause for, and without one it carries its
instruction out. -/
theorem concludes_step [Logger] {c : Core} (hlive : c.phase ≠ .halted) :
    c.Concludes (Processor.step.run c.toProcessor) c.stepFault? := by
  unfold stepFault?
  by_cases hneg : c.ip.toInt < 0
  · rw [if_pos hneg]
    exact ⟨_, _, run_step_of_negative hlive hneg, rfl⟩
  rw [if_neg hneg]
  cases hcell : c.cell with
  | none => exact ⟨_, _, run_step_of_empty hlive hneg hcell, rfl⟩
  | some inst =>
    cases hop : inst.opcode? with
    | none =>
      simp only [hop]
      exact ⟨_, _, run_step_of_refused hlive hneg hcell
        (Instruction.microprogram_of_unknown hop _), rfl⟩
    | some op =>
      simp only [hop]
      by_cases hconsults : op.consults c.acc.toInt = true
      · rw [if_pos hconsults]
        cases hdefect : inst.defect? with
        | some cause =>
          exact ⟨_, _, run_step_of_refused hlive hneg hcell
            (Instruction.microprogram_of_defect hop hconsults hdefect), rfl⟩
        | none =>
          have hends := ends_microprogram (c := c.executing inst) hop rfl rfl fun _ => hdefect
          rw [if_pos (show op.consults (c.executing inst).acc.toInt = true from hconsults),
            executionFault?_executing] at hends
          exact concludes_of_ends hlive hneg hcell hop hends
      · -- an operation that does not look at its operand does not mind its defects
        rw [if_neg hconsults]
        have hends := ends_microprogram (c := c.executing inst) hop rfl rfl
          fun h => absurd h hconsults
        rw [if_neg (show ¬op.consults (c.executing inst).acc.toInt = true from hconsults)] at hends
        exact concludes_of_ends hlive hneg hcell hop hends

/-- A halted processor is not stepped. -/
theorem run_step_of_halted [Logger] {c : Core} (hhalted : c.phase = .halted) :
    Processor.step.run c.toProcessor = ⟨.error .halted, c.toProcessor, []⟩ :=
  Processor.run_step_of_halted hhalted

end Core

namespace Processor

/-- A step that does not fault found an instruction with a meaning, and left the whole processor as
the table says: registers, memory, devices and control unit, with all gates closed again. -/
theorem step_effect [Logger] {p : Processor} (hquiet : p.registers.IsQuiet)
    (hok : (step.run p).outcome = .ok ()) :
    ∃ inst op, 0 ≤ p.core.ip.toInt ∧ p.core.cell = some inst ∧ inst.opcode? = some op
      ∧ (step.run p).state = ((p.core.executing inst).carriedOut inst op).toProcessor := by
  have hcore := Core.toProcessor_core hquiet
  rw [← hcore] at hok ⊢
  by_cases hhalted : p.core.phase = .halted
  · rw [Core.run_step_of_halted hhalted] at hok
    exact absurd hok (by simp)
  have hstep := Core.concludes_step hhalted
  cases hfault : p.core.stepFault? with
  | some fault =>
    rw [hfault] at hstep
    obtain ⟨c', t, hrun, -⟩ := hstep
    rw [hrun] at hok
    exact absurd hok (by simp)
  | none =>
    rw [hfault] at hstep
    obtain ⟨inst, op, t, hpos, hcell, hop, hrun⟩ := hstep
    exact ⟨inst, op, hpos, hcell, hop, congrArg Reaction.state hrun⟩

/-- The processor whose program cells all add the next character to the accumulator. -/
def summing : Processor where
  program := ⟨.uniform (some { operation := "ADD", mode := some "abs", data := some 0 })⟩
  memory := ⟨.uniform 0, { input := ⟨[.ofInt 16 97]⟩ }⟩

theorem step_effect_summing :
    letI := Logger.silent
    summing.registers.IsQuiet ∧ (step.run summing).outcome = .ok ()
      ∧ (step.run summing).state.registers.acc.word = .ofInt 16 97 := by
  have hquiet : summing.registers.IsQuiet := summing.core.isQuiet_file
  have hok : (@Activity.run .silent _ _ step summing).outcome = .ok () := by rfl
  obtain ⟨inst, op, -, hcell, hop, hstate⟩ := @step_effect .silent _ hquiet hok
  obtain rfl : _ = inst := Option.some.inj hcell
  obtain rfl : .add = op := Option.some.inj hop
  refine ⟨hquiet, hok, ?_⟩
  rw [hstate]
  rfl

end Processor

end TwoBus
