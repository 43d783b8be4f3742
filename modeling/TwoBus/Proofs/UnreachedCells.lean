import TwoBus.Proofs.Blindness
import TwoBus.Proofs.Microprograms
import TwoBus.Proofs.Running

/-!
# Cells that are not reached

A machine looks at its program only where the instruction pointer is, and at an instruction only as
far as it is executed. So two machines that differ in their programs stay in step for as long as the
programs have the same cell wherever a step finds the pointer of the first machine, and the operand
of a jump that is not taken shows nowhere but in the listing and in the record of the current
instruction.

* `Machine.run_singleStep_relabel`: a single step under another program.
* `Machine.run_of_agrees`: step calls under another program, one after the other.
* `Machine.run_singleStep_untaken`: a jump that is not taken.
* `Machine.unreached_cells_inert`: all of it.
-/

namespace TwoBus

/-- A conditional jump whose condition does not hold. -/
def Opcode.isUntaken (op : Opcode) (acc : Int) : Bool :=
  match op with
  | .jumpIfZero => acc ≠ 0
  | .jumpIfPositive => acc ≤ 0
  | .jumpIfNegative => 0 ≤ acc
  | _ => false

/-- A jump that is not taken does nothing, whatever its operand. -/
theorem Instruction.microprogram_of_untaken {inst : Instruction} {op : Opcode} {acc : Int}
    (hop : inst.opcode? = some op) (huntaken : op.isUntaken acc = true) :
    inst.microprogram acc = .ok [] := by
  unfold microprogram
  rw [hop]
  cases op with
  | jumpIfZero => exact if_neg (of_decide_eq_true huntaken)
  | jumpIfPositive => exact if_neg (Int.not_lt.mpr (of_decide_eq_true huntaken))
  | jumpIfNegative => exact if_neg (Int.not_lt.mpr (of_decide_eq_true huntaken))
  | _ => exact absurd huntaken Bool.false_ne_true

namespace Processor

variable {p : Processor} {program : ProgramMemory 16}

/-- Where the instruction pointer is, if it is at a cell at all, another program has the same
cell. -/
def AgreesWith (p : Processor) (program : ProgramMemory 16) : Prop :=
  0 ≤ p.registers.ip.word.toInt →
    program.cells.get p.registers.ip.word.toInt.toNat
      = p.program.cells.get p.registers.ip.word.toInt.toNat

theorem AgreesWith.selected_eq (h : p.AgreesWith program) :
    selected program p = selected p.program p := by
  by_cases hneg : p.registers.ip.word.toInt < 0
  · rw [selected_of_neg hneg, selected_of_neg hneg]
  · rw [selected_of_nonneg hneg, selected_of_nonneg hneg, h (Int.not_lt.mp hneg)]

theorem AgreesWith.listing_eq (h : p.AgreesWith program) :
    ({ p with program } : Processor).listing = p.listing := by
  show program.listing p.registers.ip.word.toInt = p.program.listing p.registers.ip.word.toInt
  unfold ProgramMemory.listing
  by_cases hneg : p.registers.ip.word.toInt < 0
  · rw [if_neg (by omega), if_neg (by omega)]
  · rw [h (Int.not_lt.mp hneg)]
    rfl

end Processor

namespace Machine

variable {m : Machine} {program : ProgramMemory 16}

/-- The machine with another program. -/
def withProgram (program : ProgramMemory 16) (m : Machine) : Machine :=
  { m with processor := { m.processor with program } }

/-- The machine with another program, and with something else noted as its current instruction. -/
def relabel (program : ProgramMemory 16) (note : Option Instruction → Option Instruction)
    (m : Machine) : Machine :=
  { m with processor := m.processor.relabel program note }

/-- If two steps of the processor differ in a relabelling, the single steps of the machine do, but
for what is recorded beforehand. -/
theorem run_singleStep_relabel [Logger] {note : Option Instruction → Option Instruction}
    (hlive : m.processor.phase ≠ .halted)
    (hstep : Processor.step.run (m.processor.relabel program id)
      = (Processor.step.run m.processor).mapState (Processor.relabel program note)) :
    ∃ t, (singleStep.run m).trace = m.preamble ++ t
      ∧ singleStep.run (m.withProgram program)
        = ⟨(singleStep.run m).outcome, (singleStep.run m).state.relabel program note,
            (m.withProgram program).preamble ++ t⟩ := by
  have hlive' : (m.withProgram program).processor.phase ≠ .halted := hlive
  cases hrun : Processor.step.run m.processor with
  | mk outcome p t =>
    rw [hrun] at hstep
    cases outcome with
    | error fault =>
      rw [run_singleStep_of_fault hlive hrun, run_singleStep_of_fault hlive' hstep]
      exact ⟨t, rfl, rfl⟩
    | ok _ =>
      rw [run_singleStep_of_ok hlive hrun, run_singleStep_of_ok hlive' hstep, List.append_assoc,
        List.append_assoc]
      exact ⟨_, rfl, rfl⟩

/-! ## Step calls -/

/-- A step of the machine, or one of its processor alone. -/
def Operation.steps : Operation → Bool
  | .step | .processorStep => true
  | _ => false

theorem run_singleStep_withProgram [Logger]
    (hagrees : m.processor.phase ≠ .halted → m.processor.AgreesWith program) :
    singleStep.run (m.withProgram program) = (singleStep.run m).mapState (withProgram program) := by
  by_cases hhalted : m.processor.phase = .halted
  · have hhalted' : (m.withProgram program).processor.phase = .halted := hhalted
    rw [run_singleStep_of_halted hhalted, run_singleStep_of_halted hhalted']
    rfl
  · have hagrees := hagrees hhalted
    obtain ⟨t, htrace, hrun⟩ :=
      run_singleStep_relabel hhalted (Processor.run_step_relabel hagrees.selected_eq)
    have hpreamble : (m.withProgram program).preamble = m.preamble := by
      have hlisting : (m.withProgram program).processor.listing = m.processor.listing :=
        hagrees.listing_eq
      unfold preamble
      rw [hlisting]
    rw [hrun, hpreamble, ← htrace]
    rfl

theorem run_processorStep_withProgram [Logger]
    (hagrees : m.processor.phase ≠ .halted → m.processor.AgreesWith program) :
    (onProcessor Processor.step).run (m.withProgram program)
      = ((onProcessor Processor.step).run m).mapState (withProgram program) := by
  have hstep : Processor.step.run (m.processor.relabel program id)
      = (Processor.step.run m.processor).mapState (Processor.relabel program id) := by
    by_cases hhalted : m.processor.phase = .halted
    · have hhalted' : (m.processor.relabel program id).phase = .halted := hhalted
      rw [Processor.run_step_of_halted hhalted, Processor.run_step_of_halted hhalted']
      rfl
    · exact Processor.run_step_relabel (hagrees hhalted).selected_eq
  show (Processor.step.run (m.processor.relabel program id)).mapState _ = _
  rw [hstep]
  rfl

/-- A step call under another program that has the same cell where the instruction pointer is. -/
theorem Operation.run_withProgram [Logger] {op : Operation} (hop : op.steps = true)
    (hagrees : m.processor.phase ≠ .halted → m.processor.AgreesWith program) :
    op.perform.run (m.withProgram program) = (op.perform.run m).mapState (withProgram program) := by
  cases op with
  | step =>
    rw [perform, Activity.run_bind, Activity.run_bind, run_singleStep_withProgram hagrees]
    exact Reaction.andThen_mapState _ _ fun _ _ => rfl
  | processorStep =>
    rw [perform, Activity.run_bind, Activity.run_bind, run_processorStep_withProgram hagrees]
    exact Reaction.andThen_mapState _ _ fun _ _ => rfl
  | _ => exact absurd hop (by simp [steps])

/-- The machine after the first operations of a session. -/
def reached [Logger] (ops : List Operation) (k : Nat) (m : Machine) : Machine :=
  ((session (ops.take k)).run m).state

theorem reached_succ [Logger] (op : Operation) (ops : List Operation) (k : Nat) (m : Machine) :
    reached (op :: ops) (k + 1) m = reached ops k (op.perform.run m).state := by
  unfold reached
  rw [List.take_succ_cons, run_session_cons, Reaction.state_after]

/-- Step calls under another program that has the same cell wherever one of them finds the
instruction pointer. -/
theorem run_of_agrees [Logger] {ops : List Operation} (hops : ∀ op ∈ ops, op.steps = true)
    (hagrees : ∀ k < ops.length, (reached ops k m).processor.phase ≠ .halted →
      (reached ops k m).processor.AgreesWith program) :
    ∀ k (hk : k < ops.length),
      ops[k].perform.run (reached ops k (m.withProgram program))
        = (ops[k].perform.run (reached ops k m)).mapState (withProgram program) := by
  induction ops generalizing m with
  | nil => exact fun k hk => absurd hk (Nat.not_lt_zero k)
  | cons op ops ih =>
    have hfirst : op.perform.run (m.withProgram program)
        = (op.perform.run m).mapState (withProgram program) :=
      Operation.run_withProgram (hops op List.mem_cons_self) (hagrees 0 (Nat.succ_pos _))
    intro k hk
    cases k with
    | zero => exact hfirst
    | succ k =>
      rw [reached_succ, reached_succ, hfirst]
      apply ih
      · intro op' hop'
        exact hops op' (List.mem_cons_of_mem op hop')
      · intro j hj
        have hnext := hagrees (j + 1) (Nat.succ_lt_succ hj)
        rwa [reached_succ] at hnext

/-! ## Operands of jumps that are not taken -/

/-- Without the disassembly, nothing is recorded before a step. -/
theorem preamble_of_off [Logger] (hoff : Logger.switches.disassembly = false) (m : Machine) :
    m.preamble = [] := by
  rw [preamble, hoff]
  rfl

/-- Where a jump is not taken, its operand makes no difference but to what is recorded before the
step and to what is noted as the current instruction. -/
theorem run_singleStep_untaken [Logger] {inst inst' : Instruction} {op : Opcode}
    (hlive : m.processor.phase ≠ .halted) (hpos : 0 ≤ m.processor.registers.ip.word.toInt)
    (hcell : m.processor.program.cells.get m.processor.registers.ip.word.toInt.toNat = some inst)
    (hop : inst.opcode? = some op)
    (huntaken : op.isUntaken m.processor.registers.acc.word.toInt = true)
    (hoperation : inst'.operation = inst.operation)
    (hcell' : program.cells.get m.processor.registers.ip.word.toInt.toNat = some inst') :
    ∃ t, (singleStep.run m).trace = m.preamble ++ t
      ∧ singleStep.run (m.withProgram program)
        = ⟨(singleStep.run m).outcome,
            (singleStep.run m).state.relabel program fun _ => some inst',
            (m.withProgram program).preamble ++ t⟩ := by
  have hop' : inst'.opcode? = some op := by
    unfold Instruction.opcode?
    rw [hoperation]
    exact hop
  have hfound := Processor.selected_of_nonneg (Int.not_lt.mpr hpos) m.processor.program
  have hfound' := Processor.selected_of_nonneg (Int.not_lt.mpr hpos) program
  rw [hcell] at hfound
  rw [hcell'] at hfound'
  apply run_singleStep_relabel hlive
  exact Processor.run_step_replaced hlive hfound hfound'
    (Instruction.microprogram_of_untaken hop huntaken)
    (Instruction.microprogram_of_untaken hop' huntaken)

/-- Two machines that are built with the same data and over the same source differ in their programs
alone. -/
theorem eq_withProgram_of_boot {data : List Int} {program program' : List (Option Instruction)}
    {source : Option (List UInt8)} {m m' : Machine} (h : boot { data, program } source = .ok m)
    (h' : boot { data, program := program' } source = .ok m') :
    m' = m.withProgram m'.processor.program := by
  obtain ⟨input, cells, memory, hinput, -, hmemory, rfl⟩ := boot_eq_ok_iff.mp h
  obtain ⟨input', cells', memory', hinput', -, hmemory', rfl⟩ := boot_eq_ok_iff.mp h'
  obtain rfl := Except.ok.inj (hinput.symm.trans hinput')
  obtain rfl := Except.ok.inj (hmemory.symm.trans hmemory')
  rfl

/-- Cells that are not reached make no difference. Machines with the same data and the same source
differ in their programs alone. Take any machine, in any state, another program for it, and any step
calls, faulting or repeated: if the two programs have the same cell wherever one of the calls finds
the instruction pointer of the machine, and the machine not halted, then each of the calls does the
same under the other program. It ends in the same way, with the same fault if there is one, records
the same, so that every log is the same, and leaves a state behind that differs in the program
alone. And if the cell holds a conditional jump that is not taken, then it makes no difference to a
step what mode and immediate are there, but for the listing that is recorded before it and for what
is noted as the current instruction. -/
theorem unreached_cells_inert [Logger] :
    (∀ (data : List Int) (cells cells' : List (Option Instruction)) (source : Option (List UInt8))
        (m m' : Machine), boot { data, program := cells } source = .ok m →
          boot { data, program := cells' } source = .ok m' →
          m' = m.withProgram m'.processor.program)
      ∧ (∀ (m : Machine) (program : ProgramMemory 16) (ops : List Operation),
        (∀ op ∈ ops, op.steps = true) →
        (∀ k < ops.length, (reached ops k m).processor.phase ≠ .halted →
          (reached ops k m).processor.AgreesWith program) →
        ∀ k (hk : k < ops.length),
          ops[k].perform.run (reached ops k (m.withProgram program))
            = (ops[k].perform.run (reached ops k m)).mapState (withProgram program))
      ∧ ∀ (m : Machine) (inst : Instruction) (op : Opcode) (mode : Option String)
          (data : Option Int) (program : ProgramMemory 16), m.processor.phase ≠ .halted →
        0 ≤ m.processor.registers.ip.word.toInt →
        m.processor.program.cells.get m.processor.registers.ip.word.toInt.toNat = some inst →
        inst.opcode? = some op →
        op.isUntaken m.processor.registers.acc.word.toInt = true →
        program.cells = m.processor.program.cells.set m.processor.registers.ip.word.toInt.toNat
          (some { inst with mode, data }) →
        ∃ t, (singleStep.run m).trace = m.preamble ++ t
          ∧ singleStep.run (m.withProgram program)
            = ⟨(singleStep.run m).outcome,
                (singleStep.run m).state.relabel program fun _ => some { inst with mode, data },
                (m.withProgram program).preamble ++ t⟩
          ∧ (Logger.switches.disassembly = false →
            (singleStep.run (m.withProgram program)).trace.log
              = (singleStep.run m).trace.log) := by
  refine ⟨fun _ _ _ _ _ _ h h' => eq_withProgram_of_boot h h',
    fun _ _ _ hops hagrees => run_of_agrees hops hagrees, ?_⟩
  intro m inst op mode data program hlive hpos hcell hop huntaken hprogram
  have hcell' : program.cells.get m.processor.registers.ip.word.toInt.toNat
      = some { inst with mode, data } := by
    rw [hprogram]
    exact Bank.get_set_self _ _ _
  have hoperation : ({ inst with mode, data } : Instruction).operation = inst.operation := rfl
  obtain ⟨t, htrace, hrun⟩ :=
    run_singleStep_untaken hlive hpos hcell hop huntaken hoperation hcell'
  refine ⟨t, htrace, hrun, ?_⟩
  intro hoff
  rw [hrun, htrace, preamble_of_off hoff, preamble_of_off hoff]

/-- A jump that is not taken, a jump over a cell, and the end of the program. -/
def bypass (hidden : Option Instruction) : List (Option Instruction) :=
  [some { operation := "JP", mode := some "const", data := some 9 },
    some { operation := "JMP", mode := some "const", data := some 3 },
    hidden, some { operation := "HLT" }]

def bypassing (hidden : Option Instruction) : Machine where
  processor := {
    program := ⟨.ofList 16 none (bypass hidden)⟩
    memory := ⟨.ofList 16 0 [.ofInt 16 7], {}⟩ }

/-- The hidden cell is neither missed nor found, and the operand of the first jump is not missed. -/
theorem unreached_cells_inert_bypassing :
    letI := Logger.silent
    bypassing (some {}) = (bypassing none).withProgram (bypassing (some {})).processor.program
      ∧ Operation.step.perform.run
          (reached [.step, .processorStep, .step, .step] 2 (bypassing (some {})))
        = (Operation.step.perform.run
            (reached [.step, .processorStep, .step, .step] 2 (bypassing none))).mapState
          (withProgram (bypassing (some {})).processor.program)
      ∧ (singleStep.run ((bypassing none).withProgram
          ⟨(bypassing none).processor.program.cells.set 0 (some { operation := "JP" })⟩)).outcome
        = .ok .running := by
  obtain ⟨hboot, hstay, huntaken⟩ := @unreached_cells_inert .silent
  have heq := hboot [7] (bypass none) (bypass (some {})) (some []) (bypassing none)
    (bypassing (some {})) rfl rfl
  have hsteps : ∀ op ∈ [Operation.step, .processorStep, .step, .step], op.steps = true := by decide
  have hagrees : letI := Logger.silent
      ∀ k < [Operation.step, .processorStep, .step, .step].length,
      (reached [.step, .processorStep, .step, .step] k (bypassing none)).processor.phase ≠ .halted →
      (reached [.step, .processorStep, .step, .step] k (bypassing none)).processor.AgreesWith
        (bypassing (some {})).processor.program := by
    intro k hk hlive hpos
    match k, hk with
    | 0, _ => rfl
    | 1, _ => rfl
    | 2, _ => rfl
    | 3, _ => exact absurd rfl hlive
  have hthird := hstay (bypassing none) (bypassing (some {})).processor.program
    [.step, .processorStep, .step, .step] hsteps hagrees 2 (by decide)
  rw [← heq] at hthird
  obtain ⟨t, -, hrun, -⟩ := huntaken (bypassing none)
    { operation := "JP", mode := some "const", data := some 9 } .jumpIfPositive none none
    ⟨(bypassing none).processor.program.cells.set 0 (some { operation := "JP" })⟩
    (by decide) (by decide) rfl (Opcode.ofName?_eq_some_iff.mpr rfl) (by decide) rfl
  refine ⟨heq, hthird, ?_⟩
  rw [hrun]
  rfl

end Machine

end TwoBus
