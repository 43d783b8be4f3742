import TwoBus.Control.Microprogram

/-!
# The microprograms there are

An instruction has no microprogram if its operation is unknown, or if it consults an operand that it
does not name well (`Instruction.defect?`). Every other instruction has one. If it consults its
operand, the actions that bring the operand in come first, and they depend on the mode alone
(`Mode.bringing`); then, or else at once, come those of the operation, which do not depend on the
operand (`Opcode.acting`). A jump that is not taken has nothing to do.

* `Instruction.microprogram_of_unknown`, `microprogram_of_defect`, `microprogram_of_consults`,
  `microprogram_of_not_consults`: the microprogram of an instruction, one lemma for each case.
* `Instruction.microprogram_cases`: there are no other microprograms.
-/

namespace TwoBus

/-! ## What an instruction says -/

namespace Instruction

def mode? (inst : Instruction) : Option Mode := inst.mode.bind Mode.ofName?

/-- The immediate, truncated to a word of the machine. -/
def immediate (inst : Instruction) : Word 16 := .ofInt 16 (inst.data.getD 0)

/-- What is wrong with the way an instruction names its operand. -/
def defect? (inst : Instruction) : Option InstructionFault :=
  match inst.mode with
  | none => some .missingMode
  | some name =>
    match Mode.ofName? name with
    | none => some .unknownMode
    | some .accumulator => none
    | some _ => if inst.data = none then some .missingData else none

end Instruction

/-- Whether an operation looks at its operand: a conditional jump only does so if it is taken. -/
def Opcode.consults (op : Opcode) (acc : Int) : Bool :=
  match op with
  | .increment | .invert | .halt => false
  | .add | .subtract | .load | .save | .jump => true
  | .jumpIfZero => acc = 0
  | .jumpIfPositive => 0 < acc
  | .jumpIfNegative => acc < 0

/-! ## What it makes the control unit do -/

/-- The actions that bring in an operand of a mode, given the immediate. -/
def Mode.bringing (v : Word 16) : Mode → Microprogram
  | .constant => [.immediate .dr v]
  | .relativeConstant => [.immediate .dr v, .transfer [.ip, .dr] [.dr] .none]
  | .accumulator => [.transfer [.acc] [.dr] .none]
  | .absolute => [.immediate .ar v, .load]
  | .relative => [.displace .ar v, .load]

/-- The actions of an operation that has its operand in the data register, or has none. -/
def Opcode.acting : Opcode → Microprogram
  | .increment => [.transfer [.acc] [.acc] { increment := true }]
  | .invert => [.transfer [.acc] [.acc] { invertLeft := true }]
  | .add => [.transfer [.dr, .acc] [.acc] .none]
  | .subtract => [.transfer [.dr, .acc] [.acc] { invertRight := true }]
  | .load => [.transfer [.dr] [.ar] .none, .load, .transfer [.dr] [.acc] .none]
  | .save => [.transfer [.dr] [.ar] .none, .transfer [.acc] [.dr] .none, .store]
  | .jump | .jumpIfZero | .jumpIfPositive | .jumpIfNegative =>
    [.hold, .transfer [.dr] [.ip] .none]
  | .halt => [.halt]

namespace Instruction

variable {inst : Instruction} {op : Opcode} {acc : Int} {ops : Microprogram}

/-! ## Operands -/

theorem operand_of_defect {cause : InstructionFault} (h : inst.defect? = some cause) :
    inst.operand = .error cause := by
  unfold defect? at h
  unfold operand
  cases hname : inst.mode with
  | none =>
    rw [hname] at h
    exact congrArg Except.error (Option.some.inj h)
  | some name =>
    cases hmode : Mode.ofName? name with
    | none =>
      simp only [hname, hmode] at h ⊢
      exact congrArg Except.error (Option.some.inj h)
    | some mode =>
      cases hdata : inst.data with
      | none => cases mode <;> simp_all [immediate?, bind, Except.bind]
      | some v => cases mode <;> simp_all

/-- An instruction without defect names a mode, and has the immediate that the mode asks for. -/
theorem operand_of_no_defect (h : inst.defect? = none) :
    ∃ mode, inst.mode? = some mode ∧ inst.operand = .ok (mode.bringing inst.immediate) := by
  unfold defect? at h
  unfold mode? operand
  cases hname : inst.mode with
  | none => simp [hname] at h
  | some name =>
    cases hmode : Mode.ofName? name with
    | none => simp [hname, hmode] at h
    | some mode =>
      simp only [Option.bind_some, hmode]
      refine ⟨mode, rfl, ?_⟩
      cases hdata : inst.data with
      | none =>
        -- only the accumulator does without the immediate
        cases mode with
        | accumulator => rfl
        | _ => simp [hname, hmode, hdata] at h
      | some v =>
        have himm : inst.immediate? = .ok inst.immediate := by
          simp [immediate?, immediate, hdata]
        rw [himm]
        cases mode <;> rfl

/-- Nothing is wrong with an operand whose mode and immediate are there. -/
theorem defect?_of_mode {mode : Mode} {v : Int} (hmode : inst.mode? = some mode)
    (hdata : inst.data = some v) : inst.defect? = none := by
  unfold mode? at hmode
  unfold defect?
  cases hname : inst.mode with
  | none => simp [hname] at hmode
  | some name =>
    rw [hname, Option.bind_some] at hmode
    cases mode <;> simp [hmode, hdata]

/-- A defect is one of the words of the instruction, and not that there is no instruction. -/
theorem defect?_ne_emptyCell (address : Int) : inst.defect? ≠ some (.emptyCell address) := by
  intro h
  unfold defect? at h
  split at h
  · exact absurd h (by simp)
  split at h
  · exact absurd h (by simp)
  · exact absurd h (by simp)
  split at h <;> exact absurd h (by simp)

/-! ## Whole instructions -/

theorem microprogram_of_unknown (h : inst.opcode? = none) (acc : Int) :
    inst.microprogram acc = .error .unknownOperation := by
  simp [microprogram, h]

/-- What becomes of an operand that is consulted becomes of the instruction. -/
theorem microprogram_of_operand (hop : inst.opcode? = some op)
    (hconsults : op.consults acc = true) :
    inst.microprogram acc = (do return (← inst.operand) ++ op.acting) := by
  unfold microprogram
  rw [hop]
  cases op with
  | increment | invert | halt => exact absurd hconsults (by simp [Opcode.consults])
  | add | subtract | load | save | jump => rfl
  | jumpIfZero | jumpIfPositive | jumpIfNegative => exact if_pos (of_decide_eq_true hconsults)

theorem microprogram_of_defect {cause : InstructionFault} (hop : inst.opcode? = some op)
    (hconsults : op.consults acc = true) (hdefect : inst.defect? = some cause) :
    inst.microprogram acc = .error cause := by
  rw [microprogram_of_operand hop hconsults, operand_of_defect hdefect]
  rfl

/-- An instruction that consults its operand brings it in first. -/
theorem microprogram_of_consults (hop : inst.opcode? = some op) (hconsults : op.consults acc = true)
    (hdefect : inst.defect? = none) :
    ∃ mode, inst.mode? = some mode
      ∧ inst.microprogram acc = .ok (mode.bringing inst.immediate ++ op.acting) := by
  obtain ⟨mode, hmode, hoperand⟩ := operand_of_no_defect hdefect
  refine ⟨mode, hmode, ?_⟩
  rw [microprogram_of_operand hop hconsults, hoperand]
  rfl

/-- An instruction that does not consult its operand acts at once, or is a jump that is not
taken. -/
theorem microprogram_of_not_consults (hop : inst.opcode? = some op)
    (hconsults : op.consults acc = false) :
    inst.microprogram acc = .ok (if op.takesOperand then [] else op.acting) := by
  unfold microprogram
  rw [hop]
  cases op with
  | increment | invert | halt => rfl
  | add | subtract | load | save | jump => exact absurd hconsults (by simp [Opcode.consults])
  | jumpIfZero | jumpIfPositive | jumpIfNegative => exact if_neg (of_decide_eq_false hconsults)

/-- An instruction is not refused for the lack of one. -/
theorem microprogram_ne_emptyCell (acc address : Int) :
    inst.microprogram acc ≠ .error (.emptyCell address) := by
  intro h
  cases hop : inst.opcode? with
  | none =>
    rw [microprogram_of_unknown hop] at h
    cases h
  | some op =>
    cases hconsults : op.consults acc with
    | false =>
      rw [microprogram_of_not_consults hop hconsults] at h
      cases h
    | true =>
      cases hdefect : inst.defect? with
      | some cause =>
        rw [microprogram_of_defect hop hconsults hdefect] at h
        exact defect?_ne_emptyCell address (hdefect.trans (congrArg some (Except.error.inj h)))
      | none =>
        obtain ⟨mode, -, hops⟩ := microprogram_of_consults hop hconsults hdefect
        rw [hops] at h
        cases h

/-- Every microprogram is one of these. -/
theorem microprogram_cases (h : inst.microprogram acc = .ok ops) :
    ∃ op, inst.opcode? = some op
      ∧ ((∃ mode, inst.mode? = some mode ∧ ops = mode.bringing inst.immediate ++ op.acting)
        ∨ ops = if op.takesOperand then [] else op.acting) := by
  cases hop : inst.opcode? with
  | none =>
    rw [microprogram_of_unknown hop] at h
    cases h
  | some op =>
    refine ⟨op, rfl, ?_⟩
    cases hconsults : op.consults acc with
    | false =>
      rw [microprogram_of_not_consults hop hconsults] at h
      exact .inr (Except.ok.inj h).symm
    | true =>
      cases hdefect : inst.defect? with
      | some cause =>
        rw [microprogram_of_defect hop hconsults hdefect] at h
        cases h
      | none =>
        obtain ⟨mode, hmode, hops⟩ := microprogram_of_consults hop hconsults hdefect
        rw [hops] at h
        exact .inl ⟨mode, hmode, (Except.ok.inj h).symm⟩

end Instruction

end TwoBus
