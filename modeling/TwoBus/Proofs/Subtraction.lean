import TwoBus.Proofs.Steps

/-!
# Subtraction as addition between two inversions

A program can do without the instruction that subtracts. To invert the accumulator, to add an
operand and to invert the result comes to the same as to subtract the operand: the same fault, found
in the same way, or the same data in the registers and in the memory with its devices. Every sum is
truncated with its sign kept apart, so that an inversion before it can as well come after it.

That is so of the operands that do not look at the accumulator, which is inverted when they are
brought in, nor at the instruction pointer, which is in another cell (`Mode.standsAlone`).

* `Core.operand_agrees`: such an operand is found or missed alike.
* `Machine.subtraction_without_subtracting`: the two programs.
-/

namespace TwoBus

/-- Whether an operand of the mode depends neither on the accumulator nor on where its instruction
is. -/
def Mode.standsAlone : Mode → Bool
  | .constant | .absolute | .relative => true
  | .relativeConstant | .accumulator => false

/-- The sign that an operation gives to its operand when it adds it to the accumulator. -/
def Opcode.sign? : Opcode → Option Int
  | .add => some 1
  | .subtract => some (-1)
  | _ => none

/-- An instruction names an operation and an operand. -/
structure Instruction.Applies (inst : Instruction) (op : Opcode) (mode : Mode) (v : Int) :
    Prop where
  operation : inst.opcode? = some op
  mode : inst.mode? = some mode
  data : inst.data = some v

namespace Core

variable {c c' c₁ c₂ : Core} {inst inst' : Instruction} {op op' : Opcode} {mode : Mode} {v : Int}

/-- Two cores store the same data, wherever they are in whatever programs. -/
structure SameData (c c' : Core) : Prop where
  acc : c.acc = c'.acc
  ar : c.ar = c'.ar
  dr : c.dr = c'.dr
  memory : c.memory = c'.memory

/-! ## Operands -/

theorem program_withOperand (c : Core) (inst : Instruction) :
    (c.withOperand inst).program = c.program := by
  unfold withOperand
  split <;> rfl

/-- An operand that stands alone is missed or found with the address register and the memory
alone. -/
theorem operand_agrees (hmode : mode.standsAlone = true) (h : inst.Applies op mode v)
    (h' : inst'.Applies op' mode v) (har : c.ar = c'.ar) (hmemory : c.memory = c'.memory) :
    c.operandFault? inst = c'.operandFault? inst'
      ∧ (c.withOperand inst).dr = (c'.withOperand inst').dr
      ∧ (c.withOperand inst).ar = (c'.withOperand inst').ar
      ∧ (c.withOperand inst).memory = (c'.withOperand inst').memory := by
  have himmediate : inst.immediate = inst'.immediate := by
    rw [Instruction.immediate, Instruction.immediate, h.data, h'.data]
  unfold operandFault? operandAddress? withOperand loadedFrom
  rw [h.mode, h'.mode, himmediate]
  cases mode with
  | constant => exact ⟨rfl, rfl, har, hmemory⟩
  | absolute => simp [hmemory]
  | relative => simp [har, hmemory]
  | relativeConstant | accumulator => cases hmode

/-! ## Sums -/

/-- Why a sum could not be made is why its operand could not be fetched. -/
theorem stepFault?_of_sum {sign : Int} (hsign : op.sign? = some sign) (hpos : 0 ≤ c.ip.toInt)
    (hcell : c.cell = some inst) (h : inst.Applies op mode v) :
    c.stepFault? = c.operandFault? inst := by
  have hconsults : op.consults c.acc.toInt = true := by
    cases op with
    | add | subtract => rfl
    | _ => cases hsign
  have haccess : (c.withOperand inst).accessFault? op = none := by
    cases op with
    | add | subtract => rfl
    | _ => cases hsign
  have hdefect := Instruction.defect?_of_mode h.mode h.data
  unfold stepFault?
  rw [if_neg (Int.not_lt.mpr hpos), hcell]
  simp only [h.operation, hconsults, if_true, hdefect, executionFault?, haccess, Option.or_none]

/-- A sum is made of the accumulator and the operand that has been brought in. -/
theorem stepsOn_of_sum [Logger] {sign : Int} (hsign : op.sign? = some sign)
    (hlive : c.phase ≠ .halted) (hpos : 0 ≤ c.ip.toInt) (hcell : c.cell = some inst)
    (h : inst.Applies op mode v) (hsound : c.operandFault? inst = none) :
    ∃ c', c.StepsOn c' ∧ c'.SameData { c.withOperand inst with
      acc := .ofInt 16 (c.acc.toInt + sign * (c.withOperand inst).dr.toInt) } := by
  have hsteps := steps_carriedOut hlive hcell h.operation
    ((stepFault?_of_sum hsign hpos hcell h).trans hsound)
  obtain ⟨hacc, hip, -⟩ := c.withOperand_frame inst
  have hprogram := c.program_withOperand inst
  unfold carriedOut at hsteps
  rw [withOperand_executing] at hsteps
  rw [← hacc]
  cases op with
  | add =>
    obtain rfl := Option.some.inj hsign
    rw [Int.one_mul]
    exact ⟨_, ⟨hsteps, hprogram, by rw [← hip]; rfl, rfl⟩, rfl, rfl, rfl, rfl⟩
  | subtract =>
    obtain rfl := Option.some.inj hsign
    rw [Int.neg_one_mul, ← Int.sub_eq_add_neg]
    exact ⟨_, ⟨hsteps, hprogram, by rw [← hip]; rfl, rfl⟩, rfl, rfl, rfl, rfl⟩
  | _ => cases hsign

/-- In the cell a number of places ahead is an inversion. -/
def InvertsAt (c : Core) (k : Nat) : Prop :=
  ∃ inst, c.cellAfter k = some inst ∧ inst.opcode? = some .invert

/-- In the cell a number of places ahead is an operation on an operand. -/
def AppliesAt (c : Core) (k : Nat) (op : Opcode) (mode : Mode) (v : Int) : Prop :=
  ∃ inst, c.cellAfter k = some inst ∧ inst.Applies op mode v

/-- An inversion changes the accumulator and no other data. -/
theorem stepsOn_of_inversion [Logger] (hlive : c.phase ≠ .halted) (hpos : 0 ≤ c.ip.toInt)
    (h : c.InvertsAt 0) :
    ∃ c', c.StepsOn c' ∧ c'.SameData { c with acc := -c.acc } := by
  obtain ⟨inst, hcell, hop⟩ := h
  rw [cellAfter_zero] at hcell
  have hsound := stepFault?_of_not_consults hpos hcell hop rfl
  exact ⟨_, ⟨steps_carriedOut hlive hcell hop hsound, rfl, rfl, rfl⟩, rfl, rfl, rfl, rfl⟩

/-! ## The two programs -/

/-- To add between two inversions is to subtract, one truncation at a time. -/
theorem neg_add_neg (v w : Word 16) :
    -Word.ofInt 16 ((-v).toInt + 1 * w.toInt) = .ofInt 16 (v.toInt + -1 * w.toInt) := by
  rw [← Word.ofInt_neg, Word.toInt_neg]
  congr 1
  omega

/-- The sum between the inversions faults where the subtraction does, and else the three
instructions come to the same data as the one. -/
theorem inversions_around_sum [Logger] (hmode : mode.standsAlone = true)
    (hlive₁ : c₁.phase ≠ .halted) (hlive₂ : c₂.phase ≠ .halted) (hpos₁ : 0 ≤ c₁.ip.toInt)
    (hpos₂ : 0 ≤ c₂.ip.toInt) (hsame : c₁.SameData c₂) (hfirst : c₁.InvertsAt 0)
    (hadd : c₁.AppliesAt 1 .add mode v) (hlast : c₁.InvertsAt 2)
    (hsubtract : c₂.AppliesAt 0 .subtract mode v) :
    ∃ c, c₁.StepsOn c
      ∧ ((∃ fault, c.stepFault? = some fault ∧ c₂.stepFault? = some fault)
        ∨ ∃ c' c₁' c₂', c.StepsOn c' ∧ c'.StepsOn c₁' ∧ c₂.StepsOn c₂' ∧ c₁'.SameData c₂') := by
  obtain ⟨c, hto, hinverted⟩ := stepsOn_of_inversion hlive₁ hpos₁ hfirst
  obtain ⟨add, hcell, hadd⟩ := hadd
  rw [← hto.cellAfter hpos₁, cellAfter_zero] at hcell
  obtain ⟨sub, hcell₂, hsubtract⟩ := hsubtract
  rw [cellAfter_zero] at hcell₂
  -- the operand is looked for with the same address register and in the same memory
  obtain ⟨hfault, hdr, har, hmemory⟩ := operand_agrees hmode hadd hsubtract
    (hinverted.ar.trans hsame.ar) (hinverted.memory.trans hsame.memory)
  have hpos := hto.nonneg hpos₁
  refine ⟨c, hto, ?_⟩
  cases hsound : c₂.operandFault? sub with
  | some fault =>
    refine .inl ⟨fault, ?_, ?_⟩
    · rw [stepFault?_of_sum rfl hpos hcell hadd, hfault, hsound]
    · rw [stepFault?_of_sum rfl hpos₂ hcell₂ hsubtract, hsound]
  | none =>
    obtain ⟨c', hto', hsum⟩ :=
      stepsOn_of_sum rfl hto.live hpos hcell hadd (hfault.trans hsound)
    have hlast : c'.InvertsAt 0 := by
      unfold InvertsAt
      rwa [hto'.cellAfter hpos, hto.cellAfter hpos₁]
    obtain ⟨c₁', hto₁, hback⟩ := stepsOn_of_inversion hto'.live (hto'.nonneg hpos) hlast
    obtain ⟨c₂', hto₂, hdifference⟩ :=
      stepsOn_of_sum rfl hlive₂ hpos₂ hcell₂ hsubtract hsound
    refine .inr ⟨c', c₁', c₂', hto', hto₁, hto₂, ?_, ?_, ?_, ?_⟩
    · rw [hback.acc, hdifference.acc]
      show -c'.acc = .ofInt 16 (c₂.acc.toInt + -1 * (c₂.withOperand sub).dr.toInt)
      rw [hsum.acc, hinverted.acc, ← hdr, ← hsame.acc]
      exact neg_add_neg _ _
    · exact hback.ar.trans (hsum.ar.trans (har.trans hdifference.ar.symm))
    · exact hback.dr.trans (hsum.dr.trans (hdr.trans hdifference.dr.symm))
    · exact hback.memory.trans (hsum.memory.trans (hmemory.trans hdifference.memory.symm))

/-- Two inversions leave the data as they were. -/
theorem inversions [Logger] (hlive : c.phase ≠ .halted) (hpos : 0 ≤ c.ip.toInt)
    (hfirst : c.InvertsAt 0) (hlast : c.InvertsAt 1) :
    ∃ c₁ c₂, c.StepsOn c₁ ∧ c₁.StepsOn c₂ ∧ c₂.SameData c := by
  obtain ⟨c₁, hto, hinverted⟩ := stepsOn_of_inversion hlive hpos hfirst
  have hlast : c₁.InvertsAt 0 := by
    unfold InvertsAt
    rwa [hto.cellAfter hpos]
  obtain ⟨c₂, hto', hback⟩ := stepsOn_of_inversion hto.live (hto.nonneg hpos) hlast
  refine ⟨c₁, c₂, hto, hto', ?_, hback.ar.trans hinverted.ar, hback.dr.trans hinverted.dr,
    hback.memory.trans hinverted.memory⟩
  rw [hback.acc]
  show -c₁.acc = c.acc
  rw [hinverted.acc]
  exact Word.ext (Int.neg_neg _)

end Core

namespace Machine

/-- Between two steps a machine has its gates closed, and an address in its instruction pointer. -/
structure IsPoised (m : Machine) : Prop where
  quiet : m.processor.registers.IsQuiet
  idle : m.processor.phase = .idle
  address : 0 ≤ m.processor.registers.ip.word.toInt

theorem IsPoised.live {m : Machine} (h : m.IsPoised) : m.processor.core.phase ≠ .halted := by
  show m.processor.phase ≠ .halted
  rw [h.idle]
  decide

/-- Two machines store the same in their accumulators, address and data registers, and have the same
data memory with the same devices. One is about to invert its accumulator, to add an operand that
stands alone, and to invert the result; the other, to subtract this operand. Then the addition and
the subtraction end in the same fault, or the three steps and the one leave the same data. Two
inversions in a row leave the data as they were, whatever the accumulator stores. -/
theorem subtraction_without_subtracting [Logger] :
    (∀ (m₁ m₂ : Machine) (mode : Mode) (v : Int), mode.standsAlone = true →
        m₁.IsPoised → m₂.IsPoised → m₁.processor.core.SameData m₂.processor.core →
        m₁.processor.core.InvertsAt 0 → m₁.processor.core.AppliesAt 1 .add mode v →
        m₁.processor.core.InvertsAt 2 → m₂.processor.core.AppliesAt 0 .subtract mode v →
        (∃ fault t m, Runs 1 m₁ t m ∧ (singleStep.run m).outcome = .error fault
            ∧ (singleStep.run m₂).outcome = .error fault)
          ∨ ∃ t₁ t₂ m₁' m₂', Runs 3 m₁ t₁ m₁' ∧ Runs 1 m₂ t₂ m₂'
            ∧ m₁'.processor.core.SameData m₂'.processor.core)
      ∧ ∀ m : Machine, m.IsPoised →
        m.processor.core.InvertsAt 0 → m.processor.core.InvertsAt 1 →
        ∃ t m', Runs 2 m t m' ∧ m'.processor.core.SameData m.processor.core := by
  constructor
  · intro m₁ m₂ mode v hmode h₁ h₂ hsame hfirst hadd hlast hsubtract
    have hm₁ := (Core.toProcessor_core h₁.quiet).symm
    have hm₂ := (Core.toProcessor_core h₂.quiet).symm
    obtain ⟨c, hto, hends⟩ := Core.inversions_around_sum hmode h₁.live h₂.live h₁.address
      h₂.address hsame hfirst hadd hlast hsubtract
    obtain ⟨t, m, hruns, hm⟩ := runs_of_stepsOn hm₁ h₁.live hto
    rcases hends with ⟨fault, hfault₁, hfault₂⟩ | ⟨c', c₁', c₂', hto', hto₁, hto₂, hsame'⟩
    · exact .inl ⟨fault, t, m, hruns, outcome_of_stepFault? hm hto.live hfault₁,
        outcome_of_stepFault? hm₂ h₂.live hfault₂⟩
    · obtain ⟨t', m', hruns', hm'⟩ := runs_of_stepsOn hm hto.live hto'
      obtain ⟨t₁, m₁', hruns₁, hm₁'⟩ := runs_of_stepsOn hm' hto'.live hto₁
      obtain ⟨t₂, m₂', hruns₂, hm₂'⟩ := runs_of_stepsOn hm₂ h₂.live hto₂
      refine .inr ⟨_, t₂, m₁', m₂', hruns.trans (hruns'.trans hruns₁), hruns₂, ?_⟩
      rw [hm₁', hm₂']
      exact hsame'
  · intro m h hfirst hlast
    have hm := (Core.toProcessor_core h.quiet).symm
    obtain ⟨c₁, c₂, hto₁, hto₂, hsame⟩ := Core.inversions h.live h.address hfirst hlast
    obtain ⟨t₁, m₁, hruns₁, hm₁⟩ := runs_of_stepsOn hm h.live hto₁
    obtain ⟨t₂, m₂, hruns₂, hm₂⟩ := runs_of_stepsOn hm₁ hto₁.live hto₂
    refine ⟨_, m₂, hruns₁.trans hruns₂, ?_⟩
    rw [hm₂]
    exact hsame

/-- A machine whose program starts in the last cell, with the accumulator at its lower end and a
character to be read. -/
def lowest (last first second : Option Instruction) : Machine where
  processor := {
    datapath.registers := {
      acc := { word := .ofInt 16 (-65535) }
      ip := { word := .ofInt 16 65535 } }
    program := ⟨(Bank.ofList 16 none [first, second]).set 65535 last⟩
    memory := ⟨.uniform 0, { input := ⟨[.ofInt 16 97]⟩ }⟩ }

def inversion : Instruction := { operation := "INV" }

/-- An operation on what is at an address of the data memory. -/
def onCell (op : Opcode) (address : Int) : Instruction :=
  { operation := op.name, mode := some "abs", data := some address }

theorem applies_onCell (op : Opcode) (address : Int) :
    (onCell op address).Applies op .absolute address :=
  ⟨Opcode.ofName?_eq_some_iff.mpr rfl, rfl, rfl⟩

theorem isPoised_lowest (last first second : Option Instruction) :
    (lowest last first second).IsPoised where
  quiet := (lowest last first second).processor.core.isQuiet_file
  idle := rfl
  address := by
    show (0 : Int) ≤ 65535
    decide

/-- The program starts in the last cell and goes on in the first. -/
theorem cellAfter_lowest (last first second : Option Instruction) :
    (lowest last first second).processor.core.cellAfter 0 = last
      ∧ (lowest last first second).processor.core.cellAfter 1 = first
      ∧ (lowest last first second).processor.core.cellAfter 2 = second := by
  have hcells : ∀ k, (lowest last first second).processor.core.cellAfter k
      = ((Bank.ofList 16 none [first, second]).set 65535 last).get ((65535 + k) % 65536) :=
    fun k => rfl
  rw [hcells, hcells, hcells]
  exact ⟨rfl, rfl, rfl⟩

/-- The addition between two inversions. -/
def detour (address : Int) : Machine :=
  lowest (some inversion) (some (onCell .add address)) (some inversion)

/-- The subtraction. -/
def direct (address : Int) : Machine := lowest (some (onCell .subtract address)) none none

/-- The character is subtracted from the least number of 16 bits, and nothing is subtracted if no
device delivers it. -/
theorem subtraction_without_subtracting_reading :
    letI := Logger.silent
    (∃ t₁ t₂ m₁' m₂', Runs 3 (detour 0) t₁ m₁' ∧ Runs 1 (direct 0) t₂ m₂'
        ∧ m₁'.processor.core.SameData m₂'.processor.core)
      ∧ (∃ t m, Runs 1 (detour 2) t m ∧ (singleStep.run m).outcome = .error (.unbackedSlot 2))
      ∧ ∃ t m', Runs 2 (lowest (some inversion) (some inversion) none) t m'
        ∧ m'.processor.core.acc = .ofInt 16 (-65535) := by
  obtain ⟨hsubtraction, hinversions⟩ := @subtraction_without_subtracting .silent
  have hends := fun address => by
    obtain ⟨hfirst, hadd, hlast⟩ :=
      cellAfter_lowest (some inversion) (some (onCell .add address)) (some inversion)
    obtain ⟨hsubtract, -, -⟩ := cellAfter_lowest (some (onCell .subtract address)) none none
    exact hsubtraction (detour address) (direct address) .absolute address rfl
      (isPoised_lowest _ _ _) (isPoised_lowest _ _ _) ⟨rfl, rfl, rfl, rfl⟩ ⟨_, hfirst, rfl⟩
      ⟨_, hadd, applies_onCell .add address⟩ ⟨_, hlast, rfl⟩
      ⟨_, hsubtract, applies_onCell .subtract address⟩
  refine ⟨?_, ?_, ?_⟩
  · rcases hends 0 with ⟨fault, t, m, -, -, hfault⟩ | hruns
    · have hok : letI := Logger.silent
          (singleStep.run (direct 0)).outcome = .ok .running := rfl
      cases hok.symm.trans hfault
    · exact hruns
  · have hunbacked : letI := Logger.silent
        (singleStep.run (direct 2)).outcome = .error (.unbackedSlot 2) := rfl
    rcases hends 2 with ⟨fault, t, m, hruns, hfault, hfault'⟩ | ⟨t₁, t₂, m₁', m₂', -, hruns, -⟩
    · obtain rfl := Except.error.inj (hunbacked.symm.trans hfault')
      exact ⟨t, m, hruns, hfault⟩
    · cases hruns with
      | step hstep _ => cases hunbacked.symm.trans (congrArg Reaction.outcome hstep)
  · obtain ⟨hfirst, hlast, -⟩ := cellAfter_lowest (some inversion) (some inversion) none
    obtain ⟨t, m', hruns, hsame⟩ :=
      hinversions _ (isPoised_lowest _ _ _) ⟨_, hfirst, rfl⟩ ⟨_, hlast, rfl⟩
    exact ⟨t, m', hruns, hsame.acc⟩

end Machine

end TwoBus
