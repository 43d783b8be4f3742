import TwoBus.Proofs.Core
import TwoBus.Proofs.Microprograms

/-!
# The meaning of the instructions

The instruction set as its programmer knows it: a table on cores, without gates, buses or an order
of transfers (`Core.carriedOut`), and the ways in which an instruction can go wrong, in the order in
which they are noticed (`Instruction.defect?`, `Core.operandFault?`, `Core.accessFault?`).

`ends_microprogram` connects the table with the microprograms: a microprogram ends in the fault that
is noticed first, or in the core that the table gives. It brings the operand in (`ends_bringing`),
if it does, and then the operation finds it in the data register (`ends_acting`).
-/

namespace TwoBus

namespace Core

/-! ## The table -/

/-- The address register takes `a`, and the data register what a load from there delivers. -/
def loadedFrom (c : Core) (a : Word 16) : Core :=
  { c with ar := a, dr := c.memory.delivered a.toInt, memory := c.memory.loaded a.toInt }

/-- The operand of an instruction, put into the data register. -/
def withOperand (c : Core) (inst : Instruction) : Core :=
  match inst.mode? with
  | none => c
  | some .constant => { c with dr := inst.immediate }
  | some .relativeConstant => { c with dr := .ofInt 16 (c.ip.toInt + inst.immediate.toInt) }
  | some .accumulator => { c with dr := c.acc }
  | some .absolute => c.loadedFrom inst.immediate
  | some .relative => c.loadedFrom (.ofInt 16 (c.ar.toInt + inst.immediate.toInt))

/-- The end of a step that moves on to the next cell. -/
def next (c : Core) : Core :=
  { c with
    ip := .ofInt 16 (c.ip.toInt + 1)
    result := .ofInt 16 (c.ip.toInt + 1)
    phase := .idle
    hold := false }

/-- The end of a step that jumps to the operand. -/
def jumped (c : Core) : Core :=
  { c with ip := c.dr, result := c.dr, phase := .idle, hold := true }

/-- What an operation does. -/
def carriedOut (c : Core) (inst : Instruction) (op : Opcode) : Core :=
  let m := c.withOperand inst
  match op with
  | .increment => { c with acc := .ofInt 16 (c.acc.toInt + 1) }.next
  | .invert => { c with acc := -c.acc }.next
  | .add => { m with acc := .ofInt 16 (m.acc.toInt + m.dr.toInt) }.next
  | .subtract => { m with acc := .ofInt 16 (m.acc.toInt - m.dr.toInt) }.next
  | .load => { m.loadedFrom m.dr with acc := m.memory.delivered m.dr.toInt }.next
  | .save =>
    { m with ar := m.dr, dr := m.acc, memory := m.memory.stored m.dr.toInt m.acc }.next
  | .jump => m.jumped
  | .jumpIfZero => if c.acc.toInt = 0 then m.jumped else c.next
  | .jumpIfPositive => if 0 < c.acc.toInt then m.jumped else c.next
  | .jumpIfNegative => if c.acc.toInt < 0 then m.jumped else c.next
  | .halt => { c.next with phase := .halted }

/-! ## Faults -/

/-- The address at which an instruction looks for its operand, if it looks in memory. -/
def operandAddress? (c : Core) (inst : Instruction) : Option (Word 16) :=
  match inst.mode? with
  | some .absolute => some inst.immediate
  | some .relative => some (.ofInt 16 (c.ar.toInt + inst.immediate.toInt))
  | _ => none

/-- Why the operand of an instruction could not be fetched. -/
def operandFault? (c : Core) (inst : Instruction) : Option Fault :=
  (c.operandAddress? inst).bind DataMemory.loadRefusal?

/-- Why the operation could not access memory, with its operand in the data register. -/
def accessFault? (c : Core) (op : Opcode) : Option Fault :=
  match op with
  | .load => DataMemory.loadRefusal? c.dr
  | .save => DataMemory.storeRefusal? c.memory.io.output.sinkGood c.dr c.acc
  | _ => none

/-- Why an instruction that names its operand well could not be executed. -/
def executionFault? (c : Core) (inst : Instruction) (op : Opcode) : Option Fault :=
  (c.operandFault? inst).or ((c.withOperand inst).accessFault? op)

/-! ## Runs of microprograms -/

/-- A reaction that ends with a given fault, or without one in a core of a given kind. -/
def Ends (r : Reaction Core Unit) (fault? : Option Fault) (good : Core → Prop) : Prop :=
  match fault? with
  | none => ∃ c t, r = ⟨.ok (), c, t⟩ ∧ good c
  | some fault => ∃ c t, r = ⟨.error fault, c, t⟩

theorem Ends.after {r : Reaction Core Unit} {fault? : Option Fault} {good : Core → Prop}
    (h : Ends r fault? good) (t : Trace) : Ends (r.after t) fault? good := by
  cases fault? with
  | none =>
    obtain ⟨c, t₁, rfl, hgood⟩ := h
    exact ⟨c, t ++ t₁, rfl, hgood⟩
  | some fault =>
    obtain ⟨c, t₁, rfl⟩ := h
    exact ⟨c, t ++ t₁, rfl⟩

/-- The fault of what comes first wins, and what follows starts where that ended. -/
theorem Ends.andThen [Logger] {r : Reaction Core Unit} {fault? fault'? : Option Fault}
    {good good' : Core → Prop} {next : Unit → Activity Core Unit} (h : Ends r fault? good)
    (hnext : ∀ c, good c → Ends ((next ()).run c) fault'? good') :
    Ends (r.andThen next) (fault?.or fault'?) good' := by
  cases fault? with
  | none =>
    obtain ⟨c, t, rfl, hgood⟩ := h
    exact (hnext c hgood).after t
  | some fault =>
    obtain ⟨c, t, rfl⟩ := h
    exact ⟨c, t, rfl⟩

theorem ends_nil [Logger] {c : Core} {good : Core → Prop} (h : good c) :
    Ends ((([] : Microprogram).forM perform).run c) none good :=
  ⟨c, [], rfl, h⟩

theorem ends_cons [Logger] {op : Microop} {ops : Microprogram} {c c₁ : Core} {t : Trace}
    {fault? : Option Fault} {good : Core → Prop} (hop : (perform op).run c = ⟨.ok (), c₁, t⟩)
    (hops : Ends ((ops.forM perform).run c₁) fault? good) :
    Ends (((op :: ops).forM perform).run c) fault? good := by
  rw [Activity.run_forM_cons, hop, Reaction.andThen_ok]
  exact hops.after t

/-- A load, and what follows if it does not fault. -/
theorem ends_load [Logger] {ops : Microprogram} {c : Core} {fault? : Option Fault}
    {good : Core → Prop}
    (hops : Ends ((ops.forM perform).run { c with
        dr := c.memory.delivered c.ar.toInt
        memory := c.memory.loaded c.ar.toInt }) fault? good) :
    Ends (((.load :: ops : Microprogram).forM perform).run c)
      ((DataMemory.loadRefusal? c.ar).or fault?) good := by
  rw [← DataMemory.loadFault?_word c.memory]
  cases hfault : c.memory.loadFault? c.ar.toInt with
  | none => exact ends_cons (run_perform_load hfault) hops
  | some fault =>
    rw [Activity.run_forM_cons, run_perform_load_of_fault hfault]
    exact ⟨c, _, rfl⟩

theorem ends_lone_load [Logger] {c : Core} {good : Core → Prop}
    (h : good { c with
        dr := c.memory.delivered c.ar.toInt
        memory := c.memory.loaded c.ar.toInt }) :
    Ends ((([.load] : Microprogram).forM perform).run c) (DataMemory.loadRefusal? c.ar) good := by
  rw [← Option.or_none (o := DataMemory.loadRefusal? c.ar)]
  exact ends_load (ends_nil h)

theorem ends_store [Logger] {c : Core} {good : Core → Prop}
    (h : good { c with memory := c.memory.stored c.ar.toInt c.dr }) :
    Ends ((([.store] : Microprogram).forM perform).run c)
      (DataMemory.storeRefusal? c.memory.io.output.sinkGood c.ar c.dr) good := by
  rw [← DataMemory.storeFault?_word]
  cases hfault : c.memory.storeFault? c.ar.toInt c.dr.toInt with
  | none => exact ends_cons (run_perform_store hfault) (ends_nil h)
  | some fault =>
    rw [Activity.run_forM_cons, run_perform_store_of_fault hfault]
    exact ⟨c, _, rfl⟩

/-! ### Operands -/

/-- The operand is brought into the data register, unless its load faults. What is left of it,
besides the core that has it, is the result of the last transfer. -/
theorem ends_bringing [Logger] {inst : Instruction} {mode : Mode} (hmode : inst.mode? = some mode)
    (c : Core) :
    Ends (((mode.bringing inst.immediate).forM perform).run c) (c.operandFault? inst)
      (fun c' => ∃ v, c' = { c.withOperand inst with result := v }) := by
  unfold operandFault? operandAddress? withOperand
  simp only [hmode]
  cases mode with
  | constant => exact ends_cons rfl (ends_nil ⟨c.result, rfl⟩)
  | relativeConstant =>
    refine ends_cons rfl (ends_cons (run_perform_transfer _ _ _ _) (ends_nil ?_))
    simp [transferred, sum_ip_dr, assign]
  | accumulator =>
    refine ends_cons (run_perform_transfer _ _ _ _) (ends_nil ?_)
    simp [transferred, sum_single, assign, word]
  | absolute =>
    have hput : (perform (.immediate .ar inst.immediate)).run c
        = ⟨.ok (), { c with ar := inst.immediate }, []⟩ := rfl
    exact ends_cons hput (ends_lone_load ⟨c.result, rfl⟩)
  | relative =>
    have hput : (perform (.displace .ar inst.immediate)).run c
        = ⟨.ok (), { c with ar := c.ar + inst.immediate }, []⟩ := rfl
    exact ends_cons hput (ends_lone_load ⟨c.result, rfl⟩)

/-- Bringing the operand in changes neither the accumulator nor the instruction pointer, and does
not end the step. -/
theorem withOperand_frame (c : Core) (inst : Instruction) :
    (c.withOperand inst).acc = c.acc ∧ (c.withOperand inst).ip = c.ip
      ∧ (c.withOperand inst).hold = c.hold ∧ (c.withOperand inst).phase = c.phase := by
  unfold withOperand
  split <;> exact ⟨rfl, rfl, rfl, rfl⟩

/-! ### Whole instructions -/

/-- The end of a step that is not a taken jump. -/
theorem settled_of_live {c : Core} (hhold : c.hold = false) (hphase : c.phase = .execute) :
    c.settled = c.next := by
  simp [settled, advanced, restPhase, next, transferred, sum_increment, assign, word, hhold, hphase]

/-- A transfer at the end of a microprogram, after which the step moves on. -/
theorem ends_transfer_next [Logger] {c : Core} (hhold : c.hold = false)
    (hphase : c.phase = .execute) (sources targets : List Reg) (signals : Signals) :
    Ends ((([.transfer sources targets signals] : Microprogram).forM perform).run c) none
      (fun c' => c'.settled = (c.transferred sources targets signals).next) :=
  ends_cons (run_perform_transfer _ _ _ _) (ends_nil (settled_of_live hhold hphase))

theorem ends_jump [Logger] {c : Core} (hphase : c.phase = .execute) :
    Ends ((([.hold, .transfer [.dr] [.ip] .none] : Microprogram).forM perform).run c) none
      (fun c' => c'.settled = c.jumped) := by
  have hhold : (perform .hold).run c = ⟨.ok (), { c with hold := true }, []⟩ := rfl
  refine ends_cons hhold (ends_cons (run_perform_transfer _ _ _ _) (ends_nil ?_))
  simp [settled, advanced, restPhase, jumped, transferred, sum_single, assign, word, hphase]

theorem ends_untaken [Logger] {c : Core} (hhold : c.hold = false) (hphase : c.phase = .execute) :
    Ends ((([] : Microprogram).forM perform).run c) none (fun c' => c'.settled = c.next) :=
  ends_nil (settled_of_live hhold hphase)

/-- A load brings a second cell in, at the address that the operand gives. -/
theorem ends_loading [Logger] {c : Core} (hhold : c.hold = false) (hphase : c.phase = .execute) :
    Ends ((Opcode.load.acting.forM perform).run c) (DataMemory.loadRefusal? c.dr)
      (fun c' => c'.settled = { c.loadedFrom c.dr with
        acc := c.memory.delivered c.dr.toInt }.next) := by
  -- the operand becomes the address of a load, and what that delivers goes on to the accumulator
  refine ends_cons (run_perform_transfer _ _ _ _) ?_
  rw [transferred, sum_single]
  rw [← Option.or_none (o := DataMemory.loadRefusal? _)]
  refine ends_load ?_
  have hrun := ends_transfer_next (c := { c.loadedFrom c.dr with result := c.dr })
    hhold hphase [.dr] [.acc] .none
  rw [transferred, sum_single] at hrun
  exact hrun

/-- A save hands the accumulator to memory, at the address that the operand gives. -/
theorem ends_saving [Logger] {c : Core} (hhold : c.hold = false) (hphase : c.phase = .execute) :
    Ends ((Opcode.save.acting.forM perform).run c)
      (DataMemory.storeRefusal? c.memory.io.output.sinkGood c.dr c.acc)
      (fun c' => c'.settled = { c with
        ar := c.dr, dr := c.acc, memory := c.memory.stored c.dr.toInt c.acc }.next) := by
  -- the operand must leave the data register before the accumulator enters it
  refine ends_cons (run_perform_transfer _ _ _ _) ?_
  rw [transferred, sum_single]
  refine ends_cons (run_perform_transfer _ _ _ _) ?_
  rw [transferred, sum_single]
  exact ends_store (settled_of_live hhold hphase)

/-- An operation that has consulted its operand finds it in the data register, and ends as the table
says, unless its own access faults. -/
theorem ends_acting [Logger] {inst : Instruction} {op : Opcode} {c : Core} (hhold : c.hold = false)
    (hphase : c.phase = .execute) (hconsults : op.consults c.acc.toInt = true) (v : Word 16) :
    Ends ((op.acting.forM perform).run { c.withOperand inst with result := v })
      ((c.withOperand inst).accessFault? op)
      (fun c' => c'.settled = c.carriedOut inst op) := by
  obtain ⟨-, -, hhold', hphase'⟩ := c.withOperand_frame inst
  have hhold'' : ({ c.withOperand inst with result := v } : Core).hold = false :=
    hhold'.trans hhold
  have hphase'' : ({ c.withOperand inst with result := v } : Core).phase = .execute :=
    hphase'.trans hphase
  cases op with
  | increment | invert | halt => exact absurd hconsults (by simp [Opcode.consults])
  | add =>
    have hrun := ends_transfer_next hhold'' hphase'' [.dr, .acc] [.acc] .none
    rw [transferred, sum_dr_acc] at hrun
    exact hrun
  | subtract =>
    have hrun := ends_transfer_next hhold'' hphase'' [.dr, .acc] [.acc] { invertRight := true }
    rw [transferred, sum_dr_acc_invert] at hrun
    exact hrun
  | load => exact ends_loading hhold'' hphase''
  | save => exact ends_saving hhold'' hphase''
  | jump => exact ends_jump hphase''
  | jumpIfZero | jumpIfPositive | jumpIfNegative =>
    -- the condition, on which the jump consults its operand, is that of the table
    have htaken := of_decide_eq_true hconsults
    simp only [carriedOut, if_pos htaken]
    exact ends_jump hphase''

/-- An operation that does not consult an operand cannot fault. -/
theorem ends_at_once [Logger] {inst : Instruction} {op : Opcode} {c : Core} (hhold : c.hold = false)
    (hphase : c.phase = .execute) (hconsults : op.consults c.acc.toInt = false) :
    Ends (((if op.takesOperand then [] else op.acting : Microprogram).forM perform).run c) none
      (fun c' => c'.settled = c.carriedOut inst op) := by
  cases op with
  | increment =>
    have hrun := ends_transfer_next hhold hphase [.acc] [.acc] { increment := true }
    rw [transferred, sum_increment] at hrun
    exact hrun
  | invert =>
    have hrun := ends_transfer_next hhold hphase [.acc] [.acc] { invertLeft := true }
    rw [transferred, sum_invert] at hrun
    exact hrun
  | add | subtract | load | save | jump => exact absurd hconsults (by simp [Opcode.consults])
  | jumpIfZero | jumpIfPositive | jumpIfNegative =>
    have huntaken := of_decide_eq_false hconsults
    simp only [carriedOut, if_neg huntaken]
    exact ends_untaken hhold hphase
  | halt =>
    have hhalt : (perform .halt).run c = ⟨.ok (), { c with phase := .halted }, []⟩ := rfl
    refine ends_cons hhalt (ends_nil ?_)
    simp [settled, advanced, restPhase, next, transferred, sum_increment, assign, word, hhold,
      carriedOut]

/-- An instruction without defect has a microprogram, which meets the first fault that the table
knows of, or else takes the step to where the table says. -/
theorem ends_microprogram [Logger] {inst : Instruction} {op : Opcode} {c : Core}
    (hop : inst.opcode? = some op) (hhold : c.hold = false) (hphase : c.phase = .execute)
    (hdefect : op.consults c.acc.toInt = true → inst.defect? = none) :
    ∃ ops, inst.microprogram c.acc.toInt = .ok ops
      ∧ Ends ((ops.forM perform).run c)
          (if op.consults c.acc.toInt then c.executionFault? inst op else none)
          (fun c' => c'.settled = c.carriedOut inst op) := by
  cases hconsults : op.consults c.acc.toInt with
  | false =>
    exact ⟨_, Instruction.microprogram_of_not_consults hop hconsults,
      ends_at_once hhold hphase hconsults⟩
  | true =>
    obtain ⟨mode, hmode, hops⟩ :=
      Instruction.microprogram_of_consults hop hconsults (hdefect hconsults)
    refine ⟨_, hops, ?_⟩
    rw [Activity.run_forM_append]
    refine (ends_bringing hmode c).andThen ?_
    rintro c' ⟨v, rfl⟩
    exact ends_acting hhold hphase hconsults v

/-- Bringing the operand in does not depend on what the control unit is about to do. -/
theorem withOperand_executing (c : Core) (inst inst' : Instruction) :
    (c.executing inst').withOperand inst = (c.withOperand inst).executing inst' := by
  unfold withOperand
  cases inst.mode? with
  | none => rfl
  | some mode => cases mode <;> rfl

theorem executionFault?_executing (c : Core) (inst inst' : Instruction) (op : Opcode) :
    (c.executing inst').executionFault? inst op = c.executionFault? inst op := by
  unfold executionFault?
  rw [withOperand_executing]
  rfl

end Core

end TwoBus
