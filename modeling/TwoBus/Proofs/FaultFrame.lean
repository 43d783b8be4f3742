import TwoBus.Proofs.InstructionSet
import TwoBus.Proofs.Session

/-!
# What a faulting step leaves alone

A step that faults has prepared an access and not gone through with it. So what it has changed is
confined to the two registers that an access is prepared in, and to what a load from address zero
changes on the way, of which there can be one.

The argument follows the microprograms. In each of them nothing but preparation comes before an
access (`Microprogram.isCautious`), and nothing but an access can fault; so the fault of a cautious
microprogram finds a core that has only been prepared (`Core.prepared_of_fault`).

* `isCautious_microprogram`: the microprograms of the machine are cautious, with at most two
  accesses.
* `Machine.frame_of_fault`: the same as a frame around a whole step of the machine.
-/

namespace TwoBus

namespace DataMemory

variable {aw dw : Nat}

/-- The memory after some loads from address zero. -/
def drained (memory : DataMemory aw dw) : Nat → DataMemory aw dw
  | 0 => memory
  | count + 1 => (memory.loaded 0).drained count

theorem drained_add (memory : DataMemory aw dw) (m n : Nat) :
    memory.drained (m + n) = (memory.drained m).drained n := by
  induction m generalizing memory with
  | zero => rw [Nat.zero_add, drained]
  | succ m ih => rw [Nat.succ_add, drained, drained, ih]

theorem output_drained (memory : DataMemory aw dw) (count : Nat) :
    (memory.drained count).io.output = memory.io.output := by
  induction count generalizing memory with
  | zero => rfl
  | succ count ih => rw [drained, ih, output_loaded]

theorem get_drained_of_pos (memory : DataMemory aw dw) (count : Nat) {cell : Nat} (hpos : 0 < cell)
    (hcell : cell < twoPow aw) :
    (memory.drained count).cells.get cell = memory.cells.get cell := by
  induction count generalizing memory with
  | zero => rfl
  | succ count ih => rw [drained, ih, get_loaded_of_pos _ _ hpos hcell]

/-- A load changes the memory if it is one from address zero. -/
theorem loaded_eq_drained {memory : DataMemory aw dw} {address : Int}
    (h : memory.loadFault? address = none) :
    memory.loaded address
      = memory.drained ((memory.loadEvents address).filterMap (Event.loadFrom? 0)).length := by
  have hpos := nonneg_of_no_loadFault h
  rw [loads_loadEvents]
  by_cases hzero : address = 0
  · subst hzero
    rfl
  · rw [if_neg (by omega)]
    exact if_neg hzero

end DataMemory

namespace Microop

/-- A microoperation that changes no register but the address and the data register. -/
def isPreparatory : Microop → Bool
  | .transfer _ targets _ => targets.all fun r => r = .ar ∨ r = .dr
  | .immediate target _ | .displace target _ => target = .ar ∨ target = .dr
  | .load => true
  | .store | .hold | .halt => false

/-- A microoperation that may fault. -/
def isAccess : Microop → Bool
  | .load | .store => true
  | _ => false

end Microop

/-- Nothing but preparation comes before an access. -/
def Microprogram.isCautious : Microprogram → Bool
  | [] => true
  | op :: ops => if op.isPreparatory then isCautious ops else ops.all (!·.isAccess)

namespace Core

/-- What preparation may do to a core: no more than to change the address register, the data
register and the last result, and to load from address zero. -/
structure Prepared (c c' : Core) (t : Trace) : Prop where
  acc : c'.acc = c.acc
  ip : c'.ip = c.ip
  program : c'.program = c.program
  memory : c'.memory = c.memory.drained (t.loadsFrom 0).length

theorem Prepared.refl {c : Core} {t : Trace} (h : t.loadsFrom 0 = []) : Prepared c c t :=
  ⟨rfl, rfl, rfl, by rw [h]; rfl⟩

theorem Prepared.trans {c c₁ c₂ : Core} {t₁ t₂ : Trace} (h₁ : Prepared c c₁ t₁)
    (h₂ : Prepared c₁ c₂ t₂) : Prepared c c₂ (t₁ ++ t₂) where
  acc := h₂.acc.trans h₁.acc
  ip := h₂.ip.trans h₁.ip
  program := h₂.program.trans h₁.program
  memory := by
    rw [h₂.memory, h₁.memory, Trace.loadsFrom_append, List.length_append, DataMemory.drained_add]

theorem Prepared.assign {targets : List Reg} (htargets : ∀ r ∈ targets, r = .ar ∨ r = .dr)
    (c : Core) (v result : Word 16) {t : Trace} (ht : t.loadsFrom 0 = []) :
    Prepared c { c.assign targets v with result := result } t where
  acc := if_neg fun h => by simpa using htargets .acc h
  ip := if_neg fun h => by simpa using htargets .ip h
  program := rfl
  memory := by rw [ht]; rfl

/-- Preparation is no more than that, also if it faults. -/
theorem prepared_perform [Logger] {op : Microop} (h : op.isPreparatory = true) (c : Core) :
    Prepared c ((perform op).run c).state ((perform op).run c).trace := by
  cases op with
  | transfer sources targets signals =>
    have htargets : ∀ r ∈ targets, r = .ar ∨ r = .dr := by simpa [Microop.isPreparatory] using h
    rw [run_perform_transfer]
    refine Prepared.assign htargets c _ _ ?_
    rw [Trace.loadsFrom_map_of, Datapath.loads_cycleEvents]
  | immediate target v =>
    have htarget : ∀ r ∈ [target], r = .ar ∨ r = .dr := by simpa [Microop.isPreparatory] using h
    exact Prepared.assign htarget c v c.result rfl
  | displace target v =>
    have htarget : ∀ r ∈ [target], r = .ar ∨ r = .dr := by simpa [Microop.isPreparatory] using h
    exact Prepared.assign htarget c (c.word target + v) c.result rfl
  | load =>
    cases hfault : c.memory.loadFault? c.ar.toInt with
    | some fault =>
      rw [run_perform_load_of_fault hfault]
      exact Prepared.refl rfl
    | none =>
      rw [run_perform_load hfault]
      refine ⟨rfl, rfl, rfl, ?_⟩
      rw [Trace.loadsFrom_map_of]
      exact DataMemory.loaded_eq_drained hfault
  | store | hold | halt => exact absurd h (by decide)

/-- Nothing but an access faults, and then it has had no effect. -/
theorem perform_of_fault [Logger] {op : Microop} {c c' : Core} {fault : Fault} {t : Trace}
    (h : (perform op).run c = ⟨.error fault, c', t⟩) :
    op.isAccess = true ∧ c' = c ∧ t.loadsFrom 0 = [] := by
  cases op with
  | transfer sources targets signals =>
    rw [run_perform_transfer] at h
    cases h
  | immediate | displace | hold | halt =>
    exact absurd (congrArg Reaction.outcome h) (by intro hok; cases hok)
  | load =>
    cases hfault : c.memory.loadFault? c.ar.toInt with
    | some cause =>
      rw [run_perform_load_of_fault hfault] at h
      cases h
      exact ⟨rfl, rfl, rfl⟩
    | none =>
      rw [run_perform_load hfault] at h
      cases h
  | store =>
    cases hfault : c.memory.storeFault? c.ar.toInt c.dr.toInt with
    | some cause =>
      rw [run_perform_store_of_fault hfault] at h
      cases h
      refine ⟨rfl, rfl, ?_⟩
      rw [Trace.loadsFrom_map_of, DataMemory.loads_refusedStoreEvents]
    | none =>
      rw [run_perform_store hfault] at h
      cases h

/-- Preparation loads once at most, and only if it is an access. -/
theorem loads_of_preparatory [Logger] {op : Microop} (h : op.isPreparatory = true) (c : Core) :
    (((perform op).run c).trace.loadsFrom 0).length ≤ if op.isAccess then 1 else 0 := by
  cases op with
  | transfer sources targets signals =>
    rw [run_perform_transfer, Trace.loadsFrom_map_of, Datapath.loads_cycleEvents]
    exact Nat.le_refl 0
  | immediate | displace => exact Nat.le_refl 0
  | load =>
    cases hfault : c.memory.loadFault? c.ar.toInt with
    | some cause =>
      rw [run_perform_load_of_fault hfault]
      exact Nat.zero_le 1
    | none =>
      rw [run_perform_load hfault, Trace.loadsFrom_map_of, DataMemory.loads_loadEvents]
      split
      · exact Nat.le_refl 1
      · exact Nat.zero_le 1
  | store | hold | halt => exact absurd h (by decide)

theorem no_fault_of_no_access [Logger] {ops : Microprogram} {c c' : Core} {fault : Fault}
    {t : Trace} (hops : ops.all (!·.isAccess) = true) :
    (ops.forM perform).run c ≠ ⟨.error fault, c', t⟩ := by
  induction ops generalizing c t with
  | nil =>
    intro hrun
    cases hrun
  | cons op ops ih =>
    intro hrun
    rw [List.all_cons, Bool.and_eq_true] at hops
    rcases Activity.run_forM_cons_eq_error hrun with hop | ⟨c₁, t₁, t₂, -, hrest, -⟩
    · obtain ⟨haccess, -, -⟩ := perform_of_fault hop
      simp [haccess] at hops
    · exact ih hops.2 hrest

/-- A cautious microprogram that faults has done no more than to prepare, and has completed fewer
loads than it has accesses. -/
theorem prepared_of_fault [Logger] {ops : Microprogram} {c c' : Core} {fault : Fault} {t : Trace}
    (hops : ops.isCautious = true) (hrun : (ops.forM perform).run c = ⟨.error fault, c', t⟩) :
    Prepared c c' t ∧ (t.loadsFrom 0).length < ops.countP Microop.isAccess := by
  -- by induction on the list: its head faults, or prepares, or is the first to do more
  induction ops generalizing c t with
  | nil => cases hrun
  | cons op ops ih =>
    rcases Activity.run_forM_cons_eq_error hrun with hop | ⟨c₁, t₁, t₂, hop, hrest, rfl⟩
    · obtain ⟨haccess, rfl, hloads⟩ := perform_of_fault hop
      refine ⟨Prepared.refl hloads, ?_⟩
      rw [hloads, List.countP_cons_of_pos haccess]
      exact Nat.succ_pos _
    · unfold Microprogram.isCautious at hops
      by_cases hprep : op.isPreparatory = true
      · rw [if_pos hprep] at hops
        obtain ⟨hrest', hcount⟩ := ih hops hrest
        have hfirst : Prepared c c₁ t₁ := by
          have hstep := prepared_perform hprep c
          rwa [hop] at hstep
        have hloads : (t₁.loadsFrom 0).length ≤ if op.isAccess then 1 else 0 := by
          have hbound := loads_of_preparatory hprep c
          rwa [hop] at hbound
        refine ⟨hfirst.trans hrest', ?_⟩
        rw [Trace.loadsFrom_append, List.length_append, List.countP_cons]
        omega
      · -- what comes after the first effect cannot fault any more
        rw [if_neg hprep] at hops
        exact absurd hrest (no_fault_of_no_access hops)

end Core

/-! ## The microprograms of the machine -/

namespace Microprogram

theorem isCautious_append {ops rest : Microprogram} (hops : ∀ op ∈ ops, op.isPreparatory = true)
    (hrest : rest.isCautious = true) : isCautious (ops ++ rest) = true := by
  induction ops with
  | nil => exact hrest
  | cons op ops ih =>
    have hop := hops op List.mem_cons_self
    rw [List.cons_append, isCautious, if_pos hop]
    exact ih fun op' hop' => hops op' (List.mem_cons_of_mem op hop')

end Microprogram

namespace Instruction

/-- An operand is brought in by preparation alone, with one load at most. -/
theorem isPreparatory_bringing (mode : Mode) (v : Word 16) :
    (∀ op ∈ mode.bringing v, op.isPreparatory = true)
      ∧ (mode.bringing v).countP Microop.isAccess ≤ 1 := by
  cases mode <;> simp [Mode.bringing, Microop.isPreparatory, Microop.isAccess]

/-- No operation does more than one access, and none after its first effect. -/
theorem isCautious_acting (op : Opcode) :
    op.acting.isCautious = true ∧ op.acting.countP Microop.isAccess ≤ 1 := by
  cases op <;> decide

/-- The microprograms of the machine are cautious, with at most two accesses. -/
theorem isCautious_microprogram {inst : Instruction} {acc : Int} {ops : Microprogram}
    (h : inst.microprogram acc = .ok ops) :
    ops.isCautious = true ∧ ops.countP Microop.isAccess ≤ 2 := by
  obtain ⟨op, -, hops⟩ := microprogram_cases h
  obtain ⟨hcautious, hone⟩ := isCautious_acting op
  rcases hops with ⟨mode, -, rfl⟩ | rfl
  · obtain ⟨hprep, hload⟩ := isPreparatory_bringing mode inst.immediate
    refine ⟨Microprogram.isCautious_append hprep hcautious, ?_⟩
    rw [List.countP_append]
    omega
  · split
    · decide
    · exact ⟨hcautious, by omega⟩

end Instruction

/-! ## Whole steps -/

/-- A faulting step has prepared at most one access, past one load. -/
theorem Core.prepared_of_step_fault [Logger] {c : Core} {p : Processor} {fault : Fault} {t : Trace}
    (hlive : c.phase ≠ .halted)
    (hstep : Processor.step.run c.toProcessor = ⟨.error fault, p, t⟩) :
    ∃ c', p = c'.toProcessor ∧ c'.phase = .idle ∧ Prepared c c' t
      ∧ (t.loadsFrom 0).length ≤ 1 := by
  have hends := stepEnds hlive
  rw [hstep] at hends
  cases hends with
  | negative | empty | refused =>
    -- the fault comes before the first microoperation
    exact ⟨_, rfl, rfl, ⟨rfl, rfl, rfl, rfl⟩, Nat.zero_le 1⟩
  | faulted hpos hcell hops hrun =>
    obtain ⟨hcautious, hcount⟩ := Instruction.isCautious_microprogram hops
    obtain ⟨hprep, hloads⟩ := prepared_of_fault hcautious hrun
    exact ⟨_, rfl, rfl, ⟨hprep.acc, hprep.ip, hprep.program, hprep.memory⟩, by omega⟩

/-- A step resets whether the instruction pointer is held. -/
theorem Processor.run_step_of_hold [Logger] {p : Processor} (hlive : p.phase ≠ .halted)
    (hold : Bool) :
    step.run { p with hold := hold } = step.run p := by
  have hrun : p.isHalted = false := decide_eq_false hlive
  have hrun' : ({ p with hold := hold } : Processor).isHalted = false := hrun
  unfold step
  rw [Activity.run_bind, Activity.run_get, Reaction.andThen_ok, Activity.run_bind, Activity.run_get,
    Reaction.andThen_ok, hrun, hrun']
  rfl

/-- Past one load at most, preparation has left the memory alone, or has read one character into the
first cell. -/
theorem Core.Prepared.window {c c' : Core} {t : Trace} (h : Prepared c c' t)
    (hloads : (t.loadsFrom 0).length ≤ 1) :
    (t.loadsFrom 0 = [] ∧ c'.memory = c.memory)
      ∨ ∃ v, t.loadsFrom 0 = [v] ∧ c'.memory.io.input = c.memory.io.input.advance
          ∧ c'.memory.cells.get 0 = c.memory.io.input.next := by
  have hmemory := h.memory
  rcases hvalues : t.loadsFrom 0 with _ | ⟨v, _ | ⟨w, rest⟩⟩
  · rw [hvalues] at hmemory
    exact Or.inl ⟨rfl, hmemory⟩
  · rw [hvalues] at hmemory
    have hloaded : c'.memory = c.memory.loaded 0 := hmemory
    refine Or.inr ⟨v, rfl, congrArg (·.io.input) hloaded, ?_⟩
    rw [hloaded]
    exact (Bank.get_set_self _ _ _).trans (Word.ofInt_toInt _)
  · rw [hvalues] at hloads
    exact absurd hloads (by simp)

namespace Machine

/-- What a faulting step leaves as it was, and what it leaves behind of a load from address zero, if
it recorded one. -/
structure FaultFrame [Logger] (m m' : Machine) (t : Trace) : Prop where
  acc : m'.processor.registers.acc.word = m.processor.registers.acc.word
  ip : m'.processor.registers.ip.word = m.processor.registers.ip.word
  program : m'.processor.program = m.processor.program
  completed : m'.completed = m.completed
  /-- The sink, with all that it has received. -/
  output : m'.processor.memory.io.output = m.processor.memory.io.output
  /-- Every data cell but the first. -/
  cells : ∀ address, 0 < address → address < twoPow 16 →
    m'.processor.memory.cells.get address = m.processor.memory.cells.get address
  /-- The first cell and the input, which only a load from address zero changes. -/
  window : (t.loadsFrom 0 = [] ∧ m'.processor.memory = m.processor.memory)
    ∨ ∃ v, t.loadsFrom 0 = [v]
      ∧ m'.processor.memory.io.input = m.processor.memory.io.input.advance
      ∧ m'.processor.memory.cells.get 0 = m.processor.memory.io.input.next
  quiet : m'.processor.registers.IsQuiet
  idle : m'.processor.phase = .idle
  running : m'.status = .running
  /-- Whether the instruction pointer was left held makes no difference to the next step. -/
  resumes : ∀ hold, Processor.step.run { m'.processor with hold := hold }
    = Processor.step.run m'.processor

/-- A step that faults keeps to its frame. -/
theorem frame_of_fault [Logger] {m : Machine} {fault : Fault}
    (hquiet : m.processor.registers.IsQuiet) (hlive : m.processor.phase ≠ .halted)
    (hfault : (singleStep.run m).outcome = .error fault) :
    FaultFrame m (singleStep.run m).state (singleStep.run m).trace := by
  have hcore := Core.toProcessor_core hquiet
  cases hstep : Processor.step.run m.processor with
  | mk outcome p t =>
    cases outcome with
    | ok _ =>
      -- a completed step is counted and reported without a fault
      rw [run_singleStep_of_ok hlive hstep] at hfault
      exact absurd hfault (by simp)
    | error cause =>
      have hstep' : Processor.step.run m.processor.core.toProcessor = ⟨.error cause, p, t⟩ := by
        rw [hcore, hstep]
      obtain ⟨c', rfl, hidle, hprep, hloads⟩ := Core.prepared_of_step_fault hlive hstep'
      have htrace : (m.preamble ++ t).loadsFrom 0 = t.loadsFrom 0 := by
        rw [Trace.loadsFrom_append, Trace.loadsFrom_of_no_traffic m.isTraffic_preamble,
          List.nil_append]
      have hlive' : c'.toProcessor.phase ≠ .halted := by
        show c'.phase ≠ .halted
        rw [hidle]
        decide
      rw [run_singleStep_of_fault hlive hstep]
      refine ⟨hprep.acc, hprep.ip, hprep.program, rfl, ?_, ?_, ?_, c'.isQuiet_file, hidle, ?_, ?_⟩
      · exact (congrArg (·.io.output) hprep.memory).trans (DataMemory.output_drained _ _)
      · intro address hpos haddress
        exact (congrArg (·.cells.get address) hprep.memory).trans
          (DataMemory.get_drained_of_pos _ _ hpos haddress)
      · rw [htrace]
        exact hprep.window hloads
      · exact if_neg (by simpa [Processor.isHalted] using hlive')
      · intro hold
        exact Processor.run_step_of_hold hlive' hold

/-- A machine that reads a character as the address to load from, which happens to be one that no
device backs. -/
def stumbling : Machine where
  processor :=
    { datapath := { registers := { acc := { word := .ofInt 16 7 } } }
      program := ⟨.uniform (some { operation := "LD", mode := some "abs", data := some 0 })⟩
      memory := ⟨.uniform 0, { input := ⟨[.ofInt 16 2]⟩ }⟩ }

theorem frame_of_fault_stumbling :
    letI := Logger.silent
    stumbling.processor.registers.IsQuiet ∧ stumbling.processor.phase ≠ .halted
      ∧ (singleStep.run stumbling).outcome = .error (.unbackedSlot 2)
      ∧ (singleStep.run stumbling).state.processor.registers.acc.word = .ofInt 16 7
      ∧ (singleStep.run stumbling).state.processor.memory.cells.get 1 = 0 := by
  have hquiet : stumbling.processor.registers.IsQuiet := stumbling.processor.core.isQuiet_file
  have hlive : stumbling.processor.phase ≠ .halted := by decide
  obtain ⟨hacc, -, -, -, -, hcells, -⟩ :=
    @frame_of_fault .silent stumbling (.unbackedSlot 2) hquiet hlive rfl
  exact ⟨hquiet, hlive, rfl, hacc, hcells 1 (by decide) (by decide)⟩

end Machine

end TwoBus
