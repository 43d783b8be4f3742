import TwoBus.Processor
import TwoBus.Proofs.BusCycle
import TwoBus.Proofs.DataAccess
import TwoBus.Proofs.Fetch

/-!
# The processor between its gates

Between two actions of the control unit all gates are closed, and then the processor is known by
what its registers store. A `Core` is that knowledge: a processor without gates. Each microoperation
has a plain meaning on cores (`Core.perform`), and the processor, which opens gates, runs a bus
cycle and closes the gates again, does exactly that (`perform_toProcessor`): the gates it opened are
closed again, and no register is reached that the microoperation does not name.

* `run_forM_toProcessor`: a microprogram, faulting or not, is carried out alike on both.
* `run_step_of_…`: what a step of the processor does, one lemma for each way it can end.
-/

namespace TwoBus

/-- A register behind closed gates is its word. -/
theorem Register.eq_of_closed {w : Nat} {x : Register w} (h : ∀ gate, x.isOpen gate = false) :
    x = { word := x.word } := by
  obtain ⟨word, readOpen, writeOpen⟩ := x
  have hread : readOpen = false := h .read
  have hwrite : writeOpen = false := h .write
  rw [hread, hwrite]

/-- A bus cycle is no business of the data memory. -/
theorem Datapath.isTraffic_cycleEvents {w : Nat} (d : Datapath w) (signals : Signals) :
    ∀ event ∈ d.cycleEvents signals, event.isTraffic = false := by
  intro event hevent
  simp only [cycleEvents, RegisterFile.driveEvents, RegisterFile.latchEvents, List.mem_append,
    List.mem_flatMap, List.mem_map, List.mem_cons, List.not_mem_nil, or_false] at hevent
  rcases hevent with ((rfl | ⟨r, -, rfl | rfl⟩) | rfl | rfl) | ⟨r, -, rfl⟩ <;> rfl

theorem Datapath.loads_cycleEvents {w : Nat} (d : Datapath w) (signals : Signals) (cell : Nat) :
    (d.cycleEvents signals).filterMap (Event.loadFrom? cell) = [] := by
  rw [List.filterMap_eq_nil_iff]
  exact fun event hevent =>
    Event.loadFrom?_of_no_traffic (d.isTraffic_cycleEvents signals event hevent) cell

/-- After the program has ended, a step is refused. -/
theorem Processor.run_step_of_halted [Logger] {p : Processor} (hhalted : p.phase = .halted) :
    step.run p = ⟨.error .halted, p, []⟩ := by
  have hrefused : p.isHalted = true := decide_eq_true hhalted
  unfold step
  rw [Activity.run_bind, Activity.run_get, Reaction.andThen_ok, Reaction.after_nil, hrefused]
  rfl

namespace Reaction

variable {σ τ α β : Type}

/-- What follows may be looked at before or after the state is mapped. -/
theorem andThen_mapState [Logger] (f : σ → τ) (r : Reaction σ α) {next : α → Activity τ β}
    {next' : α → Activity σ β} (h : ∀ a s, (next a).run (f s) = ((next' a).run s).mapState f) :
    (r.mapState f).andThen next = (r.andThen next').mapState f := by
  obtain ⟨outcome, state, trace⟩ := r
  cases outcome with
  | error fault => rfl
  | ok a =>
    show ((next a).run (f state)).after trace = _
    rw [h]
    rfl

end Reaction

/-- What a processor consists of besides its gates. -/
structure Core where
  acc : Word 16 := 0
  ar : Word 16 := 0
  dr : Word 16 := 0
  ip : Word 16 := 0
  /-- The last result of the arithmetic unit. -/
  result : Word 16 := 0
  program : ProgramMemory 16
  memory : DataMemory 16 16
  phase : Phase := .idle
  hold : Bool := false
  current : Option Instruction := none

namespace Core

/-- The registers of a core, behind closed gates. -/
def file (c : Core) : RegisterFile 16 where
  acc := { word := c.acc }
  ar := { word := c.ar }
  dr := { word := c.dr }
  ip := { word := c.ip }

/-- The processor with a given core and all gates closed. -/
def toProcessor (c : Core) : Processor where
  datapath := { registers := c.file, result := c.result }
  program := c.program
  memory := c.memory
  phase := c.phase
  hold := c.hold
  current := c.current

def word (c : Core) : Reg → Word 16
  | .acc => c.acc
  | .ar => c.ar
  | .dr => c.dr
  | .ip => c.ip

/-- Store a word in some registers. -/
def assign (targets : List Reg) (v : Word 16) (c : Core) : Core :=
  { c with
    acc := if .acc ∈ targets then v else c.acc
    ar := if .ar ∈ targets then v else c.ar
    dr := if .dr ∈ targets then v else c.dr
    ip := if .ip ∈ targets then v else c.ip }

def memoryPart : Part Core (DataMemory 16 16) where
  get c := c.memory
  set c memory := { c with memory := memory }

@[simp] theorem get_file (c : Core) (r : Reg) : c.file.get r = { word := c.word r } := by
  cases r <;> rfl

theorem word_assign (targets : List Reg) (v : Word 16) (c : Core) (r : Reg) :
    (c.assign targets v).word r = if r ∈ targets then v else c.word r := by
  cases r <;> rfl

theorem isQuiet_file (c : Core) : c.file.IsQuiet := by
  intro r gate
  rw [get_file]
  cases gate <;> rfl

end Core

/-- The core of a processor: all but its gates. -/
def Processor.core (p : Processor) : Core where
  acc := p.registers.acc.word
  ar := p.registers.ar.word
  dr := p.registers.dr.word
  ip := p.registers.ip.word
  result := p.datapath.result
  program := p.program
  memory := p.memory
  phase := p.phase
  hold := p.hold
  current := p.current

namespace Core

/-- A processor whose gates are closed is known by its core. -/
theorem toProcessor_core {p : Processor} (hquiet : p.registers.IsQuiet) :
    p.core.toProcessor = p := by
  have hfile : p.core.file = p.registers := by
    ext1 r
    rw [get_file, Register.eq_of_closed (hquiet r)]
    cases r <;> rfl
  show (⟨⟨p.core.file, _⟩, _, _, _, _, _⟩ : Processor) = p
  rw [hfile]
  rfl

/-! ## Transfers -/

/-- The level that a source puts on its bus. -/
def level (c : Core) (sources : List Reg) (r : Reg) : Level :=
  if r ∈ sources then BitVec.ofInt 64 (c.word r).toInt else 0

/-- What a bus carries in a transfer. -/
def carried (c : Core) (sources : List Reg) : Bus → Int
  | .a => (c.level sources .acc ||| c.level sources .ip).toInt
  | .b => (c.level sources .ar ||| c.level sources .dr).toInt

/-- The result of a transfer. -/
def sum (c : Core) (sources : List Reg) (signals : Signals) : Word 16 :=
  signals.combine (c.carried sources .a) (c.carried sources .b)

theorem carried_single (c : Core) (r : Reg) (bus : Bus) :
    c.carried [r] bus = if r.bus = bus then (c.word r).toInt else 0 := by
  have hlevel := Word.toInt_ofInt_level (by decide) (c.word r)
  cases r <;> cases bus <;> simp [carried, level, Reg.bus, hlevel]

/-- Two sources on different buses do not meet before the arithmetic unit. -/
theorem carried_pair (c : Core) {r r' : Reg} (hne : r.bus ≠ r'.bus) (bus : Bus) :
    c.carried [r, r'] bus = (c.word (if r.bus = bus then r else r')).toInt := by
  have hlevel := Word.toInt_ofInt_level (by decide) (c.word r)
  have hlevel' := Word.toInt_ofInt_level (by decide) (c.word r')
  cases r <;> cases r' <;> cases bus <;> simp_all [carried, level, Reg.bus]

theorem sum_single (c : Core) (r : Reg) : c.sum [r] .none = c.word r := by
  apply Word.ext
  unfold sum
  rw [Signals.toInt_combine, carried_single, carried_single]
  cases r.bus <;> simp [Signals.none]

theorem sum_increment (c : Core) (r : Reg) :
    c.sum [r] { increment := true } = .ofInt 16 ((c.word r).toInt + 1) := by
  apply Word.ext
  unfold sum
  rw [Signals.toInt_combine, carried_single, carried_single, Word.toInt_ofInt, Int.add_comm _ 1]
  have hone : truncate 16 1 = 1 := rfl
  cases r.bus <;> simp [hone]

theorem sum_invert (c : Core) : c.sum [.acc] { invertLeft := true } = -c.acc := by
  apply Word.ext
  unfold sum
  rw [Signals.toInt_combine, carried_single, carried_single]
  simp [Reg.bus, word]

theorem sum_ip_dr (c : Core) :
    c.sum [.ip, .dr] .none = .ofInt 16 (c.ip.toInt + c.dr.toInt) := by
  apply Word.ext
  unfold sum
  rw [Signals.toInt_combine, carried_pair c (by decide), carried_pair c (by decide)]
  simp [Signals.none, Reg.bus, word]

theorem sum_dr_acc (c : Core) :
    c.sum [.dr, .acc] .none = .ofInt 16 (c.acc.toInt + c.dr.toInt) := by
  apply Word.ext
  unfold sum
  rw [Signals.toInt_combine, carried_pair c (by decide), carried_pair c (by decide)]
  simp [Signals.none, Reg.bus, word]

theorem sum_dr_acc_invert (c : Core) :
    c.sum [.dr, .acc] { invertRight := true } = .ofInt 16 (c.acc.toInt - c.dr.toInt) := by
  apply Word.ext
  unfold sum
  rw [Signals.toInt_combine, carried_pair c (by decide), carried_pair c (by decide)]
  simp [Reg.bus, word, Int.sub_eq_add_neg]

/-- The data path with the gates of a transfer open. -/
def opened (c : Core) (sources targets : List Reg) : Datapath 16 where
  registers := (c.file.setGates .read true sources).setGates .write true targets
  result := c.result

/-- The core after a transfer. -/
def transferred (c : Core) (sources targets : List Reg) (signals : Signals) : Core :=
  { c.assign targets (c.sum sources signals) with result := c.sum sources signals }

/-- Whatever the gates held open in between, what is left behind is closed, and the targets alone
have taken the value. -/
theorem close_latch (c : Core) (sources targets : List Reg) (v : Word 16) :
    (((c.opened sources targets).registers.latch v.toInt).setGates .read false sources).setGates
        .write false targets
      = (c.assign targets v).file := by
  ext1 r
  rw [get_file, word_assign]
  simp only [opened, RegisterFile.get_setGates, RegisterFile.get_latch, get_file]
  -- a register is read, written, both or neither; only in the second and third does it take `v`
  by_cases hs : r ∈ sources <;> by_cases ht : r ∈ targets <;>
    simp [hs, ht, Register.setGate, Register.write]

theorem sum_opened (c : Core) (sources targets : List Reg) (signals : Signals) :
    (c.opened sources targets).sum signals = c.sum sources signals := by
  have hlevel : ∀ r, (c.opened sources targets).registers.shownLevel r = c.level sources r := by
    intro r
    simp only [RegisterFile.shownLevel, opened, RegisterFile.get_setGates, get_file, level]
    by_cases hs : r ∈ sources <;> by_cases ht : r ∈ targets <;>
      simp [hs, ht, Register.setGate, Register.read]
  simp [Datapath.sum, sum, RegisterFile.busValue, carried, hlevel]

/-! ## Microoperations -/

/-- A microoperation on a core. -/
def perform : Microop → Activity Core Unit
  | .transfer sources targets signals => do
    let c ← get
    ((c.opened sources targets).cycleEvents signals).forM (Activity.emit .buses)
    set (c.transferred sources targets signals)
  | .immediate target v => modify (assign [target] v)
  | .displace target v => modify fun c => c.assign [target] (c.word target + v)
  | .load => do
    let c ← get
    let v ← Activity.focus memoryPart (DataMemory.load c.ar.toInt)
    modify (assign [.dr] v)
  | .store => do
    let c ← get
    Activity.focus memoryPart (DataMemory.store c.ar.toInt c.dr)
  | .hold => modify fun c => { c with hold := true }
  | .halt => modify fun c => { c with phase := .halted }

@[simp] theorem run_perform_transfer [Logger] (c : Core) (sources targets : List Reg)
    (signals : Signals) :
    (perform (.transfer sources targets signals)).run c
      = ⟨.ok (), c.transferred sources targets signals,
          ((c.opened sources targets).cycleEvents signals).map (Entry.of (some .buses))⟩ := by
  unfold perform
  rw [Activity.run_bind, Activity.run_get, Reaction.andThen_ok, Reaction.after_nil,
    Activity.run_bind, Activity.run_forM_emit, Reaction.andThen_ok, Activity.run_set,
    Reaction.after_mk, List.append_nil]

theorem run_transfer [Logger] (c : Core) (sources targets : List Reg) (signals : Signals) :
    (Processor.perform (.transfer sources targets signals)).run c.toProcessor
      = ((perform (.transfer sources targets signals)).run c).mapState toProcessor := by
  have hrun := Datapath.run_operate signals (c.opened sources targets)
  have hclose := c.close_latch sources targets (c.sum sources signals)
  rw [sum_opened] at hrun
  unfold Processor.perform Processor.connecting
  rw [Activity.run_bracket, Activity.run_focus]
  show (((Datapath.operate signals).run (c.opened sources targets)).mapState _).mapState _ = _
  rw [hrun]
  rw [run_perform_transfer]
  simp only [Reaction.mapState_mk, Processor.datapathPart, Processor.mapRegisters, hclose]
  rfl

theorem run_put [Logger] (c : Core) (target : Reg) (v : Word 16) :
    (Processor.put target v.toInt).run c.toProcessor
      = ⟨.ok (), (c.assign [target] v).toProcessor, []⟩ := by
  unfold Processor.put Processor.connecting
  rw [Activity.run_bracket, Activity.run_modify, Reaction.mapState_mk]
  congr 1
  -- one register at a time: the gates play no part in the others
  cases target <;>
    simp [toProcessor, file, assign, Processor.mapRegisters, RegisterFile.setGates,
      RegisterFile.modify, RegisterFile.get, RegisterFile.set, Register.setGate, Register.write]

theorem run_load [Logger] (c : Core) :
    (Processor.perform .load).run c.toProcessor
      = ((perform .load).run c).mapState toProcessor := by
  unfold Processor.perform Processor.connecting
  rw [Activity.run_bracket, Processor.load, Activity.run_focus]
  show (Reaction.mapState _ (DataUnit.load.run ⟨{ word := c.ar, readOpen := true },
    { word := c.dr, writeOpen := true }, c.memory⟩)).mapState _ = _
  -- through its open gate the address register shows the word it stores
  have haddress : Register.read { word := c.ar, readOpen := true } = c.ar := rfl
  simp only [DataUnit.load, perform, Activity.run_bind, Activity.run_get, Activity.run_focus,
    Reaction.andThen_ok, haddress, DataUnit.memoryPart, memoryPart]
  obtain ⟨outcome, memory, trace⟩ := (DataMemory.load c.ar.toInt).run c.memory
  cases outcome with
  | error fault => rfl
  | ok content =>
    have hdata : Register.write content.toInt { word := c.dr, writeOpen := true }
        = { word := content, writeOpen := true } := by
      simp [Register.write]
    simp only [Reaction.mapState_mk, Reaction.andThen_ok, Activity.run_modify, hdata]
    rfl

theorem run_store [Logger] (c : Core) :
    (Processor.perform .store).run c.toProcessor
      = ((perform .store).run c).mapState toProcessor := by
  unfold Processor.perform Processor.connecting
  rw [Activity.run_bracket, Processor.store, Activity.run_focus]
  show (Reaction.mapState _ (DataUnit.store.run ⟨{ word := c.ar, readOpen := true },
    { word := c.dr, readOpen := true }, c.memory⟩)).mapState _ = _
  have hshown : ∀ v : Word 16, Register.read { word := v, readOpen := true } = v := fun _ => rfl
  simp only [DataUnit.store, perform, Activity.run_bind, Activity.run_get, Activity.run_focus,
    Reaction.andThen_ok, hshown, DataUnit.memoryPart, memoryPart]
  obtain ⟨outcome, memory, trace⟩ := (DataMemory.store c.ar.toInt c.dr).run c.memory
  rfl

/-- The processor does to its registers and its memory what the microoperation says, and leaves its
gates closed. -/
theorem perform_toProcessor [Logger] (op : Microop) (c : Core) :
    (Processor.perform op).run c.toProcessor = ((perform op).run c).mapState toProcessor := by
  cases op with
  | transfer sources targets signals => exact c.run_transfer sources targets signals
  | immediate target v => exact c.run_put target v
  | displace target v =>
    -- the sum is made of the stored word, past the read gate
    have hword : (c.toProcessor.registers.get target).word = c.word target := by
      cases target <;> rfl
    have hput := c.run_put target (c.word target + v)
    simp only [Processor.perform, Activity.run_bind, Activity.run_get, Reaction.andThen_ok, hword,
      hput]
    rfl
  | load => exact c.run_load
  | store => exact c.run_store
  | hold => rfl
  | halt => rfl

/-- A load that faults leaves the core as it was. -/
theorem run_perform_load_of_fault [Logger] {c : Core} {fault : Fault}
    (h : c.memory.loadFault? c.ar.toInt = some fault) :
    (perform .load).run c = ⟨.error fault, c, [.of (some .buses) (.present c.ar.toInt)]⟩ := by
  simp [perform, memoryPart, DataMemory.run_load_of_fault h]

theorem run_perform_load [Logger] {c : Core} (h : c.memory.loadFault? c.ar.toInt = none) :
    (perform .load).run c
      = ⟨.ok (), { c with
            dr := c.memory.delivered c.ar.toInt
            memory := c.memory.loaded c.ar.toInt },
          (c.memory.loadEvents c.ar.toInt).map (Entry.of (some .buses))⟩ := by
  simp [perform, memoryPart, DataMemory.run_load h, assign]

theorem run_perform_store_of_fault [Logger] {c : Core} {fault : Fault}
    (h : c.memory.storeFault? c.ar.toInt c.dr.toInt = some fault) :
    (perform .store).run c
      = ⟨.error fault, c, (c.memory.refusedStoreEvents c.ar.toInt c.dr.toInt).map
          (Entry.of (some .buses))⟩ := by
  simp [perform, memoryPart, DataMemory.run_store_of_fault h]

theorem run_perform_store [Logger] {c : Core}
    (h : c.memory.storeFault? c.ar.toInt c.dr.toInt = none) :
    (perform .store).run c
      = ⟨.ok (), { c with memory := c.memory.stored c.ar.toInt c.dr },
          (DataMemory.storeEvents c.ar.toInt c.dr.toInt).map (Entry.of (some .buses))⟩ := by
  simp [perform, memoryPart, DataMemory.run_store h]

/-- A microprogram is carried out alike on the processor and on its core, up to a fault if there is
one. -/
theorem run_forM_toProcessor [Logger] (ops : Microprogram) (c : Core) :
    (ops.forM Processor.perform).run c.toProcessor
      = ((ops.forM perform).run c).mapState toProcessor := by
  induction ops generalizing c with
  | nil => rfl
  | cons op ops ih =>
    rw [Activity.run_forM_cons, Activity.run_forM_cons, perform_toProcessor]
    exact Reaction.andThen_mapState toProcessor _ fun _ => ih

/-! ## Steps -/

/-- The content of the program cell that the instruction pointer stores the address of. -/
def cell (c : Core) : Option Instruction := c.program.cells.get c.ip.toInt.toNat

/-- The core on which an instruction is executed. -/
def executing (c : Core) (inst : Instruction) : Core :=
  { c with phase := .execute, hold := false, current := some inst }

/-- The core with the instruction pointer moved on, unless it is held. -/
def advanced (c : Core) : Core :=
  if c.hold then c else c.transferred [.ip] [.ip] { increment := true }

def advanceTrace [Logger] (c : Core) : Trace :=
  if c.hold then []
  else ((c.opened [.ip] [.ip]).cycleEvents { increment := true }).map (Entry.of (some .buses))

/-- The phase that a step ends in, depending on whether the program has ended. -/
def restPhase (c : Core) : Phase := if c.phase = .halted then .halted else .idle

/-- Where the step ends once its microprogram has been carried out. -/
def settled (c : Core) : Core := { c.advanced with phase := c.restPhase }

/-- Behind closed gates a fetch has nothing to close. -/
theorem fetched_toProcessor (c : Core) : c.toProcessor.fetched = c.toProcessor := rfl

theorem run_fetch_of_negative [Logger] (c : Core) (hneg : c.ip.toInt < 0) :
    Processor.fetch.run c.toProcessor
      = ⟨.error (.negativeInstructionAddress c.ip.toInt), c.toProcessor, []⟩ := by
  have hselected := Processor.selected_of_neg (p := c.toProcessor) hneg c.program
  rw [Processor.run_fetch_of_error hselected, fetched_toProcessor]
  rfl

theorem run_fetch_of_empty [Logger] (c : Core) (hpos : ¬c.ip.toInt < 0) (hcell : c.cell = none) :
    Processor.fetch.run c.toProcessor
      = ⟨.error (.instruction {} (.emptyCell c.ip.toInt)), { c with current := none }.toProcessor,
          []⟩ := by
  have hselected := Processor.selected_of_nonneg (p := c.toProcessor) hpos c.program
  rw [Processor.run_fetch_of_none (hselected.trans (congrArg Except.ok hcell)),
    fetched_toProcessor]
  rfl

theorem run_fetch [Logger] (c : Core) {inst : Instruction} (hpos : ¬c.ip.toInt < 0)
    (hcell : c.cell = some inst) :
    Processor.fetch.run c.toProcessor
      = ⟨.ok inst, { c with current := some inst }.toProcessor, []⟩ := by
  have hselected := Processor.selected_of_nonneg (p := c.toProcessor) hpos c.program
  rw [Processor.run_fetch_of_some (hselected.trans (congrArg Except.ok hcell)),
    fetched_toProcessor]
  rfl

theorem run_advance [Logger] (c : Core) :
    Processor.advance.run c.toProcessor = ⟨.ok (), c.advanced.toProcessor, c.advanceTrace⟩ := by
  unfold Processor.advance
  rw [Activity.run_bind, Activity.run_get, Reaction.andThen_ok, Reaction.after_nil]
  show (if c.hold = true then (pure () : Activity Processor Unit)
    else Processor.perform .advance).run c.toProcessor = _
  rw [Activity.run_ite]
  unfold advanced advanceTrace
  by_cases hhold : c.hold = true
  · rw [if_pos hhold, if_pos hhold, if_pos hhold]
    rfl
  · rw [if_neg hhold, if_neg hhold, if_neg hhold, Microop.advance, perform_toProcessor,
      run_perform_transfer]
    rfl

/-- What a pass does after its instruction has been executed. -/
def concluding : Activity Processor Unit := do
  let halting := (← get).isHalted
  Processor.enter .advance
  Processor.advance
  Processor.enter (if halting then .halted else .idle)

theorem run_enter [Logger] (phase : Phase) (c : Core) :
    (Processor.enter phase).run c.toProcessor
      = ⟨.ok (), { c with phase := phase }.toProcessor, []⟩ := rfl

theorem run_concluding [Logger] (c : Core) :
    concluding.run c.toProcessor = ⟨.ok (), c.settled.toProcessor, c.advanceTrace⟩ := by
  -- the phase entered in between is not seen by the advance and is left behind by it
  have hadvanced : ({ c with phase := .advance } : Core).advanced
      = { c.advanced with phase := .advance } := by
    unfold advanced
    split <;> rfl
  have htrace : ({ c with phase := .advance } : Core).advanceTrace = c.advanceTrace := rfl
  have hrest : (if c.toProcessor.isHalted then Phase.halted else .idle) = c.restPhase := by
    unfold Processor.isHalted restPhase
    simp only [decide_eq_true_eq]
    rfl
  unfold concluding
  rw [Activity.run_bind, Activity.run_get, Reaction.andThen_ok, Reaction.after_nil,
    Activity.run_bind, run_enter, Reaction.andThen_ok, Reaction.after_nil, Activity.run_bind,
    run_advance, Reaction.andThen_ok, hadvanced, htrace, run_enter, hrest, Reaction.after_mk,
    List.append_nil]
  rfl

/-- A pass up to its instruction: what follows happens if the instruction is found. -/
theorem run_pass [Logger] (c : Core) :
    Processor.pass.run c.toProcessor
      = (Processor.fetch.run { c with phase := .fetch }.toProcessor).andThen
          (fun inst => do
            Processor.enter .execute
            Processor.execute inst
            concluding) := by
  unfold Processor.pass
  rw [Activity.run_bind, run_enter, Reaction.andThen_ok, Reaction.after_nil]
  rfl

theorem run_execute_of_refused [Logger] (c : Core) {inst : Instruction} {cause : InstructionFault}
    (hcause : inst.microprogram c.acc.toInt = .error cause) :
    (Processor.execute inst).run c.toProcessor
      = ⟨.error (.instruction inst cause), c.toProcessor, []⟩ := by
  have hacc : c.toProcessor.registers.acc.word = c.acc := rfl
  unfold Processor.execute
  rw [Activity.run_bind, Activity.run_get, Reaction.andThen_ok, Reaction.after_nil, hacc, hcause]
  rfl

theorem run_execute [Logger] (c : Core) {inst : Instruction} {ops : Microprogram}
    (hops : inst.microprogram c.acc.toInt = .ok ops) :
    (Processor.execute inst).run c.toProcessor
      = ((ops.forM perform).run c).mapState toProcessor := by
  have hacc : c.toProcessor.registers.acc.word = c.acc := rfl
  unfold Processor.execute
  rw [Activity.run_bind, Activity.run_get, Reaction.andThen_ok, Reaction.after_nil, hacc, hops]
  exact run_forM_toProcessor ops c

theorem run_pass_of_fetch [Logger] {c : Core} {inst : Instruction} (hpos : ¬c.ip.toInt < 0)
    (hcell : c.cell = some inst) :
    Processor.pass.run { c with hold := false }.toProcessor
      = ((Processor.execute inst).run (c.executing inst).toProcessor).andThen
          (fun _ => concluding) := by
  have hfetch := run_fetch { c with phase := .fetch, hold := false } hpos hcell
  rw [run_pass, hfetch, Reaction.andThen_ok, Reaction.after_nil, Activity.run_bind, run_enter,
    Reaction.andThen_ok, Reaction.after_nil]
  rfl

/-! ### How a step ends -/

theorem run_step_of_pass [Logger] {c : Core} {p : Processor} {t : Trace} (hlive : c.phase ≠ .halted)
    (hpass : Processor.pass.run { c with hold := false }.toProcessor = ⟨.ok (), p, t⟩) :
    Processor.step.run c.toProcessor = ⟨.ok (), p, t⟩ := by
  have hhalted : c.toProcessor.isHalted = false := decide_eq_false hlive
  have hstep := Activity.run_onFault_of_ok (fun p => { p with phase := .idle })
    (congrArg Reaction.outcome hpass)
  unfold Processor.step
  rw [Activity.run_bind, Activity.run_get, Reaction.andThen_ok, Reaction.after_nil, hhalted]
  exact hstep.trans hpass

/-- A fault takes the control unit back to where it was between two steps. -/
theorem run_step_of_pass_fault [Logger] {c : Core} (c' : Core) {fault : Fault} {t : Trace}
    (hlive : c.phase ≠ .halted)
    (hpass : Processor.pass.run { c with hold := false }.toProcessor
      = ⟨.error fault, c'.toProcessor, t⟩) :
    Processor.step.run c.toProcessor
      = ⟨.error fault, { c' with phase := .idle }.toProcessor, t⟩ := by
  have hhalted : c.toProcessor.isHalted = false := decide_eq_false hlive
  have hstep := Activity.run_onFault_of_error (fun p => { p with phase := .idle })
    (congrArg Reaction.outcome hpass)
  unfold Processor.step
  rw [Activity.run_bind, Activity.run_get, Reaction.andThen_ok, Reaction.after_nil, hhalted]
  refine hstep.trans ?_
  rw [hpass]
  rfl

theorem run_step_of_negative [Logger] {c : Core} (hlive : c.phase ≠ .halted)
    (hneg : c.ip.toInt < 0) :
    Processor.step.run c.toProcessor
      = ⟨.error (.negativeInstructionAddress c.ip.toInt),
          { c with phase := .idle, hold := false }.toProcessor, []⟩ := by
  have hfetch := run_fetch_of_negative { c with phase := .fetch, hold := false } hneg
  refine run_step_of_pass_fault { c with phase := .fetch, hold := false } hlive ?_
  rw [run_pass, hfetch, Reaction.andThen_error]

theorem run_step_of_empty [Logger] {c : Core} (hlive : c.phase ≠ .halted) (hpos : ¬c.ip.toInt < 0)
    (hcell : c.cell = none) :
    Processor.step.run c.toProcessor
      = ⟨.error (.instruction {} (.emptyCell c.ip.toInt)),
          { c with phase := .idle, hold := false, current := none }.toProcessor, []⟩ := by
  have hfetch := run_fetch_of_empty { c with phase := .fetch, hold := false } hpos hcell
  refine run_step_of_pass_fault
    { c with phase := .fetch, hold := false, current := none } hlive ?_
  rw [run_pass, hfetch, Reaction.andThen_error]

/-- A step whose instruction has no microprogram: it is refused before it has done anything. -/
theorem run_step_of_refused [Logger] {c : Core} {inst : Instruction} {cause : InstructionFault}
    (hlive : c.phase ≠ .halted) (hpos : ¬c.ip.toInt < 0) (hcell : c.cell = some inst)
    (hcause : inst.microprogram c.acc.toInt = .error cause) :
    Processor.step.run c.toProcessor
      = ⟨.error (.instruction inst cause),
          { c.executing inst with phase := .idle }.toProcessor, []⟩ := by
  refine run_step_of_pass_fault _ hlive ?_
  rw [run_pass_of_fetch hpos hcell, run_execute_of_refused (c.executing inst) hcause,
    Reaction.andThen_error]

theorem run_step_of_fault [Logger] {c c' : Core} {inst : Instruction} {ops : Microprogram}
    {fault : Fault} {t : Trace} (hlive : c.phase ≠ .halted) (hpos : ¬c.ip.toInt < 0)
    (hcell : c.cell = some inst) (hops : inst.microprogram c.acc.toInt = .ok ops)
    (hrun : (ops.forM perform).run (c.executing inst) = ⟨.error fault, c', t⟩) :
    Processor.step.run c.toProcessor
      = ⟨.error fault, { c' with phase := .idle }.toProcessor, t⟩ := by
  refine run_step_of_pass_fault _ hlive ?_
  rw [run_pass_of_fetch hpos hcell, run_execute (c.executing inst) hops, hrun, Reaction.mapState_mk,
    Reaction.andThen_error]

theorem run_step_of_done [Logger] {c c' : Core} {inst : Instruction} {ops : Microprogram}
    {t : Trace} (hlive : c.phase ≠ .halted) (hpos : ¬c.ip.toInt < 0) (hcell : c.cell = some inst)
    (hops : inst.microprogram c.acc.toInt = .ok ops)
    (hrun : (ops.forM perform).run (c.executing inst) = ⟨.ok (), c', t⟩) :
    Processor.step.run c.toProcessor
      = ⟨.ok (), c'.settled.toProcessor, t ++ c'.advanceTrace⟩ := by
  refine run_step_of_pass hlive ?_
  rw [run_pass_of_fetch hpos hcell, run_execute (c.executing inst) hops, hrun, Reaction.mapState_mk,
    Reaction.andThen_ok, run_concluding, Reaction.after_mk]

/-- The ways in which a step of a core ends. -/
inductive StepEnds [Logger] (c : Core) : Reaction Processor Unit → Prop
  | negative (hneg : c.ip.toInt < 0) :
    StepEnds c ⟨.error (.negativeInstructionAddress c.ip.toInt),
      { c with phase := .idle, hold := false }.toProcessor, []⟩
  | empty (hpos : ¬c.ip.toInt < 0) (hcell : c.cell = none) :
    StepEnds c ⟨.error (.instruction {} (.emptyCell c.ip.toInt)),
      { c with phase := .idle, hold := false, current := none }.toProcessor, []⟩
  | refused {inst : Instruction} {cause : InstructionFault} (hpos : ¬c.ip.toInt < 0)
    (hcell : c.cell = some inst) (hcause : inst.microprogram c.acc.toInt = .error cause) :
    StepEnds c ⟨.error (.instruction inst cause),
      { c.executing inst with phase := .idle }.toProcessor, []⟩
  | faulted {inst : Instruction} {ops : Microprogram} {fault : Fault} {c' : Core} {t : Trace}
    (hpos : ¬c.ip.toInt < 0) (hcell : c.cell = some inst)
    (hops : inst.microprogram c.acc.toInt = .ok ops)
    (hrun : (ops.forM perform).run (c.executing inst) = ⟨.error fault, c', t⟩) :
    StepEnds c ⟨.error fault, { c' with phase := .idle }.toProcessor, t⟩
  | done {inst : Instruction} {ops : Microprogram} {c' : Core} {t : Trace}
    (hpos : ¬c.ip.toInt < 0) (hcell : c.cell = some inst)
    (hops : inst.microprogram c.acc.toInt = .ok ops)
    (hrun : (ops.forM perform).run (c.executing inst) = ⟨.ok (), c', t⟩) :
    StepEnds c ⟨.ok (), c'.settled.toProcessor, t ++ c'.advanceTrace⟩

/-- A step of a core ends in one of these ways. -/
theorem stepEnds [Logger] {c : Core} (hlive : c.phase ≠ .halted) :
    StepEnds c (Processor.step.run c.toProcessor) := by
  by_cases hneg : c.ip.toInt < 0
  · rw [run_step_of_negative hlive hneg]
    exact .negative hneg
  cases hcell : c.cell with
  | none =>
    rw [run_step_of_empty hlive hneg hcell]
    exact .empty hneg hcell
  | some inst =>
    cases hops : inst.microprogram c.acc.toInt with
    | error cause =>
      rw [run_step_of_refused hlive hneg hcell hops]
      exact .refused hneg hcell hops
    | ok ops =>
      cases hrun : (ops.forM perform).run (c.executing inst) with
      | mk outcome c' t =>
        cases outcome with
        | error fault =>
          rw [run_step_of_fault hlive hneg hcell hops hrun]
          exact .faulted hneg hcell hops hrun
        | ok _ =>
          rw [run_step_of_done hlive hneg hcell hops hrun]
          exact .done hneg hcell hops hrun

end Core

end TwoBus
