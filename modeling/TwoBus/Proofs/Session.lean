import TwoBus.Operation
import TwoBus.Proofs.DataAccess
import TwoBus.Proofs.Law

/-!
# Sessions

A session is a list of operations that are carried out on one machine in order. A fault ends the
operation that it arises in, and not the session.

A law of the machine is obeyed by every session if it is obeyed by the operations of it
(`obeyed_session`), by a run if it is obeyed by a single step (`obeyed_run`), and by a single step
if it comes from a law of the processor that the step of the processor obeys
(`obeyed_singleStep`).
-/

namespace TwoBus.Machine

variable {m : Machine} {law : Law Machine}

/-! ## Single steps -/

/-- What is recorded before a step: the disassembly, if it is on. -/
def preamble [Logger] (m : Machine) : Trace :=
  if Logger.switches.disassembly then [Event.rule, m.processor.listing].map (.of none) else []

/-- What is recorded after a step: the registers, if they are on, and whether the program has
ended. -/
def epilogue [Logger] (m : Machine) : Trace :=
  (if Logger.switches.registers then m.processor.report.map (.of none) else [])
    ++ (if m.processor.isHalted then [.of none .halted] else [])

/-- The disassembly does not fault and leaves the machine as it is. -/
theorem run_disassembly [Logger] (m : Machine) :
    (Activity.whenOn .disassembly
        (Activity.focus processorPart Processor.disassembleCurrent)).run m
      = ⟨.ok (), m, m.preamble⟩ := by
  have hfocus : (Activity.focus processorPart Processor.disassembleCurrent).run m
      = ⟨.ok (), m, [Event.rule, m.processor.listing].map (.of none)⟩ := by
    rw [Activity.run_focus, Processor.run_disassembleCurrent]
    rfl
  rw [Activity.run_whenOn, hfocus, preamble]
  show (if Logger.switches.disassembly then _ else _) = _
  split <;> rfl

/-- So does the report on the registers. -/
theorem run_dump [Logger] (m : Machine) :
    (Activity.whenOn .registers (Activity.focus processorPart Processor.dumpRegisters)).run m
      = ⟨.ok (), m, if Logger.switches.registers then m.processor.report.map (.of none) else []⟩
        := by
  have hfocus : (Activity.focus processorPart Processor.dumpRegisters).run m
      = ⟨.ok (), m, m.processor.report.map (.of none)⟩ := by
    rw [Activity.run_focus, Processor.run_dumpRegisters]
    rfl
  rw [Activity.run_whenOn, hfocus]
  show (if Logger.switches.registers then _ else _) = _
  split <;> rfl

theorem run_singleStep_of_halted [Logger] (hhalted : m.processor.phase = .halted) :
    singleStep.run m = ⟨.ok .halted, m, [.of none .halted]⟩ := by
  have hrefused : m.processor.isHalted = true := decide_eq_true hhalted
  unfold singleStep
  rw [Activity.run_bind, Activity.run_get, Reaction.andThen_ok, hrefused]
  rfl

/-- A faulting step of the processor is one of the machine, and is not counted. -/
theorem run_singleStep_of_fault [Logger] {p : Processor} {fault : Fault} {t : Trace}
    (hlive : m.processor.phase ≠ .halted)
    (hstep : Processor.step.run m.processor = ⟨.error fault, p, t⟩) :
    singleStep.run m = ⟨.error fault, { m with processor := p }, m.preamble ++ t⟩ := by
  have hrun : m.processor.isHalted = false := decide_eq_false hlive
  have hfocus : (Activity.focus processorPart Processor.step).run m
      = ⟨.error fault, { m with processor := p }, t⟩ := by
    rw [Activity.run_focus]
    show (Processor.step.run m.processor).mapState _ = _
    rw [hstep]
    rfl
  unfold singleStep
  rw [Activity.run_bind, Activity.run_get, Reaction.andThen_ok, Reaction.after_nil, hrun]
  simp only [Bool.false_eq_true, if_false, Activity.run_bind, run_disassembly,
    Reaction.andThen_ok, hfocus, Reaction.andThen_error, Reaction.after_mk]

/-- A step of the processor that is completed is counted. -/
theorem run_singleStep_of_ok [Logger] {p : Processor} {t : Trace}
    (hlive : m.processor.phase ≠ .halted)
    (hstep : Processor.step.run m.processor = ⟨.ok (), p, t⟩) :
    singleStep.run m = ⟨.ok ({ m with processor := p } : Machine).status,
      ({ m with processor := p } : Machine).count,
      m.preamble ++ t ++ ({ m with processor := p } : Machine).epilogue⟩ := by
  have hrun : m.processor.isHalted = false := decide_eq_false hlive
  have hfocus : (Activity.focus processorPart Processor.step).run m
      = ⟨.ok (), { m with processor := p }, t⟩ := by
    rw [Activity.run_focus]
    show (Processor.step.run m.processor).mapState _ = _
    rw [hstep]
    rfl
  unfold singleStep
  rw [Activity.run_bind, Activity.run_get, Reaction.andThen_ok, Reaction.after_nil, hrun]
  simp only [Bool.false_eq_true, if_false, Activity.run_bind, run_disassembly, run_dump,
    Reaction.andThen_ok, hfocus, Activity.run_modify, Activity.run_get, Activity.run_ite,
    status, epilogue, count]
  cases p.isHalted <;> simp

/-- A single step faults as the step of the processor does. -/
theorem fault_singleStep_iff [Logger] {fault : Fault} (hlive : m.processor.phase ≠ .halted) :
    (singleStep.run m).outcome = .error fault
      ↔ (Processor.step.run m.processor).outcome = .error fault := by
  cases hstep : Processor.step.run m.processor with
  | mk outcome p t =>
    cases outcome with
    | error cause =>
      rw [run_singleStep_of_fault hlive hstep]
      simp
    | ok _ =>
      rw [run_singleStep_of_ok hlive hstep]
      simp

theorem isTraffic_report (p : Processor) : ∀ event ∈ p.report, event.isTraffic = false := by
  have hall : p.report.all (fun event => !event.isTraffic) = true := rfl
  simpa using hall

theorem isTraffic_listing (p : Processor) : p.listing.isTraffic = false := by
  unfold Processor.listing ProgramMemory.listing
  split <;> rfl

theorem isTraffic_preamble [Logger] (m : Machine) :
    ∀ event ∈ Trace.events m.preamble, event.isTraffic = false := by
  intro event hevent
  unfold preamble at hevent
  split at hevent
  · rw [Trace.events_map_of, List.mem_cons, List.mem_singleton] at hevent
    rcases hevent with rfl | rfl
    · rfl
    · exact isTraffic_listing m.processor
  · cases hevent

/-- A law that comes from a law of the processor, and that is not about the counter nor about
anything recorded but traffic, is obeyed by single steps. -/
theorem obeyed_singleStep [Logger] {inner : Law Processor} (hstep : inner.Obeyed Processor.step)
    (hpart : ∀ m t p, inner.Holds m.processor t p → law.Holds m t { m with processor := p })
    (hcount : ∀ m, law.Holds m [] m.count)
    (hlog : ∀ m t, (∀ event ∈ Trace.events t, event.isTraffic = false) → law.Holds m t m) :
    law.Obeyed singleStep := by
  have hdisassembly : law.Obeyed (Activity.whenOn .disassembly
      (Activity.focus processorPart Processor.disassembleCurrent)) := by
    intro m
    rw [run_disassembly]
    exact hlog m _ m.isTraffic_preamble
  have hdump : law.Obeyed (Activity.whenOn .registers
      (Activity.focus processorPart Processor.dumpRegisters)) := by
    intro m
    rw [run_dump]
    refine hlog m _ ?_
    split
    · rw [Trace.events_map_of]
      exact isTraffic_report m.processor
    · exact fun _ hevent => absurd hevent List.not_mem_nil
  have hannounce : law.Obeyed (Activity.announce .halted) := by
    intro m
    refine hlog m _ ?_
    simp [Trace.events, Entry.of, Event.isTraffic]
  have hhalted : law.Obeyed (do Activity.announce .halted; return Status.halted) :=
    Law.obeyed_bind hannounce fun _ => Law.obeyed_pure _
  unfold singleStep
  refine Law.obeyed_bind Law.obeyed_get fun m => Law.obeyed_ite hhalted ?_
  refine Law.obeyed_bind hdisassembly fun _ => ?_
  refine Law.obeyed_bind (Law.obeyed_focus hstep hpart) fun _ => ?_
  refine Law.obeyed_bind (Law.obeyed_modify hcount) fun _ => ?_
  refine Law.obeyed_bind hdump fun _ => Law.obeyed_bind Law.obeyed_get fun m => ?_
  exact Law.obeyed_ite hhalted (Law.obeyed_pure _)

/-- A run obeys what a single step obeys. -/
theorem obeyed_run [Logger] (hstep : law.Obeyed singleStep) (budget : Nat) : law.Obeyed
    (run budget) := by
  induction budget with
  | zero => exact law.refl
  | succ budget ih =>
    rw [run_succ]
    refine Law.obeyed_bind hstep fun status => ?_
    cases status with
    | halted => exact Law.obeyed_pure _
    | running => exact ih

/-! ## Operations in a row -/

/-- Carry out an operation, and go on after a fault. -/
def Operation.attempt (op : Operation) : Activity Machine Unit :=
  ⟨fun switches m =>
    let r := op.perform.react switches m
    ⟨.ok (), r.state, r.trace⟩⟩

/-- Carry out some operations in order. -/
def session (ops : List Operation) : Activity Machine Unit := ops.forM Operation.attempt

/-- A session obeys what its operations obey. -/
theorem obeyed_session [Logger] {ops : List Operation} (h : ∀ op ∈ ops, law.Obeyed op.perform) :
    law.Obeyed (session ops) :=
  Law.obeyed_forM fun op hop => h op hop

namespace Operation

/-- To step or to run the machine. -/
def executes : Operation → Bool
  | .step | .run _ | .processorStep => true
  | _ => false

/-- To store a value in a register by hand. -/
def pokes : Operation → Bool
  | .datapath (.poke _ _) => true
  | _ => false

/-- Stepping and running obey what single steps and the steps of the processor do. -/
theorem obeyed_executing [Logger] {op : Operation} (hop : op.executes = true)
    (hsingle : law.Obeyed singleStep) (hstep : law.Obeyed (onProcessor Processor.step)) :
    law.Obeyed op.perform := by
  cases op with
  | step => exact Law.obeyed_bind hsingle fun _ => Law.obeyed_pure _
  | run budget => exact Law.obeyed_bind (obeyed_run hsingle budget) fun _ => Law.obeyed_pure _
  | processorStep => exact Law.obeyed_bind hstep fun _ => Law.obeyed_pure _
  | _ => exact absurd hop (by simp [executes])

end Operation

/-! ## The start -/

/-- The data memory of the machine is made if the image fits. -/
theorem ofData?_machine (values : List Int) (io : IoUnit) :
    DataMemory.ofData? .machine .machine values io
      = if twoPow 16 < values.length then .error (.dataTooLong values.length (twoPow 16))
        else .ok ⟨.ofList 16 0 (values.map (.ofInt 16)), io⟩ := rfl

/-- A machine is built if its source is text and both images fit, and then it starts with what they
hold. -/
theorem boot_eq_ok_iff {image : Image} {source : Option (List UInt8)} :
    boot image source = .ok m ↔
      ∃ input program memory, InputDevice.ofSource? source = .ok input
        ∧ ProgramMemory.ofProgram? .machine image.program = .ok program
        ∧ DataMemory.ofData? .machine .machine image.data { input } = .ok memory
        ∧ m = { processor := { program, memory } } := by
  unfold boot IoUnit.ofSource?
  simp only [bind, Except.bind, pure, Except.pure]
  constructor
  · intro h
    cases hinput : InputDevice.ofSource? source with
    | error fault => simp [hinput] at h
    | ok input =>
      cases hprogram : ProgramMemory.ofProgram? .machine image.program with
      | error fault => simp [hinput, hprogram] at h
      | ok program =>
        cases hmemory : DataMemory.ofData? .machine .machine image.data { input } with
        | error fault => simp [hinput, hprogram, hmemory] at h
        | ok memory =>
          simp only [hinput, hprogram, hmemory] at h
          cases h
          exact ⟨_, _, _, rfl, rfl, hmemory, rfl⟩
  · rintro ⟨input, program, memory, hinput, hprogram, hmemory, rfl⟩
    simp only [hinput, hprogram, hmemory]

/-- A machine starts with blank registers behind closed gates. -/
theorem datapath_of_boot {image : Image} {source : Option (List UInt8)}
    (h : boot image source = .ok m) : m.processor.datapath = {} := by
  obtain ⟨_, _, _, -, -, -, rfl⟩ := boot_eq_ok_iff.mp h
  rfl

theorem phase_of_boot {image : Image} {source : Option (List UInt8)}
    (h : boot image source = .ok m) : m.processor.phase = .idle := by
  obtain ⟨_, _, _, -, -, -, rfl⟩ := boot_eq_ok_iff.mp h
  rfl

/-- A machine starts with the data image, truncated cell by cell, with the whole source before it,
and with an output device that has emitted nothing. -/
theorem memory_of_boot {image : Image} {source : Option (List UInt8)}
    (h : boot image source = .ok m) :
    ∃ input, InputDevice.ofSource? source = .ok input
      ∧ m.processor.memory = ⟨.ofList 16 0 (image.data.map (.ofInt 16)), { input }⟩ := by
  obtain ⟨input, _, memory, hinput, -, hmemory, rfl⟩ := boot_eq_ok_iff.mp h
  refine ⟨input, hinput, ?_⟩
  rw [ofData?_machine] at hmemory
  split at hmemory
  · exact absurd hmemory (by simp)
  · exact (Except.ok.inj hmemory).symm

end TwoBus.Machine
