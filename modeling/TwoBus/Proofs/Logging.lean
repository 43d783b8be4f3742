import TwoBus.Proofs.Budget
import TwoBus.Proofs.Oblivious
import TwoBus.Proofs.StepLaw

/-!
# Logging

The switches are for the log alone. What there is to be observed at a panel besides its log depends
on the operations that are asked for, and neither on the switches at the start, nor on how they are
turned and what is remarked in between: every operation is oblivious of the switches.

With all switches off only that is printed which no switch is for. A step of the processor prints
nothing of that kind (`Processor.isMuted_step`); a single step adds the line that the program has
ended, if that is what it answers (`Machine.log_singleStep`).
-/

namespace TwoBus

/-! ## What is printed with all switches off -/

/-- Nothing of a trace was printed. -/
def Trace.IsMuted (t : Trace) : Prop := ∀ entry ∈ t, entry.printed = false

namespace Trace

theorem IsMuted.append {t u : Trace} (ht : t.IsMuted) (hu : u.IsMuted) : IsMuted (t ++ u) :=
  fun entry hentry => (List.mem_append.mp hentry).elim (ht entry) (hu entry)

/-- With all switches off nothing is printed that is on a channel. -/
theorem isMuted_map_of [Logger] (hoff : Logger.switches = {}) (channel : Channel)
    (events : List Event) : IsMuted (events.map (Entry.of (some channel))) := by
  intro entry hentry
  obtain ⟨event, -, rfl⟩ := List.mem_map.mp hentry
  show Logger.switches.isOn channel = false
  rw [hoff]
  cases channel <;> rfl

theorem log_of_isMuted {t : Trace} (h : t.IsMuted) : t.log = "" := by
  have hnone : t.filter Entry.printed = [] :=
    List.filter_eq_nil_iff.mpr fun entry hentry => by simp [h entry hentry]
  rw [log, hnone]
  rfl

theorem log_append_of_isMuted {t : Trace} (h : t.IsMuted) (u : Trace) :
    log (t ++ u) = log u := by
  rw [log_append, log_of_isMuted h, String.empty_append]

end Trace

namespace Law

variable {σ τ α : Type}

/-- The law that nothing is printed. -/
def muted : Law σ where
  Holds _ t _ := t.IsMuted
  refl _ := by simp [Trace.IsMuted]
  trans := Trace.IsMuted.append

theorem muted_modify [Logger] (f : σ → σ) : muted.Obeyed (modify f : Activity σ PUnit) :=
  obeyed_modify muted.refl

theorem muted_focus [Logger] {x : Activity τ α} (hx : muted.Obeyed x) (part : Part σ τ) :
    muted.Obeyed (Activity.focus part x) :=
  obeyed_focus hx fun _ _ _ h => h

end Law

namespace Processor

theorem muted_connecting [Logger] {α : Type} {x : Activity Processor α} (hx : Law.muted.Obeyed x)
    (sources targets : List Reg) : Law.muted.Obeyed (connecting sources targets x) :=
  fun _ => hx _

section

variable [Logger] (hoff : Logger.switches = {})
include hoff

theorem muted_dataLoad (address : Int) :
    Law.muted.Obeyed (DataMemory.load address : Activity (DataMemory 16 16) (Word 16)) := by
  intro memory
  cases hfault : memory.loadFault? address with
  | some fault =>
    rw [DataMemory.run_load_of_fault hfault]
    exact Trace.isMuted_map_of hoff .buses [.present address]
  | none =>
    rw [DataMemory.run_load hfault]
    exact Trace.isMuted_map_of hoff .buses _

theorem muted_dataStore (address : Int) (content : Word 16) :
    Law.muted.Obeyed (DataMemory.store address content : Activity (DataMemory 16 16) Unit) := by
  intro memory
  cases hfault : memory.storeFault? address content.toInt with
  | some fault =>
    rw [DataMemory.run_store_of_fault hfault]
    exact Trace.isMuted_map_of hoff .buses _
  | none =>
    rw [DataMemory.run_store hfault]
    exact Trace.isMuted_map_of hoff .buses _

theorem muted_load : Law.muted.Obeyed load := by
  refine Law.muted_focus (Law.obeyed_bind Law.obeyed_get fun unit => ?_) dataPart
  refine Law.obeyed_bind (Law.muted_focus (muted_dataLoad hoff _) DataUnit.memoryPart)
    fun content => ?_
  exact Law.muted_modify _

theorem muted_store : Law.muted.Obeyed store := by
  refine Law.muted_focus (Law.obeyed_bind Law.obeyed_get fun unit => ?_) dataPart
  exact Law.muted_focus (muted_dataStore hoff _ _) DataUnit.memoryPart

theorem muted_operate (signals : Signals) :
    Law.muted.Obeyed (Datapath.operate signals : Activity (Datapath 16) Unit) := by
  intro d
  rw [Datapath.run_operate]
  exact Trace.isMuted_map_of hoff .buses _

theorem muted_perform (op : Microop) : Law.muted.Obeyed (perform op) := by
  cases op with
  | transfer sources targets signals =>
    exact muted_connecting (Law.muted_focus (muted_operate hoff signals) datapathPart) sources
      targets
  | immediate target v => exact muted_connecting (Law.muted_modify _) [] [target]
  | displace target v =>
    exact Law.obeyed_bind Law.obeyed_get fun p => muted_connecting (Law.muted_modify _) [] [target]
  | load => exact muted_connecting (muted_load hoff) [.ar] [.dr]
  | store => exact muted_connecting (muted_store hoff) [.dr, .ar] []
  | hold | halt => exact Law.muted_modify _

theorem admits_muted : Admits Law.muted where
  perform := muted_perform hoff
  gate hx := muted_connecting hx [.ip] []
  control p _ _ _ := Law.muted.refl p

/-- A step prints nothing, also if it faults. -/
theorem isMuted_step (p : Processor) : (step.run p).trace.IsMuted :=
  (admits_muted hoff).obeyed_step p

end

end Processor

namespace Machine

variable {m : Machine} {t : Trace}

/-- Whether the next single step answers that the program has ended. -/
def halts [Logger] (m : Machine) : Bool := (singleStep.run m).outcome.toOption = some .halted

/-- Without the registers, a step is followed by the end of the program alone. -/
theorem log_epilogue [Logger] (hoff : Logger.switches = {}) (m : Machine) :
    m.epilogue.log = if m.status = .halted then "CPU halted\n" else "" := by
  rw [epilogue, hoff]
  unfold status
  cases m.processor.isHalted <;> rfl

/-- With all switches off, a single step logs that the program has ended if that is its answer, and
nothing otherwise. -/
theorem log_singleStep [Logger] (hoff : Logger.switches = {}) (m : Machine) :
    (singleStep.run m).trace.log = if m.halts then "CPU halted\n" else "" := by
  have hbefore : ∀ {outcome p t}, Processor.step.run m.processor = ⟨outcome, p, t⟩ →
      (m.preamble ++ t).IsMuted := by
    intro outcome p t hstep
    have hpreamble : m.preamble = [] := by
      rw [preamble, hoff]
      rfl
    have hmuted := Processor.isMuted_step hoff m.processor
    rw [hstep] at hmuted
    rwa [hpreamble]
  have hends := m.singleStepEnds
  unfold halts
  generalize singleStep.run m = r at hends ⊢
  cases hends with
  | refused _ => rfl
  | faulted _ hstep => exact Trace.log_of_isMuted (hbefore hstep)
  | completed _ hstep =>
    rw [Trace.log_append_of_isMuted (hbefore hstep), log_epilogue hoff]
    simp [Except.toOption]

/-- The trace of a run is what its steps record, one after the other. -/
theorem trace_run [Logger] (budget : Nat) (m : Machine) :
    ((run budget).run m).trace = (stepped budget m).flatMap fun m => (singleStep.run m).trace := by
  induction budget, m using run_induction with
  | spent m => rfl
  | faulted budget m fault m₁ t hstep =>
    simp [run_succ_of_fault hstep, stepped_succ_of_fault hstep, hstep]
  | halted budget m m₁ t hstep =>
    simp [run_succ_of_halted hstep, stepped_succ_of_halted hstep, hstep]
  | running budget m m₁ t hstep ih =>
    simp [run_succ_of_running hstep, stepped_succ_of_running hstep, hstep, ih]

/-! ## The log of stepping and running -/

namespace Operation

/-- To make single steps, one or a run of them. -/
def isStepping : Operation → Bool
  | .step | .run _ => true
  | _ => false

/-- The machines that an operation steps, in order. -/
def stepped [Logger] : Operation → Machine → List Machine
  | .step, m => [m]
  | .run budget, m => m.stepped budget
  | _, _ => []

end Operation

/-- The machines that operations in a row step, in order. -/
def steppedBy [Logger] : List Operation → Machine → List Machine
  | [], _ => []
  | op :: ops, m => op.stepped m ++ steppedBy ops (op.perform.run m).state

/-- What steps in a row log with all switches off: a line for each of them that answers that the
program has ended. -/
theorem log_steps [Logger] (hoff : Logger.switches = {}) (ms : List Machine) :
    Trace.log (ms.flatMap fun m => (singleStep.run m).trace)
      = String.join (List.replicate (ms.countP halts) "CPU halted\n") := by
  induction ms with
  | nil => rfl
  | cons m ms ih =>
    rw [List.flatMap_cons, Trace.log_append, ih, log_singleStep hoff]
    cases hhalts : m.halts with
    | false => simp [hhalts]
    | true => simp [hhalts, List.replicate_succ, String.join_cons]

/-- Stepping and running record what their single steps record. -/
theorem Operation.trace_of_stepping [Logger] {op : Operation} (hop : op.isStepping = true)
    (m : Machine) :
    (op.perform.run m).trace = (op.stepped m).flatMap fun m => (singleStep.run m).trace := by
  cases op with
  | step =>
    have htrace : (Operation.step.perform.run m).trace = (singleStep.run m).trace :=
      congrArg Reaction.trace (Activity.run_bind_pure _ _ m)
    simp [htrace, stepped]
  | run budget =>
    have htrace : ((Operation.run budget).perform.run m).trace
        = ((Machine.run budget).run m).trace :=
      congrArg Reaction.trace (Activity.run_bind_pure _ _ m)
    rw [htrace, trace_run, stepped]
  | _ => exact absurd hop (by simp [isStepping])

/-- The log of stepping and running at a panel, whose switches are those of the logger. -/
theorem log_serveAll_stepping [Logger] {ops : List Operation}
    (hops : ∀ op ∈ ops, op.isStepping = true) (m : Machine) :
    String.join ((Panel.serveAll Operation.perform (ops.map .operate)
        ⟨m, Logger.switches⟩).1.map Prod.snd)
      = Trace.log ((steppedBy ops m).flatMap fun m => (singleStep.run m).trace) := by
  induction ops generalizing m with
  | nil => rfl
  | cons op ops ih =>
    have hop := Operation.trace_of_stepping (hops op List.mem_cons_self) m
    have hrest := ih (fun op' hop' => hops op' (List.mem_cons_of_mem op hop'))
      (op.perform.run m).state
    rw [steppedBy, List.flatMap_append, Trace.log_append, ← hop, ← hrest, ← String.join_cons]
    rfl

/-- The switches are for the log alone. Requests with the same operations in them, in the same
order, make the same observations, wherever the switches stand at the start and however they are
turned in between; and with all switches off, stepping and running log one line for each single
step that answers that the program has ended, and nothing else. -/
theorem logging_inert (m : Machine) :
    (∀ (switches₁ switches₂ : Switches) (requests₁ requests₂ : List (Request Operation)),
        requests₁.filterMap Request.operation? = requests₂.filterMap Request.operation? →
        Panel.observations Operation.perform requests₁ ⟨m, switches₁⟩
            = Panel.observations Operation.perform requests₂ ⟨m, switches₂⟩
          ∧ (Panel.serveAll Operation.perform requests₁ ⟨m, switches₁⟩).2.state
            = (Panel.serveAll Operation.perform requests₂ ⟨m, switches₂⟩).2.state)
      ∧ letI := Logger.silent
        ∀ ops : List Operation, (∀ op ∈ ops, op.isStepping = true) →
          String.join ((Panel.serveAll Operation.perform (ops.map .operate) ⟨m, {}⟩).1.map Prod.snd)
            = String.join (List.replicate ((steppedBy ops m).countP halts) "CPU halted\n") := by
  constructor
  · intro switches₁ switches₂ requests₁ requests₂ hops
    -- both are what the operations do under one and the same logger
    have hobservations := fun requests switches =>
      @Panel.observations_eq _ _ _ .silent Operation.oblivious_perform requests ⟨m, switches⟩
    have hstate := fun requests switches =>
      @Panel.state_serveAll _ _ _ .silent Operation.oblivious_perform requests ⟨m, switches⟩
    rw [hobservations, hobservations, hstate, hstate, hops]
    exact ⟨rfl, rfl⟩
  · intro ops hops
    exact (@log_serveAll_stepping .silent ops hops m).trans (@log_steps .silent rfl _)

/-- A program of two steps. -/
def passing : Image where
  program := [some { operation := "INC" }, some { operation := "HLT" }]

/-- Two operators do the same, one with everything shown and one who turns a switch halfway. With
nothing shown, a machine that is stepped, run to its end, stepped and run again logs three lines. -/
theorem logging_inert_passing :
    ∃ m, boot passing (some []) = .ok m
      ∧ Panel.observations Operation.perform [.operate .step, .operate (.run 5), .operate .load]
            ⟨m, ⟨true, true, true⟩⟩
          = Panel.observations Operation.perform [.operate .step, .setSwitches ⟨false, true, false⟩,
              .operate (.run 5), .remark "now", .operate .load] ⟨m, {}⟩
      ∧ String.join ((Panel.serveAll Operation.perform
            ([.step, .run 5, .step, .run 2].map .operate) ⟨m, {}⟩).1.map Prod.snd)
          = "CPU halted\nCPU halted\nCPU halted\n" := by
  have hobservations := fun m => (logging_inert m).1 ⟨true, true, true⟩ {}
    [.operate .step, .operate (.run 5), .operate .load]
    [.operate .step, .setSwitches ⟨false, true, false⟩, .operate (.run 5), .remark "now",
      .operate .load] rfl
  refine ⟨_, rfl, (hobservations _).1, ?_⟩
  exact (logging_inert _).2 [.step, .run 5, .step, .run 2] (by decide)

end Machine

end TwoBus
