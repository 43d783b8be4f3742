import TwoBus.Panel

/-!
# Two runs under different switches

Many parts of a machine look at the switches of the log while they work, and do something only if a
switch is on. An activity is oblivious (`Activity.Oblivious`) if all the same any two runs of it
from one state, whatever the switches of either, come to the same answer or to the same fault, and
leave the same state behind. What they record and print may differ.

Being oblivious is kept by all the ways in which activities are put together. The switches come in
with `emit` and `whenOn`: there the two runs may do different things, and it has to be shown of each
thing that it does nothing but record (`Activity.OnlyRecords`). The disassembly looks up a program
cell for that purpose, which could fault (`Processor.onlyRecords_disassembleCurrent`).

* `Machine.Operation.oblivious_perform`: every operation on a machine is oblivious.
* `Panel.observations_eq`: what is observed at a panel besides the log.
-/

namespace TwoBus

/-- Two runs have ended alike, and left the same state. -/
structure Reaction.Agrees {σ α : Type} (r₁ r₂ : Reaction σ α) : Prop where
  outcome : r₁.outcome = r₂.outcome
  state : r₁.state = r₂.state

namespace Activity

variable {σ τ α β : Type}

/-- Any two runs from one state agree, under whatever switches. -/
def Oblivious (x : Activity σ α) : Prop :=
  ∀ (switches₁ switches₂ : Switches) (s : σ), (x.react switches₁ s).Agrees (x.react switches₂ s)

/-- Under any switches, the activity cannot fault and leaves the state as it is. -/
def OnlyRecords (x : Activity σ Unit) : Prop :=
  ∀ (switches : Switches) (s : σ), ∃ t, x.react switches s = ⟨.ok (), s, t⟩

/-! ### Recording -/

theorem OnlyRecords.oblivious {x : Activity σ Unit} (hx : x.OnlyRecords) : x.Oblivious := by
  intro switches₁ switches₂ s
  obtain ⟨t₁, hrun₁⟩ := hx switches₁ s
  obtain ⟨t₂, hrun₂⟩ := hx switches₂ s
  rw [hrun₁, hrun₂]
  exact ⟨rfl, rfl⟩

/-- What holds of the runs under any logger holds under any switches. -/
theorem onlyRecords_of_run {x : Activity σ Unit}
    (h : ∀ (_ : Logger) (s : σ), ∃ t, x.run s = ⟨.ok (), s, t⟩) : x.OnlyRecords :=
  fun switches => h ⟨switches⟩

/-- Whether a channel is on decides what is recorded, if nothing but that is done for it. -/
theorem onlyRecords_whenOn {x : Activity σ Unit} (hx : x.OnlyRecords) (channel : Channel) :
    (whenOn channel x).OnlyRecords := by
  refine onlyRecords_of_run fun logger s => ?_
  rw [run_whenOn]
  split
  · exact hx logger.switches s
  · exact ⟨[], rfl⟩

theorem oblivious_emit (channel : Channel) (event : Event) :
    (emit channel event : Activity σ Unit).Oblivious :=
  (onlyRecords_of_run fun _ s => ⟨_, run_emit channel event s⟩).oblivious

theorem oblivious_announce (event : Event) : (announce event : Activity σ Unit).Oblivious :=
  (onlyRecords_of_run fun _ s => ⟨_, run_announce event s⟩).oblivious

theorem oblivious_report (events : List Event) : (report events : Activity σ Unit).Oblivious :=
  (onlyRecords_of_run fun _ s => ⟨_, run_report events s⟩).oblivious

/-! ### Putting activities together -/

/-- Both runs go on from one state with one answer, or neither goes on. -/
theorem agrees_andThen {r₁ r₂ : Reaction σ α} {next : α → Activity σ β} (h : r₁.Agrees r₂)
    (hnext : ∀ a, (next a).Oblivious) (logger₁ logger₂ : Logger) :
    Reaction.Agrees (@Reaction.andThen _ _ _ logger₁ r₁ next)
      (@Reaction.andThen _ _ _ logger₂ r₂ next) := by
  obtain ⟨outcome, s, t₁⟩ := r₁
  obtain ⟨_, _, t₂⟩ := r₂
  obtain ⟨rfl, rfl⟩ := h
  cases outcome with
  | error fault => exact ⟨rfl, rfl⟩
  | ok a =>
    have hrest := hnext a logger₁.switches logger₂.switches s
    exact ⟨hrest.outcome, hrest.state⟩

theorem oblivious_pure (a : α) : (pure a : Activity σ α).Oblivious := fun _ _ _ => ⟨rfl, rfl⟩

theorem oblivious_get : (get : Activity σ σ).Oblivious := fun _ _ _ => ⟨rfl, rfl⟩

theorem oblivious_set (s : σ) : (set s : Activity σ PUnit).Oblivious := fun _ _ _ => ⟨rfl, rfl⟩

theorem oblivious_modify (f : σ → σ) : (modify f : Activity σ PUnit).Oblivious :=
  fun _ _ _ => ⟨rfl, rfl⟩

theorem oblivious_fail (fault : Fault) : (fail fault : Activity σ α).Oblivious :=
  fun _ _ _ => ⟨rfl, rfl⟩

theorem oblivious_lift (x : Except Fault α) : (liftM x : Activity σ α).Oblivious :=
  fun _ _ _ => ⟨rfl, rfl⟩

theorem oblivious_bind {x : Activity σ α} {next : α → Activity σ β} (hx : x.Oblivious)
    (hnext : ∀ a, (next a).Oblivious) : (x >>= next).Oblivious :=
  fun switches₁ switches₂ s =>
    agrees_andThen (hx switches₁ switches₂ s) hnext ⟨switches₁⟩ ⟨switches₂⟩

theorem oblivious_ite {c : Prop} [Decidable c] {x y : Activity σ α} (hx : x.Oblivious)
    (hy : y.Oblivious) : (if c then x else y).Oblivious := by
  split
  · exact hx
  · exact hy

theorem oblivious_forM {f : α → Activity σ PUnit} (hf : ∀ a, (f a).Oblivious) (as : List α) :
    (as.forM f).Oblivious := by
  induction as with
  | nil => exact oblivious_pure _
  | cons a as ih => exact oblivious_bind (hf a) fun _ => ih

theorem oblivious_focus {x : Activity τ α} (hx : x.Oblivious) (part : Part σ τ) :
    (focus part x).Oblivious := by
  intro switches₁ switches₂ s
  obtain ⟨houtcome, hstate⟩ := hx switches₁ switches₂ (part.get s)
  exact ⟨houtcome, congrArg (part.set s) hstate⟩

theorem oblivious_isolate {x : Activity τ α} (hx : x.Oblivious) (start : τ) :
    (isolate start x : Activity σ α).Oblivious :=
  fun switches₁ switches₂ _ => ⟨(hx switches₁ switches₂ start).outcome, rfl⟩

theorem oblivious_bracket {x : Activity σ α} (hx : x.Oblivious) (before after : σ → σ) :
    (bracket before after x).Oblivious := by
  intro switches₁ switches₂ s
  obtain ⟨houtcome, hstate⟩ := hx switches₁ switches₂ (before s)
  exact ⟨houtcome, congrArg after hstate⟩

/-- Both runs are repaired, or neither is. -/
theorem oblivious_onFault {x : Activity σ α} (hx : x.Oblivious) (repair : σ → σ) :
    (onFault repair x).Oblivious := by
  intro switches₁ switches₂ s
  have hagree := hx switches₁ switches₂ s
  unfold onFault
  dsimp only
  revert hagree
  generalize x.react switches₁ s = r₁
  generalize x.react switches₂ s = r₂
  intro hagree
  obtain ⟨outcome, s', t₁⟩ := r₁
  obtain ⟨_, _, t₂⟩ := r₂
  obtain ⟨rfl, rfl⟩ := hagree
  cases outcome <;> exact ⟨rfl, rfl⟩

end Activity

open Activity

/-! ## The data path -/

namespace Buses

theorem oblivious_assign (bus : Bus) (v : Int) : (assign bus v).Oblivious :=
  oblivious_bind (oblivious_emit _ _) fun _ => oblivious_bind oblivious_get fun _ =>
    oblivious_ite (oblivious_fail _) (oblivious_set _)

theorem oblivious_freeze : freeze.Oblivious :=
  oblivious_bind oblivious_get fun _ => oblivious_ite (oblivious_fail _) (oblivious_set _)

theorem oblivious_sample (bus : Bus) : (sample bus).Oblivious :=
  oblivious_bind oblivious_get fun _ => oblivious_ite
    (oblivious_bind (oblivious_emit _ _) fun _ => oblivious_pure _) (oblivious_fail _)

end Buses

variable {w : Nat}

theorem RegisterFile.oblivious_driveBuses (file : RegisterFile w) : file.driveBuses.Oblivious :=
  oblivious_forM
    (fun _ => oblivious_bind (oblivious_emit _ _) fun _ => Buses.oblivious_assign _ _) _

theorem RegisterFile.oblivious_sampleBuses (file : RegisterFile w) :
    file.sampleBuses.Oblivious := by
  refine oblivious_bind file.oblivious_driveBuses fun _ => ?_
  refine oblivious_bind Buses.oblivious_freeze fun _ => ?_
  refine oblivious_bind (Buses.oblivious_sample .a) fun _ => ?_
  exact oblivious_bind (Buses.oblivious_sample .b) fun _ => oblivious_pure _

namespace Datapath

theorem oblivious_latch (v : Int) : (latch v : Activity (Datapath w) Unit).Oblivious :=
  oblivious_bind oblivious_get fun _ =>
    oblivious_bind (oblivious_forM (fun _ => oblivious_emit _ _) _) fun _ => oblivious_set _

theorem oblivious_operate (signals : Signals) :
    (operate signals : Activity (Datapath w) Unit).Oblivious := by
  refine oblivious_bind (oblivious_emit _ _) fun _ => oblivious_bind oblivious_get fun d => ?_
  refine oblivious_bind (oblivious_isolate d.registers.oblivious_sampleBuses {}) fun _ => ?_
  exact oblivious_bind (oblivious_set _) fun _ => oblivious_latch _

theorem oblivious_observe (file : RegisterFile w) : (observe file).Oblivious := by
  refine oblivious_bind file.oblivious_driveBuses fun _ => ?_
  refine oblivious_bind Buses.oblivious_freeze fun _ => oblivious_bind oblivious_get fun _ => ?_
  refine oblivious_bind (Buses.oblivious_sample .a) fun _ => ?_
  exact oblivious_bind (Buses.oblivious_sample .b) fun _ => oblivious_pure _

theorem Operation.oblivious_perform (op : Operation) :
    (op.perform : Activity (Datapath w) Answer).Oblivious := by
  cases op with
  | poke | setGate | write => exact oblivious_bind (oblivious_modify _) fun _ => oblivious_pure _
  | read r => exact oblivious_bind oblivious_get fun _ => oblivious_pure _
  | operate byte =>
    exact oblivious_bind (oblivious_lift _) fun _ =>
      oblivious_bind (oblivious_operate _) fun _ => oblivious_pure _
  | latch n => exact oblivious_bind (oblivious_latch _) fun _ => oblivious_pure _
  | drive frozen =>
    exact oblivious_bind oblivious_get fun _ => oblivious_isolate (oblivious_observe _) _
  | report =>
    exact oblivious_bind oblivious_get fun _ =>
      oblivious_bind (oblivious_report _) fun _ => oblivious_pure _

end Datapath

/-! ## The data memory and its devices -/

theorem InputDevice.oblivious_read : read.Oblivious :=
  oblivious_bind oblivious_get fun _ => oblivious_bind (oblivious_set _) fun _ => oblivious_pure _

theorem OutputDevice.oblivious_write (v : Int) : (write v).Oblivious :=
  oblivious_bind oblivious_get fun _ => oblivious_bind (oblivious_lift _) fun _ => oblivious_set _

namespace Window

variable {δ σ : Type} {window : Window δ}

theorem oblivious_read {readDevice : δ → Activity σ (Word 16)}
    (h : ∀ device, (readDevice device).Oblivious) (slot : Nat) :
    (window.read readDevice slot).Oblivious :=
  oblivious_bind (oblivious_lift _) fun device => oblivious_bind (h device) fun _ =>
    oblivious_bind (oblivious_emit _ _) fun _ => oblivious_pure _

theorem oblivious_write {writeDevice : δ → Int → Activity σ Unit}
    (h : ∀ device v, (writeDevice device v).Oblivious) (slot : Nat) (v : Int) :
    (window.write writeDevice slot v).Oblivious :=
  oblivious_bind (oblivious_lift _) fun device =>
    oblivious_bind (oblivious_emit _ _) fun _ => h device v

end Window

namespace IoUnit

theorem oblivious_read (slot : Nat) : (read slot).Oblivious := by
  refine Window.oblivious_read (fun device => ?_) slot
  cases device with
  | input => exact oblivious_focus InputDevice.oblivious_read inputPart
  | output => exact oblivious_focus (oblivious_fail _) outputPart

theorem oblivious_write (slot : Nat) (v : Int) : (write slot v).Oblivious := by
  refine Window.oblivious_write (fun device v => ?_) slot v
  cases device with
  | input => exact oblivious_pure _
  | output => exact oblivious_focus (OutputDevice.oblivious_write v) outputPart

end IoUnit

variable {aw dw : Nat}

namespace DataMemory

theorem oblivious_receive (cell : Nat) :
    (receive cell : Activity (DataMemory aw dw) Unit).Oblivious := by
  refine oblivious_ite ?_ (oblivious_pure _)
  exact oblivious_bind (oblivious_focus (IoUnit.oblivious_read cell) ioPart) fun _ =>
    oblivious_modify _

theorem oblivious_send (cell : Nat) (content : Word dw) :
    (send cell content : Activity (DataMemory aw dw) Unit).Oblivious :=
  oblivious_ite (oblivious_focus (IoUnit.oblivious_write cell _) ioPart) (oblivious_pure _)

theorem oblivious_load (address : Int) :
    (load address : Activity (DataMemory aw dw) (Word dw)).Oblivious := by
  refine oblivious_bind (oblivious_emit _ _) fun _ => oblivious_bind oblivious_get fun _ => ?_
  refine oblivious_bind (oblivious_lift _) fun cell => ?_
  refine oblivious_bind (oblivious_receive cell) fun _ => oblivious_bind oblivious_get fun _ => ?_
  exact oblivious_bind (oblivious_emit _ _) fun _ => oblivious_pure _

theorem oblivious_store (address : Int) (content : Word dw) :
    (store address content : Activity (DataMemory aw dw) Unit).Oblivious := by
  refine oblivious_bind (oblivious_emit _ _) fun _ => oblivious_bind oblivious_get fun _ => ?_
  refine oblivious_bind (oblivious_lift _) fun cell => ?_
  refine oblivious_bind (oblivious_send cell content) fun _ => ?_
  exact oblivious_bind (oblivious_emit _ _) fun _ => oblivious_modify _

end DataMemory

namespace DataUnit

theorem oblivious_load : (load : Activity (DataUnit aw dw) Unit).Oblivious :=
  oblivious_bind oblivious_get fun _ =>
    oblivious_bind (oblivious_focus (DataMemory.oblivious_load _) memoryPart) fun _ =>
      oblivious_modify _

theorem oblivious_store : (store : Activity (DataUnit aw dw) Unit).Oblivious :=
  oblivious_bind oblivious_get fun _ => oblivious_focus (DataMemory.oblivious_store _ _) memoryPart

end DataUnit

/-! ## The processor -/

namespace Processor

theorem oblivious_connecting {α : Type} {x : Activity Processor α} (hx : x.Oblivious)
    (sources targets : List Reg) : (connecting sources targets x).Oblivious :=
  oblivious_bracket hx _ _

theorem oblivious_load : load.Oblivious := oblivious_focus DataUnit.oblivious_load dataPart

theorem oblivious_store : store.Oblivious := oblivious_focus DataUnit.oblivious_store dataPart

/-- One step of an instruction. -/
theorem oblivious_perform (op : Microop) : (perform op).Oblivious := by
  cases op with
  | transfer sources targets signals =>
    exact oblivious_connecting
      (oblivious_focus (Datapath.oblivious_operate signals) datapathPart) sources targets
  | immediate target v => exact oblivious_connecting (oblivious_modify _) [] [target]
  | displace target v =>
    exact oblivious_bind oblivious_get fun _ =>
      oblivious_connecting (oblivious_modify _) [] [target]
  | load => exact oblivious_connecting oblivious_load [.ar] [.dr]
  | store => exact oblivious_connecting oblivious_store [.dr, .ar] []
  | hold | halt => exact oblivious_modify _

theorem oblivious_fetch : fetch.Oblivious := by
  refine oblivious_bind (oblivious_connecting ?_ [.ip] []) fun cell => ?_
  · exact oblivious_bind oblivious_get fun _ => oblivious_bind (oblivious_lift _) fun _ =>
      oblivious_bind (oblivious_modify _) fun _ => oblivious_pure _
  · cases cell with
    | some inst => exact oblivious_pure inst
    | none => exact oblivious_bind oblivious_get fun _ => oblivious_fail _

theorem oblivious_execute (inst : Instruction) : (execute inst).Oblivious := by
  refine oblivious_bind oblivious_get fun p => ?_
  cases inst.microprogram p.registers.acc.word.toInt with
  | error cause => exact oblivious_fail _
  | ok ops => exact oblivious_forM oblivious_perform ops

theorem oblivious_advance : advance.Oblivious :=
  oblivious_bind oblivious_get fun _ => oblivious_ite (oblivious_pure _) (oblivious_perform _)

theorem oblivious_enter (phase : Phase) : (enter phase).Oblivious := oblivious_modify _

theorem oblivious_pass : pass.Oblivious := by
  refine oblivious_bind (oblivious_enter _) fun _ => oblivious_bind oblivious_fetch fun inst => ?_
  refine oblivious_bind (oblivious_enter _) fun _ => ?_
  refine oblivious_bind (oblivious_execute inst) fun _ => oblivious_bind oblivious_get fun _ => ?_
  refine oblivious_bind (oblivious_enter _) fun _ => ?_
  exact oblivious_bind oblivious_advance fun _ => oblivious_enter _

theorem oblivious_step : step.Oblivious := by
  refine oblivious_bind oblivious_get fun _ => oblivious_ite (oblivious_fail _) ?_
  exact oblivious_bind (oblivious_modify _) fun _ => oblivious_onFault oblivious_pass _

/-- The disassembly looks a cell up, and does not fault. -/
theorem onlyRecords_disassembleCurrent : disassembleCurrent.OnlyRecords :=
  onlyRecords_of_run fun _ p => ⟨_, run_disassembleCurrent p⟩

theorem onlyRecords_dumpRegisters : dumpRegisters.OnlyRecords :=
  onlyRecords_of_run fun _ p => ⟨_, run_dumpRegisters p⟩

end Processor

/-! ## The machine -/

namespace Machine

theorem onlyRecords_focus {x : Activity Processor Unit} (hx : x.OnlyRecords) :
    (Activity.focus processorPart x).OnlyRecords := by
  intro switches m
  obtain ⟨t, hrun⟩ := hx switches m.processor
  exact ⟨t, congrArg (Reaction.mapState (processorPart.set m)) hrun⟩

theorem oblivious_onProcessor {α : Type} {x : Activity Processor α} (hx : x.Oblivious) :
    (onProcessor x).Oblivious := oblivious_focus hx processorPart

theorem oblivious_onIo {α : Type} {x : Activity IoUnit α} (hx : x.Oblivious) :
    (onIo x).Oblivious := oblivious_onProcessor (oblivious_focus hx Processor.ioPart)

/-- A single step may disassemble before it steps and report after it, and is oblivious of that. -/
theorem oblivious_singleStep : singleStep.Oblivious := by
  have hdisassembly : (Activity.whenOn .disassembly
      (Activity.focus processorPart Processor.disassembleCurrent)).Oblivious :=
    (onlyRecords_whenOn (onlyRecords_focus Processor.onlyRecords_disassembleCurrent) _).oblivious
  have hdump : (Activity.whenOn .registers
      (Activity.focus processorPart Processor.dumpRegisters)).Oblivious :=
    (onlyRecords_whenOn (onlyRecords_focus Processor.onlyRecords_dumpRegisters) _).oblivious
  have hended : ∀ status : Status, (do Activity.announce .halted; return status :
      Activity Machine Status).Oblivious :=
    fun status => oblivious_bind (oblivious_announce _) fun _ => oblivious_pure status
  refine oblivious_bind oblivious_get fun _ => oblivious_ite (hended _) ?_
  refine oblivious_bind hdisassembly fun _ => ?_
  refine oblivious_bind (oblivious_focus Processor.oblivious_step processorPart) fun _ => ?_
  refine oblivious_bind (oblivious_modify _) fun _ => oblivious_bind hdump fun _ => ?_
  exact oblivious_bind oblivious_get fun _ => oblivious_ite (hended _) (oblivious_pure _)

/-- Two runs on one budget take the same steps. -/
theorem oblivious_run (budget : Nat) : (run budget).Oblivious := by
  induction budget with
  | zero => exact fun _ _ _ => ⟨rfl, rfl⟩
  | succ budget ih =>
    rw [run_succ]
    refine oblivious_bind oblivious_singleStep fun status => ?_
    cases status with
    | halted => exact oblivious_pure _
    | running => exact ih

/-- Whatever is done to a machine is oblivious of the switches. -/
theorem Operation.oblivious_perform (op : Operation) : op.perform.Oblivious := by
  cases op with
  | datapath op =>
    exact oblivious_onProcessor (oblivious_focus op.oblivious_perform Processor.datapathPart)
  | step => exact oblivious_bind oblivious_singleStep fun _ => oblivious_pure _
  | run budget => exact oblivious_bind (oblivious_run budget) fun _ => oblivious_pure _
  | processorStep =>
    exact oblivious_bind (oblivious_onProcessor Processor.oblivious_step) fun _ =>
      oblivious_pure _
  | report =>
    exact oblivious_bind (oblivious_onProcessor Processor.onlyRecords_dumpRegisters.oblivious)
      fun _ => oblivious_pure _
  | load =>
    exact oblivious_bind (oblivious_onProcessor Processor.oblivious_load) fun _ => oblivious_pure _
  | store =>
    exact oblivious_bind (oblivious_onProcessor Processor.oblivious_store) fun _ =>
      oblivious_pure _
  | fetch | peek | peekInstruction =>
    exact oblivious_bind oblivious_get fun _ =>
      oblivious_bind (oblivious_lift _) fun _ => oblivious_pure _
  | deviceRead slot =>
    exact oblivious_bind (oblivious_onIo (IoUnit.oblivious_read slot)) fun _ => oblivious_pure _
  | deviceWrite slot n =>
    exact oblivious_bind (oblivious_onIo (IoUnit.oblivious_write slot _)) fun _ =>
      oblivious_pure _
  | flush =>
    exact oblivious_bind (oblivious_onIo (oblivious_focus (oblivious_pure ()) IoUnit.outputPart))
      fun _ => oblivious_pure _
  | setSink good =>
    exact oblivious_bind (oblivious_onIo (oblivious_focus (oblivious_modify _) IoUnit.outputPart))
      fun _ => oblivious_pure _

end Machine

/-! ## Panels -/

/-- The operation that is asked for, if there is one. -/
def Request.operation? {ω : Type} : Request ω → Option ω
  | .operate op => some op
  | _ => none

namespace Panel

variable {σ ω : Type} {perform : ω → Activity σ Answer}

/-- What is observed besides the log when requests are served in order: the answer to each operation
and what is worked on after it. -/
def observations (perform : ω → Activity σ Answer) :
    List (Request ω) → Panel σ → List (Except Fault Answer × σ)
  | [], _ => []
  | request :: requests, panel =>
    let (answer, panel, _) := panel.serve perform request
    match request.operation? with
    | some _ => (answer, panel.state) :: observations perform requests panel
    | none => observations perform requests panel

/-- The answer to each operation of a list and the state after it, under one logger. -/
def effects [Logger] (perform : ω → Activity σ Answer) :
    List ω → σ → List (Except Fault Answer × σ)
  | [], _ => []
  | op :: ops, s =>
    let r := (perform op).run s
    (r.outcome, r.state) :: effects perform ops r.state

/-- What is left after some operations under one logger. -/
def finalState [Logger] (perform : ω → Activity σ Answer) (ops : List ω) (s : σ) : σ :=
  ops.foldl (fun s op => ((perform op).run s).state) s

/-- An operation at a panel answers as it does under any logger, and leaves the same state. -/
theorem serve_operate [Logger] {op : ω} (h : (perform op).Oblivious) (panel : Panel σ) :
    (panel.serve perform (.operate op)).1 = ((perform op).run panel.state).outcome
      ∧ (panel.serve perform (.operate op)).2.1
        = { panel with state := ((perform op).run panel.state).state } := by
  obtain ⟨houtcome, hstate⟩ := h panel.switches Logger.switches panel.state
  exact ⟨houtcome, congrArg (fun s => { panel with state := s }) hstate⟩

/-- The observations are the effects of the operations under any one logger, whatever else is asked
for. -/
theorem observations_eq [Logger] (h : ∀ op, (perform op).Oblivious) (requests : List (Request ω))
    (panel : Panel σ) :
    observations perform requests panel
      = effects perform (requests.filterMap Request.operation?) panel.state := by
  induction requests generalizing panel with
  | nil => rfl
  | cons request requests ih =>
    cases request with
    | setSwitches switches => exact ih _
    | remark text => exact ih _
    | operate op =>
      obtain ⟨houtcome, hpanel⟩ := serve_operate (h op) panel
      show ((panel.serve perform (.operate op)).1, (panel.serve perform (.operate op)).2.1.state)
        :: observations perform requests (panel.serve perform (.operate op)).2.1 = _
      rw [ih, houtcome, hpanel]
      rfl

theorem state_serveAll [Logger] (h : ∀ op, (perform op).Oblivious) (requests : List (Request ω))
    (panel : Panel σ) :
    (serveAll perform requests panel).2.state
      = finalState perform (requests.filterMap Request.operation?) panel.state := by
  induction requests generalizing panel with
  | nil => rfl
  | cons request requests ih =>
    cases request with
    | setSwitches switches => exact ih _
    | remark text => exact ih _
    | operate op =>
      show (serveAll perform requests (panel.serve perform (.operate op)).2.1).2.state = _
      rw [ih, (serve_operate (h op) panel).2]
      rfl

end Panel

end TwoBus
