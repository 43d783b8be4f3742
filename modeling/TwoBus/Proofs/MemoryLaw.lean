import TwoBus.Proofs.Session
import TwoBus.Proofs.StepLaw

/-!
# Laws of the data memory

Only two actions of the control unit reach the data memory, and they do there what a load or a store
at the address register does. So a law of the data memory is obeyed by every step, and by every
operation that steps or runs the machine, if loads and stores obey it.

* `Processor.admits_via_memory`, `Machine.Operation.obeyed_memory_executing`: from the memory to
  steps and to operations.
* `Processor.run_perform_load`, `Processor.run_perform_store`, `Processor.untouched_perform`: what
  an action does to the memory.
-/

namespace TwoBus

/-- Of what is recorded, a law is about the traffic at the data memory alone. -/
def Law.IgnoresLog {σ : Type} (law : Law σ) : Prop :=
  ∀ s t, (∀ event ∈ Trace.events t, event.isTraffic = false) → law.Holds s t s

namespace Processor

section Memory

variable {inner : Law (DataMemory 16 16)}

theorem obeyed_memory_connecting [Logger] {α : Type} {x : Activity Processor α}
    (hx : (inner.via Processor.memory).Obeyed x) (sources targets : List Reg) :
    (inner.via Processor.memory).Obeyed (connecting sources targets x) := by
  intro p
  exact hx (p.mapRegisters fun file =>
    (file.setGates .read true sources).setGates .write true targets)

theorem obeyed_memory_put [Logger] (r : Reg) (v : Int) : (inner.via Processor.memory).Obeyed
    (put r v) :=
  obeyed_memory_connecting (Law.obeyed_modify fun p => inner.refl p.memory) [] [r]

theorem obeyed_memory_operate [Logger] (hlog : inner.IgnoresLog) (signals : Signals) :
    (inner.via Processor.memory).Obeyed
      (Activity.focus datapathPart (Datapath.operate signals)) := by
  intro p
  rw [Activity.run_focus, Datapath.run_operate]
  refine hlog p.memory _ ?_
  rw [Reaction.trace_mapState, Trace.events_map_of]
  exact Datapath.isTraffic_cycleEvents _ signals

theorem obeyed_memory_dataPart [Logger] {x : Activity (DataUnit 16 16) Unit}
    (hx : (inner.via DataUnit.memory).Obeyed x) :
    (inner.via Processor.memory).Obeyed (Activity.focus dataPart x) :=
  Law.obeyed_focus hx fun _ _ _ h => h

theorem obeyed_memory_memoryPart [Logger] {α : Type} {x : Activity (DataMemory 16 16) α}
    (hx : inner.Obeyed x) :
    (inner.via DataUnit.memory).Obeyed (Activity.focus DataUnit.memoryPart x) :=
  Law.obeyed_focus hx fun _ _ _ h => h

theorem obeyed_memory_load [Logger] (hload : ∀ address, inner.Obeyed (DataMemory.load address)) :
    (inner.via Processor.memory).Obeyed load := by
  refine obeyed_memory_dataPart (Law.obeyed_bind Law.obeyed_get fun unit => ?_)
  refine Law.obeyed_bind (obeyed_memory_memoryPart (hload _)) fun content => ?_
  exact Law.obeyed_modify fun unit => inner.refl unit.memory

theorem obeyed_memory_store [Logger]
    (hstore : ∀ address content, inner.Obeyed (DataMemory.store address content)) :
    (inner.via Processor.memory).Obeyed store :=
  obeyed_memory_dataPart (Law.obeyed_bind Law.obeyed_get fun _ =>
    obeyed_memory_memoryPart (hstore _ _))

/-- An action obeys a law of the data memory unless it is a load or a store that does not. -/
theorem obeyed_memory_perform [Logger] (hlog : inner.IgnoresLog) (op : Microop)
    (hload : op = .load → ∀ address, inner.Obeyed (DataMemory.load address))
    (hstore : op = .store → ∀ address content, inner.Obeyed (DataMemory.store address content)) :
    (inner.via Processor.memory).Obeyed (perform op) := by
  cases op with
  | transfer sources targets signals =>
    exact obeyed_memory_connecting (obeyed_memory_operate hlog signals) sources targets
  | immediate target v => exact obeyed_memory_put target v.toInt
  | displace target v =>
    exact Law.obeyed_bind Law.obeyed_get fun p => obeyed_memory_put target _
  | load => exact obeyed_memory_connecting (obeyed_memory_load (hload rfl)) [.ar] [.dr]
  | store => exact obeyed_memory_connecting (obeyed_memory_store (hstore rfl)) [.dr, .ar] []
  | hold | halt => exact Law.obeyed_modify fun p => inner.refl p.memory

/-- A law of the data memory is admitted if loads and stores obey it, wherever they go. -/
theorem admits_via_memory [Logger] (hlog : inner.IgnoresLog)
    (hload : ∀ address, inner.Obeyed (DataMemory.load address))
    (hstore : ∀ address content, inner.Obeyed (DataMemory.store address content)) :
    Admits (inner.via Processor.memory) where
  perform op := obeyed_memory_perform hlog op (fun _ => hload) fun _ => hstore
  gate hx := obeyed_memory_connecting hx [.ip] []
  control p _ _ _ := inner.refl p.memory

end Memory

/-! ## One action -/

/-- What a load of the control unit does is what the memory does at the address register, and what
the memory delivers is in the data register afterwards. -/
theorem run_perform_load [Logger] {p : Processor} {outcome : Except Fault (Word 16)}
    {memory : DataMemory 16 16} {t : Trace}
    (h : (DataMemory.load p.registers.ar.word.toInt).run p.memory = ⟨outcome, memory, t⟩) :
    ∃ p', (perform .load).run p = ⟨outcome.map fun _ => (), p', t⟩ ∧ p'.memory = memory
      ∧ ∀ content, outcome = .ok content → p'.registers.dr.word = content := by
  rw [perform, connecting, Activity.run_bracket, load, Activity.run_focus, DataUnit.load,
    Activity.run_bind, Activity.run_get, Reaction.andThen_ok, Reaction.after_nil, Activity.run_bind,
    Activity.run_focus]
  -- inside, the gates of both registers are open
  show ∃ p', Reaction.mapState _ (Reaction.mapState _ (Reaction.andThen (Reaction.mapState _
    ((DataMemory.load p.registers.ar.word.toInt).run p.memory)) _)) = _ ∧ _
  rw [h]
  cases outcome with
  | error fault => exact ⟨_, rfl, rfl, fun _ hok => absurd hok (by simp)⟩
  | ok content =>
    simp only [Reaction.mapState_mk, Reaction.andThen_ok, Activity.run_modify, Reaction.after_mk,
      List.append_nil]
    refine ⟨_, rfl, rfl, ?_⟩
    intro content' hok
    obtain rfl := Except.ok.inj hok
    exact Word.ofInt_toInt content

/-- What a store of the control unit does is what the memory does with the data register at the
address register. -/
theorem run_perform_store [Logger] {p : Processor} {outcome : Except Fault Unit}
    {memory : DataMemory 16 16} {t : Trace}
    (h : (DataMemory.store p.registers.ar.word.toInt p.registers.dr.word).run p.memory
      = ⟨outcome, memory, t⟩) :
    ∃ p', (perform .store).run p = ⟨outcome, p', t⟩ ∧ p'.memory = memory := by
  rw [perform, connecting, Activity.run_bracket, store, Activity.run_focus, DataUnit.store,
    Activity.run_bind, Activity.run_get, Reaction.andThen_ok, Reaction.after_nil,
    Activity.run_focus]
  show ∃ p', Reaction.mapState _ (Reaction.mapState _ (Reaction.mapState _
    ((DataMemory.store p.registers.ar.word.toInt p.registers.dr.word).run p.memory))) = _ ∧ _
  rw [h, Reaction.mapState_mk, Reaction.mapState_mk, Reaction.mapState_mk]
  exact ⟨_, rfl, rfl⟩

/-- The law that the memory stays as it is and nothing reaches it. -/
def untouched : Law (DataMemory 16 16) where
  Holds memory t memory' :=
    memory' = memory ∧ ∀ event ∈ Trace.events t, event.isTraffic = false
  refl memory := ⟨rfl, by simp [Trace.events]⟩
  trans h h' := by
    refine ⟨h'.1.trans h.1, ?_⟩
    intro event hevent
    rw [Trace.events_append, List.mem_append] at hevent
    exact hevent.elim (h.2 event) (h'.2 event)

/-- No other action reaches the data memory. -/
theorem untouched_perform [Logger] {op : Microop} (hload : op ≠ .load) (hstore : op ≠ .store) :
    (untouched.via Processor.memory).Obeyed (perform op) := by
  have hlog : untouched.IgnoresLog := fun _ _ hevents => ⟨rfl, hevents⟩
  exact obeyed_memory_perform hlog op (fun h => absurd h hload) fun h => absurd h hstore

end Processor

/-! ## Operations -/

/-- Stepping and running obey a law of the data memory that loads and stores obey. -/
theorem Machine.Operation.obeyed_memory_executing [Logger] {inner : Law (DataMemory 16 16)}
    (hlog : inner.IgnoresLog) (hload : ∀ address, inner.Obeyed (DataMemory.load address))
    (hstore : ∀ address content, inner.Obeyed (DataMemory.store address content))
    {op : Operation} (hop : op.executes = true) :
    (inner.via fun m : Machine => m.processor.memory).Obeyed op.perform := by
  have hstep := (Processor.admits_via_memory hlog hload hstore).obeyed_step
  have hpart : ∀ (m : Machine) t p, (inner.via Processor.memory).Holds m.processor t p →
      (inner.via fun m : Machine => m.processor.memory).Holds m t { m with processor := p } :=
    fun _ _ _ h => h
  refine obeyed_executing hop ?_ (Law.obeyed_focus hstep hpart)
  exact obeyed_singleStep hstep hpart (fun m => inner.refl _) fun m => hlog _

end TwoBus
