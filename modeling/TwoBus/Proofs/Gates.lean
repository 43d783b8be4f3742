import TwoBus.Proofs.BusCycle
import TwoBus.Proofs.Session
import TwoBus.Proofs.StepLaw

/-!
# Gates

The control unit opens gates for the length of one action. Here that is a law (`NoNewGate`): no gate
is open afterwards that was not open before. Closing the gates of an action may well close one that
was open before; that is how a step, which fetches through the read gate of the instruction pointer,
always ends with that gate closed (`readClosed_step`).

* `Processor.obeyed_step`: no step opens a gate for good, whatever gates it finds open.
* `Machine.gates_closed`: the gates are closed in every session that leaves them to the control
  unit.
-/

namespace TwoBus

@[simp] theorem Register.isOpen_poke {w : Nat} (v : Int) (x : Register w) (gate : Gate) :
    (x.poke v).isOpen gate = x.isOpen gate := by
  cases gate <;> rfl

namespace RegisterFile

variable {w : Nat}

/-- No gate is open afterwards that was not open before. -/
def NoNewGate (before after : RegisterFile w) : Prop :=
  ∀ r gate, (after.get r).isOpen gate = true → (before.get r).isOpen gate = true

/-- Setting gates reaches the gates of that name, and only those of the registers named. -/
theorem isOpen_setGates (gate gate' : Gate) (o : Bool) (rs : List Reg) (file : RegisterFile w)
    (r : Reg) :
    ((file.setGates gate o rs).get r).isOpen gate'
      = if gate = gate' ∧ r ∈ rs then o else (file.get r).isOpen gate' := by
  rw [get_setGates]
  by_cases hr : r ∈ rs
  · rw [if_pos hr]
    cases gate <;> cases gate' <;> simp [hr, Register.setGate, Register.isOpen]
  · rw [if_neg hr, if_neg fun h => hr h.2]

/-- What is done between opening some gates and closing them again may open no other gate. -/
theorem noNewGate_connecting {before after : RegisterFile w} {sources targets : List Reg}
    (h : NoNewGate ((before.setGates .read true sources).setGates .write true targets) after) :
    NoNewGate before ((after.setGates .read false sources).setGates .write false targets) := by
  intro r gate hopen
  have hinside := h r gate
  simp only [isOpen_setGates] at hopen hinside
  -- a gate that the action named is closed now; any other is as it was inside, and before that
  cases gate with
  | read =>
    by_cases hr : r ∈ sources
    · simp [hr] at hopen
    · simpa [hr] using hinside (by simpa [hr] using hopen)
  | write =>
    by_cases hr : r ∈ targets
    · simp [hr] at hopen
    · simpa [hr] using hinside (by simpa [hr] using hopen)

theorem noNewGate_latch (v : Int) (file : RegisterFile w) : NoNewGate file (file.latch v) := by
  intro r gate hopen
  rw [get_latch, Register.isOpen_write] at hopen
  exact hopen

theorem NoNewGate.isQuiet {before after : RegisterFile w} (h : NoNewGate before after)
    (hquiet : before.IsQuiet) : after.IsQuiet := by
  intro r gate
  cases hopen : (after.get r).isOpen gate with
  | false => rfl
  | true => exact (h r gate hopen).symm.trans (hquiet r gate)

/-- A change to one register that leaves its gates alone. -/
theorem noNewGate_modify {f : Register w → Register w}
    (hf : ∀ x gate, (f x).isOpen gate = x.isOpen gate) (r : Reg) (file : RegisterFile w) :
    NoNewGate file (file.modify r f) := by
  intro r' gate hopen
  by_cases hr : r = r'
  · subst hr
    rw [modify, get_set_self, hf] at hopen
    exact hopen
  · rw [modify, get_set_of_ne hr] at hopen
    exact hopen

end RegisterFile

namespace Datapath

variable {w : Nat}

/-- The law that no gate is left open that was not open before, for a data path. -/
def gateLaw : Law (Datapath w) where
  Holds d _ d' := d.registers.NoNewGate d'.registers
  refl _ _ _ := id
  trans h h' r gate hopen := h r gate (h' r gate hopen)

theorem obeyed_operate [Logger] (signals : Signals) :
    (gateLaw : Law (Datapath w)).Obeyed (operate signals) := by
  intro d
  rw [run_operate]
  exact RegisterFile.noNewGate_latch _ _

theorem obeyed_poke [Logger] (r : Reg) (v : Int) :
    (gateLaw : Law (Datapath w)).Obeyed (Operation.poke r v).perform := by
  refine Law.obeyed_bind (Law.obeyed_modify fun d => ?_) fun _ => Law.obeyed_pure _
  exact RegisterFile.noNewGate_modify (Register.isOpen_poke v) r d.registers

end Datapath

namespace DataUnit

variable {aw dw : Nat}

/-- The law that the gates of both registers stay as they are. -/
def gateLaw : Law (DataUnit aw dw) where
  Holds unit _ unit' := ∀ gate, unit'.address.isOpen gate = unit.address.isOpen gate
    ∧ unit'.data.isOpen gate = unit.data.isOpen gate
  refl _ _ := ⟨rfl, rfl⟩
  trans h h' gate := ⟨(h' gate).1.trans (h gate).1, (h' gate).2.trans (h gate).2⟩

theorem obeyed_memoryPart [Logger] {α : Type} (x : Activity (DataMemory aw dw) α) :
    gateLaw.Obeyed (Activity.focus memoryPart x) :=
  Law.obeyed_focus (Law.obeyed_free x) fun _ _ _ _ _ => ⟨rfl, rfl⟩

theorem obeyed_load [Logger] : (gateLaw : Law (DataUnit aw dw)).Obeyed load := by
  refine Law.obeyed_bind Law.obeyed_get fun unit => ?_
  refine Law.obeyed_bind (obeyed_memoryPart _) fun content => ?_
  exact Law.obeyed_modify fun unit gate => ⟨rfl, Register.isOpen_write _ _ gate⟩

theorem obeyed_store [Logger] : (gateLaw : Law (DataUnit aw dw)).Obeyed store :=
  Law.obeyed_bind Law.obeyed_get fun _ => obeyed_memoryPart _

end DataUnit

namespace Processor

/-- The law that no gate is left open that was not open before. -/
def gateLaw : Law Processor where
  Holds p _ p' := p.registers.NoNewGate p'.registers
  refl _ _ _ := id
  trans h h' r gate hopen := h r gate (h' r gate hopen)

theorem obeyed_connecting [Logger] {α : Type} {x : Activity Processor α} (hx : gateLaw.Obeyed x)
    (sources targets : List Reg) : gateLaw.Obeyed (connecting sources targets x) :=
  fun _ => RegisterFile.noNewGate_connecting (hx _)

theorem obeyed_datapathPart [Logger] {α : Type} {x : Activity (Datapath 16) α}
    (hx : Datapath.gateLaw.Obeyed x) : gateLaw.Obeyed (Activity.focus datapathPart x) :=
  Law.obeyed_focus hx fun _ _ _ h => h

theorem obeyed_dataPart [Logger] {x : Activity (DataUnit 16 16) Unit}
    (hx : DataUnit.gateLaw.Obeyed x) :
    gateLaw.Obeyed (Activity.focus dataPart x) := by
  refine Law.obeyed_focus hx fun p t unit h r gate hopen => ?_
  obtain ⟨haddress, hdata⟩ := h gate
  cases r with
  | acc | ip => exact hopen
  | ar => exact haddress.symm.trans hopen
  | dr => exact hdata.symm.trans hopen

theorem obeyed_put [Logger] (r : Reg) (v : Int) : gateLaw.Obeyed (put r v) := by
  refine obeyed_connecting (Law.obeyed_modify fun p => ?_) _ _
  exact RegisterFile.noNewGate_modify (Register.isOpen_write v) r p.registers

/-- Each action of the control unit closes what it opens. -/
theorem obeyed_perform [Logger] (op : Microop) : gateLaw.Obeyed (perform op) := by
  cases op with
  | transfer sources targets signals =>
    exact obeyed_connecting (obeyed_datapathPart (Datapath.obeyed_operate signals)) _ _
  | immediate target v => exact obeyed_put target v.toInt
  | displace target v => exact Law.obeyed_bind Law.obeyed_get fun p => obeyed_put target _
  | load => exact obeyed_connecting (obeyed_dataPart DataUnit.obeyed_load) _ _
  | store => exact obeyed_connecting (obeyed_dataPart DataUnit.obeyed_store) _ _
  | hold | halt => exact Law.obeyed_modify fun _ _ _ => id

theorem admits_gateLaw [Logger] : Admits gateLaw where
  perform := obeyed_perform
  gate hx := obeyed_connecting hx [.ip] []
  control _ _ _ _ := fun _ _ => id

/-- No step leaves a gate open that it found closed. -/
theorem obeyed_step [Logger] : gateLaw.Obeyed step := admits_gateLaw.obeyed_step

/-! ### The read gate of the instruction pointer -/

theorem readClosed_of_noNewGate {p p' : Processor} (h : p.registers.NoNewGate p'.registers)
    (hclosed : p.registers.ip.readOpen = false) : p'.registers.ip.readOpen = false := by
  cases hopen : p'.registers.ip.readOpen with
  | false => rfl
  | true =>
    have hbefore : p.registers.ip.readOpen = true := h .ip .read hopen
    rw [hbefore] at hclosed
    exact absurd hclosed (by simp)

/-- An activity that ends with the read gate of the instruction pointer closed, in a fault or
not. -/
def ClosesPointer [Logger] {α : Type} (x : Activity Processor α) : Prop :=
  ∀ p, (x.run p).state.registers.ip.readOpen = false

theorem closesPointer_connecting [Logger] {α : Type} (x : Activity Processor α) :
    ClosesPointer (connecting [.ip] [] x) := fun _ => rfl

/-- What opens no gate may follow. -/
theorem closesPointer_bind [Logger] {α β : Type} {x : Activity Processor α}
    {next : α → Activity Processor β} (hx : ClosesPointer x)
    (hnext : ∀ a, gateLaw.Obeyed (next a)) : ClosesPointer (x >>= next) := by
  intro p
  obtain ⟨t, hrest⟩ := Law.holds_bind (x := x) hnext p
  exact readClosed_of_noNewGate hrest (hx p)

theorem closesPointer_fetch [Logger] : ClosesPointer fetch :=
  closesPointer_bind (closesPointer_connecting _) obeyed_found

theorem closesPointer_passUpTo [Logger] (n : Nat) : ClosesPointer (passUpTo n) := by
  intro p
  exact closesPointer_bind closesPointer_fetch (admits_gateLaw.obeyed_started n)
    { p with phase := .fetch }

theorem closesPointer_pass [Logger] : ClosesPointer pass := by
  rw [pass_eq_passUpTo 0]
  exact closesPointer_bind (closesPointer_passUpTo 0) admits_gateLaw.obeyed_completing

theorem closesPointer_onFault [Logger] {α : Type} {x : Activity Processor α}
    (hx : ClosesPointer x) :
    ClosesPointer (Activity.onFault (fun p => { p with phase := .idle }) x) := by
  intro p
  cases houtcome : (x.run p).outcome with
  | ok a =>
    rw [Activity.run_onFault_of_ok _ houtcome]
    exact hx p
  | error fault =>
    rw [Activity.run_onFault_of_error _ houtcome]
    exact hx p

/-- Every step that is not refused ends with the gate closed that it fetched through. -/
theorem readClosed_step [Logger] {p : Processor} (h : (step.run p).outcome ≠ .error .halted) :
    (step.run p).state.registers.ip.readOpen = false := by
  unfold step at h ⊢
  rw [Activity.run_bind, Activity.run_get, Reaction.andThen_ok, Reaction.after_nil,
    Activity.run_ite] at h ⊢
  by_cases hhalted : p.isHalted = true
  · rw [if_pos hhalted] at h
    exact absurd rfl h
  · rw [if_neg hhalted]
    exact closesPointer_onFault closesPointer_pass { p with hold := false }

end Processor

namespace Machine

def gateLaw : Law Machine where
  Holds m _ m' := m.processor.registers.NoNewGate m'.processor.registers
  refl _ _ _ := id
  trans h h' r gate hopen := h r gate (h' r gate hopen)

theorem obeyed_onProcessor [Logger] {α : Type} {x : Activity Processor α}
    (hx : Processor.gateLaw.Obeyed x) :
    gateLaw.Obeyed (onProcessor x) :=
  Law.obeyed_focus hx fun _ _ _ h => h

/-- Stepping, running and storing values in registers open no gate. -/
theorem obeyed_operation [Logger] {op : Operation} (hop : op.executes = true ∨ op.pokes = true) :
    gateLaw.Obeyed op.perform := by
  rcases hop with hop | hop
  · refine Operation.obeyed_executing hop ?_ (obeyed_onProcessor Processor.obeyed_step)
    exact obeyed_singleStep Processor.obeyed_step (fun _ _ _ h => h) (fun _ _ _ => id)
      fun _ _ _ _ _ => id
  · cases op with
    | datapath op =>
      cases op with
      | poke r v =>
        exact obeyed_onProcessor (Processor.obeyed_datapathPart (Datapath.obeyed_poke r v))
      | _ => exact absurd hop (by simp [Operation.pokes])
    | _ => exact absurd hop (by simp [Operation.pokes])

/-- No step leaves a gate open that it found closed, whichever gates it found open and however it
ends; and unless it was refused it ends with the read gate of the instruction pointer closed. So a
machine that is only stepped and run, and whose registers are set by hand, has all its gates closed
between any two operations. -/
theorem gates_closed [Logger] :
    (∀ p : Processor, p.registers.NoNewGate (Processor.step.run p).state.registers
      ∧ ((Processor.step.run p).outcome ≠ .error .halted →
          (Processor.step.run p).state.registers.ip.readOpen = false))
      ∧ ∀ (image : Image) (source : Option (List UInt8)) (m : Machine) (ops : List Operation),
          boot image source = .ok m → (∀ op ∈ ops, op.executes = true ∨ op.pokes = true) →
          ((session ops).run m).state.processor.registers.IsQuiet := by
  refine ⟨fun p => ⟨Processor.obeyed_step p, Processor.readClosed_step⟩, ?_⟩
  intro image source m ops hboot hops r gate
  -- the first machine of the session has no gate open, and no operation opens one
  have hstart : m.processor.registers = {} := congrArg Datapath.registers (datapath_of_boot hboot)
  have hsession := obeyed_session (fun op hop => obeyed_operation (hops op hop)) m
  cases hopen : (((session ops).run m).state.processor.registers.get r).isOpen gate with
  | false => rfl
  | true =>
    have hbefore := hsession r gate hopen
    rw [hstart] at hbefore
    cases r <;> cases gate <;> exact absurd hbefore (by decide)

/-- A program of one instruction, which reads from the output device. -/
def misreading : Image where
  program := [some { operation := "LD", mode := some "abs", data := some 1 }]

theorem gates_closed_misreading :
    letI := Logger.silent
    ∃ m, boot misreading (some []) = .ok m
      ∧ ((session [.step, .datapath (.poke .ip 0), .processorStep,
            .run 3]).run m).state.processor.registers.IsQuiet :=
  ⟨_, rfl, (@gates_closed .silent).2 misreading (some []) _ _ rfl (by decide)⟩

end Machine

end TwoBus
