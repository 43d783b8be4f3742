import TwoBus.Proofs.InstructionSet

/-!
# The order of the faults

Which fault a step ends in is a matter of a few looks at the core, made in a fixed order
(`Core.stepFault?`): at the instruction pointer, the program cell, the operation, the way the
operand is named, the cell that the operand comes from, and the cell that the operand leads to.

* `kind_of_loadRefusal`, `kind_of_storeRefusal`: a data access that is refused by an address and one
  that is refused by the output device end in faults of different kinds.
* `step_outcome`: a step ends in the first fault that is found, and in none if there is none.
-/

namespace TwoBus

namespace DataMemory

/-- An address that nothing answers to is a fault of its own kind; the output device, which answers
and refuses, is not. -/
theorem kind_of_loadRefusal {address : Word 16} {fault : Fault}
    (h : loadRefusal? address = some fault) :
    fault.kind = if address.toInt = 1 then .machine else .address := by
  unfold loadRefusal? at h
  by_cases hneg : address.toInt < 0
  · rw [if_pos hneg] at h
    obtain rfl := Option.some.inj h
    rw [if_neg (by omega)]
    rfl
  rw [if_neg hneg] at h
  by_cases hone : address.toInt = 1
  · rw [if_pos hone] at h ⊢
    obtain rfl := Option.some.inj h
    rfl
  rw [if_neg hone] at h ⊢
  by_cases hslot : address.toInt = 2 ∨ address.toInt = 3
  · rw [if_pos hslot] at h
    obtain rfl := Option.some.inj h
    rfl
  · rw [if_neg hslot] at h
    exact absurd h (by simp)

theorem kind_of_storeRefusal {sinkGood : Bool} {address v : Word 16} {fault : Fault}
    (h : storeRefusal? sinkGood address v = some fault) :
    fault.kind = if address.toInt = 1 then .machine else .address := by
  by_cases hone : address.toInt = 1
  · have hneg : ¬address.toInt < 0 := by omega
    unfold storeRefusal? at h
    rw [if_neg hneg, if_pos hone] at h
    rw [if_pos hone]
    -- the two refusals of the output device are of one kind
    split at h
    · obtain rfl := Option.some.inj h
      rfl
    · cases sinkGood with
      | true => exact absurd h (by simp)
      | false =>
        obtain rfl := Option.some.inj h
        rfl
  · rw [storeRefusal?_of_ne hone] at h
    exact kind_of_loadRefusal h

end DataMemory

namespace Core

theorem kind_of_executionFault {c : Core} {inst : Instruction} {op : Opcode} {fault : Fault}
    (h : c.executionFault? inst op = some fault) :
    fault.kind = .machine ∨ fault.kind = .address := by
  have hkind : ∃ address : Word 16,
      fault.kind = if address.toInt = 1 then .machine else .address := by
    rcases Option.or_eq_some_iff.mp h with hload | ⟨-, haccess⟩
    · obtain ⟨address, -, hrefused⟩ := Option.bind_eq_some_iff.mp hload
      exact ⟨address, DataMemory.kind_of_loadRefusal hrefused⟩
    · unfold accessFault? at haccess
      cases op with
      | load => exact ⟨_, DataMemory.kind_of_loadRefusal haccess⟩
      | save => exact ⟨_, DataMemory.kind_of_storeRefusal haccess⟩
      | _ => exact absurd haccess (by simp)
  obtain ⟨address, hkind⟩ := hkind
  rw [hkind]
  split
  · exact Or.inl rfl
  · exact Or.inr rfl

/-- A fault that carries an instruction carries what the program cell holds, or the blank
instruction if it holds none. No fault is that of a halted processor. -/
theorem carries_of_stepFault {c : Core} {fault : Fault} (h : c.stepFault? = some fault) :
    fault.kind ≠ .halt
      ∧ (fault.kind = .instruction → fault.instruction? = some (c.cell.getD {})) := by
  unfold stepFault? at h
  by_cases hneg : c.ip.toInt < 0
  · rw [if_pos hneg] at h
    obtain rfl := Option.some.inj h
    simp [Fault.kind]
  rw [if_neg hneg] at h
  cases hcell : c.cell with
  | none =>
    rw [hcell] at h
    obtain rfl := Option.some.inj h
    simp [Fault.kind, Fault.instruction?]
  | some inst =>
    cases hop : inst.opcode? with
    | none =>
      simp only [hcell, hop] at h
      obtain rfl := Option.some.inj h
      simp [Fault.kind, Fault.instruction?]
    | some op =>
      simp only [hcell, hop] at h
      by_cases hconsults : op.consults c.acc.toInt = true
      · rw [if_pos hconsults] at h
        cases hdefect : inst.defect? with
        | some cause =>
          rw [hdefect] at h
          obtain rfl := Option.some.inj h
          simp [Fault.kind, Fault.instruction?]
        | none =>
          simp only [hdefect] at h
          -- a data access: whatever the address, its fault carries no instruction
          rcases kind_of_executionFault h with hkind | hkind <;> simp [hkind]
      · rw [if_neg hconsults] at h
        exact absurd h (by simp)

end Core

namespace Processor

/-- A step ends in the first fault that is found, and in none if none is found. A fault that carries
an instruction carries the fetched one, and an operation that does not look at its operand, once
fetched, ends in no fault. -/
theorem step_outcome [Logger] {p : Processor} (hquiet : p.registers.IsQuiet)
    (hlive : p.phase ≠ .halted) :
    (step.run p).outcome = p.core.stepFault?.elim (.ok ()) .error
      ∧ (∀ fault, (step.run p).outcome = .error fault → fault.kind ≠ .halt
          ∧ (fault.kind = .instruction → fault.instruction? = some (p.core.cell.getD {})))
      ∧ (∀ inst op, 0 ≤ p.core.ip.toInt → p.core.cell = some inst → inst.opcode? = some op →
          op.consults p.core.acc.toInt = false → (step.run p).outcome = .ok ()) := by
  have houtcome : (step.run p).outcome = p.core.stepFault?.elim (.ok ()) .error := by
    have hcore := Core.toProcessor_core hquiet
    have hstep := Core.concludes_step (c := p.core) hlive
    rw [hcore] at hstep
    cases hfault : p.core.stepFault? with
    | some fault =>
      rw [hfault] at hstep
      obtain ⟨c', t, hrun, -⟩ := hstep
      rw [hrun]
      rfl
    | none =>
      rw [hfault] at hstep
      obtain ⟨inst, op, t, -, -, -, hrun⟩ := hstep
      rw [hrun]
      rfl
  refine ⟨houtcome, ?_, ?_⟩
  · intro fault hfault
    apply Core.carries_of_stepFault
    rw [houtcome] at hfault
    cases hfirst : p.core.stepFault? with
    | none => exact absurd hfault (by simp [hfirst])
    | some first =>
      rw [hfirst] at hfault
      exact congrArg some (Except.error.inj hfault)
  · intro inst op hpos hcell hop hconsults
    have hfirst : p.core.stepFault? = none := by
      simp [Core.stepFault?, hcell, hop, hconsults, Int.not_lt.mpr hpos]
    rw [houtcome, hfirst]
    rfl

/-- A processor that saves a surrogate to the output device, once it has read the next character as
its operand: the sink has failed too, which comes later in the order. -/
def garbling : Processor where
  datapath := { registers := { acc := { word := .ofInt 16 0xD800 } } }
  program := ⟨.uniform (some { operation := "SV", mode := some "rel_mem", data := some 0 })⟩
  memory := ⟨.uniform 0, { input := ⟨[.ofInt 16 1]⟩, output := { sinkGood := false } }⟩

theorem step_outcome_garbling :
    letI := Logger.silent
    garbling.registers.IsQuiet ∧ garbling.phase ≠ .halted
      ∧ (step.run garbling).outcome = .error (.notCharacter 0xD800) := by
  have hquiet : garbling.registers.IsQuiet := garbling.core.isQuiet_file
  have hlive : garbling.phase ≠ .halted := by decide
  refine ⟨hquiet, hlive, ?_⟩
  rw [(@step_outcome .silent _ hquiet hlive).1]
  rfl

end Processor

end TwoBus
