import TwoBus.Proofs.FaultCauses
import TwoBus.Proofs.Running

/-!
# What the disassembly shows

Before a step the machine lists the program cell whose address the instruction pointer stores, seen
without a gate and whatever the address is. The step then fetches through a gate, after a look at
the sign of the address. What is listed is what the step executes, or that there is nothing to
execute, for every address, whichever gates are open and however the step ends.

* `Processor.outcome_step_of_negative`, `Processor.outcome_step_of_empty`,
  `Processor.step_of_found`: a step, told by the cell that it fetches.
* `Machine.disassembly_shows_executed`: the listing and the step.
-/

namespace TwoBus

/-! ## Steps, told by their fetches -/

namespace Processor

open Activity

variable {p : Processor} {inst : Instruction}

/-- What follows a fetch leaves the note of the current instruction as it is. -/
theorem current_handle [Logger] (inst : Instruction) (p : Processor) :
    ((handle inst).run p).state.current = p.current := by
  -- to replace the note by what it is changes nothing, and can be done afterwards
  have hblind : (handle inst).BlindTo (relabel p.program fun _ => p.current) := blind_handle inst
  exact congrArg (·.state.current) (hblind p)

/-- Every address that is not negative is listed with its cell. -/
theorem listing_of_nonneg (hpos : ¬p.registers.ip.word.toInt < 0) :
    p.listing = .listing p.registers.ip.word.toInt.toNat
      (p.program.cells.get p.registers.ip.word.toInt.toNat) := by
  have hlt : p.registers.ip.word.toInt.natAbs < twoPow 16 := Word.natAbs_lt _
  exact if_pos ⟨by omega, by simp only [Bank.size]; omega⟩

/-- A step ends as its fetch and what follows it do, and so does its note. -/
theorem step_of_fetch [Logger] (hlive : p.phase ≠ .halted) :
    (step.run p).outcome = ((fetch.run p.fetching).andThen handle).outcome
      ∧ (step.run p).state.current = ((fetch.run p.fetching).andThen handle).state.current := by
  have hpass : pass.run { p with hold := false } = (fetch.run p.fetching).andThen handle :=
    run_pass _
  rw [run_step_of_live hlive, ← hpass]
  cases houtcome : (pass.run { p with hold := false }).outcome with
  | ok _ =>
    rw [run_onFault_of_ok _ houtcome, houtcome]
    exact ⟨rfl, rfl⟩
  | error fault =>
    rw [run_onFault_of_error _ houtcome, Reaction.outcome_mapState, houtcome]
    exact ⟨rfl, rfl⟩

theorem outcome_step_of_negative [Logger] (hlive : p.phase ≠ .halted)
    (hneg : p.registers.ip.word.toInt < 0) :
    (step.run p).outcome = .error (.negativeInstructionAddress p.registers.ip.word.toInt) := by
  have hselected : selected p.fetching.program p.fetching = _ := selected_of_neg hneg _
  rw [(step_of_fetch hlive).1, run_fetch_of_error hselected]
  rfl

theorem outcome_step_of_empty [Logger] (hlive : p.phase ≠ .halted)
    (hpos : ¬p.registers.ip.word.toInt < 0)
    (hcell : p.program.cells.get p.registers.ip.word.toInt.toNat = none) :
    (step.run p).outcome
      = .error (.instruction {} (.emptyCell p.registers.ip.word.toInt)) := by
  have hselected : selected p.fetching.program p.fetching = .ok none :=
    (selected_of_nonneg hpos _).trans (congrArg Except.ok hcell)
  rw [(step_of_fetch hlive).1, run_fetch_of_none hselected]
  rfl

/-- An instruction that is found is noted, and what comes of it is no fault of a fetch. -/
theorem step_of_found [Logger] (hlive : p.phase ≠ .halted) (hpos : ¬p.registers.ip.word.toInt < 0)
    (hcell : p.program.cells.get p.registers.ip.word.toInt.toNat = some inst) :
    (step.run p).state.current = some inst
      ∧ ∀ fault, (step.run p).outcome = .error fault → fault.isOfExecution = true := by
  have hselected : selected p.fetching.program p.fetching = .ok (some inst) :=
    (selected_of_nonneg hpos _).trans (congrArg Except.ok hcell)
  obtain ⟨houtcome, hcurrent⟩ := step_of_fetch hlive
  rw [run_fetch_of_some hselected, Reaction.andThen_ok, Reaction.after_nil] at houtcome hcurrent
  refine ⟨hcurrent.trans (current_handle inst _), fun fault hfault => ?_⟩
  exact faultsWithin_handle inst _ fault (houtcome.symm.trans hfault)

end Processor

namespace Machine

variable {m : Machine}

/-! ## Single steps -/

/-- What a single step records begins with what is recorded before the step of the processor, and
goes on with what that records. -/
theorem exists_trace_singleStep [Logger] (hlive : m.processor.phase ≠ .halted) :
    ∃ rest, (singleStep.run m).trace
      = m.preamble ++ ((Processor.step.run m.processor).trace ++ rest) := by
  have hends := m.singleStepEnds
  generalize singleStep.run m = r at hends ⊢
  cases hends with
  | refused hhalted => exact absurd hhalted hlive
  | faulted _ hstep =>
    rw [hstep]
    exact ⟨[], by rw [List.append_nil]⟩
  | completed _ hstep =>
    rw [hstep]
    exact ⟨_, List.append_assoc _ _ _⟩

/-- With the disassembly turned on, the cell is listed under a rule. -/
theorem log_preamble_of_on [Logger] (hon : Logger.switches.disassembly = true) (m : Machine) :
    m.preamble.log = "---------------------\n" ++ m.processor.listing.text := by
  have hpreamble : m.preamble = [Event.rule, m.processor.listing].map (.of none) := if_pos hon
  rw [hpreamble]
  show "" ++ "---------------------\n" ++ m.processor.listing.text = _
  rw [String.empty_append]

/-- What is listed before a step is what the step is about. If it faults at a negative address, the
listing is of no cell and shows that address; if it faults at an empty cell, the listing shows the
address and that the cell is empty. In every other case, and also if the step then faults, jumps or
ends the program, the listing shows the instruction that is noted as the current one after the step,
with the address that it was fetched from. -/
theorem disassembly_shows_executed [Logger] (hlive : m.processor.phase ≠ .halted)
    (hon : Logger.switches.disassembly = true) :
    ∃ (listed : String) (rest : Trace),
      (singleStep.run m).trace = m.preamble ++ ((Processor.step.run m.processor).trace ++ rest)
        ∧ m.preamble.log = "---------------------\n" ++ listed
        ∧ (∀ v : Int, (singleStep.run m).outcome = .error (.negativeInstructionAddress v) →
          v = m.processor.registers.ip.word.toInt ∧ listed = "(" ++ toString v ++ ")  ????\n")
        ∧ (∀ (inst : Instruction) (v : Int),
          (singleStep.run m).outcome = .error (.instruction inst (.emptyCell v)) →
          v = m.processor.registers.ip.word.toInt
            ∧ listed = "(0x" ++ Text.hexAddress v.toNat ++ ")  " ++ "<empty>" ++ "\n")
        ∧ ((∀ fault, (singleStep.run m).outcome = .error fault → fault.isOfFetch = false) →
          ∃ (inst : Instruction) (address : Nat),
            m.processor.registers.ip.word.toInt = address
              ∧ m.processor.program.cells.get address = some inst
              ∧ (singleStep.run m).state.processor.current = some inst
              ∧ listed = "(0x" ++ Text.hexAddress address ++ ")  " ++ Text.untilNul inst.text
                  ++ "\n") := by
  obtain ⟨rest, htrace⟩ := exists_trace_singleStep hlive
  refine ⟨m.processor.listing.text, rest, htrace, log_preamble_of_on hon m, ?_⟩
  simp only [fault_singleStep_iff hlive, processor_singleStep hlive]
  by_cases hneg : m.processor.registers.ip.word.toInt < 0
  · have hstep := Processor.outcome_step_of_negative hlive hneg
    have hlisting : m.processor.listing = .unlisted m.processor.registers.ip.word.toInt :=
      if_neg fun h => by omega
    rw [hstep, hlisting]
    refine ⟨fun v hv => ?_, fun inst v hv => ?_, fun hother => ?_⟩
    · cases hv
      exact ⟨rfl, rfl⟩
    · cases hv
    · exact absurd (hother _ rfl) (by simp [Fault.isOfFetch])
  · have hlisting := m.processor.listing_of_nonneg hneg
    rw [hlisting]
    cases hcell : m.processor.program.cells.get m.processor.registers.ip.word.toInt.toNat with
    | none =>
      rw [Processor.outcome_step_of_empty hlive hneg hcell]
      refine ⟨fun v hv => ?_, fun inst v hv => ?_, fun hother => ?_⟩
      · cases hv
      · cases hv
        exact ⟨rfl, rfl⟩
      · exact absurd (hother _ rfl) (by simp [Fault.isOfFetch])
    | some inst =>
      obtain ⟨hcurrent, hfault⟩ := Processor.step_of_found hlive hneg hcell
      refine ⟨fun v hv => ?_, fun inst v hv => ?_, fun _ => ?_⟩
      · exact absurd (hfault _ hv) (by simp [Fault.isOfExecution, Fault.isOfFetch])
      · exact absurd (hfault _ hv) (by simp [Fault.isOfExecution, Fault.isOfFetch])
      · exact ⟨inst, _, by omega, hcell, hcurrent, rfl⟩

/-- An operation with a NUL in its name, which is unknown. -/
def smudge : Instruction := { operation := "LD\x00", mode := some "abs", data := some 7 }

/-- A machine with one instruction, in its second cell, whose instruction pointer stores a value
behind an open write gate. -/
def pointing (v : Int) : Machine where
  processor := {
    datapath := { registers := { ip := { word := .ofInt 16 v, writeOpen := true } } }
    program := ⟨.ofList 16 none [none, some smudge]⟩
    memory := ⟨.uniform 0, {}⟩ }

/-- The logger that prints the disassembly and nothing else that a switch is for. -/
abbrev disassembling : Logger := ⟨{ disassembly := true }⟩

/-- The pointer is at no address, at an empty cell, and at the instruction, whose text is shown up
to the NUL. -/
theorem disassembly_shows_executed_smudged :
    letI := disassembling
    (pointing (-3)).preamble.log = "---------------------\n(-3)  ????\n"
      ∧ (pointing 0).preamble.log = "---------------------\n(0x0000)  <empty>\n"
      ∧ (singleStep.run (pointing 1)).outcome = .error (.instruction smudge .unknownOperation)
      ∧ (singleStep.run (pointing 1)).state.processor.current = some smudge
      ∧ (pointing 1).preamble.log = "---------------------\n(0x0001)  LD\n" := by
  have hlive : ∀ v, (pointing v).processor.phase ≠ .halted := by
    intro v
    show Phase.idle ≠ .halted
    decide
  obtain ⟨listed, -, -, hnowhere, hneg, -, -⟩ :=
    @disassembly_shows_executed _ disassembling (hlive (-3)) rfl
  obtain ⟨-, rfl⟩ := hneg _ rfl
  obtain ⟨listed, -, -, hempty, -, hcell, -⟩ :=
    @disassembly_shows_executed _ disassembling (hlive 0) rfl
  obtain ⟨-, rfl⟩ := hcell _ _ rfl
  obtain ⟨listed, -, -, hfound, -, -, hinst⟩ :=
    @disassembly_shows_executed _ disassembling (hlive 1) rfl
  have hfault : (@Activity.run disassembling _ _ singleStep (pointing 1)).outcome
      = .error (.instruction smudge .unknownOperation) := rfl
  obtain ⟨inst, address, haddress, hcell, hcurrent, rfl⟩ :=
    hinst fun fault h => by obtain rfl := Except.error.inj (hfault.symm.trans h); rfl
  obtain rfl : 1 = address := Int.ofNat.inj haddress
  obtain rfl : smudge = inst := Option.some.inj hcell
  exact ⟨hnowhere, hempty, hfault, hcurrent, hfound⟩

end Machine

end TwoBus
