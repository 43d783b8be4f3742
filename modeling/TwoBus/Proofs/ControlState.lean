import TwoBus.Proofs.Gates
import TwoBus.Proofs.InstructionSet
import TwoBus.Proofs.Running

/-!
# The control state

Within a step the control unit walks through its phases, and it may note in the middle of that that
the program has ended. Between operations it is idle or halted. It is halted by a step that fetches
the instruction to halt and is completed, and by nothing else, and that step still moves the
instruction pointer on. From then on stepping and running change nothing.

* `Processor.Rests.step_cases`: what one step does to the phase.
* `Machine.Rests.ending`: how an operation comes to end the program.
* `Machine.control_state`: the states of a session.
-/

namespace TwoBus

/-- The phase that an operation ends in. -/
theorem Core.phase_carriedOut (c : Core) (inst : Instruction) (op : Opcode) :
    (c.carriedOut inst op).phase = if op = .halt then .halted else .idle := by
  cases op with
  | jumpIfZero =>
    exact (apply_ite phase (c.acc.toInt = 0) (c.withOperand inst).jumped c.next).trans (ite_self _)
  | jumpIfPositive =>
    exact (apply_ite phase (0 < c.acc.toInt) (c.withOperand inst).jumped c.next).trans (ite_self _)
  | jumpIfNegative =>
    exact (apply_ite phase (c.acc.toInt < 0) (c.withOperand inst).jumped c.next).trans (ite_self _)
  | _ => rfl

namespace Processor

/-- Between two operations all gates are closed, and the control unit is in no phase of a step. -/
structure Rests (p : Processor) : Prop where
  quiet : p.registers.IsQuiet
  phase : p.phase = .idle ∨ p.phase = .halted

/-- A step that ends the program: it is completed, it has fetched the instruction to halt, and it
has moved the pointer on. -/
structure EndsProgram [Logger] (p p' : Processor) : Prop where
  completed : ∃ t, step.run p = ⟨.ok (), p', t⟩
  started : p.phase = .idle
  ended : p'.phase = .halted
  fetched : ∃ inst, p.core.cell = some inst ∧ inst.opcode? = some .halt ∧ p'.current = some inst
  advanced : p'.registers.ip.word.toInt = (p.registers.ip.word.toInt + 1) % 65536

variable {p : Processor}

theorem Rests.idle (h : p.Rests) (hlive : p.phase ≠ .halted) : p.phase = .idle :=
  h.phase.resolve_right hlive

/-- A step goes back to rest, or it ends the program. -/
theorem Rests.step_cases [Logger] (h : p.Rests) (hlive : p.phase ≠ .halted) :
    (step.run p).state.phase = .idle ∨ p.EndsProgram (step.run p).state := by
  have hcore := Core.toProcessor_core h.quiet
  have hstep := Core.concludes_step (c := p.core) hlive
  rw [hcore] at hstep
  cases hfault : p.core.stepFault? with
  | some fault =>
    rw [hfault] at hstep
    obtain ⟨c', t, hrun, hidle⟩ := hstep
    rw [hrun]
    exact .inl hidle
  | none =>
    rw [hfault] at hstep
    obtain ⟨inst, op, t, hpos, hcell, hop, hrun⟩ := hstep
    have hphase := (p.core.executing inst).phase_carriedOut inst op
    by_cases hhalt : op = .halt
    · subst hhalt
      refine .inr ⟨⟨t, ?_⟩, h.idle hlive, ?_, ⟨inst, hcell, hop, ?_⟩, ?_⟩
      · rw [hrun]
      · rw [hrun]
        exact hphase
      · rw [hrun]
        rfl
      · rw [hrun]
        have hnext : 0 ≤ p.core.ip.toInt + 1 := by omega
        exact Int.tmod_eq_emod_of_nonneg hnext
    · rw [if_neg hhalt] at hphase
      rw [hrun]
      exact .inl hphase

/-- The law that a processor at rest comes to rest. -/
def restLaw : Law Processor where
  Holds p _ p' := p.Rests → p'.Rests
  refl _ := id
  trans h h' := h' ∘ h

theorem restLaw_step [Logger] : restLaw.Obeyed step := by
  intro p h
  refine ⟨(obeyed_step p).isQuiet h.quiet, ?_⟩
  by_cases hhalted : p.phase = .halted
  · rw [run_step_of_halted hhalted]
    exact .inr hhalted
  · exact (h.step_cases hhalted).imp_right EndsProgram.ended

end Processor

namespace Machine

variable {m m₁ : Machine} {t : Trace}

/-- A machine starts at rest. -/
theorem rests_of_boot {image : Image} {source : Option (List UInt8)}
    (h : boot image source = .ok m) : m.processor.Rests := by
  refine ⟨?_, .inl (phase_of_boot h)⟩
  intro r gate
  have hfile : m.processor.registers = {} := congrArg Datapath.registers (datapath_of_boot h)
  rw [hfile]
  cases r <;> cases gate <;> rfl

theorem restLaw_singleStep [Logger] : (Processor.restLaw.via Machine.processor).Obeyed singleStep :=
  obeyed_singleStep Processor.restLaw_step (fun _ _ _ h => h) (fun _ => id) fun _ _ _ => id

/-- Stepping, running and storing values in registers bring a machine back to rest. -/
theorem restLaw_operation [Logger] {op : Operation} (hop : op.executes = true ∨ op.pokes = true) :
    (Processor.restLaw.via Machine.processor).Obeyed op.perform := by
  have hgates := obeyed_operation hop
  rcases hop with hop | hop
  · exact Operation.obeyed_executing hop restLaw_singleStep
      (Law.obeyed_focus Processor.restLaw_step fun _ _ _ h => h)
  · cases op with
    | datapath op =>
      cases op with
      | poke r v => exact fun m h => ⟨(hgates m).isQuiet h.quiet, h.phase⟩
      | _ => exact absurd hop (by simp [Operation.pokes])
    | _ => exact absurd hop (by simp [Operation.pokes])

/-! ## The end of a program -/

/-- An operation ends the program by some steps that leave the machine running, which only a run
makes, and one more that ends it. -/
def EndsProgramBy [Logger] (op : Operation) (m m' : Machine) : Prop :=
  ∃ n t m₁, Runs n m t m₁ ∧ (n = 0 ∨ ∃ budget, op = .run budget ∧ n < budget)
    ∧ m₁.processor.EndsProgram m'.processor

/-- A single step that halts the machine ends the program. -/
theorem endsProgram_of_singleStep [Logger] (hrests : m.processor.Rests)
    (hlive : m.processor.phase ≠ .halted)
    (hhalted : (singleStep.run m).state.processor.phase = .halted) :
    m.processor.EndsProgram (singleStep.run m).state.processor := by
  rw [processor_singleStep hlive] at hhalted ⊢
  refine (hrests.step_cases hlive).resolve_left ?_
  rw [hhalted]
  exact Phase.noConfusion

/-- Steps of a run that leave the machine running, before one that halts it. -/
theorem endsProgramBy_of_runs [Logger] {n budget : Nat} (hbudget : n < budget)
    (hruns : Runs n m t m₁) (hrests : m.processor.Rests) (hlive : m.processor.phase ≠ .halted)
    (hhalted : (singleStep.run m₁).state.processor.phase = .halted) :
    EndsProgramBy (.run budget) m (singleStep.run m₁).state :=
  ⟨n, t, m₁, hruns, .inr ⟨budget, rfl, hbudget⟩,
    endsProgram_of_singleStep (hruns.holds restLaw_singleStep hrests) (hruns.live hlive) hhalted⟩

theorem endsProgramBy_run [Logger] (hrests : m.processor.Rests)
    (hlive : m.processor.phase ≠ .halted)
    (budget : Nat) (hhalted : ((run budget).run m).state.processor.phase = .halted) :
    EndsProgramBy (.run budget) m ((run budget).run m).state := by
  have hends := runEnds m budget
  generalize (run budget).run m = r at hends hhalted ⊢
  cases hends with
  | timeout hruns => exact absurd hhalted (hruns.live hlive)
  | halted hbudget hruns hlast =>
    have hend := endsProgramBy_of_runs hbudget hruns hrests hlive
    rw [hlast] at hend
    exact hend hhalted
  | faulted hbudget hruns hlast =>
    have hend := endsProgramBy_of_runs hbudget hruns hrests hlive
    rw [hlast] at hend
    exact hend hhalted

/-- An operation that halts the machine ends the program. -/
theorem endsProgramBy_operation [Logger] {op : Operation}
    (hop : op.executes = true ∨ op.pokes = true) (hrests : m.processor.Rests)
    (hlive : m.processor.phase ≠ .halted)
    (hhalted : (op.perform.run m).state.processor.phase = .halted) :
    EndsProgramBy op m (op.perform.run m).state := by
  cases op with
  | step =>
    have hstate : (Operation.step.perform.run m).state = (singleStep.run m).state :=
      congrArg Reaction.state (Activity.run_bind_pure _ _ m)
    rw [hstate] at hhalted ⊢
    exact ⟨0, [], m, .none, .inl rfl, endsProgram_of_singleStep hrests hlive hhalted⟩
  | run budget =>
    have hstate : ((Operation.run budget).perform.run m).state
        = ((Machine.run budget).run m).state :=
      congrArg Reaction.state (Activity.run_bind_pure _ _ m)
    rw [hstate] at hhalted ⊢
    exact endsProgramBy_run hrests hlive budget hhalted
  | processorStep =>
    have hstate : (Operation.processorStep.perform.run m).state.processor
        = (Processor.step.run m.processor).state :=
      congrArg (fun r : Reaction Machine Answer => r.state.processor)
        (Activity.run_bind_pure (onProcessor Processor.step) _ m)
    rw [hstate] at hhalted
    refine ⟨0, [], m, .none, .inl rfl, ?_⟩
    rw [hstate]
    refine (hrests.step_cases hlive).resolve_left ?_
    rw [hhalted]
    exact Phase.noConfusion
  | datapath op =>
    cases op with
    | poke r v => exact absurd hhalted hlive
    | _ => exact absurd hop (by simp [Operation.executes, Operation.pokes])
  | _ => exact absurd hop (by simp [Operation.executes, Operation.pokes])

/-! ## After the end -/

/-- Whatever is stepped and run, the machine stays exactly as it is. A single step and a run answer
that it has halted, and a step of the processor is refused. -/
structure IsFinal [Logger] (m : Machine) : Prop where
  halted : m.processor.phase = .halted
  stays : ∀ ops : List Operation, (∀ op ∈ ops, op.executes = true) →
    ((session ops).run m).state = m
  step : (Operation.step.perform.run m).outcome = .ok (.status .halted)
  run : ∀ budget,
    ((Operation.run (budget + 1)).perform.run m).outcome = .ok (.ended .halted)
  processorStep : (Operation.processorStep.perform.run m).outcome = .error .halted

theorem isFinal_of_halted [Logger] (hhalted : m.processor.phase = .halted) : m.IsFinal where
  halted := hhalted
  stays _ hops := session_of_halted hops hhalted
  step := by rw [Operation.run_step_of_halted hhalted]
  run budget := by
    rw [Operation.perform, Activity.run_bind, run_of_halted hhalted]
    rfl
  processorStep := by rw [Operation.run_processorStep_of_halted hhalted]

/-- In a session that steps and runs a machine and stores values in its registers, the control unit
is idle at the start, and idle or halted whenever an operation ends. An operation that halts it ends
the program by a step that was completed, that had fetched the instruction to halt, and that moved
the pointer on. And once it is halted, no stepping and running changes anything. -/
theorem control_state [Logger] {image : Image} {source : Option (List UInt8)} {ops : List Operation}
    (hboot : boot image source = .ok m)
    (hops : ∀ op ∈ ops, op.executes = true ∨ op.pokes = true) :
    m.processor.phase = .idle
      ∧ (((session ops).run m).state.processor.phase = .idle
        ∨ ((session ops).run m).state.processor.phase = .halted)
      ∧ (∀ op : Operation, op.executes = true ∨ op.pokes = true →
          ((session ops).run m).state.processor.phase ≠ .halted →
          (op.perform.run ((session ops).run m).state).state.processor.phase = .halted →
          EndsProgramBy op ((session ops).run m).state
            (op.perform.run ((session ops).run m).state).state)
      ∧ (((session ops).run m).state.processor.phase = .halted →
          ((session ops).run m).state.IsFinal) := by
  have hsession := obeyed_session (fun op hop => restLaw_operation (hops op hop)) m
  have hrests : ((session ops).run m).state.processor.Rests := hsession (rests_of_boot hboot)
  exact ⟨phase_of_boot hboot, hrests.phase, fun op hop => endsProgramBy_operation hop hrests,
    isFinal_of_halted⟩

/-- A program that increments once and ends. -/
def brief : Image where
  program := [some { operation := "INC" }, some { operation := "HLT" }]

/-- The run ends the program, from a value that was stored by hand, and nothing follows. -/
theorem control_state_brief :
    letI := Logger.silent
    ∃ m, boot brief (some []) = .ok m
      ∧ ((session [.datapath (.poke .acc 41)]).run m).state.processor.phase = .idle
      ∧ EndsProgramBy (.run 5) ((session [.datapath (.poke .acc 41)]).run m).state
          ((Operation.run 5).perform.run ((session [.datapath (.poke .acc 41)]).run m).state).state
      ∧ ((session [.datapath (.poke .acc 41), .run 5]).run m).state.IsFinal := by
  refine ⟨_, rfl, rfl, ?_, ?_⟩
  · exact (@control_state _ .silent brief (some []) _ rfl (by decide)).2.2.1 (.run 5) (.inl rfl)
      (by decide) rfl
  · exact (@control_state _ .silent brief (some []) _ rfl (by decide)).2.2.2 rfl

end Machine

end TwoBus
