import TwoBus.Proofs.Core
import TwoBus.Proofs.Session

/-!
# Runs as single steps

A run is a number of single steps that leave the machine running (`Runs`), and then one of three
things: the budget is spent, the next step halts the machine, or the next step faults (`RunEnds`,
`runEnds_iff`). What holds of runs is proved along their first steps (`run_induction`).

After the program has ended, stepping and running change nothing at all
(`Operation.state_of_halted`).
-/

namespace TwoBus

namespace Machine

variable {m m₁ m₂ : Machine} {t t₁ t₂ : Trace} {fault : Fault}

/-! ## One step -/

/-- The ways in which a single step ends. -/
inductive SingleStepEnds [Logger] (m : Machine) : Reaction Machine Status → Prop
  | refused (hhalted : m.processor.phase = .halted) :
    SingleStepEnds m ⟨.ok .halted, m, [.of none .halted]⟩
  | faulted {p : Processor} {fault : Fault} {t : Trace} (hlive : m.processor.phase ≠ .halted)
    (hstep : Processor.step.run m.processor = ⟨.error fault, p, t⟩) :
    SingleStepEnds m ⟨.error fault, { m with processor := p }, m.preamble ++ t⟩
  | completed {p : Processor} {t : Trace} (hlive : m.processor.phase ≠ .halted)
    (hstep : Processor.step.run m.processor = ⟨.ok (), p, t⟩) :
    SingleStepEnds m ⟨.ok ({ m with processor := p } : Machine).status,
      ({ m with processor := p } : Machine).count,
      m.preamble ++ t ++ ({ m with processor := p } : Machine).epilogue⟩

theorem singleStepEnds [Logger] (m : Machine) : SingleStepEnds m (singleStep.run m) := by
  by_cases hhalted : m.processor.phase = .halted
  · rw [run_singleStep_of_halted hhalted]
    exact .refused hhalted
  · cases hstep : Processor.step.run m.processor with
    | mk outcome p t =>
      cases outcome with
      | error fault =>
        rw [run_singleStep_of_fault hhalted hstep]
        exact .faulted hhalted hstep
      | ok _ =>
        rw [run_singleStep_of_ok hhalted hstep]
        exact .completed hhalted hstep

theorem status_eq_running_iff : m.status = .running ↔ m.processor.phase ≠ .halted := by
  unfold status Processor.isHalted
  cases m.processor.phase <;> simp

/-- A step that leaves the machine running has been completed, and is counted. -/
theorem running_singleStep [Logger] (h : singleStep.run m = ⟨.ok .running, m₁, t⟩) :
    m₁.processor.phase ≠ .halted ∧ m₁.completed = m.completed + 1 := by
  have hends := m.singleStepEnds
  generalize singleStep.run m = r at h hends
  cases hends with
  | refused _ => exact absurd (congrArg Reaction.outcome h) (by simp)
  | faulted _ _ => exact absurd (congrArg Reaction.outcome h) (by simp)
  | completed _ _ =>
    obtain ⟨hstatus, rfl, -⟩ := Reaction.mk.inj h
    exact ⟨status_eq_running_iff.mp (Except.ok.inj hstatus), rfl⟩

/-- A single step does to the processor what a step of it does, unless it is refused. -/
theorem processor_singleStep [Logger] (hlive : m.processor.phase ≠ .halted) :
    (singleStep.run m).state.processor = (Processor.step.run m.processor).state := by
  have hends := m.singleStepEnds
  generalize singleStep.run m = r at hends ⊢
  cases hends with
  | refused hhalted => exact absurd hhalted hlive
  | faulted _ hstep => rw [hstep]
  | completed _ hstep =>
    rw [hstep]
    rfl

/-! ## Steps in a row -/

/-- A number of single steps, each of which leaves the machine running. -/
inductive Runs [Logger] : Nat → Machine → Trace → Machine → Prop
  | none {m : Machine} : Runs 0 m [] m
  | step {n : Nat} {m m₁ m₂ : Machine} {t t₁ : Trace}
    (hstep : singleStep.run m = ⟨.ok .running, m₁, t⟩) (hrest : Runs n m₁ t₁ m₂) :
    Runs (n + 1) m (t ++ t₁) m₂

theorem Runs.one [Logger] (h : singleStep.run m = ⟨.ok .running, m₁, t⟩) : Runs 1 m t m₁ := by
  have hone := Runs.step h Runs.none
  rwa [List.append_nil] at hone

theorem Runs.trans [Logger] {k n : Nat} (h : Runs k m t m₁) (h' : Runs n m₁ t₁ m₂) :
    Runs (k + n) m (t ++ t₁) m₂ := by
  induction h with
  | none => rwa [Nat.zero_add]
  | step hstep _ ih =>
    rw [Nat.succ_add, List.append_assoc]
    exact .step hstep (ih h')

theorem Runs.completed [Logger] {n : Nat} (h : Runs n m t m₁) :
    m₁.completed = m.completed + .ofNat n := by
  induction h with
  | none => simp
  | step hstep _ ih =>
    rw [ih, (running_singleStep hstep).2, Nat.add_comm, UInt64.ofNat_add, UInt64.add_assoc]
    rfl

theorem Runs.live [Logger] {n : Nat} (h : Runs n m t m₁) (hlive : m.processor.phase ≠ .halted) :
    m₁.processor.phase ≠ .halted := by
  induction h with
  | none => exact hlive
  | step hstep _ ih => exact ih (running_singleStep hstep).1

/-- Steps in a row obey what a single step obeys. -/
theorem Runs.holds [Logger] {law : Law Machine} {n : Nat} (h : Runs n m t m₁)
    (hstep : law.Obeyed singleStep) : law.Holds m t m₁ := by
  induction h with
  | none => exact law.refl _
  | @step n m m₁ m₂ t t₁ hfirst _ ih =>
    have hone := hstep m
    rw [hfirst] at hone
    exact law.trans hone ih

/-- The first of some steps. -/
theorem Runs.take [Logger] {k n : Nat} (h : Runs n m t m₂) (hk : k ≤ n) :
    ∃ t₁ m₁, Runs k m t₁ m₁ := by
  induction h generalizing k with
  | none =>
    obtain rfl := Nat.le_zero.mp hk
    exact ⟨_, _, .none⟩
  | step hstep _ ih =>
    cases k with
    | zero => exact ⟨_, _, .none⟩
    | succ k =>
      obtain ⟨t₁, m₁, hruns⟩ := ih (Nat.le_of_succ_le_succ hk)
      exact ⟨_, _, .step hstep hruns⟩

/-! ## Runs -/

theorem run_succ_of_running [Logger] (hstep : singleStep.run m = ⟨.ok .running, m₁, t⟩)
    (budget : Nat) :
    (run (budget + 1)).run m = ((run budget).run m₁).after t := by
  rw [run_succ, Activity.run_bind, hstep, Reaction.andThen_ok]

theorem run_succ_of_halted [Logger] (hstep : singleStep.run m = ⟨.ok .halted, m₁, t⟩)
    (budget : Nat) :
    (run (budget + 1)).run m = ⟨.ok .halted, m₁, t⟩ := by
  rw [run_succ, Activity.run_bind, hstep, Reaction.andThen_ok, Activity.run_pure,
    Reaction.after_mk, List.append_nil]

theorem run_succ_of_fault [Logger] (hstep : singleStep.run m = ⟨.error fault, m₁, t⟩)
    (budget : Nat) :
    (run (budget + 1)).run m = ⟨.error fault, m₁, t⟩ := by
  rw [run_succ, Activity.run_bind, hstep, Reaction.andThen_error]

/-- A run is followed from its first step on: the budget may be spent, the step may be the last one,
or the machine is left running and the rest of the budget is spent from there. -/
@[elab_as_elim]
theorem run_induction [Logger] {motive : Nat → Machine → Prop} (spent : ∀ m, motive 0 m)
    (faulted : ∀ budget m fault m₁ t, singleStep.run m = ⟨.error fault, m₁, t⟩ →
      motive (budget + 1) m)
    (halted : ∀ budget m m₁ t, singleStep.run m = ⟨.ok .halted, m₁, t⟩ → motive (budget + 1) m)
    (running : ∀ budget m m₁ t, singleStep.run m = ⟨.ok .running, m₁, t⟩ → motive budget m₁ →
      motive (budget + 1) m)
    (budget : Nat) (m : Machine) : motive budget m := by
  induction budget generalizing m with
  | zero => exact spent m
  | succ budget ih =>
    cases hstep : singleStep.run m with
    | mk outcome m₁ t =>
      match outcome with
      | .error fault => exact faulted budget m fault m₁ t hstep
      | .ok .halted => exact halted budget m m₁ t hstep
      | .ok .running => exact running budget m m₁ t hstep (ih m₁)

/-- After some steps that leave the machine running, what is left of the budget is spent on what
follows. -/
theorem Runs.run_add [Logger] {n : Nat} (h : Runs n m t m₁) (budget : Nat) :
    (run (n + budget)).run m = ((run budget).run m₁).after t := by
  induction h with
  | none => rw [Nat.zero_add, Reaction.after_nil]
  | step hstep _ ih =>
    rw [Nat.succ_add, run_succ_of_running hstep, ih, Reaction.after_after]

theorem Runs.run_eq [Logger] {n : Nat} (h : Runs n m t m₁) : (run n).run m =
    ⟨.ok .timeout, m₁, t⟩ := by
  have hrun := h.run_add 0
  rwa [Nat.add_zero, run_zero, Reaction.after_mk, List.append_nil] at hrun

/-- A budget that is not spent before the machine halts. -/
theorem Runs.run_halts [Logger] {n budget : Nat} (h : Runs n m t m₁)
    (hlast : singleStep.run m₁ = ⟨.ok .halted, m₂, t₁⟩) (hbudget : n < budget) :
    (run budget).run m = ⟨.ok .halted, m₂, t ++ t₁⟩ := by
  obtain ⟨rest, rfl⟩ := Nat.exists_eq_add_of_lt hbudget
  rw [Nat.add_assoc, h.run_add, run_succ_of_halted hlast, Reaction.after_mk]

/-- A budget that is not spent before a step faults. -/
theorem Runs.run_faults [Logger] {n budget : Nat} (h : Runs n m t m₁)
    (hlast : singleStep.run m₁ = ⟨.error fault, m₂, t₁⟩) (hbudget : n < budget) :
    (run budget).run m = ⟨.error fault, m₂, t ++ t₁⟩ := by
  obtain ⟨rest, rfl⟩ := Nat.exists_eq_add_of_lt hbudget
  rw [Nat.add_assoc, h.run_add, run_succ_of_fault hlast, Reaction.after_mk]

/-- The ways in which a run on a budget ends. -/
inductive RunEnds [Logger] (m : Machine) (budget : Nat) : Reaction Machine RunEnd → Prop
  | timeout {m₁ : Machine} {t : Trace} (hruns : Runs budget m t m₁) :
    RunEnds m budget ⟨.ok .timeout, m₁, t⟩
  | halted {n : Nat} {m₁ m₂ : Machine} {t t₁ : Trace} (hbudget : n < budget)
    (hruns : Runs n m t m₁) (hlast : singleStep.run m₁ = ⟨.ok .halted, m₂, t₁⟩) :
    RunEnds m budget ⟨.ok .halted, m₂, t ++ t₁⟩
  | faulted {n : Nat} {m₁ m₂ : Machine} {t t₁ : Trace} {fault : Fault} (hbudget : n < budget)
    (hruns : Runs n m t m₁) (hlast : singleStep.run m₁ = ⟨.error fault, m₂, t₁⟩) :
    RunEnds m budget ⟨.error fault, m₂, t ++ t₁⟩

/-- One more step in front of a run. -/
theorem RunEnds.step [Logger] {budget : Nat} {r : Reaction Machine RunEnd}
    (hstep : singleStep.run m = ⟨.ok .running, m₁, t⟩) (h : RunEnds m₁ budget r) :
    RunEnds m (budget + 1) (r.after t) := by
  cases h with
  | timeout hruns => exact .timeout (.step hstep hruns)
  | halted hbudget hruns hlast =>
    rw [Reaction.after_mk, ← List.append_assoc]
    exact .halted (Nat.succ_lt_succ hbudget) (.step hstep hruns) hlast
  | faulted hbudget hruns hlast =>
    rw [Reaction.after_mk, ← List.append_assoc]
    exact .faulted (Nat.succ_lt_succ hbudget) (.step hstep hruns) hlast

/-- A run ends in one of these ways. -/
theorem runEnds [Logger] (m : Machine) (budget : Nat) : RunEnds m budget ((run budget).run m) := by
  induction budget, m using run_induction with
  | spent m => exact .timeout .none
  | faulted budget m fault m₁ t hstep =>
    rw [run_succ_of_fault hstep]
    exact .faulted (Nat.succ_pos _) .none hstep
  | halted budget m m₁ t hstep =>
    rw [run_succ_of_halted hstep]
    exact .halted (Nat.succ_pos _) .none hstep
  | running budget m m₁ t hstep ih =>
    rw [run_succ_of_running hstep]
    exact ih.step hstep

/-- A run ends as its single steps say, and in no other way. -/
theorem runEnds_iff [Logger] {budget : Nat} {r : Reaction Machine RunEnd} :
    RunEnds m budget r ↔ r = (run budget).run m := by
  constructor
  · intro h
    cases h with
    | timeout hruns => exact hruns.run_eq.symm
    | halted hbudget hruns hlast => exact (hruns.run_halts hlast hbudget).symm
    | faulted hbudget hruns hlast => exact (hruns.run_faults hlast hbudget).symm
  · rintro rfl
    exact runEnds m budget

/-- A run that times out has made all its steps, so what follows is a run from where it stopped. -/
theorem run_add [Logger] (a b : Nat) (h : ((run a).run m).outcome = .ok .timeout) :
    (run (a + b)).run m = ((run b).run ((run a).run m).state).after ((run a).run m).trace := by
  have hends := runEnds m a
  generalize (run a).run m = r at h hends ⊢
  cases hends with
  | timeout hruns => exact hruns.run_add b
  | halted _ _ _ => cases h
  | faulted _ _ _ => cases h

/-! ## After the end -/

theorem run_of_halted [Logger] (hhalted : m.processor.phase = .halted) (budget : Nat) :
    (run (budget + 1)).run m = ⟨.ok .halted, m, [.of none .halted]⟩ :=
  Runs.none.run_halts (run_singleStep_of_halted hhalted) (Nat.succ_pos budget)

namespace Operation

theorem run_step_of_halted [Logger] (hhalted : m.processor.phase = .halted) :
    Operation.step.perform.run m = ⟨.ok (.status .halted), m, [.of none .halted]⟩ := by
  rw [perform, Activity.run_bind, run_singleStep_of_halted hhalted]
  rfl

theorem run_processorStep_of_halted [Logger] (hhalted : m.processor.phase = .halted) :
    Operation.processorStep.perform.run m = ⟨.error .halted, m, []⟩ := by
  have hstep := Processor.run_step_of_halted hhalted
  rw [perform, Activity.run_bind, onProcessor, Activity.run_focus]
  show ((Processor.step.run m.processor).mapState _).andThen _ = _
  rw [hstep]
  rfl

/-- After the program has ended, stepping and running change nothing. -/
theorem state_of_halted [Logger] {op : Operation} (hop : op.executes = true)
    (hhalted : m.processor.phase = .halted) : (op.perform.run m).state = m := by
  cases op with
  | step => rw [run_step_of_halted hhalted]
  | processorStep => rw [run_processorStep_of_halted hhalted]
  | run budget =>
    rw [perform, Activity.run_bind]
    cases budget with
    | zero => rfl
    | succ budget =>
      rw [run_of_halted hhalted]
      rfl
  | _ => exact absurd hop (by simp [executes])

end Operation

theorem run_session_cons [Logger] (op : Operation) (ops : List Operation) (m : Machine) :
    (session (op :: ops)).run m
      = ((session ops).run (op.perform.run m).state).after (op.perform.run m).trace := rfl

theorem session_of_halted [Logger] {ops : List Operation} (hops : ∀ op ∈ ops, op.executes = true)
    (hhalted : m.processor.phase = .halted) : ((session ops).run m).state = m := by
  induction ops with
  | nil => rfl
  | cons op ops ih =>
    have hop := Operation.state_of_halted (hops op List.mem_cons_self) hhalted
    rw [run_session_cons, hop, Reaction.state_after]
    exact ih fun op' hop' => hops op' (List.mem_cons_of_mem op hop')

end Machine

end TwoBus
