import TwoBus.Proofs.Running

/-!
# Budgets

A run on a budget looks at nothing but what its single steps answer. The same run can be had from
the step counter, by comparing before each step how far it has gone with a limit (`Metered`): the
counter goes around at `2 ^ 64`, but what it has grown by since the start of the run does not. That
such a run ends, and in one way, is `metered_iff`.

The counter grows by the steps that are completed (`completed_run`), which are no more than the
budget (`completions_le`). A step that faults is not completed, nor is one that is refused because
the program has ended.

What a run answers says whether the program has ended, unless the budget is empty (`run_reports`).
-/

namespace TwoBus

/-- What a run that ends this way says about the machine it leaves. -/
def RunEnd.status : RunEnd → Status
  | .halted => .halted
  | .timeout => .running

namespace Machine

variable {m m₁ m₂ : Machine} {t t₁ : Trace} {fault : Fault} {r r' : Reaction Machine RunEnd}
  {start limit : UInt64} {budget : Nat}

/-! ## The steps of a run -/

/-- The machines that a run steps, in order. -/
def stepped [Logger] : Nat → Machine → List Machine
  | 0, _ => []
  | budget + 1, m =>
    m :: match (singleStep.run m).outcome with
      | .ok .running => stepped budget (singleStep.run m).state
      | _ => []

theorem stepped_succ_of_running [Logger] (hstep : singleStep.run m = ⟨.ok .running, m₁, t⟩)
    (budget : Nat) : stepped (budget + 1) m = m :: stepped budget m₁ := by
  rw [stepped, hstep]

theorem stepped_succ_of_halted [Logger] (hstep : singleStep.run m = ⟨.ok .halted, m₁, t⟩)
    (budget : Nat) : stepped (budget + 1) m = [m] := by
  rw [stepped, hstep]

theorem stepped_succ_of_fault [Logger] (hstep : singleStep.run m = ⟨.error fault, m₁, t⟩)
    (budget : Nat) : stepped (budget + 1) m = [m] := by
  rw [stepped, hstep]

theorem length_stepped_le [Logger] (budget : Nat) (m : Machine) :
    (stepped budget m).length ≤ budget := by
  induction budget generalizing m with
  | zero => exact Nat.le_refl 0
  | succ budget ih =>
    rw [stepped, List.length_cons]
    refine Nat.succ_le_succ ?_
    split
    · exact ih _
    · exact Nat.zero_le _

/-! ## The step counter -/

/-- Whether the processor completes the next instruction. -/
def completes [Logger] (m : Machine) : Bool := (Processor.step.run m.processor).outcome.isOk

/-- The number of instructions that a run completes. -/
def completions [Logger] (budget : Nat) (m : Machine) : Nat := (stepped budget m).countP completes

theorem completions_le [Logger] (budget : Nat) (m : Machine) : completions budget m ≤ budget :=
  Nat.le_trans List.countP_le_length (length_stepped_le budget m)

/-- A single step is counted if the instruction is completed, whatever the step answers. -/
theorem completed_singleStep [Logger] (m : Machine) :
    (singleStep.run m).state.completed = m.completed + .ofNat ([m].countP completes) := by
  have hends := m.singleStepEnds
  generalize singleStep.run m = r at hends ⊢
  cases hends with
  | refused hhalted =>
    simp [completes, Processor.run_step_of_halted hhalted, Except.isOk, Except.toBool]
  | faulted _ hstep => simp [completes, hstep, Except.isOk, Except.toBool]
  | completed _ hstep => simp [completes, hstep, count, Except.isOk, Except.toBool]

/-- The counter grows by the number of completed instructions. -/
theorem completed_run [Logger] (budget : Nat) (m : Machine) :
    ((run budget).run m).state.completed = m.completed + .ofNat (completions budget m) := by
  induction budget, m using run_induction with
  | spent m => simp [completions, stepped]
  | faulted budget m fault m₁ t hstep =>
    have hone := m.completed_singleStep
    rw [hstep] at hone
    rw [run_succ_of_fault hstep, completions, stepped_succ_of_fault hstep, hone]
  | halted budget m m₁ t hstep =>
    have hone := m.completed_singleStep
    rw [hstep] at hone
    rw [run_succ_of_halted hstep, completions, stepped_succ_of_halted hstep, hone]
  | running budget m m₁ t hstep ih =>
    have hone := m.completed_singleStep
    rw [hstep] at hone
    have hcount : completions (budget + 1) m
        = [m].countP completes + completions budget m₁ := by
      rw [completions, stepped_succ_of_running hstep, completions, ← List.countP_append]
      rfl
    rw [run_succ_of_running hstep, Reaction.state_after, ih, hone, hcount, UInt64.ofNat_add,
      UInt64.add_assoc]

/-! ## Runs by the step counter -/

/-- A run that goes on as long as the step counter has grown by less than a limit since it stood at
`start`, and stops at the first single step that does not leave the machine running. -/
inductive Metered [Logger] (start limit : UInt64) : Machine → Reaction Machine RunEnd → Prop
  | spent {m : Machine} (hspent : limit ≤ m.completed - start) :
    Metered start limit m ⟨.ok .timeout, m, []⟩
  | halted {m m₁ : Machine} {t : Trace} (hleft : m.completed - start < limit)
    (hstep : singleStep.run m = ⟨.ok .halted, m₁, t⟩) :
    Metered start limit m ⟨.ok .halted, m₁, t⟩
  | faulted {m m₁ : Machine} {t : Trace} {fault : Fault} (hleft : m.completed - start < limit)
    (hstep : singleStep.run m = ⟨.error fault, m₁, t⟩) :
    Metered start limit m ⟨.error fault, m₁, t⟩
  | running {m m₁ : Machine} {t : Trace} {r : Reaction Machine RunEnd}
    (hleft : m.completed - start < limit)
    (hstep : singleStep.run m = ⟨.ok .running, m₁, t⟩) (hrest : Metered start limit m₁ r) :
    Metered start limit m (r.after t)

/-- What the counter has grown by and what is left of the budget make up the limit: a step that
leaves the machine running moves one from the latter to the former. So the growth stays below
`2 ^ 64`, wherever the counter itself stands. -/
theorem metered_run [Logger] (hsum : (m.completed - start).toNat + budget = limit.toNat) :
    Metered start limit m ((run budget).run m) := by
  have hleft : ∀ {m : Machine} {budget : Nat},
      (m.completed - start).toNat + (budget + 1) = limit.toNat → m.completed - start < limit := by
    intro m budget hsum
    exact UInt64.lt_iff_toNat_lt.mpr (by omega)
  induction budget, m using run_induction with
  | spent m => exact .spent (UInt64.le_iff_toNat_le.mpr (Nat.le_of_eq hsum.symm))
  | faulted budget m fault m₁ t hstep =>
    rw [run_succ_of_fault hstep]
    exact .faulted (hleft hsum) hstep
  | halted budget m m₁ t hstep =>
    rw [run_succ_of_halted hstep]
    exact .halted (hleft hsum) hstep
  | running budget m m₁ t hstep ih =>
    rw [run_succ_of_running hstep]
    refine .running (hleft hsum) hstep (ih ?_)
    have hgrown : m₁.completed - start = (m.completed - start) + 1 := by
      rw [(running_singleStep hstep).2]
      grind
    have hbound := limit.toNat_lt
    have hone : (1 : UInt64).toNat = 1 := rfl
    rw [hgrown, UInt64.toNat_add, hone, Nat.mod_eq_of_lt (by omega)]
    omega

/-- There is at most one such run: what the counter shows and what a step answers decide how it
goes on. -/
theorem Metered.unique [Logger] (h : Metered start limit m r) (h' : Metered start limit m r') :
    r = r' := by
  induction h generalizing r' with
  | spent hspent =>
    cases h' with
    | spent _ => rfl
    | halted hleft _ => exact absurd hleft (UInt64.not_lt.mpr hspent)
    | faulted hleft _ => exact absurd hleft (UInt64.not_lt.mpr hspent)
    | running hleft _ _ => exact absurd hleft (UInt64.not_lt.mpr hspent)
  | halted hleft hstep =>
    cases h' with
    | spent hspent => exact absurd hleft (UInt64.not_lt.mpr hspent)
    | halted _ hstep' => cases hstep.symm.trans hstep'; rfl
    | faulted _ hstep' => cases hstep.symm.trans hstep'
    | running _ hstep' _ => cases hstep.symm.trans hstep'
  | faulted hleft hstep =>
    cases h' with
    | spent hspent => exact absurd hleft (UInt64.not_lt.mpr hspent)
    | halted _ hstep' => cases hstep.symm.trans hstep'
    | faulted _ hstep' => cases hstep.symm.trans hstep'; rfl
    | running _ hstep' _ => cases hstep.symm.trans hstep'
  | running hleft hstep _ ih =>
    cases h' with
    | spent hspent => exact absurd hleft (UInt64.not_lt.mpr hspent)
    | halted _ hstep' => cases hstep.symm.trans hstep'
    | faulted _ hstep' => cases hstep.symm.trans hstep'
    | running _ hstep' hrest' =>
      cases hstep.symm.trans hstep'
      rw [ih hrest']

/-- The run by the step counter ends, and it is the run on a budget. -/
theorem metered_iff [Logger] : Metered m.completed limit m r ↔ r = (run limit.toNat).run m := by
  have hrun : Metered m.completed limit m ((run limit.toNat).run m) :=
    metered_run (by simp)
  exact ⟨fun h => h.unique hrun, fun h => h ▸ hrun⟩

/-! ## Runs as single steps -/

/-- A run on a budget is its single steps in a row, as far as they leave the machine running and the
budget lasts; it is also the run that watches the step counter, which the completed instructions
move on by no more than the budget. After a run that timed out, another one goes on as if it had
been one run. -/
theorem run_is_stepping [Logger] (m : Machine) (limit : UInt64) :
    (∀ r, RunEnds m limit.toNat r ↔ r = (run limit.toNat).run m)
      ∧ (∀ r, Metered m.completed limit m r ↔ r = (run limit.toNat).run m)
      ∧ ((run limit.toNat).run m).state.completed
          = m.completed + .ofNat (completions limit.toNat m)
      ∧ completions limit.toNat m ≤ limit.toNat
      ∧ ∀ more : UInt64, limit.toNat + more.toNat < twoPow 64 →
          ((run limit.toNat).run m).outcome = .ok .timeout →
          (run (limit + more).toNat).run m
            = ((run more.toNat).run ((run limit.toNat).run m).state).after
                ((run limit.toNat).run m).trace := by
  refine ⟨fun _ => runEnds_iff, fun _ => metered_iff, completed_run _ m, completions_le _ m, ?_⟩
  intro more hsum htimeout
  have hadd : (limit + more).toNat = limit.toNat + more.toNat := Nat.mod_eq_of_lt hsum
  rw [hadd]
  exact run_add _ _ htimeout

/-- A program that increments forever. -/
def climbing : Image where
  program := [some { operation := "INC" },
    some { operation := "JMP", mode := some "const", data := some 0 }]

/-- A run on a budget of two that times out, across the end of the counter, and three more steps. -/
theorem run_is_stepping_around :
    letI := Logger.silent
    ∃ m₀ m, boot climbing (some []) = .ok m₀ ∧ m = { m₀ with completed := .ofNat (twoPow 64 - 1) }
      ∧ ((run 2).run m).outcome.toOption = some .timeout
      ∧ ((run 2).run m).state.completed = 1
      ∧ (run 5).run m
          = ((run 3).run ((run 2).run m).state).after ((run 2).run m).trace := by
  refine ⟨_, _, rfl, rfl, rfl, ?_, ?_⟩
  · exact (@run_is_stepping .silent _ 2).2.2.1
  · exact (@run_is_stepping .silent _ 2).2.2.2.2 3 (by decide) rfl

/-! ## What a run answers -/

theorem status_singleStep [Logger] {status : Status} (h : singleStep.run m = ⟨.ok status, m₁, t⟩) :
    m₁.status = status := by
  have hends := m.singleStepEnds
  rw [h] at hends
  cases hends with
  | refused hhalted => exact if_pos (decide_eq_true hhalted)
  | completed _ _ => rfl

/-- After at least one step, or on a machine that is running, a run answers what the machine is. -/
theorem RunEnds.status_eq [Logger] {answer : RunEnd} (h : RunEnds m budget r)
    (hstart : budget ≠ 0 ∨ m.status = .running) (hanswer : r.outcome = .ok answer) :
    r.state.status = answer.status := by
  cases h with
  | timeout hruns =>
    cases hanswer
    refine status_eq_running_iff.mpr ?_
    cases hruns with
    | none => exact status_eq_running_iff.mp (hstart.resolve_left fun hbudget => hbudget rfl)
    | step hstep hrest => exact hrest.live (running_singleStep hstep).1
  | halted _ _ hlast =>
    cases hanswer
    exact status_singleStep hlast
  | faulted _ _ _ => cases hanswer

/-- A run that returns says what the machine is then, with one exception: an empty budget is spent
before the machine is looked at, so that the run times out on a machine that has halted, and leaves
it as it is. -/
theorem run_reports [Logger] (m : Machine) (budget : Nat) (answer : RunEnd)
    (h : ((run budget).run m).outcome = .ok answer) :
    (budget ≠ 0 ∨ m.status = .running →
        (answer = .halted ↔ ((run budget).run m).state.status = .halted)
          ∧ (answer = .timeout ↔ ((run budget).run m).state.status = .running))
      ∧ (budget = 0 ∧ m.status = .halted →
        answer = .timeout ∧ ((run budget).run m).state = m) := by
  constructor
  · intro hstart
    have hstatus := (runEnds m budget).status_eq hstart h
    rw [hstatus]
    cases answer <;> simp [RunEnd.status]
  · rintro ⟨rfl, -⟩
    cases h
    exact ⟨rfl, rfl⟩

/-- A program that ends at once. -/
def ending : Image where
  program := [some { operation := "HLT" }]

/-- A budget of one is spent by the step that ends the program, which is what the run answers. -/
theorem run_reports_ending :
    letI := Logger.silent
    ∃ m, boot ending (some []) = .ok m
      ∧ ((run 1).run m).outcome.toOption = some .halted
      ∧ ((run 1).run m).state.status = .halted := by
  refine ⟨_, rfl, rfl, ?_⟩
  exact ((@run_reports .silent _ 1 .halted rfl).1 (.inl Nat.one_ne_zero)).1.mp rfl

/-- After the program has ended, a run on an empty budget times out nevertheless. -/
theorem run_reports_spent :
    letI := Logger.silent
    ∃ m, boot ending (some []) = .ok m
      ∧ ((session [.step]).run m).state.status = .halted
      ∧ ((run 0).run ((session [.step]).run m).state).outcome.toOption = some .timeout
      ∧ ((run 0).run ((session [.step]).run m).state).state.status = .halted :=
  ⟨_, rfl, rfl, rfl, rfl⟩

end Machine

end TwoBus
