import TwoBus.Proofs.Core
import TwoBus.Proofs.Law

/-!
# Laws of a step

A step is made of the actions of its instruction and of what the control unit does beside them: it
opens the gate it fetches through, and it notes its phase and the instruction. A law that allows all
of that (`Processor.Admits`) is obeyed by every step, whatever the instruction and however it ends.

It is also obeyed up to any point inside a step. `Processor.stepUpTo` breaks a step off after a
number of its actions and answers with those that are left; taking them up again completes the step
(`pass_eq_passUpTo`).

* `Processor.Admits.obeyed_step`, `Processor.Admits.obeyed_stepUpTo`: the step lemmas.
* `Core.run_stepUpTo`: where a step of a core is broken off.
-/

namespace TwoBus

namespace Processor

variable {law : Law Processor}

/-- What a law must allow for every step to obey it. -/
structure Admits [Logger] (law : Law Processor) : Prop where
  perform : ∀ op, law.Obeyed (perform op)
  /-- An activity that obeys the law obeys it behind the gate of a fetch. -/
  gate : ∀ {α : Type} {x : Activity Processor α}, law.Obeyed x →
    law.Obeyed (connecting [.ip] [] x)
  /-- The control unit may change its own state. -/
  control : ∀ (p : Processor) (phase : Phase) (hold : Bool) (current : Option Instruction),
    law.Holds p [] { p with phase, hold, current }

/-! ## Steps broken off -/

/-- Execute an instruction up to one of its actions, and answer with those that are left. -/
def executeUpTo (n : Nat) (inst : Instruction) : Activity Processor Microprogram := do
  let p ← get
  match inst.microprogram p.registers.acc.word.toInt with
  | .error cause => Activity.fail (.instruction inst cause)
  | .ok ops => do
    (ops.take n).forM perform
    return ops.drop n

/-- A pass up to one of the actions of its instruction. -/
def passUpTo (n : Nat) : Activity Processor Microprogram := do
  enter .fetch
  let inst ← fetch
  enter .execute
  executeUpTo n inst

/-- A step up to one of the actions of its instruction, refused as the whole step is. -/
def stepUpTo (n : Nat) : Activity Processor Microprogram := do
  let p ← get
  if p.isHalted then Activity.fail .halted
  else
    modify fun p => { p with hold := false }
    passUpTo n

theorem forM_take_drop (ops : Microprogram) (n : Nat) :
    ops.forM perform
      = (do (ops.take n).forM perform; (ops.drop n).forM perform : Activity Processor Unit) := by
  ext logger p
  have hrun := Activity.run_forM_append perform (ops.take n) (ops.drop n) p
  rw [List.take_append_drop] at hrun
  exact hrun

theorem execute_eq_executeUpTo (n : Nat) (inst : Instruction) :
    execute inst = (do (← executeUpTo n inst).forM perform) := by
  unfold execute executeUpTo
  rw [bind_assoc]
  congr 1
  funext p
  cases inst.microprogram p.registers.acc.word.toInt with
  | error cause => rfl
  | ok ops =>
    simp only [forM_take_drop ops n, bind_assoc, pure_bind]

/-- What a pass does with the actions that are left, and after them. -/
def completing (rest : Microprogram) : Activity Processor Unit := do
  rest.forM perform
  Core.concluding

/-- A pass that was broken off is completed by the actions that were left. -/
theorem pass_eq_passUpTo (n : Nat) : pass = passUpTo n >>= completing := by
  unfold pass passUpTo
  simp only [execute_eq_executeUpTo n, bind_assoc]
  rfl

/-- A step that was broken off goes on with the actions that were left. -/
theorem trace_step_of_stepUpTo [Logger] {p q : Processor} {n : Nat} {rest : Microprogram}
    {t : Trace} (h : (stepUpTo n).run p = ⟨.ok rest, q, t⟩) :
    (step.run p).trace = t ++ ((completing rest).run q).trace := by
  unfold stepUpTo at h
  unfold step
  rw [Activity.run_bind, Activity.run_get, Reaction.andThen_ok, Reaction.after_nil,
    Activity.run_ite] at h ⊢
  by_cases hhalted : p.isHalted = true
  · rw [if_pos hhalted] at h
    cases h
  · rw [if_neg hhalted] at h ⊢
    rw [Activity.run_bind, Activity.run_modify, Reaction.andThen_ok, Reaction.after_nil] at h ⊢
    rw [Activity.trace_onFault, pass_eq_passUpTo n, Activity.run_bind, h]
    rfl

/-- What a fetch does with the content of the cell it has looked at obeys any law. -/
theorem obeyed_found [Logger] (cell : Option Instruction) : law.Obeyed (match cell with
    | some inst => pure inst
    | none => do
      let p ← get
      Activity.fail (.instruction {} (.emptyCell p.registers.ip.word.toInt))) := by
  cases cell with
  | some inst => exact Law.obeyed_pure inst
  | none => exact Law.obeyed_bind Law.obeyed_get fun p => Law.obeyed_fail _

namespace Admits

variable [Logger] (h : Admits law)
include h

theorem obeyed_enter (phase : Phase) : law.Obeyed (enter phase) :=
  Law.obeyed_modify fun p => h.control p phase p.hold p.current

theorem obeyed_fetch : law.Obeyed fetch := by
  refine Law.obeyed_bind (h.gate ?_) obeyed_found
  refine Law.obeyed_bind Law.obeyed_get fun p => ?_
  refine Law.obeyed_bind (Law.obeyed_lift _) fun cell => ?_
  refine Law.obeyed_bind (Law.obeyed_modify fun p => ?_) fun _ => Law.obeyed_pure _
  exact h.control p p.phase p.hold cell

theorem obeyed_executeUpTo (n : Nat) (inst : Instruction) : law.Obeyed
    (executeUpTo n inst) := by
  refine Law.obeyed_bind Law.obeyed_get fun p => ?_
  cases inst.microprogram p.registers.acc.word.toInt with
  | error cause => exact Law.obeyed_fail _
  | ok ops =>
    exact Law.obeyed_bind (Law.obeyed_forM fun op _ => h.perform op) fun _ => Law.obeyed_pure _

/-- What follows a fetch, up to one of the actions of the instruction. -/
theorem obeyed_started (n : Nat) (inst : Instruction) : law.Obeyed (do
    enter .execute
    executeUpTo n inst) :=
  Law.obeyed_bind (h.obeyed_enter _) fun _ => h.obeyed_executeUpTo n inst

theorem obeyed_passUpTo (n : Nat) : law.Obeyed (passUpTo n) :=
  Law.obeyed_bind (h.obeyed_enter _) fun _ => Law.obeyed_bind h.obeyed_fetch (h.obeyed_started n)

theorem obeyed_advance : law.Obeyed advance :=
  Law.obeyed_bind Law.obeyed_get fun _ => Law.obeyed_ite (Law.obeyed_pure _) (h.perform _)

theorem obeyed_completing (rest : Microprogram) : law.Obeyed (completing rest) := by
  refine Law.obeyed_bind (Law.obeyed_forM fun op _ => h.perform op) fun _ => ?_
  refine Law.obeyed_bind Law.obeyed_get fun p => ?_
  refine Law.obeyed_bind (h.obeyed_enter _) fun _ => ?_
  exact Law.obeyed_bind h.obeyed_advance fun _ => h.obeyed_enter _

theorem obeyed_pass : law.Obeyed pass := by
  -- broken off at once, a pass has all its actions left
  rw [pass_eq_passUpTo 0]
  exact Law.obeyed_bind (h.obeyed_passUpTo 0) h.obeyed_completing

theorem obeyed_unhold : law.Obeyed
    (modify fun p : Processor => { p with hold := false }) :=
  Law.obeyed_modify fun p => h.control p p.phase false p.current

/-- A law that is admitted is obeyed by every step. -/
theorem obeyed_step : law.Obeyed step := by
  refine Law.obeyed_bind Law.obeyed_get fun p => Law.obeyed_ite (Law.obeyed_fail _) ?_
  refine Law.obeyed_bind h.obeyed_unhold fun _ => Law.obeyed_onFault h.obeyed_pass fun p => ?_
  exact h.control p .idle p.hold p.current

/-- A law that is admitted is obeyed up to every action of a step. -/
theorem obeyed_stepUpTo (n : Nat) : law.Obeyed (stepUpTo n) := by
  refine Law.obeyed_bind Law.obeyed_get fun p => Law.obeyed_ite (Law.obeyed_fail _) ?_
  exact Law.obeyed_bind h.obeyed_unhold fun _ => h.obeyed_passUpTo n

end Admits

end Processor

/-! ## Steps of cores broken off -/

namespace Core

variable {c c₁ : Core} {inst : Instruction} {before after : Microprogram} {t : Trace}

theorem run_executeUpTo [Logger] (hops : inst.microprogram c.acc.toInt = .ok (before ++ after))
    (hrun : (before.forM perform).run c = ⟨.ok (), c₁, t⟩) :
    (Processor.executeUpTo before.length inst).run c.toProcessor
      = ⟨.ok after, c₁.toProcessor, t⟩ := by
  have hacc : c.toProcessor.registers.acc.word = c.acc := rfl
  have hbefore := run_forM_toProcessor before c
  rw [hrun, Reaction.mapState_mk] at hbefore
  unfold Processor.executeUpTo
  rw [Activity.run_bind, Activity.run_get, Reaction.andThen_ok, Reaction.after_nil, hacc, hops]
  simp only [List.take_left, List.drop_left, Activity.run_bind, hbefore, Reaction.andThen_ok,
    Activity.run_pure, Reaction.after_mk, List.append_nil]

theorem run_passUpTo [Logger] (hpos : ¬c.ip.toInt < 0) (hcell : c.cell = some inst)
    (hops : inst.microprogram c.acc.toInt = .ok (before ++ after))
    (hrun : (before.forM perform).run (c.executing inst) = ⟨.ok (), c₁, t⟩) :
    (Processor.passUpTo before.length).run { c with hold := false }.toProcessor
      = ⟨.ok after, c₁.toProcessor, t⟩ := by
  have hfetch := run_fetch { c with phase := .fetch, hold := false } hpos hcell
  unfold Processor.passUpTo
  rw [Activity.run_bind, run_enter, Reaction.andThen_ok, Reaction.after_nil, Activity.run_bind,
    hfetch, Reaction.andThen_ok, Reaction.after_nil, Activity.run_bind, run_enter,
    Reaction.andThen_ok, Reaction.after_nil]
  exact run_executeUpTo hops hrun

/-- A step of a core up to one of the actions of its instruction. -/
theorem run_stepUpTo [Logger] (hlive : c.phase ≠ .halted) (hpos : ¬c.ip.toInt < 0)
    (hcell : c.cell = some inst) (hops : inst.microprogram c.acc.toInt = .ok (before ++ after))
    (hrun : (before.forM perform).run (c.executing inst) = ⟨.ok (), c₁, t⟩) :
    (Processor.stepUpTo before.length).run c.toProcessor = ⟨.ok after, c₁.toProcessor, t⟩ := by
  have hhalted : c.toProcessor.isHalted = false := decide_eq_false hlive
  have hpass := run_passUpTo hpos hcell hops hrun
  unfold Processor.stepUpTo
  rw [Activity.run_bind, Activity.run_get, Reaction.andThen_ok, Reaction.after_nil, hhalted]
  exact hpass

end Core

end TwoBus
