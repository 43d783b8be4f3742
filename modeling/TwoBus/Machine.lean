import TwoBus.Processor

/-!
# The machine

A machine is a processor that counts its completed steps. It is stepped one instruction at a time
(`Machine.singleStep`) or run on a budget of steps (`Machine.run`). To step it after its program has
ended is allowed and changes nothing.

`run` is iterated `singleStep`: `run_zero` and `run_succ` give it one step at a time.
-/

namespace TwoBus

/-- What a machine starts with. Both images are placed at address zero. -/
structure Image where
  /-- The data cells, zero past the end. -/
  data : List Int := []
  /-- The program cells, empty past the end. -/
  program : List (Option Instruction) := []

/-- What a machine can be between steps. -/
inductive Status
  | running
  | halted
  deriving DecidableEq, Repr

/-- How a run on a budget ended without a fault. -/
inductive RunEnd
  | halted
  | timeout
  deriving DecidableEq, Repr

/-- A processor and its step counter. -/
structure Machine where
  processor : Processor
  /-- The number of completed steps, modulo `2 ^ 64`. -/
  completed : UInt64 := 0

namespace Machine

def processorPart : Part Machine Processor where
  get m := m.processor
  set m p := { m with processor := p }

/-- The machine that starts with an image and reads a source. The source is looked at before the
program, and that before the data. -/
def boot (image : Image) (source : Option (List UInt8)) : Except Fault Machine := do
  let io ← IoUnit.ofSource? source
  let program ← ProgramMemory.ofProgram? .machine image.program
  let memory ← DataMemory.ofData? .machine .machine image.data io
  return { processor := { program, memory } }

def status (m : Machine) : Status :=
  if m.processor.isHalted then .halted else .running

def count (m : Machine) : Machine := { m with completed := m.completed + 1 }

/-- One step. After the program has ended there is none, which is no fault here. -/
def singleStep : Activity Machine Status := do
  let m ← get
  if m.processor.isHalted then
    Activity.announce .halted
    return .halted
  else
    Activity.whenOn .disassembly (Activity.focus processorPart Processor.disassembleCurrent)
    Activity.focus processorPart Processor.step
    modify count
    Activity.whenOn .registers (Activity.focus processorPart Processor.dumpRegisters)
    let m ← get
    if m.processor.isHalted then
      Activity.announce .halted
      return .halted
    else return .running

/-- Run on a budget, behind a trace that is kept in reverse. -/
def runBehind [Logger] (trace : Trace) (budget : Nat) (m : Machine) : Reaction Machine RunEnd :=
  match budget with
  | 0 => ⟨.ok .timeout, m, trace.reverse⟩
  | budget + 1 =>
    let r := singleStep.run m
    match r.outcome with
    | .error fault => ⟨.error fault, r.state, (r.trace.reverseAux trace).reverse⟩
    | .ok .halted => ⟨.ok .halted, r.state, (r.trace.reverseAux trace).reverse⟩
    | .ok .running => runBehind (r.trace.reverseAux trace) budget r.state

/-- Run until the program ends, a step faults, or as many steps as the budget allows have been
completed. An empty budget is spent before the machine is looked at. -/
def run (budget : Nat) : Activity Machine RunEnd :=
  ⟨fun switches m =>
    letI : Logger := ⟨switches⟩
    runBehind [] budget m⟩

/-- A budget that no run can spend before the step counter has gone around: a run without a
limit. -/
def unlimited : Nat := twoPow 64

/-- The trace kept behind a run ends up in front of what the run records. -/
theorem runBehind_eq [Logger] (trace : Trace) (budget : Nat) (m : Machine) :
    runBehind trace budget m = (runBehind [] budget m).after trace.reverse := by
  induction budget generalizing trace m with
  | zero => simp [runBehind]
  | succ budget ih =>
    unfold runBehind
    obtain ⟨outcome, state, recorded⟩ := singleStep.run m
    cases outcome with
    | error fault => simp [List.reverseAux_eq]
    | ok status =>
      cases status with
      | halted => simp [List.reverseAux_eq]
      | running =>
        simp only
        rw [ih, ih (List.reverseAux _ [])]
        simp [List.reverseAux_eq, Reaction.after_after]

@[simp] theorem run_zero [Logger] (m : Machine) : (run 0).run m = ⟨.ok .timeout, m, []⟩ := rfl

/-- A run makes one step, and goes on from there if the program has not ended. -/
theorem run_succ (budget : Nat) :
    run (budget + 1) = (do
      match ← singleStep with
      | .halted => return .halted
      | .running => run budget) := by
  ext logger m
  show runBehind [] (budget + 1) m = (singleStep.run m).andThen _
  unfold runBehind
  obtain ⟨outcome, state, trace⟩ := singleStep.run m
  cases outcome with
  | error fault => simp [List.reverseAux_eq]
  | ok status =>
    cases status with
    | halted => simp [List.reverseAux_eq]
    | running =>
      simp only [Reaction.andThen_ok]
      rw [runBehind_eq, List.reverseAux_eq, List.append_nil, List.reverse_reverse]
      rfl

end Machine

end TwoBus
