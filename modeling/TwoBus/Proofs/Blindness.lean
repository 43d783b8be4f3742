import TwoBus.Proofs.Core

/-!
# What an activity does not look at

An activity is blind to a change of its state if the change can be made before it or after it: the
outcome and the trace are the same, and so is what is left behind, but for the change. Blindness
composes as laws do.

In a processor everything but the fetch is blind to the program and to the record of the current
instruction (`Processor.relabel`). So a step is known from what its fetch finds.

* `Activity.blind_bind`, `Activity.blind_focus`, …: one lemma for each way in which activities are
  put together.
* `Processor.blind_perform`, `Processor.blind_handle`: the actions of the control unit, and all that
  follows a fetch.
* `Processor.run_step_relabel`: a step under another program that has the same cell where the
  instruction pointer is.
* `Processor.run_step_replaced`: a step under another program whose instruction there has the same
  microprogram.
-/

namespace TwoBus

namespace Activity

variable {σ τ α β : Type} {f : σ → σ}

/-- The change makes no difference to the activity, and is still there afterwards. -/
def BlindTo [Logger] (f : σ → σ) (x : Activity σ α) : Prop :=
  ∀ s, x.run (f s) = (x.run s).mapState f

theorem blind_pure [Logger] (a : α) : (pure a : Activity σ α).BlindTo f := fun _ => rfl

theorem blind_fail [Logger] (fault : Fault) : (fail fault : Activity σ α).BlindTo f := fun _ => rfl

theorem blind_modify [Logger] {g : σ → σ} (h : ∀ s, g (f s) = f (g s)) :
    (modify g : Activity σ PUnit).BlindTo f := by
  intro s
  rw [run_modify, run_modify, h]
  rfl

theorem blind_bind [Logger] {x : Activity σ α} {next : α → Activity σ β} (hx : x.BlindTo f)
    (hnext : ∀ a, (next a).BlindTo f) : (x >>= next).BlindTo f := by
  intro s
  rw [run_bind, run_bind, hx s]
  exact Reaction.andThen_mapState f (x.run s) fun a => hnext a

/-- What is made of the state must be the same with the change and without it. -/
theorem blind_get_bind [Logger] {next : σ → Activity σ α} (hsame : ∀ s, next (f s) = next s)
    (hnext : ∀ s, (next s).BlindTo f) : (get >>= next).BlindTo f := by
  intro s
  rw [run_bind, run_bind, run_get, run_get, Reaction.andThen_ok, Reaction.andThen_ok, hsame,
    hnext s s]
  rfl

theorem blind_ite [Logger] {c : Prop} [Decidable c] {x y : Activity σ α} (hx : x.BlindTo f)
    (hy : y.BlindTo f) : (if c then x else y).BlindTo f := by
  split
  · exact hx
  · exact hy

theorem blind_forM [Logger] {next : α → Activity σ PUnit} (h : ∀ a, (next a).BlindTo f)
    (as : List α) :
    (as.forM next).BlindTo f := by
  induction as with
  | nil => exact blind_pure _
  | cons a as ih => exact blind_bind (h a) fun _ => ih

/-- On a part that the change leaves alone, an activity is blind whatever it does. -/
theorem blind_focus [Logger] {part : Part σ τ} (hget : ∀ s, part.get (f s) = part.get s)
    (hset : ∀ s v, part.set (f s) v = f (part.set s v)) (x : Activity τ α) :
    (focus part x).BlindTo f := by
  intro s
  rw [run_focus, run_focus, hget]
  exact congrArg (Reaction.mk _ · _) (hset s _)

theorem blind_bracket [Logger] {before after : σ → σ} {x : Activity σ α} (hx : x.BlindTo f)
    (hbefore : ∀ s, before (f s) = f (before s)) (hafter : ∀ s, after (f s) = f (after s)) :
    (bracket before after x).BlindTo f := by
  intro s
  rw [run_bracket, run_bracket, hbefore, hx]
  exact congrArg (Reaction.mk _ · _) (hafter _)

/-- A repair that commutes with the change can be made on either side of it. -/
theorem run_onFault_mapState [Logger] {repair : σ → σ} (hrepair : ∀ s, repair (f s) = f (repair s))
    {x : Activity σ α} {s s' : σ} (hx : x.run s' = (x.run s).mapState f) :
    (onFault repair x).run s' = ((onFault repair x).run s).mapState f := by
  cases houtcome : (x.run s).outcome with
  | ok a =>
    have houtcome' : (x.run s').outcome = .ok a := by rw [hx]; exact houtcome
    rw [run_onFault_of_ok repair houtcome, run_onFault_of_ok repair houtcome', hx]
  | error fault =>
    have houtcome' : (x.run s').outcome = .error fault := by rw [hx]; exact houtcome
    rw [run_onFault_of_error repair houtcome, run_onFault_of_error repair houtcome', hx]
    exact congrArg (Reaction.mk _ · _) (hrepair _)

end Activity

namespace Processor

open Activity

/-- The processor with another program, and with a change of what it notes as its current
instruction. -/
def relabel (program : ProgramMemory 16) (note : Option Instruction → Option Instruction)
    (p : Processor) : Processor :=
  { p with program, current := note p.current }

variable {program : ProgramMemory 16} {note : Option Instruction → Option Instruction}
  {p : Processor} {inst : Instruction}

theorem mapRegisters_relabel (g : RegisterFile 16 → RegisterFile 16) (p : Processor) :
    mapRegisters g (relabel program note p) = relabel program note (mapRegisters g p) := rfl

theorem blind_connecting [Logger] {α : Type} {x : Activity Processor α}
    (hx : x.BlindTo (relabel program note)) (sources targets : List Reg) :
    (connecting sources targets x).BlindTo (relabel program note) :=
  blind_bracket hx (mapRegisters_relabel _) (mapRegisters_relabel _)

theorem blind_datapathPart [Logger] {α : Type} (x : Activity (Datapath 16) α) :
    (focus datapathPart x).BlindTo (relabel program note) :=
  blind_focus (f := relabel program note) (fun _ => rfl) (fun _ _ => rfl) x

theorem blind_dataPart [Logger] {α : Type} (x : Activity (DataUnit 16 16) α) :
    (focus dataPart x).BlindTo (relabel program note) :=
  blind_focus (f := relabel program note) (fun _ => rfl) (fun _ _ => rfl) x

/-- No action of the control unit looks at the program. -/
theorem blind_perform [Logger] (op : Microop) : (perform op).BlindTo (relabel program note) := by
  have hput : ∀ target v, (put target v).BlindTo (relabel program note) :=
    fun target v => blind_connecting (blind_modify (mapRegisters_relabel _)) [] [target]
  cases op with
  | transfer sources targets signals =>
    exact blind_connecting (blind_datapathPart _) sources targets
  | immediate target v => exact hput target v.toInt
  | displace target v => exact blind_get_bind (fun _ => rfl) fun p => hput target _
  | load => exact blind_connecting (blind_dataPart _) [.ar] [.dr]
  | store => exact blind_connecting (blind_dataPart _) [.dr, .ar] []
  | hold => exact blind_modify fun _ => rfl
  | halt => exact blind_modify fun _ => rfl

theorem blind_enter [Logger] (phase : Phase) : (enter phase).BlindTo (relabel program note) :=
  blind_modify fun _ => rfl

theorem blind_execute [Logger] (inst : Instruction) : (execute inst).BlindTo
    (relabel program note) := by
  refine blind_get_bind (fun _ => rfl) fun p => ?_
  cases inst.microprogram p.registers.acc.word.toInt with
  | error cause => exact blind_fail _
  | ok ops => exact blind_forM blind_perform ops

theorem blind_concluding [Logger] : Core.concluding.BlindTo (relabel program note) := by
  have hadvance : advance.BlindTo (relabel program note) :=
    blind_get_bind (fun _ => rfl) fun _ => blind_ite (blind_pure _) (blind_perform _)
  refine blind_get_bind (fun _ => rfl) fun p => ?_
  refine blind_bind (blind_enter _) fun _ => ?_
  exact blind_bind hadvance fun _ => blind_enter _

/-- What follows a fetch. -/
def handle (inst : Instruction) : Activity Processor Unit := do
  enter .execute
  execute inst
  Core.concluding

theorem blind_handle [Logger] (inst : Instruction) : (handle inst).BlindTo (relabel program note) :=
  blind_bind (blind_enter _) fun _ => blind_bind (blind_execute inst) fun _ => blind_concluding

/-! ## Steps -/

theorem fetched_relabel (p : Processor) :
    (relabel program note p).fetched = relabel program note p.fetched :=
  mapRegisters_relabel _ p

/-- A step is a pass, and a fault takes the control unit back to where it was between two steps. -/
theorem run_step_of_live [Logger] (hlive : p.phase ≠ .halted) :
    step.run p
      = (onFault (fun p => { p with phase := .idle }) pass).run { p with hold := false } := by
  have hhalted : p.isHalted = false := decide_eq_false hlive
  unfold step
  rw [run_bind, run_get, Reaction.andThen_ok, Reaction.after_nil, hhalted]
  rfl

theorem run_pass [Logger] (p : Processor) :
    pass.run p = (fetch.run { p with phase := .fetch }).andThen handle := by
  have henter : (enter .fetch).run p = ⟨.ok (), { p with phase := .fetch }, []⟩ := rfl
  unfold pass
  rw [run_bind, henter, Reaction.andThen_ok, Reaction.after_nil]
  rfl

/-- The processor that is about to fetch. -/
def fetching (p : Processor) : Processor := { p with hold := false, phase := .fetch }

/-- Two steps differ in a relabelling if the fetches and what follows them do. -/
theorem run_step_of_fetch [Logger] (hlive : p.phase ≠ .halted)
    (hfetch : (fetch.run (relabel program id p.fetching)).andThen handle
      = ((fetch.run p.fetching).andThen handle).mapState (relabel program note)) :
    step.run (relabel program id p) = (step.run p).mapState (relabel program note) := by
  have hlive' : (relabel program id p).phase ≠ .halted := hlive
  have hrepair : ∀ q : Processor, ({ relabel program note q with phase := .idle } : Processor)
      = relabel program note { q with phase := .idle } := fun _ => rfl
  rw [run_step_of_live hlive, run_step_of_live hlive']
  apply run_onFault_mapState hrepair
  rw [run_pass, run_pass]
  exact hfetch

/-- Where two programs have the same cell, the fetch of one is that of the other. -/
theorem run_fetch_relabel [Logger] (hsame : selected program p = selected p.program p) :
    fetch.run (relabel program id p) = (fetch.run p).mapState (relabel program id) := by
  have hselected : selected (relabel program id p).program (relabel program id p)
      = selected p.program p := hsame
  cases h : selected p.program p with
  | error fault =>
    rw [run_fetch_of_error h, run_fetch_of_error (hselected.trans h), fetched_relabel]
    rfl
  | ok cell =>
    cases cell with
    | none =>
      rw [run_fetch_of_none h, run_fetch_of_none (hselected.trans h), fetched_relabel]
      rfl
    | some inst =>
      rw [run_fetch_of_some h, run_fetch_of_some (hselected.trans h), fetched_relabel]
      rfl

/-- A step under another program that has the same cell where the instruction pointer is. -/
theorem run_step_relabel [Logger] (hsame : selected program p = selected p.program p) :
    step.run (relabel program id p) = (step.run p).mapState (relabel program id) := by
  by_cases hhalted : p.phase = .halted
  · have hhalted' : (relabel program id p).phase = .halted := hhalted
    rw [run_step_of_halted hhalted, run_step_of_halted hhalted']
    rfl
  · have hsame : selected program p.fetching = selected p.fetching.program p.fetching := hsame
    apply run_step_of_fetch hhalted
    rw [run_fetch_relabel hsame]
    exact Reaction.andThen_mapState _ _ fun inst => blind_handle inst

/-- Instructions with the same microprogram are handled alike. -/
theorem run_handle_congr [Logger] {inst' : Instruction} {ops : Microprogram}
    (hops : inst.microprogram p.registers.acc.word.toInt = .ok ops)
    (hops' : inst'.microprogram p.registers.acc.word.toInt = .ok ops) :
    (handle inst').run p = (handle inst).run p := by
  have hrun : ∀ {i : Instruction}, i.microprogram p.registers.acc.word.toInt = .ok ops →
      (execute i).run { p with phase := .execute }
        = (ops.forM perform).run { p with phase := .execute } := by
    intro i hi
    have hi : i.microprogram ({ p with phase := .execute } : Processor).registers.acc.word.toInt
        = .ok ops := hi
    unfold execute
    rw [run_bind, run_get, Reaction.andThen_ok, Reaction.after_nil, hi]
  show ((execute inst').run { p with phase := .execute }).andThen (fun _ => Core.concluding)
    = ((execute inst).run { p with phase := .execute }).andThen (fun _ => Core.concluding)
  rw [hrun hops, hrun hops']

/-- A step under another program that has, where the instruction pointer is, an instruction with the
same microprogram. -/
theorem run_step_replaced [Logger] {inst' : Instruction} {ops : Microprogram}
    (hlive : p.phase ≠ .halted) (hfound : selected p.program p = .ok (some inst))
    (hfound' : selected program p = .ok (some inst'))
    (hops : inst.microprogram p.registers.acc.word.toInt = .ok ops)
    (hops' : inst'.microprogram p.registers.acc.word.toInt = .ok ops) :
    step.run (relabel program id p)
      = (step.run p).mapState (relabel program fun _ => some inst') := by
  have hfetch : fetch.run p.fetching = _ := run_fetch_of_some hfound
  have hfetch' : fetch.run (relabel program id p.fetching) = _ := run_fetch_of_some hfound'
  have hacc : p.fetching.fetched.registers.acc.word = p.registers.acc.word := rfl
  apply run_step_of_fetch hlive
  rw [hfetch, hfetch', fetched_relabel, Reaction.andThen_ok, Reaction.andThen_ok,
    Reaction.after_nil, Reaction.after_nil]
  rw [← hacc] at hops hops'
  generalize p.fetching.fetched = q at hops hops' ⊢
  -- the two states after the fetch differ in the program and in the instruction that is noted
  have hblind : (handle inst').run (relabel program (fun _ => some inst') _) = _ :=
    blind_handle inst' { q with current := some inst }
  rw [run_handle_congr (p := { q with current := some inst }) hops hops'] at hblind
  exact hblind

end Processor

end TwoBus
