import TwoBus.Proofs.Blindness
import TwoBus.Proofs.BusCycle
import TwoBus.Proofs.Microprograms
import TwoBus.Proofs.Session

/-!
# The causes of faults

The parts of the machine refuse to be misused: a bus that is frozen is not driven, an address past
the end of a memory is not looked at. No program gets them to. A step faults by a negative address,
by a slot of the window that no device backs, by an instruction that cannot be executed, or by what
the output device refuses; and a step after the program has ended is refused. That holds from every
state of the machine, whichever gates are open in it.

* `Fault.not_internal_message`: the two sorts of fault are told apart by their messages.
* `Processor.faultsWithin_handle`: what follows a fetch faults in ways of its own.
* `Machine.fault_of_executing`: what stepping and running fault with.
-/

namespace TwoBus

/-! ## Two sorts of fault -/

namespace Fault

/-- A fault that a program brings about: by an address, by an instruction, or by what it does to a
device. -/
def isOfProgram : Fault → Bool
  | negativeInstructionAddress _ | negativeDataAddress _ | unbackedSlot _ | readFromOutput
  | notCharacter _ | sinkFailed | instruction _ _ => true
  | unsupportedWidth _ | unknownRegister | unknownSignal | busFrozen | busFrozenTwice
  | busNotFrozen | addressTooWide | programTooLong _ _ | dataTooLong _ _ | instructionOutOfBounds
  | dataOutOfBounds | peekOutOfBounds | windowFull | unreadableSource | malformedText _
  | halted => false

/-- A fault that a fetch ends in, with nothing found to execute. -/
def isOfFetch : Fault → Bool
  | negativeInstructionAddress _ | instruction _ (.emptyCell _) => true
  | _ => false

/-- A fault that a program brings about by an instruction that has been fetched. -/
def isOfExecution (fault : Fault) : Bool := fault.isOfProgram && !fault.isOfFetch

theorem isOfProgram_of_isOfExecution {fault : Fault} (h : fault.isOfExecution = true) :
    fault.isOfProgram = true :=
  (Bool.and_eq_true_iff.mp h).1

/-- How the messages begin of the faults that a program brings about, and the message after its
end. -/
def openings : List String :=
  ["invalid instruction address (", "invalid address (", "access to unbacked device address: ",
    "reading from output device", "value ", "output device sink failed", "error in instruction '",
    "cpu halted"]

/-- How the messages begin of the faults that arise where a part of the machine is misused. -/
def internalTexts : List String :=
  ["out of bounds instruction load", "out of bounds memory access", "invalid preg id",
    "unknown ALU signal", "unsupported bit depth ", "bus state ", "device window is full"]

theorem prefix_append {start s : String} (h : start.toList <+: s.toList) (t : String) :
    start.toList <+: (s ++ t).toList := by
  rw [String.toList_append]
  exact h.trans (List.prefix_append _ _)

theorem opens_description {fault : Fault} (h : fault.isOfProgram = true ∨ fault = .halted) :
    ∃ opening ∈ openings, opening.toList <+: fault.description.toList := by
  cases fault with
  | negativeInstructionAddress address =>
    exact ⟨"invalid instruction address (", by simp [openings],
      prefix_append (prefix_append (List.prefix_refl _) _) _⟩
  | negativeDataAddress address =>
    exact ⟨"invalid address (", by simp [openings],
      prefix_append (prefix_append (List.prefix_refl _) _) _⟩
  | unbackedSlot slot =>
    exact ⟨"access to unbacked device address: ", by simp [openings],
      prefix_append (List.prefix_refl _) _⟩
  | readFromOutput =>
    exact ⟨"reading from output device", by simp [openings], List.prefix_refl _⟩
  | notCharacter v =>
    exact ⟨"value ", by simp [openings], prefix_append (prefix_append (List.prefix_refl _) _) _⟩
  | sinkFailed =>
    exact ⟨"output device sink failed", by simp [openings], List.prefix_refl _⟩
  | instruction inst cause =>
    exact ⟨"error in instruction '", by simp [openings],
      prefix_append (prefix_append (prefix_append (List.prefix_refl _) _) _) _⟩
  | halted => exact ⟨"cpu halted", by simp [openings], List.prefix_refl _⟩
  | _ => exact absurd h (by simp [isOfProgram])

/-- No opening begins as one of the texts does, nor the other way round; and none holds a NUL, where
a message would end. -/
theorem openings_clash : ∀ opening ∈ openings,
    (∀ c ∈ opening.toList, decide (c ≠ '\x00') = true)
      ∧ ∀ text ∈ internalTexts,
          ¬opening.toList <+: text.toList ∧ ¬text.toList <+: opening.toList := by
  simp [openings, internalTexts]

/-- What a caller is told of a program's fault is never what it is told of a misused part. -/
theorem not_internal_message {fault : Fault} (h : fault.isOfProgram = true ∨ fault = .halted) :
    ∀ text ∈ internalTexts, ¬text.toList <+: fault.message.toList := by
  obtain ⟨opening, hmem, rest, hrest⟩ := opens_description h
  obtain ⟨hnul, hclash⟩ := openings_clash opening hmem
  -- the opening holds no NUL, so the message begins with it too
  have hopening : opening.toList <+: fault.message.toList := by
    rw [message, Text.untilNul, String.toList_ofList, ← hrest, List.takeWhile_append_of_pos hnul]
    exact List.prefix_append _ _
  intro text htext hprefix
  obtain ⟨hleft, hright⟩ := hclash text htext
  rcases List.prefix_or_prefix_of_prefix hopening hprefix with hle | hle
  · exact hleft hle
  · exact hright hle

end Fault

/-! ## Activities that fault in some ways only -/

namespace Activity

variable {σ τ α β : Type} {sort : Fault → Bool}

/-- Wherever it is started, an activity ends in no fault but those of a sort. -/
def FaultsWithin [Logger] (sort : Fault → Bool) (x : Activity σ α) : Prop :=
  ∀ s fault, (x.run s).outcome = .error fault → sort fault = true

/-- A wider sort has the faults of a narrower one. -/
theorem FaultsWithin.mono [Logger] {wider : Fault → Bool} {x : Activity σ α}
    (hx : x.FaultsWithin sort) (h : ∀ {fault : Fault}, sort fault = true → wider fault = true) :
    x.FaultsWithin wider :=
  fun s fault hfault => h (hx s fault hfault)

theorem faultsWithin_of_ok [Logger] {x : Activity σ α} (h : ∀ s, ∃ a, (x.run s).outcome = .ok a) :
    x.FaultsWithin sort := by
  intro s fault hfault
  obtain ⟨a, ha⟩ := h s
  rw [ha] at hfault
  exact absurd hfault (by simp)

theorem faultsWithin_pure [Logger] (a : α) : (pure a : Activity σ α).FaultsWithin sort :=
  faultsWithin_of_ok fun _ => ⟨a, rfl⟩

theorem faultsWithin_get [Logger] : (get : Activity σ σ).FaultsWithin sort :=
  faultsWithin_of_ok fun s => ⟨s, rfl⟩

theorem faultsWithin_modify [Logger] (f : σ → σ) :
    (modify f : Activity σ PUnit).FaultsWithin sort :=
  faultsWithin_of_ok fun _ => ⟨⟨⟩, rfl⟩

theorem faultsWithin_fail [Logger] {fault : Fault} (h : sort fault = true) :
    (fail fault : Activity σ α).FaultsWithin sort := by
  intro s fault' hfault
  obtain rfl := Except.error.inj hfault
  exact h

/-- A check faults as it says. -/
theorem faultsWithin_lift [Logger] {x : Except Fault α}
    (h : ∀ fault, x = .error fault → sort fault = true) :
    (liftM x : Activity σ α).FaultsWithin sort :=
  fun _ => h

theorem faultsWithin_bind [Logger] {x : Activity σ α} {next : α → Activity σ β}
    (hx : x.FaultsWithin sort) (hnext : ∀ a, (next a).FaultsWithin sort) :
    (x >>= next).FaultsWithin sort := by
  intro s fault hfault
  have hfirst := hx s
  rw [run_bind] at hfault
  cases hrun : x.run s with
  | mk outcome s' t =>
    rw [hrun] at hfault hfirst
    cases outcome with
    | error cause =>
      obtain rfl := Except.error.inj hfault
      exact hfirst cause rfl
    | ok a => exact hnext a s' fault hfault

/-- To make up an answer adds no fault. -/
theorem error_of_bind_pure [Logger] {x : Activity σ α} {f : α → β} {s : σ} {fault : Fault}
    (h : ((x >>= fun a => pure (f a)).run s).outcome = .error fault) :
    (x.run s).outcome = .error fault := by
  rw [run_bind_pure] at h
  cases houtcome : (x.run s).outcome with
  | error cause =>
    rw [houtcome] at h
    exact congrArg Except.error (Except.error.inj h)
  | ok a =>
    rw [houtcome] at h
    cases h

theorem faultsWithin_ite [Logger] {c : Prop} [Decidable c] {x y : Activity σ α}
    (hx : x.FaultsWithin sort) (hy : y.FaultsWithin sort) :
    (if c then x else y).FaultsWithin sort := by
  split
  · exact hx
  · exact hy

theorem faultsWithin_forM [Logger] {f : α → Activity σ PUnit} {as : List α}
    (h : ∀ a ∈ as, (f a).FaultsWithin sort) : (as.forM f).FaultsWithin sort := by
  induction as with
  | nil => exact faultsWithin_pure _
  | cons a as ih =>
    have ha := h a List.mem_cons_self
    have has := ih fun a' ha' => h a' (List.mem_cons_of_mem a ha')
    exact faultsWithin_bind ha fun _ => has

theorem faultsWithin_focus [Logger] {part : Part σ τ} {x : Activity τ α}
    (hx : x.FaultsWithin sort) :
    (focus part x).FaultsWithin sort :=
  fun s => hx (part.get s)

theorem faultsWithin_bracket [Logger] {before after : σ → σ} {x : Activity σ α}
    (hx : x.FaultsWithin sort) :
    (bracket before after x).FaultsWithin sort :=
  fun s => hx (before s)

/-- A repair does not take the fault away. -/
theorem faultsWithin_onFault [Logger] {repair : σ → σ} {x : Activity σ α}
    (hx : x.FaultsWithin sort) :
    (onFault repair x).FaultsWithin sort := by
  intro s fault hfault
  cases houtcome : (x.run s).outcome with
  | ok a =>
    rw [run_onFault_of_ok repair houtcome, houtcome] at hfault
    exact absurd hfault (by simp)
  | error cause =>
    rw [run_onFault_of_error repair houtcome] at hfault
    exact hx s fault hfault

end Activity

/-! ## The parts of the machine -/

namespace Datapath

variable {w : Nat}

/-- The arithmetic unit never faults, whatever its signals are and whichever gates are open. -/
theorem faultsWithin_operate [Logger] (signals : Signals) (sort : Fault → Bool) :
    (operate signals : Activity (Datapath w) Unit).FaultsWithin sort :=
  Activity.faultsWithin_of_ok fun d => ⟨(), congrArg Reaction.outcome (run_operate signals d)⟩

end Datapath

namespace DataMemory

theorem isOfExecution_of_loadRefusal {address : Word 16} {fault : Fault}
    (h : loadRefusal? address = some fault) : fault.isOfExecution = true := by
  unfold loadRefusal? at h
  split at h
  · obtain rfl := Option.some.inj h
    rfl
  split at h
  · obtain rfl := Option.some.inj h
    rfl
  split at h
  · obtain rfl := Option.some.inj h
    rfl
  · exact absurd h (by simp)

theorem isOfExecution_of_storeRefusal {sinkGood : Bool} {address v : Word 16} {fault : Fault}
    (h : storeRefusal? sinkGood address v = some fault) : fault.isOfExecution = true := by
  by_cases hone : address.toInt = 1
  · have hneg : ¬address.toInt < 0 := by omega
    unfold storeRefusal? at h
    rw [if_neg hneg, if_pos hone] at h
    -- what is no character is refused before the sink is asked
    split at h
    · obtain rfl := Option.some.inj h
      rfl
    split at h
    · exact absurd h (by simp)
    · obtain rfl := Option.some.inj h
      rfl
  · rw [storeRefusal?_of_ne hone] at h
    exact isOfExecution_of_loadRefusal h

theorem faultsWithin_load [Logger] (address : Word 16) :
    (load address.toInt : Activity (DataMemory 16 16) (Word 16)).FaultsWithin
      Fault.isOfExecution := by
  intro memory fault hfault
  cases hrefusal : loadRefusal? address with
  | none =>
    rw [run_load (by rw [loadFault?_word, hrefusal])] at hfault
    exact absurd hfault (by simp)
  | some cause =>
    rw [run_load_of_fault (by rw [loadFault?_word, hrefusal])] at hfault
    obtain rfl := Except.error.inj hfault
    exact isOfExecution_of_loadRefusal hrefusal

theorem faultsWithin_store [Logger] (address content : Word 16) :
    (store address.toInt content : Activity (DataMemory 16 16) Unit).FaultsWithin
      Fault.isOfExecution := by
  intro memory fault hfault
  cases hrefusal : storeRefusal? memory.io.output.sinkGood address content with
  | none =>
    rw [run_store (by rw [storeFault?_word, hrefusal])] at hfault
    exact absurd hfault (by simp)
  | some cause =>
    rw [run_store_of_fault (by rw [storeFault?_word, hrefusal])] at hfault
    obtain rfl := Except.error.inj hfault
    exact isOfExecution_of_storeRefusal hrefusal

end DataMemory

namespace DataUnit

theorem faultsWithin_load [Logger] : (load : Activity (DataUnit 16 16) Unit).FaultsWithin
    Fault.isOfExecution := by
  refine Activity.faultsWithin_bind Activity.faultsWithin_get fun unit => ?_
  refine Activity.faultsWithin_bind ?_ fun _ => Activity.faultsWithin_modify _
  exact Activity.faultsWithin_focus (DataMemory.faultsWithin_load unit.address.read)

theorem faultsWithin_store [Logger] : (store : Activity (DataUnit 16 16) Unit).FaultsWithin
    Fault.isOfExecution := by
  refine Activity.faultsWithin_bind Activity.faultsWithin_get fun unit => ?_
  exact Activity.faultsWithin_focus (DataMemory.faultsWithin_store unit.address.read unit.data.read)

end DataUnit

namespace ProgramMemory

/-- No word is past the end of the program memory. -/
theorem isOfProgram_of_fetch {memory : ProgramMemory 16} {address : Word 16} {fault : Fault}
    (h : memory.fetch address.toInt = .error fault) : fault.isOfProgram = true := by
  have hlt : address.toInt.natAbs < twoPow 16 := address.natAbs_lt
  unfold fetch peek at h
  by_cases hneg : address.toInt < 0
  · rw [if_pos hneg] at h
    obtain rfl := Except.error.inj h
    rfl
  · have hinside : address.toInt.toNat < memory.cells.size := by
      show address.toInt.toNat < twoPow 16
      omega
    rw [if_neg hneg, if_pos hinside] at h
    exact absurd h (by simp)

end ProgramMemory

/-! ## The control unit -/

namespace Processor

open Activity

theorem faultsWithin_put [Logger] (r : Reg) (v : Int) :
    (put r v).FaultsWithin Fault.isOfExecution :=
  faultsWithin_bracket (faultsWithin_modify _)

/-- Whichever gates are open, an action of the control unit faults only in an access to memory. -/
theorem faultsWithin_perform [Logger] (op : Microop) :
    (perform op).FaultsWithin Fault.isOfExecution := by
  cases op with
  | transfer sources targets signals =>
    exact faultsWithin_bracket (faultsWithin_focus (Datapath.faultsWithin_operate signals _))
  | immediate target v => exact faultsWithin_put target v.toInt
  | displace target v => exact faultsWithin_bind faultsWithin_get fun p => faultsWithin_put target _
  | load => exact faultsWithin_bracket (faultsWithin_focus DataUnit.faultsWithin_load)
  | store => exact faultsWithin_bracket (faultsWithin_focus DataUnit.faultsWithin_store)
  | hold | halt => exact faultsWithin_modify _

theorem faultsWithin_fetch [Logger] : fetch.FaultsWithin Fault.isOfProgram := by
  refine faultsWithin_bind (faultsWithin_bracket ?_) fun cell => ?_
  · refine faultsWithin_bind faultsWithin_get fun p => ?_
    refine faultsWithin_bind (faultsWithin_lift fun fault hfault => ?_) fun cell => ?_
    · exact ProgramMemory.isOfProgram_of_fetch hfault
    · exact faultsWithin_bind (faultsWithin_modify _) fun _ => faultsWithin_pure _
  · cases cell with
    | some inst => exact faultsWithin_pure inst
    | none => exact faultsWithin_bind faultsWithin_get fun p => faultsWithin_fail rfl

/-- An instruction that is refused has been found. -/
theorem isOfExecution_of_microprogram {inst : Instruction} {acc : Int} {cause : InstructionFault}
    (h : inst.microprogram acc = .error cause) :
    (Fault.instruction inst cause).isOfExecution = true := by
  cases cause with
  | emptyCell address => exact absurd h (Instruction.microprogram_ne_emptyCell acc address)
  | missingData | missingMode | unknownMode | unknownOperation => rfl

theorem faultsWithin_execute [Logger] (inst : Instruction) :
    (execute inst).FaultsWithin Fault.isOfExecution := by
  unfold execute
  refine faultsWithin_bind faultsWithin_get fun p => ?_
  cases hops : inst.microprogram p.registers.acc.word.toInt with
  | error cause => exact faultsWithin_fail (isOfExecution_of_microprogram hops)
  | ok ops => exact faultsWithin_forM fun op _ => faultsWithin_perform op

theorem faultsWithin_advance [Logger] : advance.FaultsWithin Fault.isOfExecution :=
  faultsWithin_bind faultsWithin_get fun _ =>
    faultsWithin_ite (faultsWithin_pure _) (faultsWithin_perform _)

theorem faultsWithin_enter [Logger] (phase : Phase) :
    (enter phase).FaultsWithin Fault.isOfExecution :=
  faultsWithin_modify _

/-- What follows a fetch does not fault as a fetch does. -/
theorem faultsWithin_handle [Logger] (inst : Instruction) :
    (handle inst).FaultsWithin Fault.isOfExecution := by
  refine faultsWithin_bind (faultsWithin_enter _) fun _ => ?_
  refine faultsWithin_bind (faultsWithin_execute inst) fun _ => ?_
  refine faultsWithin_bind faultsWithin_get fun p => ?_
  refine faultsWithin_bind (faultsWithin_enter _) fun _ => ?_
  exact faultsWithin_bind faultsWithin_advance fun _ => faultsWithin_enter _

theorem faultsWithin_pass [Logger] : pass.FaultsWithin Fault.isOfProgram := by
  have henter : (enter .fetch).FaultsWithin Fault.isOfProgram :=
    (faultsWithin_enter _).mono Fault.isOfProgram_of_isOfExecution
  refine faultsWithin_bind henter fun _ => ?_
  refine faultsWithin_bind faultsWithin_fetch fun inst => ?_
  exact (faultsWithin_handle inst).mono Fault.isOfProgram_of_isOfExecution

/-- A step is refused after the program has ended, and else faults only as a program makes it. -/
theorem fault_of_step [Logger] {p : Processor} {fault : Fault}
    (h : (step.run p).outcome = .error fault) :
    fault.isOfProgram = true ∨ fault = .halted ∧ p.phase = .halted := by
  unfold step at h
  rw [run_bind, run_get, Reaction.andThen_ok, Reaction.after_nil, run_ite] at h
  by_cases hhalted : p.isHalted = true
  · rw [if_pos hhalted] at h
    exact .inr ⟨(Except.error.inj h).symm, of_decide_eq_true hhalted⟩
  · rw [if_neg hhalted] at h
    exact .inl (faultsWithin_bind (faultsWithin_modify _)
      (fun _ => faultsWithin_onFault faultsWithin_pass) p fault h)

end Processor

namespace Machine

/-- A machine does not refuse to be stepped. -/
theorem faultsWithin_singleStep [Logger] : singleStep.FaultsWithin Fault.isOfProgram := by
  intro m fault hfault
  by_cases hhalted : m.processor.phase = .halted
  · rw [run_singleStep_of_halted hhalted] at hfault
    exact absurd hfault (by simp)
  · rcases Processor.fault_of_step ((fault_singleStep_iff hhalted).mp hfault) with
      hof | ⟨-, hphase⟩
    · exact hof
    · exact absurd hphase hhalted

theorem faultsWithin_run [Logger] (budget : Nat) : (run budget).FaultsWithin Fault.isOfProgram := by
  induction budget with
  | zero => exact Activity.faultsWithin_of_ok fun m => ⟨.timeout, rfl⟩
  | succ budget ih =>
    rw [run_succ]
    refine Activity.faultsWithin_bind faultsWithin_singleStep fun status => ?_
    cases status with
    | halted => exact Activity.faultsWithin_pure _
    | running => exact ih

/-- What stepping and running fault with: what a program brings about, or the end of the program
where a step is asked of the processor alone. -/
theorem fault_of_executing [Logger] {op : Operation} (hop : op.executes = true) {m : Machine}
    {fault : Fault} (h : (op.perform.run m).outcome = .error fault) :
    fault.isOfProgram = true
      ∨ op = .processorStep ∧ m.processor.phase = .halted ∧ fault = .halted := by
  cases op with
  | step => exact .inl (faultsWithin_singleStep m fault (Activity.error_of_bind_pure h))
  | run budget => exact .inl (faultsWithin_run budget m fault (Activity.error_of_bind_pure h))
  | processorStep =>
    have hstep : ((onProcessor Processor.step).run m).outcome = .error fault :=
      Activity.error_of_bind_pure h
    rcases Processor.fault_of_step hstep with hof | ⟨hhalted, hphase⟩
    · exact .inl hof
    · exact .inr ⟨rfl, hphase, hhalted⟩
  | _ => exact absurd hop (by simp [Operation.executes])

end Machine

end TwoBus
