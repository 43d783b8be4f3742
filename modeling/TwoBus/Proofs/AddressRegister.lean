import TwoBus.Proofs.FaultFrame
import TwoBus.Proofs.Gates

/-!
# The address register

The data memory is addressed through the address register, and every access leaves it as it was,
also if it faults. So between two steps the register holds the address presented last, unless some
microprogram changes it and does not go on to an access. None does: every change is followed by an
access (`Microprogram.isPresenting`), and no fault can come in between, as nothing else faults.

* `Core.tracks`: what a presenting microprogram leaves in the register, by induction on its actions.
* `Instruction.isPresenting_microprogram`: the microprograms of the machine are presenting.
* `Machine.address_follows_accesses`: the register after every session, and so the address of the
  next operand that is counted from it.
-/

namespace TwoBus

/-! ## Addresses in a trace -/

/-- The address presented to the data memory, if the event is that. -/
def Event.presented? : Event → Option Int
  | .present address => some address
  | _ => none

namespace Trace

variable {t u : Trace}

/-- The addresses presented to the data memory, in order. -/
def presented (t : Trace) : List Int := t.events.filterMap Event.presented?

@[simp] theorem presented_append (t u : Trace) :
    presented (t ++ u) = presented t ++ presented u := by
  simp [presented]

@[simp] theorem presented_map_of [Logger] (channel : Option Channel) (events : List Event) :
    presented (events.map (Entry.of channel)) = events.filterMap Event.presented? := by
  rw [presented, events_map_of]

theorem presented_of_no_traffic (h : ∀ event ∈ t.events, event.isTraffic = false) :
    t.presented = [] := by
  refine filterMap_of_no_traffic ?_ h
  intro event hother
  cases event with
  | present => exact absurd hother (by simp [Event.isTraffic])
  | _ => rfl

/-- The address presented last, and `start` if none has been. -/
def lastPresented (start : Int) (t : Trace) : Int := t.presented.getLast?.getD start

theorem lastPresented_of_nil (h : t.presented = []) (start : Int) :
    t.lastPresented start = start := by
  rw [lastPresented, h]
  rfl

theorem lastPresented_append (start : Int) (t u : Trace) :
    lastPresented start (t ++ u) = lastPresented (lastPresented start t) u := by
  unfold lastPresented
  rw [presented_append, List.getLast?_append]
  cases u.presented.getLast? <;> rfl

/-- Once an address has been presented, it does not matter where the trace started. -/
theorem lastPresented_eq_of_ne_nil (h : t.presented ≠ []) (start start' : Int) :
    t.lastPresented start = t.lastPresented start' := by
  unfold lastPresented
  rw [List.getLast?_eq_some_getLast h]
  rfl

end Trace

namespace DataMemory

theorem presented_loadEvents (memory : DataMemory 16 16) (address : Int) :
    (memory.loadEvents address).filterMap Event.presented? = [address] := by
  unfold loadEvents
  split <;> rfl

theorem presented_offerEvents (address v : Int) :
    (offerEvents address v).filterMap Event.presented? = [address] := by
  unfold offerEvents
  split <;> rfl

theorem presented_storeEvents (address v : Int) :
    (storeEvents address v).filterMap Event.presented? = [address] := by
  rw [storeEvents, List.filterMap_append, presented_offerEvents]
  rfl

theorem presented_refusedStoreEvents (memory : DataMemory 16 16) (address v : Int) :
    (memory.refusedStoreEvents address v).filterMap Event.presented? = [address] := by
  unfold refusedStoreEvents
  split
  · exact presented_offerEvents address v
  · rfl

end DataMemory

/-! ## Microprograms -/

/-- Whether a microoperation that is no access changes the address register. -/
def Microop.setsAddress : Microop → Bool
  | .transfer _ targets _ => .ar ∈ targets
  | .immediate target _ | .displace target _ => target = .ar
  | .load | .store | .hold | .halt => false

/-- Every change of the address register is followed by an access. -/
def Microprogram.isPresenting : Microprogram → Bool
  | [] => true
  | op :: ops => (!op.setsAddress || ops.any Microop.isAccess) && isPresenting ops

namespace Core

/-- An access presents the address register and leaves it as it was, also if it faults. -/
theorem presented_of_access [Logger] {op : Microop} (h : op.isAccess = true) (c : Core) :
    ((perform op).run c).trace.presented = [c.ar.toInt] ∧ ((perform op).run c).state.ar = c.ar := by
  cases op with
  | load =>
    cases hfault : c.memory.loadFault? c.ar.toInt with
    | some fault =>
      rw [run_perform_load_of_fault hfault]
      exact ⟨rfl, rfl⟩
    | none =>
      rw [run_perform_load hfault, Trace.presented_map_of]
      exact ⟨DataMemory.presented_loadEvents _ _, rfl⟩
  | store =>
    cases hfault : c.memory.storeFault? c.ar.toInt c.dr.toInt with
    | some fault =>
      rw [run_perform_store_of_fault hfault, Trace.presented_map_of]
      exact ⟨DataMemory.presented_refusedStoreEvents _ _ _, rfl⟩
    | none =>
      rw [run_perform_store hfault, Trace.presented_map_of]
      exact ⟨DataMemory.presented_storeEvents _ _, rfl⟩
  | transfer | immediate | displace | hold | halt => exact absurd h (by simp [Microop.isAccess])

/-- Nothing else presents an address, or faults, or changes the address register unless it says
so. -/
theorem run_perform_of_no_access [Logger] {op : Microop} (h : op.isAccess = false) (c : Core) :
    ∃ c' t, (perform op).run c = ⟨.ok (), c', t⟩ ∧ t.presented = []
      ∧ (op.setsAddress = false → c'.ar = c.ar) := by
  cases op with
  | transfer sources targets signals =>
    refine ⟨_, _, run_perform_transfer c sources targets signals, ?_, ?_⟩
    · refine Trace.presented_of_no_traffic ?_
      rw [Trace.events_map_of]
      exact Datapath.isTraffic_cycleEvents _ signals
    · intro hkeeps
      exact if_neg (of_decide_eq_false hkeeps)
  | immediate target v | displace target v =>
    refine ⟨_, _, rfl, rfl, ?_⟩
    intro hkeeps
    have hne : ¬target = .ar := of_decide_eq_false hkeeps
    exact if_neg (by simpa using fun h => hne h.symm)
  | hold | halt => exact ⟨_, _, rfl, rfl, fun _ => rfl⟩
  | load | store => exact absurd h (by simp [Microop.isAccess])

/-- What an access at the head of a microprogram presents comes first. -/
theorem presented_of_access_cons [Logger] {op : Microop} (h : op.isAccess = true)
    (ops : Microprogram) (c : Core) :
    ∃ rest, (((op :: ops).forM perform).run c).trace.presented = c.ar.toInt :: rest := by
  obtain ⟨hpresented, -⟩ := presented_of_access h c
  rw [Activity.run_forM_cons]
  cases hop : (perform op).run c with
  | mk outcome c₁ t =>
    rw [hop] at hpresented
    cases outcome with
    | error fault => exact ⟨[], hpresented⟩
    | ok _ =>
      rw [Reaction.andThen_ok, Reaction.trace_after, Trace.presented_append, hpresented]
      exact ⟨_, rfl⟩

/-- Nothing can keep a microprogram from its first access. -/
theorem presented_ne_nil [Logger] {ops : Microprogram} (h : ops.any Microop.isAccess = true)
    (c : Core) :
    ((ops.forM perform).run c).trace.presented ≠ [] := by
  induction ops generalizing c with
  | nil => exact absurd h (by simp)
  | cons op ops ih =>
    cases haccess : op.isAccess with
    | true =>
      obtain ⟨rest, hpresented⟩ := presented_of_access_cons haccess ops c
      rw [hpresented]
      exact List.cons_ne_nil _ _
    | false =>
      obtain ⟨c₁, t, hop, -, -⟩ := run_perform_of_no_access haccess c
      rw [List.any_cons, haccess, Bool.false_or] at h
      rw [Activity.run_forM_cons, hop, Reaction.andThen_ok, Reaction.trace_after,
        Trace.presented_append]
      exact List.append_ne_nil_of_right_ne_nil _ (ih h c₁)

/-- A presenting microprogram leaves the address it presented last in the address register, also if
it faults. -/
theorem tracks [Logger] {ops : Microprogram} (h : ops.isPresenting = true) (c : Core) :
    ((ops.forM perform).run c).state.ar.toInt
      = ((ops.forM perform).run c).trace.lastPresented c.ar.toInt := by
  induction ops generalizing c with
  | nil => rfl
  | cons op ops ih =>
    rw [Microprogram.isPresenting, Bool.and_eq_true] at h
    obtain ⟨hfollowed, hops⟩ := h
    rw [Activity.run_forM_cons]
    cases haccess : op.isAccess with
    | true =>
      obtain ⟨hpresented, har⟩ := presented_of_access haccess c
      cases hop : (perform op).run c with
      | mk outcome c₁ t =>
        rw [hop] at hpresented har
        have hlast : t.lastPresented c.ar.toInt = c₁.ar.toInt := by
          rw [Trace.lastPresented, hpresented, har]
          rfl
        cases outcome with
        | error fault => exact hlast.symm
        | ok _ =>
          rw [Reaction.andThen_ok, Reaction.state_after, Reaction.trace_after,
            Trace.lastPresented_append, hlast]
          exact ih hops c₁
    | false =>
      obtain ⟨c₁, t, hop, hnone, hkeeps⟩ := run_perform_of_no_access haccess c
      rw [hop, Reaction.andThen_ok, Reaction.state_after, Reaction.trace_after,
        Trace.lastPresented_append, Trace.lastPresented_of_nil hnone, ih hops c₁]
      cases hset : op.setsAddress with
      | false => rw [hkeeps hset]
      | true =>
        -- what the register held before is forgotten by the access that follows
        rw [hset, Bool.not_true, Bool.false_or] at hfollowed
        exact Trace.lastPresented_eq_of_ne_nil (presented_ne_nil hfollowed c₁) _ _

end Core

namespace Microprogram

theorem isPresenting_append {ops rest : Microprogram} (hops : ops.isPresenting = true)
    (hrest : rest.isPresenting = true) : isPresenting (ops ++ rest) = true := by
  induction ops with
  | nil => exact hrest
  | cons op ops ih =>
    rw [isPresenting, Bool.and_eq_true] at hops
    rw [List.cons_append, isPresenting, ih hops.2, List.any_append]
    cases hset : op.setsAddress with
    | false => rfl
    | true =>
      have haccess : ops.any Microop.isAccess = true := by simpa [hset] using hops.1
      rw [haccess]
      rfl

end Microprogram

namespace Instruction

theorem isPresenting_bringing (mode : Mode) (v : Word 16) :
    (mode.bringing v).isPresenting = true := by
  cases mode <;> rfl

theorem isPresenting_acting (op : Opcode) : op.acting.isPresenting = true := by
  cases op <;> decide

/-- The microprograms of the machine are presenting. -/
theorem isPresenting_microprogram {inst : Instruction} {acc : Int} {ops : Microprogram}
    (h : inst.microprogram acc = .ok ops) : ops.isPresenting = true := by
  obtain ⟨op, -, ⟨mode, -, rfl⟩ | rfl⟩ := microprogram_cases h
  · exact Microprogram.isPresenting_append (isPresenting_bringing mode _) (isPresenting_acting op)
  · split
    · rfl
    · exact isPresenting_acting op

end Instruction

/-! ## Steps -/

namespace Core

theorem ar_settled (c : Core) : c.settled.ar = c.ar := by
  unfold settled advanced
  split <;> rfl

theorem presented_advanceTrace [Logger] (c : Core) : c.advanceTrace.presented = [] := by
  unfold advanceTrace
  split
  · rfl
  · refine Trace.presented_of_no_traffic ?_
    rw [Trace.events_map_of]
    exact Datapath.isTraffic_cycleEvents _ _

/-- A step leaves the address it presented last in the address register, also if it faults. -/
theorem tracks_step [Logger] (c : Core) :
    (Processor.step.run c.toProcessor).state.core.ar.toInt
      = (Processor.step.run c.toProcessor).trace.lastPresented c.ar.toInt := by
  by_cases hhalted : c.phase = .halted
  · rw [run_step_of_halted hhalted]
    rfl
  have hends := stepEnds hhalted
  generalize Processor.step.run c.toProcessor = r at hends ⊢
  cases hends with
  | negative | empty | refused => rfl
  | @faulted inst _ _ _ _ _ _ hops hrun =>
    have htracks := tracks (Instruction.isPresenting_microprogram hops) (c.executing inst)
    rwa [hrun] at htracks
  | @done inst ops c' t _ _ hops hrun =>
    have htracks := tracks (Instruction.isPresenting_microprogram hops) (c.executing inst)
    rw [hrun] at htracks
    rw [Trace.lastPresented_append, Trace.lastPresented_of_nil c'.presented_advanceTrace]
    show c'.settled.ar.toInt = _
    rw [ar_settled]
    exact htracks

/-- What a step presents is what its microprogram does. -/
theorem presented_step [Logger] {c : Core} {inst : Instruction} {ops : Microprogram}
    (hlive : c.phase ≠ .halted) (hpos : ¬c.ip.toInt < 0) (hcell : c.cell = some inst)
    (hops : inst.microprogram c.acc.toInt = .ok ops) :
    (Processor.step.run c.toProcessor).trace.presented
      = ((ops.forM perform).run (c.executing inst)).trace.presented := by
  cases hrun : (ops.forM perform).run (c.executing inst) with
  | mk outcome c' t =>
    cases outcome with
    | error fault => rw [run_step_of_fault hlive hpos hcell hops hrun]
    | ok _ =>
      rw [run_step_of_done hlive hpos hcell hops hrun, Trace.presented_append,
        presented_advanceTrace, List.append_nil]

/-- An operand that is counted from the address register is looked for at the sum first. -/
theorem presented_relative [Logger] {c : Core} {inst : Instruction} {op : Opcode} {d : Int}
    (hlive : c.phase ≠ .halted) (hpos : 0 ≤ c.ip.toInt) (hcell : c.cell = some inst)
    (hop : inst.opcode? = some op) (hconsults : op.consults c.acc.toInt = true)
    (hmode : inst.mode? = some .relative) (hdata : inst.data = some d) :
    ∃ rest, (Processor.step.run c.toProcessor).trace.presented
      = truncate 16 (c.ar.toInt + truncate 16 d) :: rest := by
  obtain ⟨mode, hmode', hops⟩ := Instruction.microprogram_of_consults hop hconsults
    (Instruction.defect?_of_mode hmode hdata)
  obtain rfl : mode = .relative := Option.some.inj (hmode'.symm.trans hmode)
  rw [presented_step hlive (Int.not_lt.mpr hpos) hcell hops]
  obtain ⟨rest, hpresented⟩ := @presented_of_access_cons _ .load rfl op.acting
    ((c.executing inst).assign [.ar] (c.ar + inst.immediate))
  refine ⟨rest, hpresented.trans ?_⟩
  show (c.ar + inst.immediate).toInt :: rest = _
  rw [Word.toInt_add, Instruction.immediate, hdata, Word.toInt_ofInt]
  rfl

end Core

namespace Processor

/-- The law that the gates are closed, and that the address register holds the address presented
last. -/
def addressLaw : Law Processor where
  Holds p t p' := p.registers.IsQuiet →
    p'.registers.IsQuiet ∧ p'.core.ar.toInt = t.lastPresented p.core.ar.toInt
  refl p hquiet := ⟨hquiet, rfl⟩
  trans h h' hquiet := by
    obtain ⟨hquiet', har⟩ := h hquiet
    obtain ⟨hquiet'', har'⟩ := h' hquiet'
    exact ⟨hquiet'', by rw [har', har, Trace.lastPresented_append]⟩

theorem addressLaw_step [Logger] : addressLaw.Obeyed step := by
  intro p hquiet
  have htracks := p.core.tracks_step
  rw [Core.toProcessor_core hquiet] at htracks
  exact ⟨(obeyed_step p).isQuiet hquiet, htracks⟩

end Processor

namespace Machine

/-- Stepping and running obey the law of the address register. -/
theorem addressLaw_operation [Logger] {op : Operation} (hop : op.executes = true) :
    (Processor.addressLaw.via processor).Obeyed op.perform := by
  have hstep := Processor.addressLaw_step
  refine Operation.obeyed_executing hop ?_ (Law.obeyed_focus hstep fun _ _ _ h => h)
  refine obeyed_singleStep hstep (fun _ _ _ h => h) (fun m => Processor.addressLaw.refl _) ?_
  intro m t hother hquiet
  exact ⟨hquiet, (Trace.lastPresented_of_nil (Trace.presented_of_no_traffic hother) _).symm⟩

/-- A machine that is only stepped and run has in its address register the address that it presented
to the data memory last, by a load or a store that may have faulted, and zero as long as there has
been none. So the next operand that is counted from the address register is looked for at a distance
from the last access, whatever came in between. -/
theorem address_follows_accesses [Logger] {image : Image} {source : Option (List UInt8)}
    {m m' : Machine} {ops : List Operation} {t : Trace} (hboot : boot image source = .ok m)
    (hops : ∀ op ∈ ops, op.executes = true) (hsession : (session ops).run m = ⟨.ok (), m', t⟩) :
    m'.processor.registers.ar.word.toInt = t.lastPresented 0
      ∧ ∀ (inst : Instruction) (op : Opcode) (d : Int),
          m'.processor.phase ≠ .halted → 0 ≤ m'.processor.core.ip.toInt →
          m'.processor.core.cell = some inst → inst.opcode? = some op →
          op.consults m'.processor.core.acc.toInt = true →
          inst.mode? = some .relative → inst.data = some d →
          ∃ rest, (Processor.step.run m'.processor).trace.presented
            = truncate 16 (t.lastPresented 0 + truncate 16 d) :: rest := by
  have hstart := datapath_of_boot hboot
  have hquiet : m.processor.registers.IsQuiet := by
    intro r gate
    rw [Processor.registers, hstart]
    cases r <;> cases gate <;> rfl
  have hzero : m.processor.core.ar.toInt = 0 := by
    rw [Processor.core, Processor.registers, hstart]
    rfl
  have hlaw := obeyed_session (fun op hop => addressLaw_operation (hops op hop)) m
  rw [hsession] at hlaw
  obtain ⟨hquiet', har⟩ := hlaw hquiet
  rw [hzero] at har
  refine ⟨har, ?_⟩
  intro inst op d hlive hpos hcell hop hconsults hmode hdata
  have hstep := Core.presented_relative hlive hpos hcell hop hconsults hmode hdata
  rw [Core.toProcessor_core hquiet', har] at hstep
  exact hstep

/-- A program that reads the address to load from, and adds from four cells before that. -/
def retracing : Image where
  program := [some { operation := "LD", mode := some "abs", data := some 0 },
    some { operation := "INC" },
    some { operation := "ADD", mode := some "rel", data := some (-4) }]

/-- The first attempt to load faults on a slot without a device, the second finds cell nine, and the
increment after it presents no address. -/
theorem address_follows_accesses_retracing :
    letI := Logger.silent
    ∃ m m' t, boot retracing (some [2, 9]) = .ok m
      ∧ (session [.step, .processorStep, .run 1]).run m = ⟨.ok (), m', t⟩
      ∧ t.presented = [0, 2, 0, 9]
      ∧ m'.processor.registers.ar.word.toInt = 9
      ∧ ∃ rest, (Processor.step.run m'.processor).trace.presented = 5 :: rest := by
  have hops : ∀ op ∈ [Operation.step, .processorStep, .run 1], op.executes = true := by decide
  have hresult := @address_follows_accesses .silent retracing (some [2, 9]) _ _ _ _ rfl hops rfl
  exact ⟨_, _, _, rfl, rfl, rfl, hresult.1,
    hresult.2 _ .add (-4) (by decide) (by decide) rfl rfl rfl rfl rfl⟩

end Machine

end TwoBus
