import Mathlib.Data.List.Nodup
import TwoBus.Proofs.Gates
import TwoBus.Proofs.Microprograms

/-!
# Transfers

Two registers that show themselves on one bus or-mix their words. The control unit does open the
gates of two such registers, for a store, and what keeps the mixture out of every register is that
the arithmetic unit is not used meanwhile. Each time that it is used, the gates are open for a
transfer and for nothing else: those that earlier actions of the step had opened are closed again,
and of the registers that a transfer connects no two drive the same bus, and one takes the result.

* `Datapath.moves_of_connects`: what a transfer does when no other gate is open.
* `Core.exists_transfer`: whatever the arithmetic unit is used for, it is for a transfer of the
  microprogram, by induction on the actions.
* `Instruction.isLone_microprogram`: no transfer of the machine lets its sources meet.
* `Processor.never_contends`: every use of the arithmetic unit in every step, faulting or not.
-/

namespace TwoBus

/-! ## Gates set for a transfer -/

namespace RegisterFile

variable {w : Nat}

theorem toInt_shownLevel_of_open (hw : w ≤ 62) {file : RegisterFile w} {r : Reg}
    (h : (file.get r).isOpen .read = true) :
    (file.shownLevel r).toInt = (file.get r).word.toInt := by
  rw [shownLevel, Word.toInt_ofInt_level hw, Register.read_of_open h]

theorem shownLevel_of_closed {file : RegisterFile w} {r : Reg}
    (h : (file.get r).isOpen .read = false) : file.shownLevel r = 0 := by
  have hread : (file.get r).read = 0 := Register.read_of_closed h
  rw [shownLevel, hread]
  rfl

/-- A bus that a single register may drive carries the level of that register. -/
theorem busValue_of_lone {file : RegisterFile w} {r : Reg}
    (h : ∀ r', r'.bus = r.bus → r' ≠ r → (file.get r').isOpen .read = false) :
    file.busValue r.bus = (file.shownLevel r).toInt := by
  have hzero : ∀ r', r'.bus = r.bus → r' ≠ r → file.shownLevel r' = 0 :=
    fun r' hbus hne => shownLevel_of_closed (h r' hbus hne)
  cases r with
  | acc => simp [Reg.bus, busValue, hzero .ip rfl (by decide)]
  | ip => simp [Reg.bus, busValue, hzero .acc rfl (by decide)]
  | ar => simp [Reg.bus, busValue, hzero .dr rfl (by decide)]
  | dr => simp [Reg.bus, busValue, hzero .ar rfl (by decide)]

theorem busValue_of_undriven {file : RegisterFile w} {bus : Bus}
    (h : ∀ r : Reg, r.bus = bus → (file.get r).isOpen .read = false) : file.busValue bus = 0 := by
  have hzero : ∀ r : Reg, r.bus = bus → file.shownLevel r = 0 :=
    fun r hbus => shownLevel_of_closed (h r hbus)
  cases bus with
  | a => simp [busValue, hzero .acc rfl, hzero .ip rfl]
  | b => simp [busValue, hzero .ar rfl, hzero .dr rfl]

end RegisterFile

namespace Datapath

variable {w : Nat}

/-- The gates are open for one transfer and for nothing else: the sources show themselves, no two of
them on the same bus, and the target alone takes what it is offered. -/
structure Connects (d : Datapath w) (sources : List Reg) (target : Reg) : Prop where
  reads : ∀ r, (d.registers.get r).isOpen .read = true ↔ r ∈ sources
  writes : ∀ r, (d.registers.get r).isOpen .write = true ↔ r = target
  lone : ∀ r ∈ sources, ∀ r' ∈ sources, r.bus = r'.bus → r = r'

/-- What the source on a bus stores, and zero if there is none. -/
def stored (d : Datapath w) (sources : List Reg) (bus : Bus) : Int :=
  match sources.find? (·.bus = bus) with
  | some r => (d.registers.get r).word.toInt
  | none => 0

/-- The result is computed from what the sources store, the target takes it, and the other registers
stay as they are. -/
structure Moves (d : Datapath w) (sources : List Reg) (target : Reg) (signals : Signals)
    (d' : Datapath w) : Prop where
  result : d'.result = signals.combine (d.stored sources .a) (d.stored sources .b)
  taken : (d'.registers.get target).word = .ofInt w d'.result.toInt
  kept : ∀ r, r ≠ target → d'.registers.get r = d.registers.get r

variable {d : Datapath w} {sources : List Reg} {target : Reg}

theorem Connects.closed_of_notMem (h : d.Connects sources target) {r : Reg} (hr : r ∉ sources) :
    (d.registers.get r).isOpen .read = false :=
  Bool.eq_false_iff.mpr (mt (h.reads r).mp hr)

/-- Each bus carries what its source stores. -/
theorem Connects.busValue_eq_stored (h : d.Connects sources target) (hw : w ≤ 62) (bus : Bus) :
    d.registers.busValue bus = d.stored sources bus := by
  unfold stored
  cases hfind : sources.find? (·.bus = bus) with
  | none =>
    refine RegisterFile.busValue_of_undriven fun r hbus => h.closed_of_notMem fun hr => ?_
    exact absurd hbus (by simpa using List.find?_eq_none.mp hfind r hr)
  | some r =>
    have hr : r ∈ sources := List.mem_of_find?_eq_some hfind
    have hbus : r.bus = bus := by simpa using List.find?_some hfind
    subst hbus
    rw [RegisterFile.busValue_of_lone]
    · exact RegisterFile.toInt_shownLevel_of_open hw ((h.reads r).mpr hr)
    · -- whatever else is on this bus is no source
      exact fun r' hbus hne => h.closed_of_notMem fun hr' => hne (h.lone r' hr' r hr hbus)

/-- With the gates open for a transfer, the arithmetic unit does it. -/
theorem moves_of_connects [Logger] (h : d.Connects sources target) (hw : w ≤ 62)
    (signals : Signals) :
    d.Moves sources target signals ((operate signals).run d).state := by
  rw [run_operate]
  refine ⟨?_, ?_, ?_⟩
  · show d.sum signals = _
    rw [sum, h.busValue_eq_stored hw, h.busValue_eq_stored hw]
  · have hopen : (d.registers.get target).writeOpen = true := (h.writes target).mpr rfl
    rw [RegisterFile.get_latch, Register.write_of_open hopen]
    rfl
  · intro r hne
    have hclosed : (d.registers.get r).writeOpen = false :=
      Bool.eq_false_iff.mpr (mt (h.writes r).mp hne)
    rw [RegisterFile.get_latch, Register.write_of_closed hclosed]

end Datapath

/-! ## The transfers of the machine -/

/-- Whether a transfer has one target, and no two sources on the same bus. -/
def Microop.isLone : Microop → Bool
  | .transfer sources targets _ => targets.length = 1 ∧ (sources.map Reg.bus).Nodup
  | .immediate _ _ | .displace _ _ | .load | .store | .hold | .halt => true

theorem Microop.isLone_advance : advance.isLone = true := by decide

theorem Mode.isLone_bringing (mode : Mode) (v : Word 16) :
    (mode.bringing v).all Microop.isLone = true := by
  cases mode <;> simp [bringing, Microop.isLone, Reg.bus]

theorem Opcode.isLone_acting (op : Opcode) : op.acting.all Microop.isLone = true := by
  cases op <;> decide

/-- The microprograms of the machine let no sources meet. -/
theorem Instruction.isLone_microprogram {inst : Instruction} {acc : Int} {ops : Microprogram}
    (h : inst.microprogram acc = .ok ops) : ops.all Microop.isLone = true := by
  obtain ⟨op, -, ⟨mode, -, rfl⟩ | rfl⟩ := microprogram_cases h
  · rw [List.all_append, mode.isLone_bringing, op.isLone_acting]
    rfl
  · cases op.takesOperand with
    | true => rfl
    | false => exact op.isLone_acting

/-- A transfer without meeting sources, between closed gates. -/
theorem Core.connects_opened (c : Core) {sources targets : List Reg} {signals : Signals}
    (hlone : (Microop.transfer sources targets signals).isLone = true) :
    ∃ target, targets = [target] ∧ (c.opened sources targets).Connects sources target := by
  obtain ⟨hsingle, hnodup⟩ := of_decide_eq_true hlone
  obtain ⟨target, rfl⟩ := List.length_eq_one_iff.mp hsingle
  refine ⟨target, rfl, fun r => ?_, fun r => ?_, List.inj_on_of_nodup_map hnodup⟩
  · rw [opened, RegisterFile.isOpen_setGates, RegisterFile.isOpen_setGates, c.isQuiet_file]
    simp
  · rw [opened, RegisterFile.isOpen_setGates, RegisterFile.isOpen_setGates, c.isQuiet_file]
    simp

/-! ## Where the arithmetic unit is used -/

namespace Trace

/-- How a trace tells that the arithmetic unit is used. -/
def use [Logger] (signals : Signals) : Entry := .of (some .buses) (.operate signals)

/-- The arithmetic unit is not used in the traffic with the data memory. -/
theorem use_notMem_of_traffic [Logger] {events : List Event} (h : events.all Event.isTraffic = true)
    (signals : Signals) : use signals ∉ events.map (Entry.of (some .buses)) := by
  intro hmem
  obtain ⟨event, hevent, huse⟩ := List.mem_map.mp hmem
  have htraffic : event.isTraffic = true := List.all_eq_true.mp h event hevent
  obtain rfl : event = .operate signals := congrArg Entry.event huse
  exact absurd htraffic (by simp [Event.isTraffic])

/-- What does not occur in the first part of a trace is found in the second. -/
theorem exists_eq_append_of_notMem {t₁ t₂ t u : Trace} {entry : Entry} (hnot : entry ∉ t₁)
    (h : t₁ ++ t₂ = t ++ entry :: u) : ∃ t', t = t₁ ++ t' ∧ t₂ = t' ++ entry :: u := by
  rcases List.append_eq_append_iff.mp h with ⟨t', ht, ht₂⟩ | ⟨t', ht₁, hu⟩
  · exact ⟨t', ht, ht₂⟩
  · cases t' with
    | nil => exact ⟨[], by simpa using ht₁.symm, hu.symm⟩
    | cons first t' =>
      -- then the entry would be the one after `t`, still in the first part
      obtain ⟨rfl, -⟩ := List.cons.inj hu
      exact absurd (ht₁ ▸ List.mem_append_right t (List.mem_cons_self ..)) hnot

end Trace

namespace Core

open Trace (use)

/-- A transfer uses the arithmetic unit at once, and only once. -/
theorem trace_transfer [Logger] (c : Core) (sources targets : List Reg) (signals : Signals) :
    ∃ rest, ((perform (.transfer sources targets signals)).run c).trace = use signals :: rest
      ∧ ∀ other, use other ∉ rest := by
  rw [run_perform_transfer]
  refine ⟨_, rfl, fun other => ?_⟩
  simp [use, Entry.of, RegisterFile.driveEvents, RegisterFile.latchEvents]

/-- Nothing else uses it. -/
theorem use_notMem_trace [Logger] {op : Microop} {c : Core}
    (h : ∀ sources targets signals, op ≠ .transfer sources targets signals) (signals : Signals) :
    use signals ∉ ((perform op).run c).trace := by
  cases op with
  | transfer sources targets signals => exact absurd rfl (h sources targets signals)
  | immediate | displace | hold | halt => exact List.not_mem_nil
  | load =>
    cases hfault : c.memory.loadFault? c.ar.toInt with
    | some fault =>
      have hpresent : [Event.present c.ar.toInt].all Event.isTraffic = true := rfl
      rw [run_perform_load_of_fault hfault]
      exact Trace.use_notMem_of_traffic hpresent signals
    | none =>
      rw [run_perform_load hfault]
      exact Trace.use_notMem_of_traffic (DataMemory.isTraffic_loadEvents _ _) signals
  | store =>
    cases hfault : c.memory.storeFault? c.ar.toInt c.dr.toInt with
    | some fault =>
      rw [run_perform_store_of_fault hfault]
      exact Trace.use_notMem_of_traffic (DataMemory.isTraffic_refusedStoreEvents _ _ _) signals
    | none =>
      rw [run_perform_store hfault]
      exact Trace.use_notMem_of_traffic (DataMemory.isTraffic_storeEvents _ _) signals

/-- If the arithmetic unit is used, then by the first of some actions, which is a transfer, or
later. -/
theorem use_first_or_later [Logger] {op : Microop} {c : Core} {t t₂ u : Trace} {signals : Signals}
    (h : ((perform op).run c).trace ++ t₂ = t ++ use signals :: u) :
    (t = [] ∧ ∃ sources targets, op = .transfer sources targets signals)
      ∨ ∃ t', t = ((perform op).run c).trace ++ t' ∧ t₂ = t' ++ use signals :: u := by
  by_cases htransfer : ∃ sources targets signals', op = .transfer sources targets signals'
  · obtain ⟨sources, targets, signals', rfl⟩ := htransfer
    obtain ⟨rest, hstart, honce⟩ := trace_transfer c sources targets signals'
    rw [hstart] at h ⊢
    cases t with
    | nil =>
      obtain rfl : signals' = signals :=
        by simpa [use, Entry.of] using (List.cons.inj h).1
      exact .inl ⟨rfl, sources, targets, rfl⟩
    | cons first t =>
      obtain ⟨rfl, hrest⟩ := List.cons.inj h
      obtain ⟨t', rfl, ht₂⟩ := Trace.exists_eq_append_of_notMem (honce signals) hrest
      exact .inr ⟨t', rfl, ht₂⟩
  · refine .inr (Trace.exists_eq_append_of_notMem (use_notMem_trace ?_ signals) h)
    exact fun sources targets signals' hop => htransfer ⟨sources, targets, signals', hop⟩

/-- Whatever the arithmetic unit is used for while some actions are performed, it is one of them:
a transfer, which those before it have got to. -/
theorem exists_transfer [Logger] {ops : Microprogram} {c : Core} {t u : Trace} {signals : Signals}
    (h : ((ops.forM perform).run c).trace = t ++ use signals :: u) :
    ∃ before sources targets after c₁, ops = before ++ .transfer sources targets signals :: after
      ∧ (before.forM perform).run c = ⟨.ok (), c₁, t⟩ := by
  induction ops generalizing c t with
  | nil => exact absurd h (by simp)
  | cons op ops ih =>
    rw [Activity.run_forM_cons] at h
    cases hop : (perform op).run c with
    | mk outcome c₁ t₁ =>
      have htrace : ((perform op).run c).trace = t₁ := congrArg Reaction.trace hop
      rw [hop] at h
      cases outcome with
      | error fault =>
        rw [Reaction.andThen_error, ← List.append_nil t₁, ← htrace] at h
        rcases use_first_or_later h with ⟨rfl, sources, targets, rfl⟩ | ⟨t', -, hlater⟩
        · exact ⟨[], sources, targets, ops, c, rfl, rfl⟩
        · exact absurd hlater (by simp)
      | ok _ =>
        rw [Reaction.andThen_ok, Reaction.trace_after, ← htrace] at h
        rcases use_first_or_later h with ⟨rfl, sources, targets, rfl⟩ | ⟨t', rfl, hlater⟩
        · exact ⟨[], sources, targets, ops, c, rfl, rfl⟩
        · obtain ⟨before, sources, targets, after, c₂, rfl, hbefore⟩ := ih hlater
          refine ⟨op :: before, sources, targets, after, c₂, rfl, ?_⟩
          rw [Activity.run_forM_cons, hop, Reaction.andThen_ok, hbefore, Reaction.after_mk]

end Core

/-! ## Actions that a step gets to -/

namespace Processor

variable {p q : Processor} {t : Trace}

/-- A step gets to an action of the control unit: what it has recorded before that, and the state in
which the action is performed. -/
inductive GetsTo [Logger] (p : Processor) (t : Trace) : Microop → Processor → Prop
  /-- An action of the instruction. -/
  | acting {n : Nat} {op : Microop} {rest : Microprogram} {q : Processor}
    (h : (stepUpTo n).run p = ⟨.ok (op :: rest), q, t⟩) : GetsTo p t op q
  /-- The moving on of the instruction pointer, when no action is left. -/
  | advancing {n : Nat} {q : Processor} (h : (stepUpTo n).run p = ⟨.ok [], q, t⟩)
    (hfree : q.hold = false) : GetsTo p t .advance { q with phase := .advance }

theorem run_advance_of_free [Logger] (hfree : q.hold = false) :
    advance.run q = (perform .advance).run q := by
  unfold advance
  rw [Activity.run_bind, Activity.run_get, Reaction.andThen_ok, Reaction.after_nil, hfree]
  rfl

/-- What a step has got to, it performs. -/
theorem GetsTo.trace_prefix [Logger] {op : Microop} (h : p.GetsTo t op q) :
    t ++ ((perform op).run q).trace <+: (step.run p).trace := by
  cases h with
  | acting h =>
    rw [trace_step_of_stepUpTo h, List.prefix_append_right_inj, completing, Activity.run_bind,
      Activity.run_forM_cons]
    exact (Reaction.trace_prefix_andThen _ _).trans (Reaction.trace_prefix_andThen _ _)
  | @advancing n q h hfree =>
    have hadvance : advance.run { q with phase := .advance }
        = (perform .advance).run { q with phase := .advance } := run_advance_of_free hfree
    rw [trace_step_of_stepUpTo h, List.prefix_append_right_inj, ← hadvance]
    exact Reaction.trace_prefix_andThen _ fun _ => enter (if q.isHalted then .halted else .idle)

end Processor

namespace Core

open Trace (use)

/-- To move the pointer on is one more action, unless it is held. -/
theorem trace_forM_concat_advance [Logger] {c c' : Core} {ops : Microprogram} {t : Trace}
    (hrun : (ops.forM perform).run c = ⟨.ok (), c', t⟩) (hfree : c'.hold = false) :
    (((ops ++ [Microop.advance]).forM perform).run c).trace = t ++ c'.advanceTrace := by
  rw [Activity.run_forM_append, hrun, Reaction.andThen_ok, Reaction.trace_after, advanceTrace,
    hfree, if_neg Bool.false_ne_true, Activity.run_forM_cons]
  simp [Microop.advance]

/-- After what it has recorded so far, a step of a core gets to a transfer without meeting
sources. -/
inductive Transfers [Logger] (c : Core) (t : Trace) (signals : Signals) : Prop
  | of (sources targets : List Reg) (c₁ : Core)
    (lone : (Microop.transfer sources targets signals).isLone = true)
    (reached : c.toProcessor.GetsTo t (.transfer sources targets signals) c₁.toProcessor)

section

variable {c c' c₁ : Core} {inst : Instruction} {ops before after : Microprogram}
  {sources targets : List Reg} {signals : Signals} {t t₀ u : Trace}
variable (hlive : c.phase ≠ .halted) (hpos : ¬c.ip.toInt < 0) (hcell : c.cell = some inst)
include hlive hpos hcell

theorem transfers_of_acting [Logger]
    (hops : inst.microprogram c.acc.toInt
      = .ok (before ++ .transfer sources targets signals :: after))
    (hbefore : (before.forM perform).run (c.executing inst) = ⟨.ok (), c₁, t⟩) :
    Transfers c t signals := by
  have hlone := Instruction.isLone_microprogram hops
  rw [List.all_append, List.all_cons, Bool.and_eq_true, Bool.and_eq_true] at hlone
  exact .of _ _ _ hlone.2.1 (.acting (run_stepUpTo hlive hpos hcell hops hbefore))

/-- Every use that a microprogram makes of the arithmetic unit, be it to its end or to a fault. -/
theorem transfers_of_trace [Logger] (hops : inst.microprogram c.acc.toInt = .ok ops)
    (h : ((ops.forM perform).run (c.executing inst)).trace = t ++ use signals :: u) :
    Transfers c t signals := by
  obtain ⟨before, sources, targets, after, c₁, rfl, hbefore⟩ := exists_transfer h
  exact transfers_of_acting hlive hpos hcell hops hbefore

/-- Every use by a microprogram and by the moving on of the pointer after it. -/
theorem transfers_of_trace_advance [Logger] (hops : inst.microprogram c.acc.toInt = .ok ops)
    (hrun : (ops.forM perform).run (c.executing inst) = ⟨.ok (), c', t₀⟩)
    (h : t₀ ++ c'.advanceTrace = t ++ use signals :: u) : Transfers c t signals := by
  cases hhold : c'.hold with
  | true =>
    have htrace : ((ops.forM perform).run (c.executing inst)).trace = t ++ use signals :: u := by
      rw [hrun]
      simpa [advanceTrace, hhold] using h
    exact transfers_of_trace hlive hpos hcell hops htrace
  | false =>
    rw [← trace_forM_concat_advance hrun hhold] at h
    obtain ⟨before, sources, targets, after, c₁, hsplit, hbefore⟩ := exists_transfer h
    -- the transfer comes last, and is the advance, or it is one of the microprogram
    rcases after.eq_nil_or_concat' with rfl | ⟨after, last, rfl⟩
    · obtain ⟨rfl, hlast⟩ := List.append_inj' hsplit rfl
      have hadvance : Microop.advance = .transfer sources targets signals :=
        (List.cons.inj hlast).1
      obtain ⟨-, rfl, rfl⟩ := Reaction.mk.inj (hrun.symm.trans hbefore)
      rw [← List.append_nil ops] at hops
      have hstep := run_stepUpTo hlive hpos hcell hops hbefore
      refine .of sources targets { c' with phase := .advance } ?_ ?_
      · exact hadvance ▸ Microop.isLone_advance
      · exact hadvance ▸ .advancing hstep hhold
    · rw [← List.cons_append, ← List.append_assoc] at hsplit
      obtain ⟨rfl, -⟩ := List.append_inj' hsplit rfl
      exact transfers_of_acting hlive hpos hcell hops hbefore

end

/-- Every use of the arithmetic unit in a step of a core, in whichever way the step ends. -/
theorem transfers_of_step [Logger] {c : Core} {t u : Trace} {signals : Signals}
    (h : (Processor.step.run c.toProcessor).trace = t ++ use signals :: u) :
    Transfers c t signals := by
  have hnone : ([] : Trace) ≠ t ++ use signals :: u := by simp
  by_cases hhalted : c.phase = .halted
  · rw [Processor.run_step_of_halted hhalted] at h
    exact absurd h hnone
  · have hends := stepEnds hhalted
    generalize Processor.step.run c.toProcessor = r at h hends
    cases hends with
    | negative | empty | refused => exact absurd h hnone
    | faulted hpos hcell hops hrun =>
      have htrace := congrArg Reaction.trace hrun
      exact transfers_of_trace hhalted hpos hcell hops (htrace.trans h)
    | done hpos hcell hops hrun => exact transfers_of_trace_advance hhalted hpos hcell hops hrun h

end Core

namespace Processor

open Trace (use)

/-- The processor with the gates open that a transfer opens. -/
def connected (sources targets : List Reg) (p : Processor) : Processor :=
  p.mapRegisters fun file => (file.setGates .read true sources).setGates .write true targets

/-- A processor that is about to store its accumulator in a cell. -/
def storing : Processor := Core.toProcessor {
  acc := .ofInt 16 (-7)
  program := ⟨.uniform (some { operation := "SV", mode := some "const", data := some 9 })⟩
  memory := ⟨.uniform 0, {}⟩ }

end Processor

end TwoBus
