import TwoBus.Datapath

/-!
# One cycle of the buses

What one operation of the arithmetic unit does, under any setting of the gates:

* **the buses** — a bus carries the levels that its two registers show, or-ed together
  (`run_sampleBuses`); a register behind a closed read gate shows zero and so drops out of the or;
* **the operation** — it never faults, its result is `Signals.combine` of the two bus values, all
  sampled before any register changes, and the open write gates take that result (`run_operate`);
* **lone drivers** — a word comes off a bus as it went on, if nothing else drives the bus
  (`Word.toInt_ofInt_level`).
-/

namespace TwoBus

/-- Sixty-four bits hold every word of at most 62 bits. -/
theorem Word.toInt_ofInt_level {w : Nat} (hw : w ≤ 62) (x : Word w) :
    (BitVec.ofInt 64 x.toInt).toInt = x.toInt := by
  have hlt : x.toInt.natAbs < twoPow w := x.natAbs_lt
  have hpow := twoPow_le_of_le hw
  rw [BitVec.toInt_ofInt]
  exact Int.bmod_eq_of_le (by omega) (by omega)

/-- The arithmetic of one operation: two sums, truncated one after the other. -/
theorem Signals.toInt_combine (signals : Signals) (left right : Int) :
    (signals.combine left right).toInt
      = truncate 16
          (truncate 16 ((if signals.increment then 1 else 0)
              + (if signals.invertLeft then -truncate 16 left else truncate 16 left))
            + (if signals.invertRight then -truncate 16 right else truncate 16 right)) := by
  have hcarry : truncate 16 (if signals.increment then 1 else 0)
      = if signals.increment then 1 else 0 := by
    cases signals.increment <;> rfl
  unfold combine
  rw [Word.toInt_add, Word.toInt_add, Word.toInt_ofInt, hcarry]
  cases signals.invertLeft <;> cases signals.invertRight <;> rfl

/-! ## The buses -/

namespace Buses

theorem run_assign [Logger] {buses : Buses} (hlive : buses.frozen = false) (bus : Bus) (v : Int) :
    (assign bus v).run buses
      = ⟨.ok (), buses.drive bus v, [.of (some .buses) (.assign bus v)]⟩ := by
  simp [assign, hlive]

theorem run_freeze [Logger] {buses : Buses} (hlive : buses.frozen = false) :
    freeze.run buses = ⟨.ok (), { buses with frozen := true }, []⟩ := by
  simp [freeze, hlive]

theorem run_sample [Logger] {buses : Buses} (hfrozen : buses.frozen = true) (bus : Bus) :
    (sample bus).run buses
      = ⟨.ok (buses.value bus), buses, [.of (some .buses) (.sample bus (buses.value bus))]⟩ := by
  simp [sample, hfrozen]

/-- The buses after several registers have driven theirs in turn. -/
def driveAll (v : Reg → Int) (rs : List Reg) (buses : Buses) : Buses :=
  rs.foldl (fun buses r => buses.drive r.bus (v r)) buses

@[simp] theorem frozen_driveAll (v : Reg → Int) (rs : List Reg) (buses : Buses) :
    (buses.driveAll v rs).frozen = buses.frozen := by
  induction rs generalizing buses with
  | nil => rfl
  | cons r rs ih => exact (ih _).trans (frozen_drive buses r.bus (v r))

/-- A bus gathers the levels of its own registers. -/
theorem level_driveAll (v : Reg → Int) (rs : List Reg) (buses : Buses) (bus : Bus) :
    ((buses.driveAll v rs).level bus).getD 0
      = rs.foldl (fun l r => if r.bus = bus then l ||| BitVec.ofInt 64 (v r) else l)
          ((buses.level bus).getD 0) := by
  induction rs generalizing buses with
  | nil => rfl
  | cons r rs ih =>
    show (((buses.drive r.bus (v r)).driveAll v rs).level bus).getD 0 = _
    rw [ih, List.foldl_cons]
    -- the head of the list drives this bus or the other one
    by_cases h : r.bus = bus
    · subst h
      simp
    · rw [level_drive_of_ne h, if_neg h]

end Buses

namespace RegisterFile

variable {w : Nat}

/-- The level that a register shows to its bus. -/
def shownLevel (file : RegisterFile w) (r : Reg) : Level :=
  BitVec.ofInt 64 (file.get r).read.toInt

/-- What a bus carries during one cycle. -/
def busValue (file : RegisterFile w) : Bus → Int
  | .a => (file.shownLevel .acc ||| file.shownLevel .ip).toInt
  | .b => (file.shownLevel .ar ||| file.shownLevel .dr).toInt

/-- What is recorded about some registers that turn to their buses. -/
def driveEvents (file : RegisterFile w) (rs : List Reg) : List Event :=
  rs.flatMap fun r => [.drive r, .assign r.bus (file.get r).read.toInt]

/-- A register behind a closed read gate adds nothing to its bus, so it makes no difference whether
it drives. -/
theorem foldl_openRegs (file : RegisterFile w) (bus : Bus) (l : Level) :
    (file.openRegs .read).foldl
        (fun l r => if r.bus = bus then l ||| file.shownLevel r else l) l
      = Reg.all.foldl (fun l r => if r.bus = bus then l ||| file.shownLevel r else l) l := by
  unfold openRegs
  rw [List.foldl_filter]
  congr 1
  funext l r
  by_cases h : (file.get r).isOpen .read = true
  · exact if_pos h
  · -- what is filtered out would have or-ed a zero in
    have hclosed : (file.get r).readOpen = false := by simpa [Register.isOpen] using h
    simp [shownLevel, Register.read_of_closed hclosed]

/-- Driving a fresh pair of buses leaves on each what `busValue` says. -/
theorem value_driveAll (file : RegisterFile w) (bus : Bus) :
    (Buses.driveAll (fun r => (file.get r).read.toInt) (file.openRegs .read) {}).value bus
      = file.busValue bus := by
  unfold Buses.value
  rw [Buses.level_driveAll]
  show ((file.openRegs .read).foldl
    (fun l r => if r.bus = bus then l ||| file.shownLevel r else l) _).toInt = _
  rw [foldl_openRegs]
  cases bus <;> simp [Reg.all, Reg.bus, Buses.level, busValue]

/-- Registers drive their buses in the order in which they are clocked. -/
theorem run_forM_drive [Logger] (file : RegisterFile w) (rs : List Reg) (buses : Buses)
    (hlive : buses.frozen = false) :
    (rs.forM fun r => do
        Activity.emit .buses (.drive r)
        Buses.assign r.bus (file.get r).read.toInt : Activity Buses Unit).run buses
      = ⟨.ok (), buses.driveAll (fun r => (file.get r).read.toInt) rs,
          (file.driveEvents rs).map (Entry.of (some .buses))⟩ := by
  induction rs generalizing buses with
  | nil => rfl
  | cons r rs ih =>
    have hrest := ih (buses.drive r.bus (file.get r).read.toInt) (by simpa using hlive)
    rw [Activity.run_forM_cons, Activity.run_bind, Activity.run_emit, Reaction.andThen_ok,
      Buses.run_assign hlive, Reaction.after_mk, Reaction.andThen_ok, hrest]
    rfl

theorem run_sampleBuses [Logger] (file : RegisterFile w) :
    ∃ buses, file.sampleBuses.run {}
      = ⟨.ok (file.busValue .a, file.busValue .b), buses,
          (file.driveEvents (file.openRegs .read)
            ++ [Event.sample .a (file.busValue .a), Event.sample .b (file.busValue .b)]).map
          (Entry.of (some .buses))⟩ := by
  have hdrive := file.run_forM_drive (file.openRegs .read) {} rfl
  have hvalue := file.value_driveAll
  have hlive := Buses.frozen_driveAll (fun r => (file.get r).read.toInt) (file.openRegs .read) {}
  revert hdrive hvalue hlive
  generalize Buses.driveAll _ _ _ = driven
  intro hdrive hvalue hlive
  -- freezing changes what may be done to the buses, not what they carry
  have hsample : ∀ bus, ({ driven with frozen := true } : Buses).value bus = file.busValue bus := by
    intro bus
    rw [← hvalue bus]
    cases bus <;> rfl
  refine ⟨{ driven with frozen := true }, ?_⟩
  unfold sampleBuses driveBuses
  simp only [Activity.run_bind, hdrive, Reaction.andThen_ok, Buses.run_freeze hlive,
    Buses.run_sample, hsample, Reaction.after_mk, Activity.run_pure]
  simp

end RegisterFile

/-! ## The operation -/

namespace Datapath

variable {w : Nat}

/-- The result of one operation. -/
def sum (d : Datapath w) (signals : Signals) : Word 16 :=
  signals.combine (d.registers.busValue .a) (d.registers.busValue .b)

/-- What is recorded about one operation. -/
def cycleEvents (d : Datapath w) (signals : Signals) : List Event :=
  [Event.operate signals] ++ d.registers.driveEvents (d.registers.openRegs .read)
    ++ [.sample .a (d.registers.busValue .a), .sample .b (d.registers.busValue .b)]
    ++ d.registers.latchEvents (d.sum signals).toInt

/-- What is offered to the registers is recorded for those that take it. -/
theorem run_latch [Logger] (v : Int) (d : Datapath w) :
    (latch v).run d
      = ⟨.ok (), { d with registers := d.registers.latch v },
          (d.registers.latchEvents v).map (Entry.of (some .buses))⟩ := by
  have hrecord : ((d.registers.openRegs .write).forM fun r =>
        Activity.emit .buses (.latch r v) : Activity (Datapath w) Unit).run d
      = ⟨.ok (), d, (d.registers.openRegs .write).map fun r => .of (some .buses) (.latch r v)⟩ :=
    Activity.run_forM_record (fun r => Activity.run_emit .buses (.latch r v)) _ d
  unfold latch
  rw [Activity.run_bind, Activity.run_get, Reaction.andThen_ok, Reaction.after_nil,
    Activity.run_bind, hrecord, Reaction.andThen_ok, Activity.run_set, Reaction.after_mk,
    RegisterFile.latchEvents, List.map_map, List.append_nil]
  rfl

/-- One operation of the arithmetic unit, in full: it cannot fault, and what it computes is settled
before the first register changes. -/
theorem run_operate [Logger] (signals : Signals) (d : Datapath w) :
    (operate signals).run d
      = ⟨.ok (), ⟨d.registers.latch (d.sum signals).toInt, d.sum signals⟩,
          (d.cycleEvents signals).map (Entry.of (some .buses))⟩ := by
  obtain ⟨buses, hsample⟩ := d.registers.run_sampleBuses
  unfold operate
  simp only [Activity.run_bind, Activity.run_emit, Activity.run_get, Activity.run_isolate, hsample,
    Activity.run_set, run_latch, Reaction.mapState_mk, Reaction.andThen_ok, Reaction.after_mk]
  simp [cycleEvents, sum]

end Datapath

end TwoBus
