import TwoBus.Proofs.PlainMemory

/-!
# Refused accesses

An access to data memory through its two registers is refused for one of five causes, and whether
it will be can be seen beforehand. The address is checked first, then the device is asked, and only
then a cell or a register changes; so a refused access has changed nothing, the devices included.

* `DataUnit.Refuses`: the causes.
* `DataUnit.fault?_eq_some_iff`: they are what the memory faults for. No address that a register
  shows lies past the end of the memory.
* `DataUnit.refused_access_inert`: a refused access leaves the registers, the cells and the devices
  as they were.
-/

namespace TwoBus

/-- The output device refuses what is no character, whatever its sink, and a character if the sink
has failed. -/
theorem OutputDevice.refusal?_eq_some_iff {d : OutputDevice} {v : Int} {fault : Fault} :
    d.refusal? v = some fault
      ↔ ¬Text.IsCharacter v ∧ fault = .notCharacter v
        ∨ Text.IsCharacter v ∧ d.sinkGood = false ∧ fault = .sinkFailed := by
  unfold refusal?
  by_cases hvalue : Text.IsCharacter v
  · rw [if_neg fun hnone => Text.character?_eq_none_iff.mp hnone hvalue]
    cases d.sinkGood <;> simp [hvalue, @eq_comm _ fault]
  · rw [if_pos (Text.character?_eq_none_iff.mpr hvalue)]
    simp [hvalue, @eq_comm _ fault]

namespace DataUnit

variable {aw dw : Nat} {unit : DataUnit aw dw} {direction : Direction} {fault : Fault}

/-! ## Causes -/

/-- Why an access is refused. Only at the slot of the output device do the two directions differ. -/
inductive Refuses (unit : DataUnit aw dw) : Direction → Fault → Prop
  | negativeAddress (direction : Direction) (haddress : unit.address.read.toInt < 0) :
      Refuses unit direction (.negativeDataAddress unit.address.read.toInt)
  | unbackedSlot (direction : Direction) (slot : Nat) (haddress : unit.address.read.toInt = slot)
      (hslot : slot = 2 ∨ slot = 3) : Refuses unit direction (.unbackedSlot slot)
  | readFromOutput (haddress : unit.address.read.toInt = 1) : Refuses unit .load .readFromOutput
  | notCharacter (haddress : unit.address.read.toInt = 1)
      (hvalue : ¬Text.IsCharacter unit.data.read.toInt) :
      Refuses unit .store (.notCharacter unit.data.read.toInt)
  | sinkFailed (haddress : unit.address.read.toInt = 1)
      (hvalue : Text.IsCharacter unit.data.read.toInt)
      (hsink : unit.memory.io.output.sinkGood = false) : Refuses unit .store .sinkFailed

/-- Why the output device refuses the access, if it is one to its slot. -/
def outputFault? (unit : DataUnit aw dw) : Direction → Option Fault
  | .load => some .readFromOutput
  | .store => unit.memory.io.output.refusal? unit.data.read.toInt

/-- Why the memory faults on the access that the registers call for. -/
def fault? (unit : DataUnit aw dw) : Direction → Option Fault
  | .load => unit.memory.loadFault? unit.address.read.toInt
  | .store => unit.memory.storeFault? unit.address.read.toInt unit.data.read.toInt

/-- The address is looked at before the device. A register cannot show an address past the end. -/
theorem fault?_eq (unit : DataUnit aw dw) (direction : Direction) :
    unit.fault? direction
      = if unit.address.read.toInt < 0 then some (.negativeDataAddress unit.address.read.toInt)
        else if unit.address.read.toInt = 1 then unit.outputFault? direction
        else if unit.address.read.toInt = 2 ∨ unit.address.read.toInt = 3 then
          some (.unbackedSlot unit.address.read.toInt.toNat)
        else none := by
  have haddress := DataMemory.addressFault?_word unit.memory unit.address.read
  cases direction with
  | load =>
    rw [fault?, DataMemory.loadFault?, haddress]
    split <;> rfl
  | store =>
    rw [fault?, DataMemory.storeFault?, haddress]
    split <;> rfl

theorem fault?_of_refuses (h : unit.Refuses direction fault) :
    unit.fault? direction = some fault := by
  rw [fault?_eq]
  cases h with
  | negativeAddress direction haddress => rw [if_pos haddress]
  | unbackedSlot direction slot haddress hslot =>
    rw [haddress, if_neg (by omega), if_neg (by omega), if_pos (by omega), Int.toNat_natCast]
  | readFromOutput haddress =>
    rw [haddress, if_neg (by decide), if_pos rfl]
    rfl
  | notCharacter haddress hvalue =>
    rw [haddress, if_neg (by decide), if_pos rfl, outputFault?]
    exact OutputDevice.refusal?_eq_some_iff.mpr (.inl ⟨hvalue, rfl⟩)
  | sinkFailed haddress hvalue hsink =>
    rw [haddress, if_neg (by decide), if_pos rfl, outputFault?]
    exact OutputDevice.refusal?_eq_some_iff.mpr (.inr ⟨hvalue, hsink, rfl⟩)

theorem refuses_of_outputFault? (haddress : unit.address.read.toInt = 1)
    (h : unit.outputFault? direction = some fault) : unit.Refuses direction fault := by
  cases direction with
  | load =>
    cases h
    exact .readFromOutput haddress
  | store =>
    obtain ⟨hvalue, rfl⟩ | ⟨hvalue, hsink, rfl⟩ := OutputDevice.refusal?_eq_some_iff.mp h
    · exact .notCharacter haddress hvalue
    · exact .sinkFailed haddress hvalue hsink

theorem refuses_of_fault? (h : unit.fault? direction = some fault) :
    unit.Refuses direction fault := by
  rw [fault?_eq] at h
  by_cases hneg : unit.address.read.toInt < 0
  · rw [if_pos hneg] at h
    cases h
    exact .negativeAddress direction hneg
  · rw [if_neg hneg] at h
    by_cases hone : unit.address.read.toInt = 1
    · rw [if_pos hone] at h
      exact refuses_of_outputFault? hone h
    · rw [if_neg hone] at h
      by_cases hreserved : unit.address.read.toInt = 2 ∨ unit.address.read.toInt = 3
      · rw [if_pos hreserved] at h
        cases h
        exact .unbackedSlot direction _ (by omega) (by omega)
      · rw [if_neg hreserved] at h
        cases h

theorem fault?_eq_some_iff : unit.fault? direction = some fault ↔ unit.Refuses direction fault :=
  ⟨refuses_of_fault?, fault?_of_refuses⟩

/-! ## Accesses -/

/-- An access that the memory faults on leaves the unit as it is. -/
theorem run_of_fault [Logger] (h : unit.fault? direction = some fault) :
    ∃ t, direction.activity.run unit = ⟨.error fault, unit, t⟩ := by
  cases direction with
  | load => exact ⟨_, run_load_of_fault h⟩
  | store => exact ⟨_, run_store_of_fault h⟩

theorem outcome_of_no_fault [Logger] (h : unit.fault? direction = none) :
    (direction.activity.run unit).outcome = .ok () := by
  cases direction with
  | load =>
    show (load.run unit).outcome = .ok ()
    rw [run_load_of_no_fault h]
  | store =>
    show (store.run unit).outcome = .ok ()
    rw [run_store_of_no_fault h]

/-- An access faults for the reason that can be seen beforehand, and for no other. -/
theorem outcome_eq_error_iff [Logger] :
    (direction.activity.run unit).outcome = .error fault ↔ unit.Refuses direction fault := by
  rw [← fault?_eq_some_iff]
  cases hfault : unit.fault? direction with
  | none =>
    rw [outcome_of_no_fault hfault]
    exact iff_of_false nofun nofun
  | some cause =>
    obtain ⟨t, hrun⟩ := run_of_fault hfault
    rw [hrun, Except.error.injEq, Option.some.injEq]

/-- A refused access is inert. For registers of any widths, whatever they hold and however their
gates are set, over any cells and any devices, with input left or none and with a sink that takes
bytes or has failed: an access faults for one of the causes and for no other, and when it does, the
contents and the gates of both registers, every cell, what is left of the input and what the sink
has taken are as they were before. -/
theorem refused_access_inert [Logger] (unit : DataUnit aw dw) (direction : Direction)
    (fault : Fault) :
    ((direction.activity.run unit).outcome = .error fault ↔ unit.Refuses direction fault)
      ∧ ((direction.activity.run unit).outcome = .error fault →
        (direction.activity.run unit).state = unit) := by
  refine ⟨outcome_eq_error_iff, ?_⟩
  intro herror
  obtain ⟨t, hrun⟩ := run_of_fault (fault?_of_refuses (outcome_eq_error_iff.mp herror))
  rw [hrun]

/-- A unit of eight cells of twenty bits, with input left. Its address register drives and its data
register would latch and drives. -/
def probed (address v : Int) (sinkGood : Bool) : DataUnit 3 20 where
  address := { word := .ofInt 3 address, readOpen := true }
  data := { word := .ofInt 20 v, readOpen := true, writeOpen := true }
  memory :=
    { cells := .ofList 3 0 [.ofInt 20 5, .ofInt 20 6, .ofInt 20 7]
      io := { input := ⟨[.ofInt 16 120]⟩, output := { sinkGood := sinkGood, taken := [104] } } }

/-- A letter for a sink that has failed, a surrogate for one that takes bytes, and a load from each
slot that delivers nothing. -/
theorem refused_access_inert_probed :
    letI := Logger.silent
    (store.run (probed 1 65 false)).state = probed 1 65 false
      ∧ (store.run (probed 1 0xD800 true)).state = probed 1 0xD800 true
      ∧ (load.run (probed 1 65 true)).state = probed 1 65 true
      ∧ (load.run (probed 3 65 true)).state = probed 3 65 true
      ∧ (load.run (probed (-1) 65 true)).state = probed (-1) 65 true :=
  let := Logger.silent
  ⟨(refused_access_inert (probed 1 65 false) .store .sinkFailed).2 rfl,
    (refused_access_inert (probed 1 0xD800 true) .store (.notCharacter 0xD800)).2 rfl,
    (refused_access_inert (probed 1 65 true) .load .readFromOutput).2 rfl,
    (refused_access_inert (probed 3 65 true) .load (.unbackedSlot 3)).2 rfl,
    (refused_access_inert (probed (-1) 65 true) .load (.negativeDataAddress (-1))).2 rfl⟩

end DataUnit

end TwoBus
