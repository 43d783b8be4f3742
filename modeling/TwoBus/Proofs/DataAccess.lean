import TwoBus.Memory.Data
import TwoBus.Proofs.Characters

/-!
# Loads and stores

A data access either faults and changes nothing (`run_load_of_fault`, `run_store_of_fault`) or it
does the one thing that its address calls for (`run_load`, `run_store`). Which of the two it is can
be read off the address, the word and the devices beforehand:

* **any address** — it must be that of a cell;
* **slot 0** — a load takes the next character, in passing, into cell 0; a store is kept in the
  cell and the device ignores it;
* **slot 1** — a load is refused; a store hands a character to the sink, and the cell keeps it;
* **slots 2 and 3** — nothing answers;
* **every other cell** — plain memory.

Each access comes with what it records, so that a history of accesses can be read off a trace.
-/

namespace TwoBus

/-! ## Loads in a trace -/

/-- Whether an event is about the data memory or a device, and not about the machine in general. -/
def Event.isTraffic : Event → Bool
  | .present _ | .load _ _ | .store _ _ | .deviceRead _ _ | .deviceWrite _ _ => true
  | _ => false

/-- The value that a load from a cell delivered, if the event is one. -/
def Event.loadFrom? (cell : Nat) : Event → Option Int
  | .load c v => if c = cell then some v else none
  | _ => none

theorem Event.loadFrom?_of_no_traffic {event : Event} (h : event.isTraffic = false) (cell : Nat) :
    Event.loadFrom? cell event = none := by
  cases event with
  | load => exact absurd h (by simp [isTraffic])
  | _ => rfl

namespace Trace

/-- What is looked for in the traffic alone is not found elsewhere. -/
theorem filterMap_of_no_traffic {α : Type} {f : Event → Option α} {t : Trace}
    (hf : ∀ event, event.isTraffic = false → f event = none)
    (h : ∀ event ∈ t.events, event.isTraffic = false) : t.events.filterMap f = [] := by
  rw [List.filterMap_eq_nil_iff]
  intro event hevent
  exact hf event (h event hevent)

/-- The values that loads from a cell delivered, in order. -/
def loadsFrom (cell : Nat) (t : Trace) : List Int := t.events.filterMap (Event.loadFrom? cell)

@[simp] theorem loadsFrom_append (cell : Nat) (t u : Trace) :
    loadsFrom cell (t ++ u) = loadsFrom cell t ++ loadsFrom cell u := by
  simp [loadsFrom]

@[simp] theorem loadsFrom_map_of [Logger] (cell : Nat) (channel : Option Channel)
    (events : List Event) :
    loadsFrom cell (events.map (Entry.of channel)) = events.filterMap (Event.loadFrom? cell) := by
  rw [loadsFrom, events_map_of]

theorem loadsFrom_of_no_traffic {t : Trace} (h : ∀ event ∈ t.events, event.isTraffic = false)
    (cell : Nat) : t.loadsFrom cell = [] :=
  filterMap_of_no_traffic (fun _ hother => Event.loadFrom?_of_no_traffic hother cell) h

end Trace

/-! ## The output device -/

namespace OutputDevice

/-- Why a value would not be emitted. -/
def refusal? (d : OutputDevice) (v : Int) : Option Fault :=
  if Text.character? v = none then some (.notCharacter v)
  else if d.sinkGood then none
  else some .sinkFailed

/-- The device after it has emitted a value: its sink has received the bytes of the character after
those from before. -/
def emitted (d : OutputDevice) (v : Int) : OutputDevice :=
  { d with
    taken := (d.received ++ (Text.character? v).elim [] String.utf8EncodeChar).reverse }

theorem emitted_of_character {v : Int} {c : Char} (h : Text.character? v = some c)
    (d : OutputDevice) : d.emitted v = d.take (String.utf8EncodeChar c) := by
  simp [emitted, h, take, received, List.reverseAux_eq]

theorem put_of_refusal {d : OutputDevice} {v : Int} {fault : Fault}
    (h : d.refusal? v = some fault) : d.put v = .error fault := by
  unfold refusal? at h
  rw [put_eq]
  cases hc : Text.character? v with
  | none =>
    rw [if_pos hc] at h
    exact congrArg Except.error (Option.some.inj h)
  | some c =>
    rw [if_neg (by simp [hc])] at h
    cases hgood : d.sinkGood with
    | true => simp [hgood] at h
    | false =>
      rw [hgood] at h
      exact congrArg Except.error (Option.some.inj h)

theorem put_of_no_refusal {d : OutputDevice} {v : Int} (h : d.refusal? v = none) :
    d.put v = .ok (d.emitted v) := by
  unfold refusal? at h
  rw [put_eq]
  cases hc : Text.character? v with
  | none => simp [hc] at h
  | some c =>
    cases hgood : d.sinkGood with
    | true => simp [emitted_of_character hc]
    | false => simp [hc, hgood] at h

end OutputDevice

/-! ## The window of the machine -/

namespace IoUnit

/-- The unit after one character has been read, which is then no longer pending. -/
def readOn (io : IoUnit) : IoUnit := { io with input := ⟨io.input.pending.tail⟩ }

/-- The unit after a value has been emitted. -/
def emit (io : IoUnit) (v : Int) : IoUnit := { io with output := io.output.emitted v }

theorem run_read_zero [Logger] (io : IoUnit) :
    (read 0).run io
      = ⟨.ok io.input.next, io.readOn,
          [.of (some .buses) (.deviceRead 0 io.input.next.toInt)]⟩ := by
  have hroute : window.route 0 = .ok .input := rfl
  simp [read, Window.read, hroute, readPeripheral, inputPart, readOn, InputDevice.advance]

theorem run_read_one [Logger] (io : IoUnit) : (read 1).run io =
    ⟨.error .readFromOutput, io, []⟩ := rfl

theorem route_unbacked {slot : Nat} (h : 2 ≤ slot) :
    window.route slot = .error (.unbackedSlot slot) := by
  obtain ⟨k, rfl⟩ := Nat.exists_eq_add_of_le' h
  rfl

theorem run_read_unbacked [Logger] {slot : Nat} (h : 2 ≤ slot) (io : IoUnit) :
    (read slot).run io = ⟨.error (.unbackedSlot slot), io, []⟩ := by
  simp [read, Window.read, route_unbacked h]

theorem run_write_zero [Logger] (v : Int) (io : IoUnit) :
    (write 0 v).run io = ⟨.ok (), io, [.of (some .buses) (.deviceWrite 0 v)]⟩ := by
  have hroute : window.route 0 = .ok .input := rfl
  simp [write, Window.write, hroute, writePeripheral]

theorem run_write_one_of_refusal [Logger] {v : Int} {io : IoUnit} {fault : Fault}
    (h : io.output.refusal? v = some fault) :
    (write 1 v).run io = ⟨.error fault, io, [.of (some .buses) (.deviceWrite 1 v)]⟩ := by
  have hput := OutputDevice.put_of_refusal h
  have hroute : window.route 1 = .ok .output := rfl
  simp [write, Window.write, hroute, writePeripheral, OutputDevice.write, outputPart, hput]

theorem run_write_one [Logger] {v : Int} {io : IoUnit} (h : io.output.refusal? v = none) :
    (write 1 v).run io = ⟨.ok (), io.emit v, [.of (some .buses) (.deviceWrite 1 v)]⟩ := by
  have hput := OutputDevice.put_of_no_refusal h
  have hroute : window.route 1 = .ok .output := rfl
  simp [write, Window.write, hroute, writePeripheral, OutputDevice.write, outputPart, hput, emit]

theorem run_write_unbacked [Logger] {slot : Nat} (h : 2 ≤ slot) (v : Int) (io : IoUnit) :
    (write slot v).run io = ⟨.error (.unbackedSlot slot), io, []⟩ := by
  simp [write, Window.write, route_unbacked h]

end IoUnit

/-! ## The data memory -/

namespace DataMemory

variable {aw dw : Nat}

/-- Why an address is that of no cell. -/
def addressFault? (_ : DataMemory aw dw) (address : Int) : Option Fault :=
  if address < 0 then some (.negativeDataAddress address)
  else if twoPow aw ≤ address.toNat then some .dataOutOfBounds
  else none

/-- Why a load from an address would fault. -/
def loadFault? (memory : DataMemory aw dw) (address : Int) : Option Fault :=
  (memory.addressFault? address).or <|
    if address = 1 then some .readFromOutput
    else if address = 2 ∨ address = 3 then some (.unbackedSlot address.toNat)
    else none

/-- Why a store of a value at an address would fault. -/
def storeFault? (memory : DataMemory aw dw) (address v : Int) : Option Fault :=
  (memory.addressFault? address).or <|
    if address = 1 then memory.io.output.refusal? v
    else if address = 2 ∨ address = 3 then some (.unbackedSlot address.toNat)
    else none

/-- The word that a load delivers: at cell zero the first of the pending characters, or zero if
there is none, and elsewhere what the cell holds. -/
def delivered (memory : DataMemory aw dw) (address : Int) : Word dw :=
  if address = 0 then .ofInt dw (memory.io.input.pending.headD 0).toInt
  else memory.cells.get address.toNat

/-- The memory after a load. -/
def loaded (memory : DataMemory aw dw) (address : Int) : DataMemory aw dw :=
  if address = 0 then ⟨memory.cells.set 0 (memory.delivered 0), memory.io.readOn⟩ else memory

/-- The memory after a store. -/
def stored (memory : DataMemory aw dw) (address : Int) (content : Word dw) : DataMemory aw dw :=
  ⟨memory.cells.set address.toNat content,
    if address = 1 then memory.io.emit content.toInt else memory.io⟩

/-- What a load records. -/
def loadEvents (memory : DataMemory aw dw) (address : Int) : List Event :=
  [.present address]
    ++ (if address = 0 then [.deviceRead 0 memory.io.input.next.toInt] else [])
    ++ [.load address.toNat (memory.delivered address).toInt]

/-- What the attempt of a store records before the word is kept. -/
def offerEvents (address v : Int) : List Event :=
  [.present address]
    ++ (if address = 0 ∨ address = 1 then [.deviceWrite address.toNat v] else [])

/-- What a store records. -/
def storeEvents (address v : Int) : List Event :=
  offerEvents address v ++ [.store address.toNat v]

theorem locate_of_fault {memory : DataMemory aw dw} {address : Int} {fault : Fault}
    (h : memory.addressFault? address = some fault) : memory.locate address = .error fault := by
  unfold addressFault? at h
  unfold locate
  by_cases hneg : address < 0
  · rw [if_pos hneg] at h ⊢
    exact congrArg Except.error (Option.some.inj h)
  · rw [if_neg hneg] at h ⊢
    by_cases hend : twoPow aw ≤ address.toNat
    · rw [if_pos hend] at h
      rw [if_neg (by simp only [Bank.size]; omega)]
      exact congrArg Except.error (Option.some.inj h)
    · simp [hend] at h

theorem addressFault?_eq_none_iff {memory : DataMemory aw dw} {address : Int} :
    memory.addressFault? address = none ↔ 0 ≤ address ∧ address.toNat < twoPow aw := by
  unfold addressFault?
  by_cases hneg : address < 0
  · rw [if_pos hneg]
    exact iff_of_false (by simp) fun h => absurd h.1 (Int.not_le.mpr hneg)
  · rw [if_neg hneg]
    by_cases hend : twoPow aw ≤ address.toNat
    · rw [if_pos hend]
      exact iff_of_false (by simp) fun h => absurd h.2 (Nat.not_lt.mpr hend)
    · rw [if_neg hend]
      exact iff_of_true rfl ⟨by omega, by omega⟩

theorem locate_of_no_fault {memory : DataMemory aw dw} {address : Int}
    (h : memory.addressFault? address = none) :
    0 ≤ address ∧ memory.locate address = .ok address.toNat := by
  obtain ⟨hpos, hlt⟩ := addressFault?_eq_none_iff.mp h
  refine ⟨hpos, ?_⟩
  unfold locate
  rw [if_neg (Int.not_lt.mpr hpos), if_pos (by simp only [Bank.size]; omega)]

theorem nonneg_of_no_loadFault {memory : DataMemory aw dw} {address : Int}
    (h : memory.loadFault? address = none) : 0 ≤ address := by
  unfold loadFault? at h
  rw [Option.or_eq_none_iff, addressFault?_eq_none_iff] at h
  exact h.1.1

/-- A store that does not fault has an address, and not one of a slot without a device. -/
theorem address_of_no_storeFault {memory : DataMemory aw dw} {address v : Int}
    (h : memory.storeFault? address v = none) :
    0 ≤ address ∧ address.toNat < twoPow aw ∧ address ≠ 2 ∧ address ≠ 3 := by
  unfold storeFault? at h
  rw [Option.or_eq_none_iff, addressFault?_eq_none_iff] at h
  obtain ⟨⟨hpos, hbound⟩, hdevice⟩ := h
  refine ⟨hpos, hbound, ?_, ?_⟩
  · rintro rfl
    exact absurd hdevice (by simp)
  · rintro rfl
    exact absurd hdevice (by simp)

/-- Beside the window nothing refuses an access. -/
theorem no_fault_of_cell (memory : DataMemory aw dw) {a : Nat} (ha : a < twoPow aw)
    (hwindow : 4 ≤ a) (v : Int) : memory.loadFault? a = none ∧ memory.storeFault? a v = none := by
  have haddress : memory.addressFault? a = none :=
    addressFault?_eq_none_iff.mpr ⟨Int.natCast_nonneg a, ha⟩
  have hone : ¬(a : Int) = 1 := by omega
  have hreserved : ¬((a : Int) = 2 ∨ (a : Int) = 3) := by omega
  unfold loadFault? storeFault?
  rw [haddress, if_neg hone, if_neg hone, if_neg hreserved]
  exact ⟨rfl, rfl⟩

/-- A load records itself, once. -/
theorem loads_loadEvents (memory : DataMemory aw dw) (cell : Nat) (address : Int) :
    (memory.loadEvents address).filterMap (Event.loadFrom? cell)
      = if address.toNat = cell then [(memory.delivered address).toInt] else [] := by
  have hbefore : ([Event.present address] ++ (if address = 0
      then [Event.deviceRead 0 memory.io.input.next.toInt] else [])).filterMap
        (Event.loadFrom? cell) = [] := by
    split <;> rfl
  unfold loadEvents
  rw [List.filterMap_append, hbefore, List.nil_append]
  by_cases hcell : address.toNat = cell <;> simp [hcell, Event.loadFrom?]

theorem loads_offerEvents (cell : Nat) (address v : Int) :
    (offerEvents address v).filterMap (Event.loadFrom? cell) = [] := by
  unfold offerEvents
  split <;> rfl

/-- An access records nothing but traffic. -/
theorem isTraffic_loadEvents (memory : DataMemory aw dw) (address : Int) :
    (memory.loadEvents address).all Event.isTraffic = true := by
  unfold loadEvents
  split <;> rfl

theorem isTraffic_offerEvents (address v : Int) :
    (offerEvents address v).all Event.isTraffic = true := by
  unfold offerEvents
  split <;> rfl

theorem isTraffic_storeEvents (address v : Int) :
    (storeEvents address v).all Event.isTraffic = true := by
  rw [storeEvents, List.all_append, isTraffic_offerEvents]
  rfl

/-! ### Cells -/

/-- A memory is made from values that fit its cells. -/
theorem ofData?_of_fits {address : Width} (haddress : address.bits ≤ 24) (data : Width)
    {values : List Int} (hfits : values.length ≤ twoPow address.bits) (io : IoUnit) :
    ofData? address data values io
      = .ok ⟨.ofList address.bits 0 (values.map (.ofInt data.bits)), io⟩ := by
  have hcheck : address.checkAddress = .ok () := if_neg (Nat.not_lt.mpr haddress)
  unfold ofData?
  rw [hcheck]
  exact if_neg (Nat.not_lt.mpr hfits)

/-- A cell starts with the value that is meant for it, truncated, or with zero. -/
theorem get_image (values : List Int) {cell : Nat} (hcell : cell < twoPow aw) :
    (Bank.ofList aw (0 : Word dw) (values.map (.ofInt dw))).get cell
      = .ofInt dw (values[cell]?.getD 0) := by
  rw [Bank.get_ofList 0 _ hcell, List.getElem?_map]
  cases values[cell]? with
  | none => exact Word.ofInt_zero.symm
  | some v => rfl

theorem peek_of_lt (memory : DataMemory aw dw) {cell : Nat} (hcell : cell < twoPow aw) :
    memory.peek cell = .ok (memory.cells.get cell) := if_pos hcell

theorem peek_of_le (memory : DataMemory aw dw) {cell : Nat} (hcell : twoPow aw ≤ cell) :
    memory.peek cell = .error .peekOutOfBounds := if_neg (Nat.not_lt.mpr hcell)

/-! ### Loads -/

theorem run_receive_zero [Logger] (memory : DataMemory aw dw) :
    (receive 0).run memory
      = ⟨.ok (), memory.loaded 0,
          [.of (some .buses) (.deviceRead 0 memory.io.input.next.toInt)]⟩ := by
  simp [receive, Window.contains, windowSize, IoUnit.run_read_zero, ioPart, put, loaded, delivered,
    InputDevice.next]

theorem run_receive_one [Logger] (memory : DataMemory aw dw) :
    (receive 1).run memory = ⟨.error .readFromOutput, memory, []⟩ := by
  simp [receive, Window.contains, windowSize, IoUnit.run_read_one, ioPart]

theorem run_receive_unbacked [Logger] {cell : Nat} (h : 2 ≤ cell) (hw : cell < windowSize)
    (memory : DataMemory aw dw) :
    (receive cell).run memory = ⟨.error (.unbackedSlot cell), memory, []⟩ := by
  simp [receive, Window.contains, hw, IoUnit.run_read_unbacked h, ioPart]

theorem run_receive_cell [Logger] {cell : Nat} (h : windowSize ≤ cell) (memory : DataMemory aw dw) :
    (receive cell).run memory = ⟨.ok (), memory, []⟩ := by
  simp [receive, Window.contains, Nat.not_lt.mpr h]

/-- A load that faults has presented its address and done nothing else. -/
theorem run_load_of_fault [Logger] {memory : DataMemory aw dw} {address : Int} {fault : Fault}
    (h : memory.loadFault? address = some fault) :
    (load address).run memory = ⟨.error fault, memory, [.of (some .buses) (.present address)]⟩ := by
  unfold loadFault? at h
  unfold load
  cases haddress : memory.addressFault? address with
  | some f =>
    rw [haddress] at h
    simp [locate_of_fault (haddress.trans h)]
  | none =>
    obtain ⟨hpos, hlocate⟩ := locate_of_no_fault haddress
    rw [haddress, Option.none_or] at h
    by_cases hone : address = 1
    · subst hone
      rw [if_pos rfl] at h
      cases h
      simp [hlocate, run_receive_one]
    · -- past the output device only the slots without a device are left to refuse
      rw [if_neg hone] at h
      by_cases hreserved : address = 2 ∨ address = 3
      · rw [if_pos hreserved] at h
        cases h
        have hslot : 2 ≤ address.toNat ∧ address.toNat < windowSize := by
          unfold windowSize
          omega
        simp [hlocate, run_receive_unbacked hslot.1 hslot.2]
      · rw [if_neg hreserved] at h
        exact absurd h (by simp)

theorem run_load [Logger] {memory : DataMemory aw dw} {address : Int}
    (h : memory.loadFault? address = none) :
    (load address).run memory
      = ⟨.ok (memory.delivered address), memory.loaded address,
          (memory.loadEvents address).map (Entry.of (some .buses))⟩ := by
  unfold loadFault? at h
  rw [Option.or_eq_none_iff] at h
  obtain ⟨haddress, hdevice⟩ := h
  obtain ⟨hpos, hlocate⟩ := locate_of_no_fault haddress
  -- of the window only slot 0 is left
  have hone : address ≠ 1 := by
    rintro rfl
    simp at hdevice
  have hreserved : ¬(address = 2 ∨ address = 3) := by
    intro hr
    simp [hone, hr] at hdevice
  unfold load
  by_cases hzero : address = 0
  · subst hzero
    have hcell : (memory.loaded 0).cells.get 0 = memory.delivered 0 := Bank.get_set_self _ _ _
    simp [hlocate, run_receive_zero, hcell, loadEvents]
  · have hcell : windowSize ≤ address.toNat := by
      unfold windowSize
      omega
    simp [hlocate, run_receive_cell hcell, loaded, delivered, loadEvents, hzero]

theorem output_loaded (memory : DataMemory aw dw) (address : Int) :
    (memory.loaded address).io.output = memory.io.output := by
  unfold loaded
  split <;> rfl

theorem get_loaded_of_pos (memory : DataMemory aw dw) (address : Int) {cell : Nat} (hpos : 0 < cell)
    (hcell : cell < twoPow aw) :
    (memory.loaded address).cells.get cell = memory.cells.get cell := by
  unfold loaded
  split
  · exact Bank.get_set_of_ne _ (by omega) hcell (by omega) _
  · rfl

/-! ### Stores -/

theorem run_send_zero [Logger] (content : Word dw) (memory : DataMemory aw dw) :
    (send 0 content).run memory
      = ⟨.ok (), memory, [.of (some .buses) (.deviceWrite 0 content.toInt)]⟩ := by
  simp [send, Window.contains, windowSize, IoUnit.run_write_zero, ioPart]

theorem run_send_one_of_refusal [Logger] {content : Word dw} {memory : DataMemory aw dw}
    {fault : Fault} (h : memory.io.output.refusal? content.toInt = some fault) :
    (send 1 content).run memory
      = ⟨.error fault, memory, [.of (some .buses) (.deviceWrite 1 content.toInt)]⟩ := by
  simp [send, Window.contains, windowSize, IoUnit.run_write_one_of_refusal h, ioPart]

theorem run_send_one [Logger] {content : Word dw} {memory : DataMemory aw dw}
    (h : memory.io.output.refusal? content.toInt = none) :
    (send 1 content).run memory
      = ⟨.ok (), { memory with io := memory.io.emit content.toInt },
          [.of (some .buses) (.deviceWrite 1 content.toInt)]⟩ := by
  simp [send, Window.contains, windowSize, IoUnit.run_write_one h, ioPart]

theorem run_send_unbacked [Logger] {cell : Nat} (h : 2 ≤ cell) (hw : cell < windowSize)
    (content : Word dw) (memory : DataMemory aw dw) :
    (send cell content).run memory = ⟨.error (.unbackedSlot cell), memory, []⟩ := by
  simp [send, Window.contains, hw, IoUnit.run_write_unbacked h, ioPart]

theorem run_send_cell [Logger] {cell : Nat} (h : windowSize ≤ cell) (content : Word dw)
    (memory : DataMemory aw dw) : (send cell content).run memory = ⟨.ok (), memory, []⟩ := by
  simp [send, Window.contains, Nat.not_lt.mpr h]

/-- What a store that faults at its address records. -/
def refusedStoreEvents (memory : DataMemory aw dw) (address v : Int) : List Event :=
  if memory.addressFault? address = none then offerEvents address v else [.present address]

theorem loads_refusedStoreEvents (memory : DataMemory aw dw) (cell : Nat) (address v : Int) :
    (memory.refusedStoreEvents address v).filterMap (Event.loadFrom? cell) = [] := by
  unfold refusedStoreEvents
  split
  · exact loads_offerEvents cell address v
  · rfl

theorem isTraffic_refusedStoreEvents (memory : DataMemory aw dw) (address v : Int) :
    (memory.refusedStoreEvents address v).all Event.isTraffic = true := by
  unfold refusedStoreEvents
  split
  · exact isTraffic_offerEvents address v
  · rfl

/-- A store that faults has presented its address, perhaps offered its word to the output device,
and done nothing else. -/
theorem run_store_of_fault [Logger] {memory : DataMemory aw dw} {address : Int} {content : Word dw}
    {fault : Fault} (h : memory.storeFault? address content.toInt = some fault) :
    (store address content).run memory
      = ⟨.error fault, memory, (memory.refusedStoreEvents address content.toInt).map
          (Entry.of (some .buses))⟩ := by
  unfold storeFault? at h
  unfold store refusedStoreEvents
  cases haddress : memory.addressFault? address with
  | some f =>
    rw [haddress] at h
    simp [locate_of_fault (haddress.trans h)]
  | none =>
    obtain ⟨hpos, hlocate⟩ := locate_of_no_fault haddress
    rw [haddress, Option.none_or] at h
    by_cases hone : address = 1
    · subst hone
      rw [if_pos rfl] at h
      simp [hlocate, run_send_one_of_refusal h, offerEvents]
    · rw [if_neg hone] at h
      by_cases hreserved : address = 2 ∨ address = 3
      · rw [if_pos hreserved] at h
        cases h
        have hslot : 2 ≤ address.toNat ∧ address.toNat < windowSize := by
          unfold windowSize
          omega
        have hzero : address ≠ 0 := by omega
        simp [hlocate, run_send_unbacked hslot.1 hslot.2, offerEvents, hzero, hone]
      · rw [if_neg hreserved] at h
        exact absurd h (by simp)

theorem run_store [Logger] {memory : DataMemory aw dw} {address : Int} {content : Word dw}
    (h : memory.storeFault? address content.toInt = none) :
    (store address content).run memory
      = ⟨.ok (), memory.stored address content,
          (storeEvents address content.toInt).map (Entry.of (some .buses))⟩ := by
  unfold storeFault? at h
  rw [Option.or_eq_none_iff] at h
  obtain ⟨haddress, hdevice⟩ := h
  obtain ⟨hpos, hlocate⟩ := locate_of_no_fault haddress
  unfold store
  by_cases hone : address = 1
  · subst hone
    rw [if_pos rfl] at hdevice
    simp [hlocate, run_send_one hdevice, put, stored, storeEvents, offerEvents]
  · have hreserved : ¬(address = 2 ∨ address = 3) := by
      intro hr
      simp [hone, hr] at hdevice
    by_cases hzero : address = 0
    · subst hzero
      simp [hlocate, run_send_zero, put, stored, storeEvents, offerEvents]
    · have hcell : windowSize ≤ address.toNat := by
        unfold windowSize
        omega
      simp [hlocate, run_send_cell hcell, put, stored, storeEvents, offerEvents, hzero, hone]

end DataMemory

/-! ## Words as addresses

No word is past the end of a memory that it addresses. There only the sign of an address matters,
and the four slots of the window. -/

/-- A surrogate or a negative value is no character, and every other word of the machine is one. -/
theorem Text.character?_word (v : Word 16) :
    Text.character? v.toInt = none ↔ v.toInt < 0 ∨ 0xD800 ≤ v.toInt ∧ v.toInt ≤ 0xDFFF := by
  have hlt : v.toInt.natAbs < 65536 := v.natAbs_lt
  rw [character?_eq_none_iff, IsCharacter]
  omega

namespace DataMemory

variable {aw dw : Nat}

/-- Why a load from an address faults: the address is negative, or it is a slot of the window that
is written only, or one that no device backs. -/
def loadRefusal? (address : Word 16) : Option Fault :=
  if address.toInt < 0 then some (.negativeDataAddress address.toInt)
  else if address.toInt = 1 then some .readFromOutput
  else if address.toInt = 2 ∨ address.toInt = 3 then some (.unbackedSlot address.toInt.toNat)
  else none

/-- Why a store of a word at an address faults: as for a load, but the slot that is written only
refuses what is no character, and what its sink does not take. -/
def storeRefusal? (sinkGood : Bool) (address v : Word 16) : Option Fault :=
  if address.toInt < 0 then some (.negativeDataAddress address.toInt)
  else if address.toInt = 1 then
    if v.toInt < 0 ∨ 0xD800 ≤ v.toInt ∧ v.toInt ≤ 0xDFFF then some (.notCharacter v.toInt)
    else if sinkGood then none
    else some .sinkFailed
  else if address.toInt = 2 ∨ address.toInt = 3 then some (.unbackedSlot address.toInt.toNat)
  else none

/-- Only the output device tells a store from a load. -/
theorem storeRefusal?_of_ne {address : Word 16} (h : address.toInt ≠ 1) (sinkGood : Bool)
    (v : Word 16) : storeRefusal? sinkGood address v = loadRefusal? address := by
  simp [storeRefusal?, loadRefusal?, h]

theorem addressFault?_word (memory : DataMemory aw dw) (address : Word aw) :
    memory.addressFault? address.toInt
      = if address.toInt < 0 then some (.negativeDataAddress address.toInt) else none := by
  have hlt := address.natAbs_lt
  unfold addressFault?
  by_cases hneg : address.toInt < 0
  · rw [if_pos hneg, if_pos hneg]
  · rw [if_neg hneg, if_neg hneg, if_neg (by omega)]

theorem loadFault?_word (memory : DataMemory 16 16) (address : Word 16) :
    memory.loadFault? address.toInt = loadRefusal? address := by
  unfold loadFault? loadRefusal?
  rw [addressFault?_word]
  by_cases hneg : address.toInt < 0
  · rw [if_pos hneg, if_pos hneg]
    rfl
  · rw [if_neg hneg, if_neg hneg]
    rfl

theorem refusal?_word (d : OutputDevice) (v : Word 16) :
    d.refusal? v.toInt
      = if v.toInt < 0 ∨ 0xD800 ≤ v.toInt ∧ v.toInt ≤ 0xDFFF then some (.notCharacter v.toInt)
        else if d.sinkGood then none
        else some .sinkFailed := by
  unfold OutputDevice.refusal?
  simp only [Text.character?_word]

theorem storeFault?_word (memory : DataMemory 16 16) (address v : Word 16) :
    memory.storeFault? address.toInt v.toInt
      = storeRefusal? memory.io.output.sinkGood address v := by
  unfold storeFault? storeRefusal?
  rw [addressFault?_word, refusal?_word]
  by_cases hneg : address.toInt < 0
  · rw [if_pos hneg, if_pos hneg]
    rfl
  · rw [if_neg hneg, if_neg hneg]
    rfl

end DataMemory

end TwoBus
