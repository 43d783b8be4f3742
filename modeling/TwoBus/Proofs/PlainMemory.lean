import TwoBus.Proofs.DataAccess

/-!
# Memory beside the window

At the addresses that reach no device, data memory is a map from addresses to words. A load
delivers what was stored last, or else what the memory was made with, whatever accesses have come in
between: to the devices or to other cells, faulting or not.

* `DataUnit.run_load_of_no_fault` and its three companions: an access through the two registers.
* `DataUnit.get_load`, `DataUnit.get_store_of_ne`, `DataUnit.get_store_self`: what one access
  leaves in a cell.
* `Access.get_after`: what a sequence of accesses leaves in a cell beside the window.
* `Access.memory_is_map`: the map, for memories of every shape.
-/

namespace TwoBus

/-! ## Accesses through the registers -/

namespace DataUnit

variable {aw dw : Nat} {unit : DataUnit aw dw} {fault : Fault}

/-- A load looks at its registers once, and then it is the memory's. -/
theorem run_load [Logger] (unit : DataUnit aw dw) :
    load.run unit
      = (((DataMemory.load unit.address.read.toInt).run unit.memory).mapState
          (memoryPart.set unit)).andThen fun content =>
            modify fun unit => { unit with data := unit.data.write content.toInt } := by
  unfold load
  rw [Activity.run_bind, Activity.run_get, Reaction.andThen_ok, Reaction.after_nil,
    Activity.run_bind, Activity.run_focus]
  rfl

theorem run_store [Logger] (unit : DataUnit aw dw) :
    store.run unit
      = ((DataMemory.store unit.address.read.toInt unit.data.read).run unit.memory).mapState
          (memoryPart.set unit) := by
  unfold store
  rw [Activity.run_bind, Activity.run_get, Reaction.andThen_ok, Reaction.after_nil,
    Activity.run_focus]
  rfl

theorem run_load_of_fault [Logger]
    (h : unit.memory.loadFault? unit.address.read.toInt = some fault) :
    load.run unit
      = ⟨.error fault, unit, [.of (some .buses) (.present unit.address.read.toInt)]⟩ := by
  rw [run_load, DataMemory.run_load_of_fault h]
  rfl

theorem run_load_of_no_fault [Logger] (h : unit.memory.loadFault? unit.address.read.toInt = none) :
    load.run unit
      = ⟨.ok (),
          ⟨unit.address, unit.data.write (unit.memory.delivered unit.address.read.toInt).toInt,
            unit.memory.loaded unit.address.read.toInt⟩,
          (unit.memory.loadEvents unit.address.read.toInt).map (Entry.of (some .buses))⟩ := by
  rw [run_load, DataMemory.run_load h, Reaction.mapState_mk, Reaction.andThen_ok,
    Activity.run_modify, Reaction.after_mk, List.append_nil]
  rfl

theorem run_store_of_fault [Logger]
    (h : unit.memory.storeFault? unit.address.read.toInt unit.data.read.toInt = some fault) :
    store.run unit
      = ⟨.error fault, unit,
          (unit.memory.refusedStoreEvents unit.address.read.toInt unit.data.read.toInt).map
            (Entry.of (some .buses))⟩ := by
  rw [run_store, DataMemory.run_store_of_fault h]
  rfl

theorem run_store_of_no_fault [Logger]
    (h : unit.memory.storeFault? unit.address.read.toInt unit.data.read.toInt = none) :
    store.run unit
      = ⟨.ok (),
          { unit with memory := unit.memory.stored unit.address.read.toInt unit.data.read },
          (DataMemory.storeEvents unit.address.read.toInt unit.data.read.toInt).map
            (Entry.of (some .buses))⟩ := by
  rw [run_store, DataMemory.run_store h]
  rfl

/-- A load leaves every cell but the first as it is, and that one too unless it is loaded from. -/
theorem get_load [Logger] (unit : DataUnit aw dw) {a : Nat} (ha : a < twoPow aw)
    (hne : unit.address.read.toInt ≠ a ∨ 0 < a) :
    (load.run unit).state.memory.cells.get a = unit.memory.cells.get a := by
  cases hfault : unit.memory.loadFault? unit.address.read.toInt with
  | some fault => rw [run_load_of_fault hfault]
  | none =>
    rw [run_load_of_no_fault hfault]
    show (unit.memory.loaded _).cells.get a = _
    by_cases hzero : a = 0
    · subst hzero
      have hother : unit.address.read.toInt ≠ 0 := hne.resolve_right (Nat.lt_irrefl 0)
      rw [DataMemory.loaded, if_neg hother]
    · exact unit.memory.get_loaded_of_pos _ (Nat.pos_of_ne_zero hzero) ha

/-- A store leaves every cell but its own as it is. -/
theorem get_store_of_ne [Logger] (unit : DataUnit aw dw) {a : Nat} (ha : a < twoPow aw)
    (hne : unit.address.read.toInt ≠ a) :
    (store.run unit).state.memory.cells.get a = unit.memory.cells.get a := by
  cases hfault : unit.memory.storeFault? unit.address.read.toInt unit.data.read.toInt with
  | some fault => rw [run_store_of_fault hfault]
  | none =>
    rw [run_store_of_no_fault hfault]
    obtain ⟨hpos, hbound, -, -⟩ := DataMemory.address_of_no_storeFault hfault
    exact Bank.get_set_of_ne _ hbound ha (by omega) _

/-- A store beside the window is never refused. -/
theorem get_store_self [Logger] (unit : DataUnit aw dw) {a : Nat} (ha : a < twoPow aw)
    (hwindow : 4 ≤ a) (haddress : unit.address.read.toInt = a) :
    (store.run unit).state.memory.cells.get a = unit.data.read := by
  have hfault : unit.memory.storeFault? unit.address.read.toInt unit.data.read.toInt = none := by
    rw [haddress]
    exact (DataMemory.no_fault_of_cell _ ha hwindow _).2
  rw [run_store_of_no_fault hfault, haddress]
  exact Bank.get_set_self _ _ _

/-- A load beside the window is never refused, and a latching register takes the content of the
cell. -/
theorem load_cell [Logger] (unit : DataUnit aw dw) {a : Nat} (ha : a < twoPow aw) (hwindow : 4 ≤ a)
    (haddress : unit.address.read.toInt = a) (hopen : unit.data.writeOpen = true) :
    (load.run unit).outcome = .ok ()
      ∧ (load.run unit).state.data.word = unit.memory.cells.get a := by
  have hfault : unit.memory.loadFault? unit.address.read.toInt = none := by
    rw [haddress]
    exact (DataMemory.no_fault_of_cell _ ha hwindow 0).1
  have hnonzero : ¬(a : Int) = 0 := by omega
  have hdelivered : unit.memory.delivered a = unit.memory.cells.get a := by
    rw [DataMemory.delivered, if_neg hnonzero]
    rfl
  rw [run_load_of_no_fault hfault, haddress, hdelivered, Register.write_of_open hopen]
  exact ⟨rfl, Word.ofInt_toInt _⟩

end DataUnit

/-! ## Sequences of accesses -/

/-- The two directions of an access. -/
inductive Direction
  | load
  | store
  deriving DecidableEq, Repr

namespace Direction

/-- The gate of the data register that the access goes through. -/
def gate : Direction → Gate
  | load => .write
  | store => .read

def activity {aw dw : Nat} : Direction → Activity (DataUnit aw dw) Unit
  | load => DataUnit.load
  | store => DataUnit.store

end Direction

/-- An access to data memory, with the two registers as they are at the time, and with what has
happened to the devices since the access before it. The address register drives, and the data
register latches what is loaded or drives what is stored. -/
structure Access (aw dw : Nat) where
  direction : Direction
  address : Register aw
  data : Register dw
  devices : IoUnit → IoUnit := id
  address_drives : address.isOpen .read = true
  data_connected : data.isOpen direction.gate = true

namespace Access

variable {aw dw : Nat}

def perform [Logger] (x : Access aw dw) (memory : DataMemory aw dw) : Reaction
    (DataUnit aw dw) Unit :=
  x.direction.activity.run ⟨x.address, x.data, { memory with io := x.devices memory.io }⟩

/-- The memory after some accesses, each of which may have faulted. -/
def after [Logger] (memory : DataMemory aw dw) (accesses : List (Access aw dw)) :
    DataMemory aw dw :=
  accesses.foldl (fun memory x => (x.perform memory).state.memory) memory

/-- What the access stores at an address, if it is a store to that address. -/
def storedAt? (a : Nat) (x : Access aw dw) : Option (Word dw) :=
  if x.direction = .store ∧ x.address.word.toInt = a then some x.data.word else none

/-- The word that was stored last at an address. -/
def lastStored? (a : Nat) (accesses : List (Access aw dw)) : Option (Word dw) :=
  (accesses.filterMap (storedAt? a)).getLast?

theorem lastStored?_cons (a : Nat) (x : Access aw dw) (accesses : List (Access aw dw)) :
    lastStored? a (x :: accesses) = (lastStored? a accesses).or (x.storedAt? a) := by
  unfold lastStored?
  cases hx : x.storedAt? a with
  | none => rw [List.filterMap_cons_none hx, Option.or_none]
  | some v =>
    rw [List.filterMap_cons_some hx, List.getLast?_cons]
    cases (accesses.filterMap (storedAt? a)).getLast? <;> rfl

/-- A driving address register shows what it stores. -/
theorem read_address (x : Access aw dw) : x.address.read = x.address.word :=
  Register.read_of_open x.address_drives

/-- An access leaves the cells at other addresses as they are. -/
theorem get_perform_of_ne [Logger] (x : Access aw dw) (memory : DataMemory aw dw) {a : Nat}
    (ha : a < twoPow aw) (hne : x.address.word.toInt ≠ a) :
    (x.perform memory).state.memory.cells.get a = memory.cells.get a := by
  rw [← x.read_address] at hne
  unfold perform
  cases x.direction with
  | load => exact DataUnit.get_load _ ha (.inl hne)
  | store => exact DataUnit.get_store_of_ne _ ha hne

/-- Beside the window, an access changes a cell only if it stores there. -/
theorem get_perform [Logger] (x : Access aw dw) (memory : DataMemory aw dw) {a : Nat}
    (ha : a < twoPow aw) (hwindow : 4 ≤ a) :
    (x.perform memory).state.memory.cells.get a = (x.storedAt? a).getD (memory.cells.get a) := by
  by_cases haddress : x.address.word.toInt = a
  · have hread : x.address.read.toInt = a := by rwa [x.read_address]
    have hdata := x.data_connected
    unfold perform storedAt?
    cases hdirection : x.direction with
    | load =>
      rw [if_neg (by simp)]
      exact DataUnit.get_load _ ha (.inr (by omega))
    | store =>
      rw [hdirection] at hdata
      rw [if_pos ⟨rfl, haddress⟩, Option.getD_some, ← Register.read_of_open hdata]
      exact DataUnit.get_store_self _ ha hwindow hread
  · rw [x.get_perform_of_ne memory ha haddress, storedAt?, if_neg fun h => haddress h.2]
    rfl

/-- Beside the window, a cell holds what was stored there last, or what it held before. -/
theorem get_after [Logger] (memory : DataMemory aw dw) (accesses : List (Access aw dw)) {a : Nat}
    (ha : a < twoPow aw) (hwindow : 4 ≤ a) :
    (after memory accesses).cells.get a
      = (lastStored? a accesses).getD (memory.cells.get a) := by
  induction accesses generalizing memory with
  | nil => rfl
  | cons x accesses ih =>
    show (after (x.perform memory).state.memory accesses).cells.get a = _
    rw [ih, x.get_perform memory ha hwindow, lastStored?_cons]
    cases lastStored? a accesses <;> rfl

/-- A load beside the window succeeds and leaves the content of its cell in the data register. -/
theorem perform_load [Logger] (x : Access aw dw) (memory : DataMemory aw dw) {a : Nat}
    (hload : x.direction = .load) (haddress : x.address.word.toInt = a) (hwindow : 4 ≤ a) :
    (x.perform memory).outcome = .ok ()
      ∧ (x.perform memory).state.data.word = memory.cells.get a := by
  have ha : a < twoPow aw := by
    have hlt := x.address.word.natAbs_lt
    omega
  have hread : x.address.read.toInt = a := by rwa [x.read_address]
  have hopen := x.data_connected
  rw [hload] at hopen
  unfold perform
  rw [hload]
  exact DataUnit.load_cell _ ha hwindow hread hopen

/-- Beside its window data memory is a map. It is made from values that fit, for any widths and
whatever its devices are. After any accesses through driving registers, in any order, to devices and
to cells, with and without a fault: a load from an address beside the window succeeds and leaves in
the data register what was stored there last, or else the value that the memory was made with,
truncated, or zero past the end of the values; no access changes a cell at another address; and
there is a word of the width of the data at every address of the width of addresses, and at no
other. -/
theorem memory_is_map [Logger] (address data : Width) (haddress : address.bits ≤ 24)
    (values : List Int) (hfits : values.length ≤ twoPow address.bits) (io : IoUnit) :
    ∃ memory, DataMemory.ofData? address data values io = .ok memory
      ∧ ∀ accesses : List (Access address.bits data.bits),
        (∀ (x : Access address.bits data.bits) (a : Nat),
          x.direction = .load → x.address.word.toInt = a → 4 ≤ a →
            (x.perform (after memory accesses)).outcome = .ok ()
              ∧ (x.perform (after memory accesses)).state.data.word
                  = (lastStored? a accesses).getD (.ofInt data.bits (values[a]?.getD 0)))
        ∧ (∀ (x : Access address.bits data.bits) (a : Nat), x.address.word.toInt ≠ a →
            (x.perform (after memory accesses)).state.memory.peek a
              = (after memory accesses).peek a)
        ∧ (∀ a < twoPow address.bits, ∃ v, (after memory accesses).peek a = .ok v
            ∧ v.toInt.natAbs < twoPow data.bits)
        ∧ ∀ a, twoPow address.bits ≤ a →
            (after memory accesses).peek a = .error .peekOutOfBounds := by
  refine ⟨_, DataMemory.ofData?_of_fits haddress data hfits io, ?_⟩
  intro accesses
  refine ⟨?_, ?_, ?_, ?_⟩
  · intro x a hload hx hwindow
    have ha : a < twoPow address.bits := by
      have hlt := x.address.word.natAbs_lt
      omega
    obtain ⟨hok, hword⟩ := x.perform_load (after _ accesses) hload hx hwindow
    refine ⟨hok, ?_⟩
    rw [hword, get_after _ accesses ha hwindow, DataMemory.get_image values ha]
  · intro x a hne
    by_cases ha : a < twoPow address.bits
    · rw [DataMemory.peek_of_lt _ ha, DataMemory.peek_of_lt _ ha, x.get_perform_of_ne _ ha hne]
    · have hend := Nat.le_of_not_lt ha
      rw [DataMemory.peek_of_le _ hend, DataMemory.peek_of_le _ hend]
  · intro a ha
    exact ⟨_, DataMemory.peek_of_lt _ ha, Word.natAbs_lt _⟩
  · intro a ha
    exact DataMemory.peek_of_le _ ha

/-- An access to eight cells of six bits. -/
def narrow (direction : Direction) (address v : Int) : Access 3 6 where
  direction := direction
  address := { word := .ofInt 3 address, readOpen := true }
  data := { word := .ofInt 6 v, readOpen := true, writeOpen := true }
  address_drives := rfl
  data_connected := by cases direction <;> rfl

/-- A store beside the window, a load that is refused, a character for a sink that has failed, an
address that is none, and a load from the input. -/
def disturbed : List (Access 3 6) :=
  [narrow .store 5 (-33), narrow .load 1 0,
    { narrow .store 1 33 with devices := fun io => { io with output := io.output.setSink false } },
    narrow .store (-6) 17, narrow .load 0 0]

/-- What was stored, what the memory was made with, truncated, and what lies past its end. -/
theorem memory_is_map_disturbed :
    letI := Logger.silent
    ∃ memory, DataMemory.ofData? ⟨3, by decide, by decide⟩ ⟨6, by decide, by decide⟩
        [1, 2, 3, 4, 100, 6] {} = .ok memory
      ∧ ((narrow .load 5 0).perform (after memory disturbed)).state.data.word.toInt = -33
      ∧ ((narrow .load 4 0).perform (after memory disturbed)).state.data.word.toInt = 36
      ∧ ((narrow .load 7 0).perform (after memory disturbed)).state.data.word.toInt = 0 := by
  obtain ⟨memory, hmade, hmap⟩ := @memory_is_map .silent ⟨3, by decide, by decide⟩
    ⟨6, by decide, by decide⟩ (by decide) [1, 2, 3, 4, 100, 6] (by decide) {}
  have hload := (hmap disturbed).1
  refine ⟨memory, hmade, ?_, ?_, ?_⟩
  · rw [(hload (narrow .load 5 0) 5 rfl rfl (by decide)).2]
    rfl
  · rw [(hload (narrow .load 4 0) 4 rfl rfl (by decide)).2]
    rfl
  · rw [(hload (narrow .load 7 0) 7 rfl rfl (by decide)).2]
    rfl

end Access

end TwoBus
