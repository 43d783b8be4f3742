import TwoBus.Proofs.InputText
import TwoBus.Proofs.MemoryLaw
import TwoBus.Proofs.Running

/-!
# Delivery of input

The input device is read through cell zero of the data memory. Each load from there takes the next
character, and nothing else does. So the history of these loads, which can be read off a trace,
tells how far the input has been read and what the next load delivers.

* `InputDevice.HandsOut`: some values are handed out in order, and the rest is left.
* `DataMemory.inputLaw`: what loads from cell zero have delivered was handed out.
* `Machine.delivered_in_order`: every load of every session, and the loads that come next.
-/

namespace TwoBus

namespace InputDevice

/-- The character of a number, counted from zero, and zeros after the last. -/
def character (d : InputDevice) (k : Nat) : Word 16 := d.pending[k]?.getD 0

/-- Some values are handed out one after the other, and the rest is left. -/
structure HandsOut (d : InputDevice) (vs : List Int) (d' : InputDevice) : Prop where
  value : ∀ k v, vs[k]? = some v → v = (d.character k).toInt
  left : d'.pending = d.pending.drop vs.length

variable {d d' d'' : InputDevice} {vs vs' : List Int}

theorem HandsOut.character (h : d.HandsOut vs d') (k : Nat) :
    d'.character k = d.character (vs.length + k) := by
  rw [InputDevice.character, h.left, List.getElem?_drop, InputDevice.character]

theorem HandsOut.remaining (h : d.HandsOut vs d') :
    d'.remaining = d.remaining - min d.remaining vs.length := by
  rw [InputDevice.remaining, h.left, List.length_drop, InputDevice.remaining]
  omega

/-- What is handed out are the characters in order, and zeros after the last. -/
theorem HandsOut.eq_take (h : d.HandsOut vs d') :
    vs = (d.pending.map Word.toInt).take vs.length
      ++ List.replicate (vs.length - d.remaining) 0 := by
  have hlength : vs.length = ((d.pending.map Word.toInt).take vs.length
      ++ List.replicate (vs.length - d.remaining) 0).length := by
    rw [List.length_append, List.length_take, List.length_map, List.length_replicate,
      InputDevice.remaining]
    omega
  refine List.ext_getElem hlength fun k hk _ => ?_
  have hvalue := h.value k vs[k] (List.getElem?_eq_getElem hk)
  rw [hvalue, InputDevice.character, List.getElem_append]
  split
  · next hpending =>
    rw [List.length_take, List.length_map] at hpending
    rw [List.getElem_take, List.getElem_map, List.getElem?_eq_getElem (by omega)]
    rfl
  · next hpast =>
    rw [List.length_take, List.length_map] at hpast
    rw [List.getElem_replicate, List.getElem?_eq_none (by omega)]
    rfl

theorem handsOut_nil (d : InputDevice) : d.HandsOut [] d where
  value _ _ h := absurd h (by simp)
  left := rfl

theorem HandsOut.append (h : d.HandsOut vs d') (h' : d'.HandsOut vs' d'') :
    d.HandsOut (vs ++ vs') d'' where
  value k v hv := by
    rcases Nat.lt_or_ge k vs.length with hk | hk
    · rw [List.getElem?_append_left hk] at hv
      exact h.value k v hv
    · rw [List.getElem?_append_right hk] at hv
      have hlater := h'.value (k - vs.length) v hv
      rwa [h.character, Nat.add_sub_cancel' hk] at hlater
  left := by rw [h'.left, h.left, List.drop_drop, List.length_append]

/-- A read hands out one value. -/
theorem handsOut_next (d : InputDevice) : d.HandsOut [d.next.toInt] d.advance where
  value k v hv := by
    cases k with
    | zero =>
      obtain rfl := Option.some.inj hv
      rw [next, character, List.headD_eq_head?_getD, List.head?_eq_getElem?]
    | succ k => exact absurd hv (by simp)
  left := List.drop_one.symm

end InputDevice

/-! ## The law of the input -/

namespace DataMemory

/-- Nothing has been loaded from cell zero, and nothing has been read. -/
structure Unread (memory : DataMemory 16 16) (t : Trace) (memory' : DataMemory 16 16) : Prop where
  loads : t.loadsFrom 0 = []
  input : memory'.io.input = memory.io.input

/-- What loads from cell zero have delivered was handed out by the input device, and no more
was. -/
def inputLaw : Law (DataMemory 16 16) where
  Holds memory t memory' := memory.io.input.HandsOut (t.loadsFrom 0) memory'.io.input
  refl memory := memory.io.input.handsOut_nil
  trans h h' := by
    rw [Trace.loadsFrom_append]
    exact h.append h'

theorem Unread.inputLaw {memory memory' : DataMemory 16 16} {t : Trace}
    (h : memory.Unread t memory') : inputLaw.Holds memory t memory' := by
  show memory.io.input.HandsOut (t.loadsFrom 0) memory'.io.input
  rw [h.loads, h.input]
  exact memory.io.input.handsOut_nil

theorem unread_of_no_traffic (memory : DataMemory 16 16) {t : Trace}
    (h : ∀ event ∈ t.events, event.isTraffic = false) : memory.Unread t memory :=
  ⟨Trace.loadsFrom_of_no_traffic h 0, rfl⟩

/-! ### Loads from cell zero -/

theorem delivered_zero (memory : DataMemory 16 16) :
    memory.delivered 0 = memory.io.input.next := by
  rw [delivered, if_pos rfl, Word.ofInt_toInt, InputDevice.next]

/-- A load from cell zero succeeds, whatever is left of the input. -/
theorem run_load_zero [Logger] (memory : DataMemory 16 16) :
    (load 0).run memory = ⟨.ok memory.io.input.next, memory.loaded 0,
      (memory.loadEvents 0).map (Entry.of (some .buses))⟩ := by
  have hnone : memory.loadFault? 0 = none := memory.loadFault?_word 0
  rw [run_load hnone, delivered_zero]

theorem loadsFrom_loadEvents_zero [Logger] (memory : DataMemory 16 16) :
    Trace.loadsFrom 0 ((memory.loadEvents 0).map (Entry.of (some .buses)))
      = [memory.io.input.next.toInt] := by
  rw [Trace.loadsFrom_map_of, loads_loadEvents, if_pos Int.toNat_zero, delivered_zero]

theorem get_loaded_zero (memory : DataMemory 16 16) :
    (memory.loaded 0).cells.get 0 = memory.io.input.next := by
  rw [loaded, if_pos rfl, Bank.get_set_self, delivered_zero]

/-! ### Other accesses -/

/-- A load from any other address reads nothing, whether or not it faults. -/
theorem unread_load [Logger] {address : Int} (h : address ≠ 0) (memory : DataMemory 16 16) :
    memory.Unread ((load address).run memory).trace ((load address).run memory).state := by
  cases hfault : memory.loadFault? address with
  | some fault =>
    rw [run_load_of_fault hfault]
    exact ⟨rfl, rfl⟩
  | none =>
    have hpos := nonneg_of_no_loadFault hfault
    rw [run_load hfault]
    constructor
    · rw [Trace.loadsFrom_map_of, loads_loadEvents, if_neg (by omega)]
    · rw [loaded, if_neg h]

/-- A store reads nothing, wherever it goes and whether or not it faults. -/
theorem unread_store [Logger] (address : Int) (content : Word 16) (memory : DataMemory 16 16) :
    memory.Unread ((store address content).run memory).trace
      ((store address content).run memory).state := by
  cases hfault : memory.storeFault? address content.toInt with
  | some fault =>
    rw [run_store_of_fault hfault]
    constructor
    · rw [Trace.loadsFrom_map_of, loads_refusedStoreEvents]
    · rfl
  | none =>
    rw [run_store hfault]
    constructor
    · rw [Trace.loadsFrom_map_of, storeEvents, List.filterMap_append, loads_offerEvents]
      rfl
    · unfold stored
      split <;> rfl

/-! ### The law -/

theorem inputLaw_load [Logger] (address : Int) : inputLaw.Obeyed (load address) := by
  intro memory
  by_cases hzero : address = 0
  · subst hzero
    rw [run_load_zero]
    show memory.io.input.HandsOut _ memory.io.input.advance
    rw [loadsFrom_loadEvents_zero]
    exact memory.io.input.handsOut_next
  · exact (unread_load hzero memory).inputLaw

theorem inputLaw_store [Logger] (address : Int) (content : Word 16) :
    inputLaw.Obeyed (store address content) :=
  fun memory => (unread_store address content memory).inputLaw

theorem inputLaw_ignoresLog : inputLaw.IgnoresLog :=
  fun memory _ hevents => (memory.unread_of_no_traffic hevents).inputLaw

end DataMemory

namespace Processor

theorem admits_inputLaw [Logger] : Admits (DataMemory.inputLaw.via Processor.memory) :=
  admits_via_memory DataMemory.inputLaw_ignoresLog DataMemory.inputLaw_load
    DataMemory.inputLaw_store

/-- A load from cell zero delivers the next character there and into the data register. -/
theorem run_perform_load_zero [Logger] {p : Processor} (hzero : p.registers.ar.word = 0) :
    ∃ p' t, (perform .load).run p = ⟨.ok (), p', t⟩
      ∧ t.loadsFrom 0 = [p.memory.io.input.next.toInt]
      ∧ p'.memory.cells.get 0 = p.memory.io.input.next
      ∧ p'.registers.dr.word = p.memory.io.input.next := by
  have hload := p.memory.run_load_zero
  have haddress : p.registers.ar.word.toInt = 0 := congrArg Word.toInt hzero
  rw [← haddress] at hload
  obtain ⟨p', hperform, hmemory, hdata⟩ := run_perform_load hload
  rw [haddress] at hperform hmemory
  refine ⟨p', _, hperform, p.memory.loadsFrom_loadEvents_zero, ?_, hdata _ rfl⟩
  rw [hmemory, p.memory.get_loaded_zero]

/-- No action but a load from cell zero reads anything, whether or not it faults. -/
theorem unread_perform [Logger] {op : Microop} {p : Processor}
    (h : ¬(op = .load ∧ p.registers.ar.word = 0)) :
    p.memory.Unread ((perform op).run p).trace ((perform op).run p).state.memory := by
  by_cases hload : op = .load
  · subst hload
    have hne : p.registers.ar.word.toInt ≠ 0 := fun hzero => h ⟨rfl, Word.ext hzero⟩
    obtain ⟨p', hperform, hmemory, -⟩ := run_perform_load (p := p) rfl
    rw [hperform, hmemory]
    exact DataMemory.unread_load hne p.memory
  · by_cases hstore : op = .store
    · subst hstore
      obtain ⟨p', hperform, hmemory⟩ := run_perform_store (p := p) rfl
      rw [hperform, hmemory]
      exact DataMemory.unread_store _ _ p.memory
    · obtain ⟨hsame, hquiet⟩ := untouched_perform hload hstore p
      exact ⟨Trace.loadsFrom_of_no_traffic hquiet 0, congrArg (·.io.input) hsame⟩

end Processor

namespace Machine

/-- What a session has loaded from cell zero, and what it will load next, is what an input device
holds. As a session can end after any operation, and a run after any of its steps, the last part is
about every load there is. -/
structure Follows [Logger] (d : InputDevice) (r : Reaction Machine Unit) : Prop where
  /-- Every load so far has delivered the character of its number. -/
  delivered : ∀ k v, (r.trace.loadsFrom 0)[k]? = some v → v = (d.character k).toInt
  /-- As many characters have been read as there were loads, as long as there were any. -/
  remaining : r.state.processor.memory.io.input.remaining
    = d.remaining - min d.remaining (r.trace.loadsFrom 0).length
  /-- If the next step comes to a load from cell zero, that load succeeds, and it delivers the
  character of its number into the cell and into the data register. -/
  next : ∀ (n : Nat) (p : Processor) (rest : Microprogram) (t : Trace),
    (Processor.stepUpTo n).run r.state.processor = ⟨.ok (.load :: rest), p, t⟩ →
    p.registers.ar.word = 0 →
    ∃ p' t' k, (Processor.perform .load).run p = ⟨.ok (), p', t'⟩
      ∧ k = (r.trace.loadsFrom 0).length + (t.loadsFrom 0).length
      ∧ t'.loadsFrom 0 = [(d.character k).toInt]
      ∧ p'.memory.cells.get 0 = d.character k
      ∧ p'.registers.dr.word = d.character k

theorem follows_of_handsOut [Logger] {d : InputDevice} {r : Reaction Machine Unit}
    (h : d.HandsOut (r.trace.loadsFrom 0) r.state.processor.memory.io.input) :
    Follows d r where
  delivered := h.value
  remaining := h.remaining
  next n p rest t hupTo hzero := by
    have hmore := Processor.admits_inputLaw.obeyed_stepUpTo n r.state.processor
    rw [hupTo] at hmore
    have hall := h.append hmore
    have hnext : p.memory.io.input.next
        = d.character ((r.trace.loadsFrom 0).length + (t.loadsFrom 0).length) := by
      have hfirst := hall.character 0
      rw [List.length_append, Nat.add_zero] at hfirst
      rw [← hfirst, InputDevice.next, InputDevice.character, List.headD_eq_head?_getD,
        List.head?_eq_getElem?]
    obtain ⟨p', t', hperform, hloads, hcell, hdata⟩ := Processor.run_perform_load_zero hzero
    rw [hnext] at hloads hcell hdata
    exact ⟨p', t', _, hperform, rfl, hloads, hcell, hdata⟩

/-- In a session that steps and runs a machine, each load from cell zero delivers the character of
its number, and zero after the last one, into the cell and into the data register. What is left of
the input is what these loads have not taken: no other action reads anything, whether or not it
faults, nor does what is done after the program has ended. -/
theorem delivered_in_order [Logger] {image : Image} {bytes : List UInt8} {codes : List Nat}
    {m : Machine} {ops : List Operation} (hboot : boot image (some bytes) = .ok m)
    (hcodes : Text.decode bytes = .ok codes) (hops : ∀ op ∈ ops, op.executes = true) :
    Follows ⟨codes.map fun c : Nat => .ofInt 16 c⟩ ((session ops).run m)
      ∧ (∀ (op : Microop) (p : Processor), ¬(op = .load ∧ p.registers.ar.word = 0) →
          p.memory.Unread ((Processor.perform op).run p).trace
            ((Processor.perform op).run p).state.memory)
      ∧ (((session ops).run m).state.processor.phase = .halted →
          ∀ ops' : List Operation, (∀ op ∈ ops', op.executes = true) →
            ((session ops').run ((session ops).run m).state).state.processor.memory.io.input
              = ((session ops).run m).state.processor.memory.io.input) := by
  refine ⟨?_, fun op p => Processor.unread_perform, ?_⟩
  · -- the device starts with all characters, and the session obeys the law of the input
    obtain ⟨input, hinput, hmemory⟩ := memory_of_boot hboot
    rw [InputDevice.ofSource?_of_decode hcodes] at hinput
    obtain rfl := Except.ok.inj hinput
    have hsession := obeyed_session (fun op hop => Operation.obeyed_memory_executing
      DataMemory.inputLaw_ignoresLog DataMemory.inputLaw_load DataMemory.inputLaw_store
      (hops op hop)) m
    have hstart : m.processor.memory.io.input = ⟨codes.map fun c : Nat => .ofInt 16 c⟩ :=
      congrArg (·.io.input) hmemory
    rw [← hstart]
    exact follows_of_handsOut hsession
  · intro hhalted ops' hops'
    rw [session_of_halted hops' hhalted]

/-- A program of one instruction, which loads an address from cell zero, and then loads from
there. -/
def rereading : Image where
  program := [some { operation := "LD", mode := some "abs", data := some 0 }]

/-- The address is the first character, a zero, so that the second character is loaded as well. The
step comes to its first load with its second action. -/
theorem delivered_in_order_rereading :
    letI := Logger.silent
    ∃ m, boot rereading (some [0x00, 0x41]) = .ok m
      ∧ (∃ rest p t, (Processor.stepUpTo 1).run m.processor = ⟨.ok (.load :: rest), p, t⟩
          ∧ p.registers.ar.word = 0)
      ∧ ((session [.step]).run m).trace.loadsFrom 0 = [0, 0x41]
      ∧ Follows ⟨[.ofInt 16 0, .ofInt 16 0x41]⟩ ((session [.step]).run m) := by
  have hcodes : Text.decode [0x00, 0x41] = .ok [0, 0x41] := rfl
  have hops : ∀ op ∈ [Operation.step], op.executes = true := by decide
  exact ⟨_, rfl, ⟨_, _, _, rfl, rfl⟩, rfl,
    (@delivered_in_order .silent rereading _ _ _ _ rfl hcodes hops).1⟩

end Machine

end TwoBus
