import TwoBus.Proofs.Characters
import TwoBus.Proofs.MemoryLaw

/-!
# The history of output

The output device is written through cell one of the data memory. A store there either faults,
emits nothing and leaves the cell as it was, or it emits one character and is kept in the cell. So
what the sink has received is the text of the values that were stored there, and the cell shows the
last of them. The two cells of the window behind it have no device, and nothing is ever stored in
them.

* `DataMemory.outputLaw`: what stores in cell one emit and leave there.
* `Machine.output_is_history`: the sink and the window after every session.
-/

namespace TwoBus

/-! ## Stores in a trace -/

/-- The value that was stored in a cell, if the event is a store there. -/
def Event.storeTo? (cell : Nat) : Event → Option Int
  | .store c v => if c = cell then some v else none
  | _ => none

namespace Trace

/-- The values that were stored in a cell, in order. -/
def storesTo (cell : Nat) (t : Trace) : List Int := t.events.filterMap (Event.storeTo? cell)

@[simp] theorem storesTo_append (cell : Nat) (t u : Trace) :
    storesTo cell (t ++ u) = storesTo cell t ++ storesTo cell u := by
  simp [storesTo]

@[simp] theorem storesTo_map_of [Logger] (cell : Nat) (channel : Option Channel)
    (events : List Event) :
    storesTo cell (events.map (Entry.of channel)) = events.filterMap (Event.storeTo? cell) := by
  rw [storesTo, events_map_of]

theorem storesTo_of_no_traffic {t : Trace} (h : ∀ event ∈ t.events, event.isTraffic = false)
    (cell : Nat) : t.storesTo cell = [] := by
  refine filterMap_of_no_traffic ?_ h
  intro event hother
  cases event with
  | store => exact absurd hother (by simp [Event.isTraffic])
  | _ => rfl

end Trace

/-- The word that is left of one in which values have been stored in turn. -/
def Word.overwritten {w : Nat} (x : Word w) (vs : List Int) : Word w :=
  vs.getLast?.elim x (.ofInt w)

theorem Word.overwritten_append {w : Nat} (x : Word w) (vs vs' : List Int) :
    x.overwritten (vs ++ vs') = (x.overwritten vs).overwritten vs' := by
  unfold overwritten
  rw [List.getLast?_append]
  cases vs'.getLast? <;> rfl

namespace DataMemory

/-! ## Accesses -/

theorem stores_loadEvents (memory : DataMemory 16 16) (cell : Nat) (address : Int) :
    (memory.loadEvents address).filterMap (Event.storeTo? cell) = [] := by
  unfold loadEvents
  split <;> rfl

theorem stores_offerEvents (cell : Nat) (address v : Int) :
    (offerEvents address v).filterMap (Event.storeTo? cell) = [] := by
  unfold offerEvents
  split <;> rfl

theorem stores_refusedStoreEvents (memory : DataMemory 16 16) (cell : Nat) (address v : Int) :
    (memory.refusedStoreEvents address v).filterMap (Event.storeTo? cell) = [] := by
  unfold refusedStoreEvents
  split
  · exact stores_offerEvents cell address v
  · rfl

/-- A store records itself, once. -/
theorem stores_storeEvents (cell : Nat) (address v : Int) :
    (storeEvents address v).filterMap (Event.storeTo? cell)
      = if address.toNat = cell then [v] else [] := by
  rw [storeEvents, List.filterMap_append, stores_offerEvents, List.nil_append]
  by_cases hcell : address.toNat = cell <;> simp [hcell, Event.storeTo?]

/-- What is stored in cell one is a character, and the device emits it. -/
theorem stored_one_of_no_storeFault {memory : DataMemory 16 16} {content : Word 16}
    (h : memory.storeFault? 1 content.toInt = none) :
    ∃ c : Char, content.toInt = c.toNat
      ∧ (memory.stored 1 content).io.output = memory.io.output.take (String.utf8EncodeChar c)
      ∧ (memory.stored 1 content).cells.get 1 = content := by
  have hrefusal : memory.io.output.refusal? content.toInt = none := by
    unfold storeFault? at h
    rw [Option.or_eq_none_iff, if_pos rfl] at h
    exact h.2
  obtain ⟨c, hc, -, hput⟩ :=
    OutputDevice.put_eq_ok_iff.mp (OutputDevice.put_of_no_refusal hrefusal)
  refine ⟨c, Text.character?_eq_some_iff.mp hc, ?_, Bank.get_set_self _ _ _⟩
  rw [stored, if_pos rfl]
  exact hput

/-! ## The law of the output -/

/-- What was stored in cell one are the code points of a text. The sink has received that text after
what it had before, the cell shows the last code point, and nothing has been stored in the cells
without a device. -/
structure Emits (memory : DataMemory 16 16) (t : Trace) (memory' : DataMemory 16 16) : Prop where
  emitted : ∃ cs : List Char, t.storesTo 1 = OutputDevice.codePoints cs
    ∧ memory'.io.output.received = memory.io.output.received ++ Text.encode cs
  shown : memory'.cells.get 1 = (memory.cells.get 1).overwritten (t.storesTo 1)
  reserved : ∀ cell, cell = 2 ∨ cell = 3 →
    t.storesTo cell = [] ∧ memory'.cells.get cell = memory.cells.get cell

theorem emits_of_no_store {memory memory' : DataMemory 16 16} {t : Trace}
    (hnone : ∀ cell, cell = 1 ∨ cell = 2 ∨ cell = 3 →
      t.storesTo cell = [] ∧ memory'.cells.get cell = memory.cells.get cell)
    (houtput : memory'.io.output.received = memory.io.output.received) :
    memory.Emits t memory' where
  emitted := ⟨[], (hnone 1 (.inl rfl)).1, by rw [houtput]; exact (List.append_nil _).symm⟩
  shown := by
    rw [(hnone 1 (.inl rfl)).1, (hnone 1 (.inl rfl)).2]
    rfl
  reserved cell hcell := hnone cell (.inr hcell)

/-- The law that this holds, whatever is done. -/
def outputLaw : Law (DataMemory 16 16) where
  Holds := Emits
  refl memory := emits_of_no_store (fun _ _ => ⟨rfl, rfl⟩) rfl
  trans {memory memory' memory'' t t'} h h' := by
    obtain ⟨cs, hstores, hreceived⟩ := h.emitted
    obtain ⟨cs', hstores', hreceived'⟩ := h'.emitted
    refine ⟨⟨cs ++ cs', ?_, ?_⟩, ?_, ?_⟩
    · rw [Trace.storesTo_append, hstores, hstores', OutputDevice.codePoints,
        OutputDevice.codePoints, OutputDevice.codePoints, List.map_append]
    · rw [hreceived', hreceived, Text.encode, Text.encode, Text.encode, List.flatMap_append,
        List.append_assoc]
    · rw [h'.shown, h.shown, Trace.storesTo_append, Word.overwritten_append]
    · intro cell hcell
      obtain ⟨hnone, hsame⟩ := h.reserved cell hcell
      obtain ⟨hnone', hsame'⟩ := h'.reserved cell hcell
      rw [Trace.storesTo_append, hnone, hnone', hsame', hsame]
      exact ⟨rfl, rfl⟩

theorem outputLaw_ignoresLog : outputLaw.IgnoresLog := fun _ _ hevents =>
  emits_of_no_store (fun cell _ => ⟨Trace.storesTo_of_no_traffic hevents cell, rfl⟩) rfl

theorem outputLaw_load [Logger] (address : Int) : outputLaw.Obeyed (load address) := by
  intro memory
  cases hfault : memory.loadFault? address with
  | some fault =>
    rw [run_load_of_fault hfault]
    exact emits_of_no_store (fun _ _ => ⟨rfl, rfl⟩) rfl
  | none =>
    rw [run_load hfault]
    refine emits_of_no_store ?_ (congrArg _ (memory.output_loaded address))
    intro cell hcell
    constructor
    · rw [Trace.storesTo_map_of, stores_loadEvents]
    · -- a load changes at most cell zero
      have hsize : 3 < twoPow 16 := by decide
      exact memory.get_loaded_of_pos address (by omega) (by omega)

/-- A store that does not fault has an effect on the device or the window only in cell one. -/
theorem emits_stored [Logger] {memory : DataMemory 16 16} {address : Int} {content : Word 16}
    (h : memory.storeFault? address content.toInt = none) :
    memory.Emits ((storeEvents address content.toInt).map (Entry.of (some .buses)))
      (memory.stored address content) := by
  obtain ⟨hpos, hbound, htwo, hthree⟩ := address_of_no_storeFault h
  have hsize : 3 < twoPow 16 := by decide
  have hother : ∀ cell, cell ≠ address.toNat → cell < twoPow 16 →
      Trace.storesTo cell ((storeEvents address content.toInt).map (Entry.of (some .buses))) = []
        ∧ (memory.stored address content).cells.get cell = memory.cells.get cell := by
    intro cell hne hcell
    refine ⟨?_, Bank.get_set_of_ne _ hbound hcell (Ne.symm hne) _⟩
    rw [Trace.storesTo_map_of, stores_storeEvents, if_neg (Ne.symm hne)]
  by_cases hone : address = 1
  · subst hone
    obtain ⟨c, hc, houtput, hcell⟩ := stored_one_of_no_storeFault h
    have hstores : Trace.storesTo 1
        ((storeEvents 1 content.toInt).map (Entry.of (some .buses))) = [content.toInt] := by
      rw [Trace.storesTo_map_of, stores_storeEvents]
      rfl
    refine ⟨⟨[c], ?_, ?_⟩, ?_, fun cell hreserved => hother cell (by omega) (by omega)⟩
    · rw [hstores, hc]
      rfl
    · rw [houtput, OutputDevice.received_take, Text.encode, List.flatMap_singleton]
    · rw [hcell, hstores]
      exact (Word.ofInt_toInt content).symm
  · refine emits_of_no_store (fun cell hcell => hother cell (by omega) (by omega)) ?_
    rw [stored, if_neg hone]

theorem outputLaw_store [Logger] (address : Int) (content : Word 16) :
    outputLaw.Obeyed (store address content) := by
  intro memory
  cases hfault : memory.storeFault? address content.toInt with
  | some fault =>
    rw [run_store_of_fault hfault]
    refine emits_of_no_store (fun cell _ => ⟨?_, rfl⟩) rfl
    rw [Trace.storesTo_map_of, stores_refusedStoreEvents]
  | none =>
    rw [run_store hfault]
    exact emits_stored hfault

end DataMemory

namespace Processor

/-- A store that faults leaves the memory as it was, and is none in the trace. -/
theorem store_of_fault [Logger] {p p' : Processor} {t : Trace} {fault : Fault}
    (h : (perform .store).run p = ⟨.error fault, p', t⟩) :
    p'.memory = p.memory ∧ ∀ cell, t.storesTo cell = [] := by
  cases hfault : p.memory.storeFault? p.registers.ar.word.toInt p.registers.dr.word.toInt with
  | none =>
    obtain ⟨_, hperform, -⟩ := run_perform_store (DataMemory.run_store hfault)
    rw [hperform] at h
    exact absurd (congrArg Reaction.outcome h) (by simp)
  | some cause =>
    obtain ⟨_, hperform, hmemory⟩ := run_perform_store (DataMemory.run_store_of_fault hfault)
    rw [hperform] at h
    obtain ⟨-, rfl, rfl⟩ := Reaction.mk.inj h
    refine ⟨hmemory, fun cell => ?_⟩
    rw [Trace.storesTo_map_of, DataMemory.stores_refusedStoreEvents]

/-- A store in cell one that does not fault is one in the trace, emits the character that was
stored, and is kept in the cell. -/
theorem store_one [Logger] {p p' : Processor} {t : Trace} (hone : p.registers.ar.word.toInt = 1)
    (h : (perform .store).run p = ⟨.ok (), p', t⟩) :
    ∃ c : Char, p.registers.dr.word.toInt = c.toNat ∧ t.storesTo 1 = [(c.toNat : Int)]
      ∧ p'.memory.io.output.received
          = p.memory.io.output.received ++ String.utf8EncodeChar c
      ∧ p'.memory.cells.get 1 = p.registers.dr.word := by
  cases hfault : p.memory.storeFault? p.registers.ar.word.toInt p.registers.dr.word.toInt with
  | some cause =>
    obtain ⟨_, hperform, -⟩ := run_perform_store (DataMemory.run_store_of_fault hfault)
    rw [hperform] at h
    exact absurd (congrArg Reaction.outcome h) (by simp)
  | none =>
    obtain ⟨_, hperform, hmemory⟩ := run_perform_store (DataMemory.run_store hfault)
    rw [hperform, hone] at h
    obtain ⟨-, rfl, rfl⟩ := Reaction.mk.inj h
    rw [hone] at hfault hmemory
    obtain ⟨c, hc, houtput, hcell⟩ := DataMemory.stored_one_of_no_storeFault hfault
    refine ⟨c, hc, ?_, ?_, ?_⟩
    · rw [Trace.storesTo_map_of, DataMemory.stores_storeEvents, hc]
      rfl
    · rw [hmemory, houtput, OutputDevice.received_take]
    · rw [hmemory, hcell]

end Processor

namespace Machine

/-- To let the sink fail, or to mend it. -/
def Operation.setsSink : Operation → Bool
  | .setSink _ => true
  | _ => false

/-- What the sink has received stays as it is when it fails or is mended. -/
theorem obeyed_setSink [Logger] (good : Bool) :
    (DataMemory.outputLaw.via fun m : Machine => m.processor.memory).Obeyed
      (Operation.setSink good).perform :=
  fun _ => DataMemory.emits_of_no_store (fun _ _ => ⟨rfl, rfl⟩) rfl

theorem obeyed_outputLaw [Logger] {op : Operation} (hop : op.executes = true ∨ op.setsSink = true) :
    (DataMemory.outputLaw.via fun m : Machine => m.processor.memory).Obeyed op.perform := by
  rcases hop with hop | hop
  · exact Operation.obeyed_memory_executing DataMemory.outputLaw_ignoresLog
      DataMemory.outputLaw_load DataMemory.outputLaw_store hop
  · cases op with
    | setSink good => exact obeyed_setSink good
    | _ => exact absurd hop (by simp [Operation.setsSink])

/-- What a machine has emitted, and what the window shows, is what was stored there since it was
built from an image. -/
structure ShowsHistory (image : Image) (t : Trace) (m : Machine) : Prop where
  /-- The values stored in cell one are the code points of the text that the sink has received. -/
  received : ∃ cs : List Char, t.storesTo 1 = OutputDevice.codePoints cs
    ∧ m.processor.memory.io.output.received = Text.encode cs
  wellFormed : Text.IsWellFormed m.processor.memory.io.output.received
  /-- Cell one holds the last of them, or else what the image placed there. -/
  shown : m.processor.memory.cells.get 1
    = (Word.ofInt 16 (image.data[1]?.getD 0)).overwritten (t.storesTo 1)
  /-- The cells without a device hold what the image placed there. -/
  reserved : ∀ cell, cell = 2 ∨ cell = 3 →
    m.processor.memory.cells.get cell = .ofInt 16 (image.data[cell]?.getD 0)

/-- A cell starts with what the image places there, truncated. -/
theorem cell_of_boot {image : Image} {source : Option (List UInt8)} {m : Machine}
    (h : boot image source = .ok m) {cell : Nat} (hcell : cell < twoPow 16) :
    m.processor.memory.cells.get cell = .ofInt 16 (image.data[cell]?.getD 0) := by
  obtain ⟨input, -, hmemory⟩ := memory_of_boot h
  rw [hmemory]
  exact DataMemory.get_image image.data hcell

/-- In a session that steps and runs a machine, and in which the sink may fail and be mended at any
time, the sink receives the text of the values that are stored in cell one, and cell one shows the
last of them. A store that faults is none of them and changes nothing, and one that does not fault
is one of them. -/
theorem output_is_history [Logger] {image : Image} {source : Option (List UInt8)} {m : Machine}
    {ops : List Operation} (hboot : boot image source = .ok m)
    (hops : ∀ op ∈ ops, op.executes = true ∨ op.setsSink = true) :
    ShowsHistory image ((session ops).run m).trace ((session ops).run m).state
      ∧ (∀ (p p' : Processor) (t : Trace) (fault : Fault),
          (Processor.perform .store).run p = ⟨.error fault, p', t⟩ →
          p'.memory = p.memory ∧ ∀ cell, t.storesTo cell = [])
      ∧ ∀ (p p' : Processor) (t : Trace), p.registers.ar.word.toInt = 1 →
          (Processor.perform .store).run p = ⟨.ok (), p', t⟩ →
          ∃ c : Char, p.registers.dr.word.toInt = c.toNat ∧ t.storesTo 1 = [(c.toNat : Int)]
            ∧ p'.memory.io.output.received
                = p.memory.io.output.received ++ String.utf8EncodeChar c
            ∧ p'.memory.cells.get 1 = p.registers.dr.word := by
  refine ⟨?_, fun _ _ _ _ => Processor.store_of_fault, fun _ _ _ => Processor.store_one⟩
  have hsession := obeyed_session (fun op hop => obeyed_outputLaw (hops op hop)) m
  have hsize : 3 < twoPow 16 := by decide
  -- the sink starts with nothing
  have hreceived : ∃ cs : List Char,
      Trace.storesTo 1 ((session ops).run m).trace = OutputDevice.codePoints cs
        ∧ ((session ops).run m).state.processor.memory.io.output.received = Text.encode cs := by
    obtain ⟨cs, hstores, hreceived⟩ := hsession.emitted
    obtain ⟨input, -, hmemory⟩ := memory_of_boot hboot
    have hempty : m.processor.memory.io.output.received = [] :=
      congrArg (·.io.output.received) hmemory
    rw [hempty, List.nil_append] at hreceived
    exact ⟨cs, hstores, hreceived⟩
  refine ⟨hreceived, ?_, ?_, ?_⟩
  · obtain ⟨cs, -, htext⟩ := hreceived
    exact Text.isWellFormed_iff_encoded.mpr ⟨cs, htext⟩
  · rw [← cell_of_boot hboot (show 1 < twoPow 16 by decide)]
    exact hsession.shown
  · intro cell hcell
    rw [← cell_of_boot hboot (by omega)]
    exact (hsession.reserved cell hcell).2

/-- A program that emits the euro sign twice, over an image that fills the window. -/
def repeating : Image where
  data := [7, 70000, -3, 99999, 0x20AC]
  program := [some { operation := "LD", mode := some "const", data := some 4 },
    some { operation := "SV", mode := some "const", data := some 1 },
    some { operation := "SV", mode := some "const", data := some 1 }]

/-- The sink has failed when the second sign is first emitted. -/
def interrupted : List Operation :=
  [.run 2, .setSink false, .step, .setSink true, .processorStep]

/-- The sign has been emitted twice, and stored as often. -/
theorem output_is_history_repeating :
    letI := Logger.silent
    ∃ m, boot repeating (some []) = .ok m
      ∧ ((session interrupted).run m).trace.storesTo 1 = [0x20AC, 0x20AC]
      ∧ ((session interrupted).run m).state.processor.memory.io.output.received
          = [0xE2, 0x82, 0xAC, 0xE2, 0x82, 0xAC]
      ∧ ShowsHistory repeating ((session interrupted).run m).trace
          ((session interrupted).run m).state :=
  ⟨_, rfl, rfl, rfl,
    (@output_is_history .silent repeating (some []) _ interrupted rfl (by decide)).1⟩

end Machine

end TwoBus
