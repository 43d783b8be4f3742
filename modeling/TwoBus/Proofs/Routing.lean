import Mathlib.Data.List.Basic
import TwoBus.Device.Rack
import TwoBus.Proofs.InputDelivery

/-!
# Routing

A window is asked in any order to take one more device, or to read or write at a slot, and a call
that faults does not end the series. Registrations only ever add to the wiring, so a slot belongs
for good to the device that was registered for it, and the wiring at any time can be told from the
calls and their answers (`wiring`). An access changes the device of its slot and no other; a device
does not notice through which of its slots it is asked, or what the others are asked in between.

* `slots_after`: the wiring is made of the registrations that succeeded.
* `doneBy_read`, `doneBy_write`: an access to a wired slot is its device's own affair.
* `exists_handsOut`: what is read from an input device, by induction over the calls.
* `slots_route`: all of it, after any calls to a window with nothing wired.
-/

namespace TwoBus

namespace Window

variable {δ σ : Type} {window : Window δ} {slot : Nat} {device : δ}

theorem route_of_le (h : window.slots.length ≤ slot) :
    window.route slot = .error (.unbackedSlot slot) := by
  rw [route, List.getElem?_eq_none h]

/-- A device that is read through the window answers as it does by itself. -/
theorem run_read_of_route [Logger] (h : window.slots[slot]? = some device)
    (readDevice : δ → Activity σ (Word 16)) (s : σ) :
    ((window.read readDevice slot).run s).outcome = ((readDevice device).run s).outcome
      ∧ ((window.read readDevice slot).run s).state = ((readDevice device).run s).state := by
  unfold Window.read
  rw [Activity.run_bind, Activity.run_lift, route_eq_ok_iff.mpr h, Reaction.andThen_ok,
    Reaction.after_nil, Activity.run_bind]
  obtain ⟨outcome, state, trace⟩ := (readDevice device).run s
  cases outcome <;> simp

theorem run_write_of_route [Logger] (h : window.slots[slot]? = some device)
    (writeDevice : δ → Int → Activity σ Unit) (v : Int) (s : σ) :
    ((window.write writeDevice slot v).run s).outcome = ((writeDevice device v).run s).outcome
      ∧ ((window.write writeDevice slot v).run s).state = ((writeDevice device v).run s).state := by
  unfold Window.write
  simp [route_eq_ok_iff.mpr h]

end Window

namespace Rack

variable {n : Nat}

/-! ## One call -/

/-- A call to the window of a rack. -/
inductive Call (n : Nat)
  | register (i : Fin n)
  | read (slot : Nat)
  | write (slot : Nat) (v : Int)
  deriving DecidableEq, Repr

/-- A call is answered with a word if it reads. -/
def Call.perform : Call n → Activity (Rack n) (Option (Word 16))
  | register i => do
    Rack.register i
    return none
  | read slot => do
    let v ← Rack.read slot
    return some v
  | write slot v => do
    Rack.write slot v
    return none

/-- Something is done to a rack by one of its devices, as if it were done to that device alone. -/
structure DoneBy [Logger] {α : Type} (i : Fin n) (x : Activity Device α) (rack : Rack n)
    (r : Reaction (Rack n) α) : Prop where
  outcome : r.outcome = (x.run (rack.devices.get i)).outcome
  device : r.state.devices.get i = (x.run (rack.devices.get i)).state
  others : ∀ j, j ≠ i → r.state.devices.get j = rack.devices.get j
  window : r.state.window = rack.window

/-- Only what came of it and the rack that is left count. -/
theorem DoneBy.congr [Logger] {α : Type} {i : Fin n} {x : Activity Device α} {rack : Rack n}
    {r r' : Reaction (Rack n) α} (h : DoneBy i x rack r) (houtcome : r'.outcome = r.outcome)
    (hstate : r'.state = r.state) : DoneBy i x rack r' where
  outcome := houtcome.trans h.outcome
  device := by rw [hstate, h.device]
  others j hne := by rw [hstate, h.others j hne]
  window := by rw [hstate, h.window]

theorem doneBy_focus [Logger] {α : Type} (i : Fin n) (x : Activity Device α) (rack : Rack n) :
    DoneBy i x rack ((Activity.focus (devicePart i) x).run rack) where
  outcome := rfl
  device := Vector.getElem_set_self _
  others j hne := Vector.getElem_set_ne i.isLt j.isLt fun h => hne (Fin.ext h.symm)
  window := rfl

section

variable {rack : Rack n} {slot : Nat} {i : Fin n}

theorem doneBy_read [Logger] (h : rack.window.slots[slot]? = some i) :
    DoneBy i Device.read rack ((read slot).run rack) := by
  obtain ⟨houtcome, hstate⟩ := Window.run_read_of_route h readDevice rack
  exact (doneBy_focus i Device.read rack).congr houtcome hstate

theorem doneBy_write [Logger] (h : rack.window.slots[slot]? = some i) (v : Int) :
    DoneBy i (Device.write v) rack ((write slot v).run rack) := by
  obtain ⟨houtcome, hstate⟩ := Window.run_write_of_route h writeDevice v rack
  exact (doneBy_focus i (Device.write v) rack).congr houtcome hstate

theorem run_read_of_unbacked [Logger] (h : rack.window.slots.length ≤ slot) :
    (read slot).run rack = ⟨.error (.unbackedSlot slot), rack, []⟩ := by
  show (rack.window.read readDevice slot).run rack = _
  unfold Window.read
  rw [Activity.run_bind, Activity.run_lift, Window.route_of_le h, Reaction.andThen_error]

theorem run_write_of_unbacked [Logger] (h : rack.window.slots.length ≤ slot) (v : Int) :
    (write slot v).run rack = ⟨.error (.unbackedSlot slot), rack, []⟩ := by
  show (rack.window.write writeDevice slot v).run rack = _
  unfold Window.write
  rw [Activity.run_bind, Activity.run_lift, Window.route_of_le h, Reaction.andThen_error]

theorem run_register_of_room [Logger] (h : rack.window.slots.length < windowSize) (i : Fin n) :
    ∃ rack', (register i).run rack = ⟨.ok (), rack', []⟩ ∧ rack'.devices = rack.devices
      ∧ rack'.window.slots = rack.window.slots ++ [i] := by
  have hroom : ∃ window, rack.window.register i = .ok window
      ∧ window.slots = rack.window.slots ++ [i] := ⟨_, dif_pos h, rfl⟩
  obtain ⟨window, hregister, hslots⟩ := hroom
  refine ⟨{ rack with window := window }, ?_, rfl, hslots⟩
  unfold register
  rw [Activity.run_bind, Activity.run_get, Reaction.andThen_ok, Reaction.after_nil,
    Activity.run_bind, Activity.run_lift, hregister]
  rfl

theorem run_register_of_full [Logger] (h : windowSize ≤ rack.window.slots.length) (i : Fin n) :
    (register i).run rack = ⟨.error .windowFull, rack, []⟩ := by
  have hfull : rack.window.register i = .error .windowFull := dif_neg (Nat.not_lt.mpr h)
  unfold register
  rw [Activity.run_bind, Activity.run_get, Reaction.andThen_ok, Reaction.after_nil,
    Activity.run_bind, Activity.run_lift, hfull]
  rfl

end

/-! ## Calls and their answers -/

/-- A call, and what came of it. -/
structure Exchange (n : Nat) where
  call : Call n
  answer : Except Fault (Option (Word 16))

/-- What comes of a call. -/
def Call.exchange [Logger] (call : Call n) (rack : Rack n) : Exchange n :=
  ⟨call, (call.perform.run rack).outcome⟩

/-- The rack that a call leaves. -/
def Call.next [Logger] (call : Call n) (rack : Rack n) : Rack n := (call.perform.run rack).state

/-- Some calls in order, each with what came of it. -/
def exchanges [Logger] : List (Call n) → Rack n → List (Exchange n)
  | [], _ => []
  | call :: calls, rack => call.exchange rack :: exchanges calls (call.next rack)

/-- The rack after some calls. -/
def after [Logger] : List (Call n) → Rack n → Rack n
  | [], rack => rack
  | call :: calls, rack => after calls (call.next rack)

/-- The device that has been registered, if one has. -/
def Exchange.registered? : Exchange n → Option (Fin n)
  | ⟨.register i, .ok _⟩ => some i
  | _ => none

/-- The devices of the registrations that have succeeded, in order. -/
def wiring (exchanges : List (Exchange n)) : List (Fin n) :=
  exchanges.filterMap Exchange.registered?

/-- The value that has been read at a slot of device `i`, if one has, for some wiring. -/
def Exchange.value? (i : Fin n) (wired : List (Fin n)) : Exchange n → Option Int
  | ⟨.read slot, .ok (some v)⟩ => if wired[slot]? = some i then some v.toInt else none
  | _ => none

/-- The values that have been read from device `i`, through any of its slots. -/
def delivered (i : Fin n) (exchanges : List (Exchange n)) : List Int :=
  exchanges.filterMap (Exchange.value? i (wiring exchanges))

theorem exchange_register [Logger] (i : Fin n) (rack : Rack n) :
    (Call.register i).exchange rack
        = ⟨.register i, ((register i).run rack).outcome.map fun _ => none⟩
      ∧ (Call.register i).next rack = ((register i).run rack).state := by
  have hrun := Activity.run_bind_pure (register i) (fun _ => (none : Option (Word 16))) rack
  exact ⟨congrArg (Exchange.mk _ ∘ Reaction.outcome) hrun, congrArg Reaction.state hrun⟩

theorem exchange_read [Logger] (slot : Nat) (rack : Rack n) :
    (Call.read slot).exchange rack = ⟨.read slot, ((read slot).run rack).outcome.map some⟩
      ∧ (Call.read slot).next rack = ((read slot).run rack).state := by
  have hrun := Activity.run_bind_pure (read slot) some rack
  exact ⟨congrArg (Exchange.mk _ ∘ Reaction.outcome) hrun, congrArg Reaction.state hrun⟩

theorem next_write [Logger] (slot : Nat) (v : Int) (rack : Rack n) :
    (Call.write slot v).next rack = ((write slot v).run rack).state :=
  congrArg Reaction.state (Activity.run_bind_pure (write slot v) (fun _ => none) rack)

/-- What is looked for in a list is found at its head first. -/
theorem filterMap_cons_toList {α β : Type} (f : α → Option β) (a : α) (as : List α) :
    (a :: as).filterMap f = (f a).toList ++ as.filterMap f := by
  rw [List.filterMap_eq_flatMap_toList, List.filterMap_eq_flatMap_toList, List.flatMap_cons]

/-! ### The wiring -/

/-- An access leaves the wiring as it is. -/
theorem window_read [Logger] (slot : Nat) (rack : Rack n) :
    ((read slot).run rack).state.window = rack.window := by
  cases hroute : rack.window.slots[slot]? with
  | none => rw [run_read_of_unbacked (List.getElem?_eq_none_iff.mp hroute)]
  | some i => exact (doneBy_read hroute).window

theorem window_write [Logger] (slot : Nat) (v : Int) (rack : Rack n) :
    ((write slot v).run rack).state.window = rack.window := by
  cases hroute : rack.window.slots[slot]? with
  | none => rw [run_write_of_unbacked (List.getElem?_eq_none_iff.mp hroute)]
  | some i => exact (doneBy_write hroute v).window

/-- A call adds to the wiring the device that it has registered, and nothing else. -/
theorem slots_next [Logger] (call : Call n) (rack : Rack n) :
    (call.next rack).window.slots
      = rack.window.slots ++ (call.exchange rack).registered?.toList := by
  cases call with
  | register i =>
    obtain ⟨hexchange, hnext⟩ := exchange_register i rack
    rw [hexchange, hnext]
    rcases Nat.lt_or_ge rack.window.slots.length windowSize with hroom | hfull
    · obtain ⟨rack', hrun, -, hslots⟩ := run_register_of_room hroom i
      rw [hrun]
      exact hslots
    · rw [run_register_of_full hfull]
      exact (List.append_nil _).symm
  | read slot =>
    rw [(exchange_read slot rack).2, window_read]
    exact (List.append_nil _).symm
  | write slot v =>
    rw [next_write, window_write]
    exact (List.append_nil _).symm

theorem wiring_cons (exchange : Exchange n) (rest : List (Exchange n)) :
    wiring (exchange :: rest) = exchange.registered?.toList ++ wiring rest :=
  filterMap_cons_toList Exchange.registered? exchange rest

/-- The wiring is what it was, and the registrations that have succeeded since. -/
theorem slots_after [Logger] (calls : List (Call n)) (rack : Rack n) :
    (after calls rack).window.slots = rack.window.slots ++ wiring (exchanges calls rack) := by
  induction calls generalizing rack with
  | nil => exact (List.append_nil _).symm
  | cons call calls ih =>
    rw [after, exchanges, ih, slots_next, wiring_cons, List.append_assoc]

/-! ### One device -/

section

variable {i : Fin n} {rack : Rack n} {d : InputDevice}

/-- What is read at a slot of another device is not read from this one. -/
theorem value?_of_ne {wired : List (Fin n)} {slot : Nat} {j : Fin n}
    (hslot : wired[slot]? = some j) (hne : j ≠ i) (answer : Except Fault (Option (Word 16))) :
    Exchange.value? i wired ⟨.read slot, answer⟩ = none := by
  rcases answer with fault | _ | v
  · rfl
  · rfl
  · exact if_neg fun h => hne (Option.some.inj (hslot.symm.trans h))

/-- A call hands out the next character of an input device, or leaves the device as it is. What is
wired later makes no difference. -/
theorem handsOut_exchange [Logger] (hdevice : rack.devices.get i = .input d) (call : Call n)
    (later : List (Fin n)) :
    ∃ d', (call.next rack).devices.get i = .input d'
      ∧ d.HandsOut ((call.exchange rack).value? i (rack.window.slots ++ later)).toList d' := by
  cases call with
  | register j =>
    refine ⟨d, ?_, d.handsOut_nil⟩
    rw [(exchange_register j rack).2]
    rcases Nat.lt_or_ge rack.window.slots.length windowSize with hroom | hfull
    · obtain ⟨rack', hrun, hdevices, -⟩ := run_register_of_room hroom j
      rw [hrun, ← hdevice, ← hdevices]
    · rw [run_register_of_full hfull, hdevice]
  | write slot v =>
    refine ⟨d, ?_, d.handsOut_nil⟩
    rw [next_write]
    cases hroute : rack.window.slots[slot]? with
    | none => rw [run_write_of_unbacked (List.getElem?_eq_none_iff.mp hroute), hdevice]
    | some j =>
      have hdone := doneBy_write hroute v
      by_cases hj : j = i
      · subst hj
        rw [hdone.device, hdevice]
        rfl
      · rw [hdone.others i (Ne.symm hj), hdevice]
  | read slot =>
    obtain ⟨hexchange, hnext⟩ := exchange_read slot rack
    rw [hexchange, hnext]
    cases hroute : rack.window.slots[slot]? with
    | none =>
      rw [run_read_of_unbacked (List.getElem?_eq_none_iff.mp hroute)]
      exact ⟨d, hdevice, d.handsOut_nil⟩
    | some j =>
      have hdone := doneBy_read hroute
      have hslot : (rack.window.slots ++ later)[slot]? = some j := by
        obtain ⟨hlt, -⟩ := List.getElem?_eq_some_iff.mp hroute
        rw [List.getElem?_append_left hlt, hroute]
      by_cases hj : j = i
      · subst hj
        have hread : Device.read.run (.input d) = ⟨.ok d.next, .input d.advance, []⟩ := rfl
        refine ⟨d.advance, ?_, ?_⟩
        · rw [hdone.device, hdevice, hread]
        · rw [hdone.outcome, hdevice, hread]
          show d.HandsOut (if _ then some d.next.toInt else none).toList d.advance
          rw [if_pos hslot]
          exact d.handsOut_next
      · rw [value?_of_ne hslot hj]
        exact ⟨d, by rw [hdone.others i (Ne.symm hj), hdevice], d.handsOut_nil⟩

/-- The characters of an input device are handed out one after the other, whatever comes between
two of them. -/
theorem exists_handsOut [Logger] (calls : List (Call n)) (hdevice : rack.devices.get i = .input d) :
    ∃ d', (after calls rack).devices.get i = .input d'
      ∧ d.HandsOut ((exchanges calls rack).filterMap
          (Exchange.value? i (rack.window.slots ++ wiring (exchanges calls rack)))) d' := by
  induction calls generalizing rack d with
  | nil => exact ⟨d, hdevice, d.handsOut_nil⟩
  | cons call calls ih =>
    rw [after, exchanges, filterMap_cons_toList, wiring_cons]
    obtain ⟨d₁, hdevice₁, hfirst⟩ := handsOut_exchange hdevice call
      ((call.exchange rack).registered?.toList ++ wiring (exchanges calls (call.next rack)))
    obtain ⟨d₂, hdevice₂, hrest⟩ := ih hdevice₁
    rw [slots_next, List.append_assoc] at hrest
    exact ⟨d₂, hdevice₂, hfirst.append hrest⟩

end

/-! ### What a device does -/

end Rack

namespace Device

/-- What a read gets from a device and what it leaves. An input device hands out the first of its
characters, or zero if it has none; an output device refuses. -/
inductive Reads : Device → Except Fault (Word 16) → Device → Prop
  | handed (pending : List (Word 16)) :
      Reads (.input ⟨pending⟩) (.ok (pending.headD 0)) (.input ⟨pending.tail⟩)
  | refused (d : OutputDevice) : Reads (.output d) (.error .readFromOutput) (.output d)

/-- What becomes of a value that is written to a device. An input device ignores it. An output
device refuses what is no character, and reports a sink that takes nothing; else the sink has
received the bytes of the character after those from before. -/
inductive Writes (v : Int) : Device → Except Fault Unit → Device → Prop
  | ignored (d : InputDevice) : Writes v (.input d) (.ok ()) (.input d)
  | refused (d : OutputDevice) (hv : ¬Text.IsCharacter v) :
      Writes v (.output d) (.error (.notCharacter v)) (.output d)
  | failed (d : OutputDevice) (hv : Text.IsCharacter v) (hsink : d.sinkGood = false) :
      Writes v (.output d) (.error .sinkFailed) (.output d)
  | emitted (d d' : OutputDevice) (c : Char) (hv : v = c.toNat) (hsink : d.sinkGood = true)
      (hsink' : d'.sinkGood = true)
      (hreceived : d'.received = d.received ++ String.utf8EncodeChar c) :
      Writes v (.output d) (.ok ()) (.output d')

theorem reads_run [Logger] (d : Device) : d.Reads (read.run d).outcome (read.run d).state := by
  cases d with
  | input d => exact .handed d.pending
  | output d => exact .refused d

/-- What is written to an output device is emitted, or refused as the device refuses it. -/
theorem run_write_output [Logger] (d : OutputDevice) (v : Int) :
    (write v).run (.output d) = match d.put v with
      | .ok d' => ⟨.ok (), .output d', []⟩
      | .error fault => ⟨.error fault, .output d, []⟩ := by
  unfold write
  rw [Activity.run_bind, Activity.run_get, Reaction.andThen_ok, Reaction.after_nil]
  cases hput : d.put v with
  | error fault => simp [hput]
  | ok d' => simp [hput]

theorem writes_run [Logger] (d : Device) (v : Int) :
    d.Writes v ((write v).run d).outcome ((write v).run d).state := by
  cases d with
  | input d => exact .ignored d
  | output d =>
    rw [run_write_output, OutputDevice.put_eq]
    cases hc : Text.character? v with
    | none => exact .refused d (Text.character?_eq_none_iff.mp hc)
    | some c =>
      have hv := Text.character?_eq_some_iff.mp hc
      cases hsink : d.sinkGood with
      | false => exact .failed d (Text.isCharacter_iff.mpr ⟨c, hv⟩) hsink
      | true =>
        exact .emitted d _ c hv hsink ((d.sinkGood_take _).trans hsink) (d.received_take _)

end Device

namespace Rack

variable {n : Nat}

theorem DoneBy.reads [Logger] {i : Fin n} {rack : Rack n} {r : Reaction (Rack n) (Word 16)}
    (h : DoneBy i Device.read rack r) :
    (rack.devices.get i).Reads r.outcome (r.state.devices.get i) := by
  rw [h.outcome, h.device]
  exact Device.reads_run _

theorem DoneBy.writes [Logger] {i : Fin n} {v : Int} {rack : Rack n} {r : Reaction (Rack n) Unit}
    (h : DoneBy i (Device.write v) rack r) :
    (rack.devices.get i).Writes v r.outcome (r.state.devices.get i) := by
  rw [h.outcome, h.device]
  exact Device.writes_run _ v

/-! ## Any calls -/

/-- The slots of a window after any calls, none of them wired at first. They are wired to the
devices of the registrations that have succeeded, in order, and there are never more than the window
has. A registration takes the next slot as long as there is one; after that it is refused and
changes nothing. A read or a write at a wired slot is done by the device of that slot alone: it ends
as it does at the device itself and no other device changes, nor does the wiring. An input device
hands out its next character and ignores what is written; an output device refuses to be read, and
emits the character that is written or says why it does not. At any other address an access is
refused and changes nothing. So what has been read from an input device,
through whichever of its slots, are the characters that it held at first, in order and each of them
once, and zeros after the last; and it holds those that are left. The characters that a device
holds at first are the code points of its source, each as a word. -/
theorem slots_route [Logger] (devices : Vector Device n) (calls : List (Call n)) :
    let fresh : Rack n := { devices }
    let now := after calls fresh
    let wired := wiring (exchanges calls fresh)
    (now.window.slots = wired ∧ wired.length ≤ windowSize)
      ∧ (∀ i, wired.length < windowSize →
          ∃ now', (register i).run now = ⟨.ok (), now', []⟩ ∧ now'.devices = now.devices
            ∧ now'.window.slots = wired ++ [i])
      ∧ (∀ i, windowSize ≤ wired.length →
          (register i).run now = ⟨.error .windowFull, now, []⟩
            ∧ Fault.windowFull.kind = .machine)
      ∧ (∀ slot i, wired[slot]? = some i →
          let given := (read slot).run now
          (DoneBy i Device.read now given
              ∧ (now.devices.get i).Reads given.outcome (given.state.devices.get i))
            ∧ ∀ v,
                let taken := (write slot v).run now
                DoneBy i (Device.write v) now taken
                  ∧ (now.devices.get i).Writes v taken.outcome (taken.state.devices.get i))
      ∧ (∀ slot, wired.length ≤ slot →
          (read slot).run now = ⟨.error (.unbackedSlot slot), now, []⟩
            ∧ (∀ v, (write slot v).run now = ⟨.error (.unbackedSlot slot), now, []⟩)
            ∧ (Fault.unbackedSlot slot).kind = .address)
      ∧ ∀ (i : Fin n) (d : InputDevice), devices.get i = .input d →
          let values := delivered i (exchanges calls fresh)
          values = (d.pending.map Word.toInt).take values.length
              ++ List.replicate (values.length - d.remaining) 0
            ∧ now.devices.get i = .input ⟨d.pending.drop values.length⟩
            ∧ ∀ bytes codes, InputDevice.ofSource? (some bytes) = .ok d →
                Text.decode bytes = .ok codes →
                d.pending = codes.map fun code : Nat => .ofInt 16 code := by
  intro fresh now wired
  have hslots : now.window.slots = wired := slots_after calls fresh
  rw [← hslots]
  refine ⟨⟨rfl, now.window.length_le⟩, ?_, ?_, ?_, ?_, ?_⟩
  · intro i hroom
    exact run_register_of_room hroom i
  · intro i hfull
    exact ⟨run_register_of_full hfull i, rfl⟩
  · intro slot i hslot
    have hread := doneBy_read hslot
    refine ⟨⟨hread, hread.reads⟩, fun v => ?_⟩
    have hwrite := doneBy_write hslot v
    exact ⟨hwrite, hwrite.writes⟩
  · intro slot hslot
    exact ⟨run_read_of_unbacked hslot, run_write_of_unbacked hslot, rfl⟩
  · intro i d hdevice values
    have hstart : fresh.devices.get i = .input d := hdevice
    obtain ⟨d', hdevice', hvalues⟩ := exists_handsOut calls hstart
    have hleft : d' = ⟨d.pending.drop values.length⟩ := congrArg InputDevice.mk hvalues.left
    refine ⟨hvalues.eq_take, hleft ▸ hdevice', fun bytes codes hmade hcodes => ?_⟩
    rw [InputDevice.ofSource?_of_decode hcodes] at hmade
    exact congrArg InputDevice.pending (Except.ok.inj hmade).symm

/-- An input device over two characters, and an output device. -/
def paired : Vector Device 2 :=
  #v[.input ⟨[.ofInt 16 0x68, .ofInt 16 0x20AC]⟩, .output {}]

/-- Both are registered twice, and accesses come in between. -/
def traffic : List (Call 2) :=
  [.register 0, .read 0, .register 1, .read 3, .register 0, .write 1 0x20AC, .read 1, .read 2,
    .register 1, .register 1, .read 0]

/-- The rack after all of it. -/
def busy [Logger] : Rack 2 := after traffic { devices := paired }

/-- The two characters have been read through different slots, and a zero after them. The fifth
registration has failed, and so would a sixth. -/
theorem slots_route_busy :
    letI := Logger.silent
    wiring (exchanges traffic { devices := paired }) = [0, 1, 0, 1]
      ∧ (register 0).run busy = ⟨.error .windowFull, busy, []⟩
      ∧ DoneBy 1 (Device.write 0xD800) busy ((write 3 0xD800).run busy)
      ∧ (busy.devices.get 1).Writes 0xD800 ((write 3 0xD800).run busy).outcome
          (((write 3 0xD800).run busy).state.devices.get 1)
      ∧ (read 4).run busy = ⟨.error (.unbackedSlot 4), busy, []⟩
      ∧ delivered 0 (exchanges traffic { devices := paired }) = [0x68, 0x20AC, 0]
      ∧ busy.devices.get 0 = .input ⟨[]⟩ := by
  obtain ⟨-, -, hfull, hwired, hunbacked, hinput⟩ := @slots_route _ .silent paired traffic
  obtain ⟨hvalues, hleft, -⟩ := hinput 0 _ rfl
  obtain ⟨hdone, hwrites⟩ := (hwired 3 1 rfl).2 0xD800
  exact ⟨rfl, (hfull 0 (by decide)).1, hdone, hwrites, (hunbacked 4 (by decide)).1, hvalues, hleft⟩

end Rack

end TwoBus
