import TwoBus.Proofs.InputDelivery
import TwoBus.Proofs.Steps

/-!
# A program that echoes

Five instructions copy the input to the output, character by character, and end the program at the
first zero. A text without zeros whose code points fit into words comes out as it went in, and the
zero that ends the program is the one that is delivered after its last character.

* `Core.Echoes`: what holds at each of the five instructions.
* `Machine.Echoes.round`, `Machine.Echoes.rounds`: one round of the loop, and all of them.
* `Machine.echo_echoes`: the whole run.
-/

namespace TwoBus

/-! ## Instructions with a constant operand -/

/-- An operation on an immediate. -/
def Instruction.constant (op : Opcode) (v : Int) : Instruction where
  operation := op.name
  mode := some "const"
  data := some v

@[simp] theorem Instruction.opcode?_constant (op : Opcode) (v : Int) :
    (constant op v).opcode? = some op :=
  Opcode.ofName?_eq_some_iff.mpr rfl

namespace Core

variable {c : Core}

/-! ## The program -/

/-- Load a character, end at zero, store it, and go on with the next. -/
def echo : List (Option Instruction) :=
  [some (.constant .load 0), some (.constant .jumpIfZero 4), some (.constant .save 1),
    some (.constant .jump 0), some { operation := Opcode.halt.name }]

/-- A core at an instruction of the program, with what is in the accumulator, what is left of the
input, and what the sink has received. -/
structure Echoes (c : Core) (address : Nat) (acc : Word 16) (pending : List (Word 16))
    (bytes : List UInt8) : Prop where
  address : c.ip.toInt = address
  running : c.phase = .idle
  program : c.program.cells = .ofList 16 none echo
  acc : c.acc = acc
  pending : c.memory.io.input.pending = pending
  good : c.memory.io.output.sinkGood = true
  received : c.memory.io.output.received = bytes

namespace Echoes

variable {address : Nat} {acc : Word 16} {pending : List (Word 16)} {bytes : List UInt8}

theorem live (h : c.Echoes address acc pending bytes) : c.phase ≠ .halted := by
  rw [h.running]
  decide

theorem nonneg (h : c.Echoes address acc pending bytes) : 0 ≤ c.ip.toInt := by
  rw [h.address]
  exact Int.natCast_nonneg address

theorem cell (h : c.Echoes address acc pending bytes) (hlt : address < twoPow 16) :
    c.cell = echo[address]?.getD none := by
  rw [Core.cell, h.program, h.address, Int.toNat_natCast, Bank.get_ofList none echo hlt]

/-- An operation on an immediate is carried out if its access to memory has no cause to fault. -/
theorem steps [Logger] {op : Opcode} {v : Int} (h : c.Echoes address acc pending bytes)
    (hinst : echo[address]? = some (some (.constant op v)))
    (haccess : { c with dr := Word.ofInt 16 v }.accessFault? op = none) :
    c.Steps ((c.executing (.constant op v)).carriedOut (.constant op v) op) := by
  have hlt : address < twoPow 16 :=
    Nat.lt_trans (List.getElem?_eq_some_iff.mp hinst).1 (by decide)
  have hcell : c.cell = some (.constant op v) := by
    rw [h.cell hlt, hinst]
    rfl
  exact steps_carriedOut h.live hcell (Instruction.opcode?_constant op v)
    (stepFault?_of_constant h.nonneg hcell (Instruction.opcode?_constant op v) rfl rfl haccess)

/-- The pointer moves on by one. -/
theorem next_address (h : c.Echoes address acc pending bytes) (hlt : address + 1 < twoPow 16) :
    (Word.ofInt 16 (c.ip.toInt + 1)).toInt = (address + 1 : Nat) := by
  rw [h.address, Word.toInt_ofInt]
  exact truncate_of_natAbs_lt hlt

/-- The next character is loaded, and zero if there is none. -/
theorem load [Logger] (h : c.Echoes 0 acc pending bytes) :
    ∃ c', c.Steps c' ∧ c'.Echoes 1 (pending.headD 0) pending.tail bytes := by
  refine ⟨_, h.steps rfl rfl, ?_⟩
  have hloaded : (c.memory.loaded 0).io = c.memory.io.readOn := by
    rw [DataMemory.loaded, if_pos rfl]
  constructor
  · exact h.next_address (by decide)
  · rfl
  · exact h.program
  · show c.memory.delivered 0 = _
    rw [DataMemory.delivered_zero, InputDevice.next, h.pending]
  · show (c.memory.loaded 0).io.input.pending = _
    rw [hloaded, ← h.pending]
    rfl
  · show (c.memory.loaded 0).io.output.sinkGood = _
    rw [hloaded, ← h.good]
    rfl
  · show (c.memory.loaded 0).io.output.received = _
    rw [hloaded, ← h.received]
    rfl

/-- With a character in the accumulator the program goes on. -/
theorem pass [Logger] (h : c.Echoes 1 acc pending bytes) (hne : acc.toInt ≠ 0) :
    ∃ c', c.Steps c' ∧ c'.Echoes 2 acc pending bytes := by
  refine ⟨_, h.steps rfl rfl, ?_⟩
  have huntaken : ¬(c.executing (.constant .jumpIfZero 4)).acc.toInt = 0 := by
    show ¬c.acc.toInt = 0
    rwa [h.acc]
  rw [carriedOut, if_neg huntaken]
  exact ⟨h.next_address (by decide), rfl, h.program, h.acc, h.pending, h.good, h.received⟩

/-- With zero in the accumulator the program goes to its end. -/
theorem leave [Logger] (h : c.Echoes 1 acc pending bytes) (hzero : acc.toInt = 0) :
    ∃ c', c.Steps c' ∧ c'.Echoes 4 acc pending bytes := by
  refine ⟨_, h.steps rfl rfl, ?_⟩
  have htaken : (c.executing (.constant .jumpIfZero 4)).acc.toInt = 0 := by
    show c.acc.toInt = 0
    rwa [h.acc]
  rw [carriedOut, if_pos htaken]
  exact ⟨rfl, rfl, h.program, h.acc, h.pending, h.good, h.received⟩

/-- A character in the accumulator is emitted. -/
theorem save [Logger] {ch : Char} (h : c.Echoes 2 acc pending bytes) (hch : acc.toInt = ch.toNat) :
    ∃ c', c.Steps c' ∧ c'.Echoes 3 acc pending (bytes ++ String.utf8EncodeChar ch) := by
  have hcharacter : Text.character? c.acc.toInt = some ch := by
    rw [h.acc]
    exact Text.character?_eq_some_iff.mpr hch
  have hrefusal : DataMemory.storeRefusal? c.memory.io.output.sinkGood (.ofInt 16 1) c.acc
      = none := by
    have hvalid := mt (Text.character?_word c.acc).mpr (by simp [hcharacter])
    unfold DataMemory.storeRefusal?
    rw [if_neg (by decide), if_pos (by decide), if_neg hvalid, if_pos h.good]
  refine ⟨_, h.steps rfl hrefusal, ?_⟩
  have hemitted : (c.memory.stored 1 c.acc).io = c.memory.io.emit c.acc.toInt := by
    rw [DataMemory.stored, if_pos rfl]
  have houtput : (c.memory.io.emit c.acc.toInt).output
      = c.memory.io.output.take (String.utf8EncodeChar ch) := by
    rw [IoUnit.emit, OutputDevice.emitted_of_character hcharacter]
  constructor
  · exact h.next_address (by decide)
  · rfl
  · exact h.program
  · exact h.acc
  · show (c.memory.stored 1 c.acc).io.input.pending = _
    rw [hemitted, ← h.pending]
    rfl
  · show (c.memory.stored 1 c.acc).io.output.sinkGood = _
    rw [hemitted, houtput, OutputDevice.sinkGood_take, h.good]
  · show (c.memory.stored 1 c.acc).io.output.received = _
    rw [hemitted, houtput, OutputDevice.received_take, h.received]

/-- The program goes back to its start. -/
theorem jump [Logger] (h : c.Echoes 3 acc pending bytes) :
    ∃ c', c.Steps c' ∧ c'.Echoes 0 acc pending bytes := by
  refine ⟨_, h.steps rfl rfl, ?_⟩
  exact ⟨rfl, rfl, h.program, h.acc, h.pending, h.good, h.received⟩

/-- The program ends. -/
theorem halt [Logger] (h : c.Echoes 4 acc pending bytes) :
    ∃ c', c.Steps c' ∧ c'.phase = .halted ∧ c'.acc = acc
      ∧ c'.memory.io.input.pending = pending ∧ c'.memory.io.output.received = bytes := by
  have hcell : c.cell = some { operation := Opcode.halt.name } := h.cell (by decide)
  have hop : ({ operation := Opcode.halt.name } : Instruction).opcode? = some .halt :=
    Opcode.ofName?_eq_some_iff.mpr rfl
  have hsound := stepFault?_of_not_consults h.nonneg hcell hop rfl
  exact ⟨_, steps_carriedOut h.live hcell hop hsound, rfl, h.acc, h.pending, h.received⟩

end Echoes

end Core

namespace Machine

/-! ## Rounds -/

/-- A machine at an instruction of the program, with its gates closed. -/
def Echoes (m : Machine) (address : Nat) (acc : Word 16) (pending : List (Word 16))
    (bytes : List UInt8) : Prop :=
  ∃ c : Core, m.processor = c.toProcessor ∧ c.Echoes address acc pending bytes

namespace Echoes

variable {m : Machine} {address : Nat} {acc : Word 16} {pending : List (Word 16)}
  {bytes : List UInt8}

/-- A step of the core that stays in the program is one of the machine. -/
theorem step [Logger] {address' : Nat} {acc' : Word 16} {pending' : List (Word 16)}
    {bytes' : List UInt8} (h : m.Echoes address acc pending bytes)
    (hcore : ∀ c : Core, c.Echoes address acc pending bytes →
      ∃ c', c.Steps c' ∧ c'.Echoes address' acc' pending' bytes') :
    ∃ t m', Runs 1 m t m' ∧ m'.Echoes address' acc' pending' bytes' := by
  obtain ⟨c, hm, hc⟩ := h
  obtain ⟨c', hsteps, hc'⟩ := hcore c hc
  obtain ⟨t, hruns⟩ := runs_of_steps hm hc.live hsteps hc'.live
  exact ⟨t, _, hruns, c', rfl, hc'⟩

/-- One round moves one character from the input to the output, in four steps. -/
theorem round [Logger] {v : Word 16} {ch : Char} (h : m.Echoes 0 acc (v :: pending) bytes)
    (hch : v.toInt = ch.toNat) (hne : ch.toNat ≠ 0) :
    ∃ t m', Runs 4 m t m' ∧ m'.Echoes 0 v pending (bytes ++ String.utf8EncodeChar ch) := by
  have hv : v.toInt ≠ 0 := by omega
  obtain ⟨t₁, m₁, hload, h₁⟩ := h.step fun c => Core.Echoes.load
  obtain ⟨t₂, m₂, hpass, h₂⟩ := h₁.step fun c hc => hc.pass hv
  obtain ⟨t₃, m₃, hsave, h₃⟩ := h₂.step fun c hc => hc.save hch
  obtain ⟨t₄, m₄, hjump, h₄⟩ := h₃.step fun c => Core.Echoes.jump
  exact ⟨_, m₄, ((hload.trans hpass).trans hsave).trans hjump, h₄⟩

/-- As many rounds as there are characters move them all. -/
theorem rounds [Logger] {cs : List Char} (hcs : ∀ c ∈ cs, c.toNat ≠ 0 ∧ c.toNat < 65536)
    (h : m.Echoes 0 acc (cs.map InputDevice.word) bytes) :
    ∃ acc' t m', Runs (4 * cs.length) m t m' ∧ m'.Echoes 0 acc' [] (bytes ++ Text.encode cs) := by
  induction cs generalizing m acc bytes with
  | nil =>
    refine ⟨acc, [], m, .none, ?_⟩
    rwa [Text.encode, List.flatMap_nil, List.append_nil]
  | cons ch cs ih =>
    obtain ⟨hne, hlt⟩ := hcs ch List.mem_cons_self
    have hword : (InputDevice.word ch).toInt = ch.toNat :=
      (InputDevice.toInt_word_eq_iff ch).mpr hlt
    obtain ⟨t, m₁, hround, h₁⟩ := round h hword hne
    obtain ⟨acc', t', m₂, hrest, h₂⟩ := ih (fun c hc => hcs c (List.mem_cons_of_mem ch hc)) h₁
    refine ⟨acc', t ++ t', m₂, ?_, ?_⟩
    · rw [List.length_cons, Nat.mul_succ, Nat.add_comm]
      exact hround.trans hrest
    · have hencode : Text.encode (ch :: cs) = String.utf8EncodeChar ch ++ Text.encode cs :=
        List.flatMap_cons
      rwa [hencode, ← List.append_assoc]

/-- With no input left the program ends in three steps. -/
theorem ending [Logger] (h : m.Echoes 0 acc [] bytes) :
    ∃ t m₁ t' m', Runs 2 m t m₁ ∧ singleStep.run m₁ = ⟨.ok .halted, m', t'⟩
      ∧ m'.completed = m.completed + 3
      ∧ m'.processor.registers.acc.word = 0
      ∧ m'.processor.memory.io.input.pending = []
      ∧ m'.processor.memory.io.output.received = bytes := by
  obtain ⟨t₁, m₁, hload, h₁⟩ := h.step fun c => Core.Echoes.load
  obtain ⟨t₂, m₂, hleave, c, hm, hc⟩ := h₁.step fun c hc => hc.leave rfl
  obtain ⟨c', ⟨t, hstep⟩, hhalted, hacc, hpending, hreceived⟩ := hc.halt
  have hruns := hload.trans hleave
  have hlive : m₂.processor.phase ≠ .halted := by
    rw [hm]
    exact hc.live
  rw [← hm] at hstep
  have hlast := run_singleStep_of_ok hlive hstep
  have hstatus : ({ m₂ with processor := c'.toProcessor } : Machine).status = .halted := by
    have hphase : c'.toProcessor.isHalted = true := decide_eq_true hhalted
    rw [status, hphase]
    rfl
  rw [hstatus] at hlast
  refine ⟨_, m₂, _, _, hruns, hlast, ?_, hacc, hpending, hreceived⟩
  show m₂.completed + 1 = _
  rw [hruns.completed, UInt64.add_assoc]
  rfl

end Echoes

/-- The machine starts at the first instruction, with its whole source to be read. -/
theorem echoes_of_boot {data : List Int} (hdata : data.length ≤ 65536) (cs : List Char) :
    ∃ m, boot { data, program := Core.echo } (some (Text.encode cs)) = .ok m
      ∧ m.completed = 0 ∧ m.Echoes 0 0 (cs.map InputDevice.word) [] := by
  have hmemory : DataMemory.ofData? .machine .machine data { input := ⟨cs.map InputDevice.word⟩ }
      = .ok ⟨.ofList 16 0 (data.map (.ofInt 16)), { input := ⟨cs.map InputDevice.word⟩ }⟩ := by
    rw [ofData?_machine]
    exact if_neg (Nat.not_lt.mpr hdata)
  have hboot : boot { data, program := Core.echo } (some (Text.encode cs)) = .ok _ :=
    boot_eq_ok_iff.mpr ⟨_, _, _, InputDevice.ofSource?_encode cs, rfl, hmemory, rfl⟩
  exact ⟨_, hboot, rfl, { program := ⟨.ofList 16 none Core.echo⟩, memory := _ }, rfl,
    rfl, rfl, rfl, rfl, rfl, rfl, rfl⟩

/-- The program that echoes, over any data, reads a text that has no zero and whose code points fit
into words. It ends after four steps for each character and three more, not sooner and without a
fault, if the run is allowed as many. By then it has emitted the text and nothing else, has no input
left, and has zero in the accumulator. -/
theorem echo_echoes [Logger] {data : List Int} (hdata : data.length ≤ 65536) {cs : List Char}
    (hcs : ∀ c ∈ cs, c.toNat ≠ 0 ∧ c.toNat < 65536) :
    ∃ m m' t, boot { data, program := Core.echo } (some (Text.encode cs)) = .ok m
      ∧ (∀ budget, 4 * cs.length + 3 ≤ budget → (run budget).run m = ⟨.ok .halted, m', t⟩)
      ∧ (∀ budget, budget < 4 * cs.length + 3 → ((run budget).run m).outcome = .ok .timeout)
      ∧ m'.completed = .ofNat (4 * cs.length + 3)
      ∧ m'.processor.memory.io.output.received = Text.encode cs
      ∧ m'.processor.memory.io.input.remaining = 0
      ∧ m'.processor.registers.acc.word = 0 := by
  obtain ⟨m, hboot, hstart, hechoes⟩ := echoes_of_boot hdata cs
  obtain ⟨acc, t₁, m₁, hrounds, h₁⟩ := hechoes.rounds hcs
  obtain ⟨t₂, m₂, t₃, m', hending, hlast, hcompleted, hacc, hpending, hreceived⟩ := h₁.ending
  have hruns := hrounds.trans hending
  refine ⟨m, m', _, hboot, fun budget hbudget => hruns.run_halts hlast hbudget, ?_, ?_, hreceived,
    ?_, hacc⟩
  · intro budget hbudget
    obtain ⟨t, m'', hfirst⟩ := hruns.take (Nat.le_of_lt_succ hbudget)
    rw [hfirst.run_eq]
  · rw [hcompleted, hrounds.completed, hstart, UInt64.zero_add, UInt64.ofNat_add]
    rfl
  · rw [InputDevice.remaining, hpending]
    rfl

/-- The letter `h` and the euro sign are echoed in eleven steps, over a data image that fills the
window. -/
theorem echo_echoes_euro :
    letI := Logger.silent
    ∃ m m' t, boot { data := [1, 2, 3, 4], program := Core.echo } (some [0x68, 0xE2, 0x82, 0xAC])
        = .ok m
      ∧ (run unlimited).run m = ⟨.ok .halted, m', t⟩
      ∧ m'.completed = 11
      ∧ m'.processor.memory.io.output.received = [0x68, 0xE2, 0x82, 0xAC] := by
  have hcs : ∀ c ∈ [Char.ofNat 0x68, Char.ofNat 0x20AC], c.toNat ≠ 0 ∧ c.toNat < 65536 :=
    List.forall_mem_cons.mpr ⟨by decide, List.forall_mem_singleton.mpr (by decide)⟩
  have hdata : ([1, 2, 3, 4] : List Int).length ≤ 65536 := by decide
  obtain ⟨m, m', t, hboot, hrun, -, hcompleted, hreceived, -, -⟩ :=
    @echo_echoes .silent _ hdata _ hcs
  exact ⟨m, m', t, hboot, hrun unlimited (by decide), hcompleted, hreceived⟩

end Machine

end TwoBus
