import TwoBus.Proofs.FaultCauses

/-!
# Sixteen bits

Every register, the last result and every data cell is a word of 16 bits, and both memories have a
cell for each address that such a word selects. A value comes in truncated, whatever width it had
outside, so nothing that is done to a machine changes that. And it is why a step finds every address
that is not negative inside the memories.

* `Machine.isSixteenBit`: what can be seen of a machine, in any state of it.
* `Machine.representation_kept`: the states of a session, and what a step faults with in them.
-/

namespace TwoBus

/-! ## Activities that answer in some ways only -/

namespace Activity

variable {σ τ α β : Type} {sort : α → Prop}

/-- Wherever it is started, an activity gives no answer but those of a sort. -/
def AnswersWithin [Logger] (sort : α → Prop) (x : Activity σ α) : Prop :=
  ∀ s a, (x.run s).outcome = .ok a → sort a

theorem answersWithin_pure [Logger] {a : α} (h : sort a) :
    (pure a : Activity σ α).AnswersWithin sort := by
  intro s a' hanswer
  obtain rfl := Except.ok.inj hanswer
  exact h

/-- The last part gives the answer. -/
theorem answersWithin_bind [Logger] {x : Activity σ β} {next : β → Activity σ α}
    (hnext : ∀ b, (next b).AnswersWithin sort) : (x >>= next).AnswersWithin sort := by
  intro s a hanswer
  rw [run_bind] at hanswer
  cases hrun : x.run s with
  | mk outcome s' t =>
    rw [hrun] at hanswer
    cases outcome with
    | error fault => exact absurd hanswer (by simp)
    | ok b => exact hnext b s' a hanswer

theorem answersWithin_focus [Logger] {part : Part σ τ} {x : Activity τ α}
    (hx : x.AnswersWithin sort) :
    (focus part x).AnswersWithin sort :=
  fun s => hx (part.get s)

theorem answersWithin_isolate [Logger] {start : τ} {x : Activity τ α} (hx : x.AnswersWithin sort) :
    (isolate start x : Activity σ α).AnswersWithin sort :=
  fun _ => hx start

end Activity

/-! ## Answers -/

/-- A word of the machine has at most 16 bits of magnitude. -/
theorem Word.natAbs_le (x : Word 16) : x.toInt.natAbs ≤ 65535 :=
  Nat.le_of_lt_succ x.natAbs_lt

/-- If an answer is a word, it is one of the machine. -/
def Answer.IsSixteenBit : Answer → Prop
  | .word bits v => bits = 16 ∧ v.natAbs ≤ 65535
  | _ => True

open Activity

theorem Datapath.answersWithin_perform [Logger] (op : Datapath.Operation) :
    (op.perform : Activity (Datapath 16) Answer).AnswersWithin Answer.IsSixteenBit := by
  cases op with
  | poke r v => exact answersWithin_bind fun _ => answersWithin_pure trivial
  | setGate r gate isOpen => exact answersWithin_bind fun _ => answersWithin_pure trivial
  | read r => exact answersWithin_bind fun d => answersWithin_pure ⟨rfl, Word.natAbs_le _⟩
  | write r n => exact answersWithin_bind fun _ => answersWithin_pure trivial
  | operate byte =>
    exact answersWithin_bind fun _ => answersWithin_bind fun _ => answersWithin_pure trivial
  | latch n => exact answersWithin_bind fun _ => answersWithin_pure trivial
  | drive frozen =>
    refine answersWithin_bind fun d => answersWithin_isolate ?_
    iterate 5 refine answersWithin_bind fun _ => ?_
    exact answersWithin_pure trivial
  | report =>
    exact answersWithin_bind fun _ => answersWithin_bind fun _ => answersWithin_pure trivial

namespace Machine

/-- No operation answers with a word that the machine could not hold. -/
theorem answersWithin_perform [Logger] (op : Operation) :
    op.perform.AnswersWithin Answer.IsSixteenBit := by
  cases op with
  | datapath op =>
    exact answersWithin_focus (answersWithin_focus (Datapath.answersWithin_perform op))
  | peek address =>
    exact answersWithin_bind fun m => answersWithin_bind fun content =>
      answersWithin_pure ⟨rfl, content.natAbs_le⟩
  | deviceRead slot => exact answersWithin_bind fun v => answersWithin_pure ⟨rfl, v.natAbs_le⟩
  | fetch | peekInstruction _ =>
    exact answersWithin_bind fun _ => answersWithin_bind fun _ => answersWithin_pure trivial
  | step | run _ | processorStep | report | load | store | deviceWrite _ _ | flush | setSink _ =>
    exact answersWithin_bind fun _ => answersWithin_pure trivial

/-! ## States -/

/-- What the registers and the last result hold is a word of 16 bits, and so is whatever word an
operation answers with; the memories have a cell at each address below `2 ^ 16`, and at no other. -/
structure IsSixteenBit [Logger] (m : Machine) : Prop where
  register : ∀ r, (m.processor.registers.get r).word.toInt.natAbs ≤ 65535
  result : m.processor.datapath.result.toInt.natAbs ≤ 65535
  dataCell : ∀ address < 65536, ∃ v,
    (Operation.peek address).perform.run m = ⟨.ok (.word 16 v), m, []⟩ ∧ v.natAbs ≤ 65535
  dataEnd : ∀ address, 65536 ≤ address →
    (Operation.peek address).perform.run m = ⟨.error .peekOutOfBounds, m, []⟩
  programCell : ∀ address < 65536, ∃ content,
    (Operation.peekInstruction address).perform.run m = ⟨.ok (.cell content), m, []⟩
  programEnd : ∀ address, 65536 ≤ address →
    (Operation.peekInstruction address).perform.run m = ⟨.error .instructionOutOfBounds, m, []⟩
  answer : ∀ (op : Operation) (bits : Nat) (v : Int),
    (op.perform.run m).outcome = .ok (.word bits v) → bits = 16 ∧ v.natAbs ≤ 65535

theorem run_peek [Logger] {m : Machine} {address : Nat} {found : Except Fault (Word 16)}
    (h : m.processor.memory.peek address = found) :
    (Operation.peek address).perform.run m
      = ⟨found.map fun content => .word 16 content.toInt, m, []⟩ := by
  simp only [Operation.perform, Activity.run_bind, Activity.run_get, Reaction.andThen_ok,
    Reaction.after_nil, Activity.run_lift, h]
  cases found <;> rfl

theorem run_peekInstruction [Logger] {m : Machine} {address : Nat}
    {found : Except Fault (Option Instruction)} (h : m.processor.program.peek address = found) :
    (Operation.peekInstruction address).perform.run m = ⟨found.map .cell, m, []⟩ := by
  simp only [Operation.perform, Activity.run_bind, Activity.run_get, Reaction.andThen_ok,
    Reaction.after_nil, Activity.run_lift, h]
  cases found <;> rfl

/-- Whatever a machine holds, it holds it in 16 bits. -/
theorem isSixteenBit [Logger] (m : Machine) : m.IsSixteenBit where
  register _ := Word.natAbs_le _
  result := Word.natAbs_le _
  dataCell _ h := ⟨_, run_peek (if_pos h), Word.natAbs_le _⟩
  dataEnd _ h := run_peek (if_neg (Nat.not_lt.mpr h))
  programCell _ h := ⟨_, run_peekInstruction (if_pos h)⟩
  programEnd _ h := run_peekInstruction (if_neg (Nat.not_lt.mpr h))
  answer op bits v h := answersWithin_perform op m (.word bits v) h

/-- A machine that has been built keeps to 16 bits, whatever is done to it and whether or not it
faults. In none of its states does a step or a run fault as a misused part does: what is left are
the faults that a program brings about, and the refusal to step the processor after the program has
ended. -/
theorem representation_kept [Logger] :
    ∀ (image : Image) (source : Option (List UInt8)) (m : Machine) (ops : List Operation),
      boot image source = .ok m →
      ((session ops).run m).state.IsSixteenBit
        ∧ ∀ (op : Operation) (fault : Fault), op.executes = true →
            (op.perform.run ((session ops).run m).state).outcome = .error fault →
            (fault.isOfProgram = true
                ∨ op = .processorStep ∧ ((session ops).run m).state.processor.phase = .halted
                    ∧ fault = .halted)
              ∧ ∀ text ∈ Fault.internalTexts, ¬text.toList <+: fault.message.toList := by
  intro image source m ops _
  refine ⟨isSixteenBit _, ?_⟩
  intro op fault hop hfault
  have hcause := fault_of_executing hop hfault
  refine ⟨hcause, Fault.not_internal_message ?_⟩
  rcases hcause with hof | ⟨-, -, hhalted⟩
  · exact .inl hof
  · exact .inr hhalted

/-- A program that jumps to a negative address. -/
def misdirected : Image where
  program := [some { operation := "JMP", mode := some "const", data := some (-1) }]

/-- The least number of 64 bits is put into a register, the arithmetic unit is given signals that do
not exist, and the machine is stepped. -/
def astray : List Operation :=
  [.datapath (.poke .acc (-9223372036854775808)), .datapath (.operate 0xFF), .step]

/-- The next step fetches from the negative address. -/
theorem representation_kept_misdirected :
    letI := Logger.silent
    ∃ m, boot misdirected (some []) = .ok m
      ∧ ((session astray).run m).state.IsSixteenBit
      ∧ (Operation.step.perform.run ((session astray).run m).state).outcome
          = .error (.negativeInstructionAddress (-1))
      ∧ Fault.isOfProgram (.negativeInstructionAddress (-1)) = true := by
  have hkept := @representation_kept .silent misdirected (some []) _ astray rfl
  refine ⟨_, rfl, hkept.1, rfl, ?_⟩
  rcases (hkept.2 .step _ rfl rfl).1 with hof | ⟨hop, -, -⟩
  · exact hof
  · exact absurd hop (by simp)

end Machine

end TwoBus
