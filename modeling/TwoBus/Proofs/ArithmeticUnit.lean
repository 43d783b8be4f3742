import TwoBus.Operation
import TwoBus.Proofs.BusCycle

/-!
# The arithmetic unit by its formula

The arithmetic unit is asked to work by a control byte. It refuses a byte that has a bit beside its
three signals, and then nothing has happened. Any other byte is obeyed, whatever the registers hold,
however wide they are and whichever gates are open: the result is a formula over what the registers
showed beforehand (`Datapath.formula`), and the registers with an open write gate take it.

* `Signals.ofByte?_of_stray`, `Signals.ofByte?_of_signals`: the control byte, read bit by bit.
* `Datapath.operate_by_formula`: the operation, in full.
-/

namespace TwoBus

namespace Signals

/-- A byte has eight bits. -/
theorem lt_of_testBit {byte : UInt8} {k : Nat} (h : byte.toNat.testBit k = true) : k < 8 := by
  refine Nat.lt_of_not_le fun hle => ?_
  have hlt : byte.toNat < Nat.pow 2 k :=
    Nat.lt_of_lt_of_le byte.toNat_lt (Nat.pow_le_pow_right (by decide) hle)
  rw [Nat.testBit_lt_two_pow hlt] at h
  exact absurd h (by decide)

/-- A byte meets a mask in one of its bits. -/
theorem and_ne_zero_iff {byte mask : UInt8} :
    byte &&& mask ≠ 0 ↔ ∃ k < 8, mask.toNat.testBit k = true ∧ byte.toNat.testBit k = true := by
  rw [ne_eq, ← UInt8.toNat_inj, UInt8.toNat_and]
  constructor
  · intro hne
    obtain ⟨k, hk⟩ := Nat.exists_testBit_of_ne_zero hne
    rw [Nat.testBit_and, Bool.and_eq_true] at hk
    exact ⟨k, lt_of_testBit hk.1, hk.2, hk.1⟩
  · rintro ⟨k, -, hmask, hbyte⟩ hzero
    have hbit := congrArg (Nat.testBit · k) hzero
    simp [Nat.testBit_and, hmask, hbyte] at hbit

/-- Bits that stand for no signal make a byte unknown. -/
theorem ofByte?_of_stray {byte : UInt8} (h : ∃ k, 3 ≤ k ∧ byte.toNat.testBit k = true) :
    ofByte? byte = .error .unknownSignal := by
  obtain ⟨k, hk, hbit⟩ := h
  have hmask : ∀ k < 8, 3 ≤ k → (0xF8 : UInt8).toNat.testBit k = true := by decide
  have hlt : k < 8 := lt_of_testBit hbit
  exact if_neg (and_ne_zero_iff.mpr ⟨k, hlt, hmask k hlt hk, hbit⟩)

/-- A mask of a single bit asks for that bit. -/
theorem decide_and_ne_zero {byte mask : UInt8} {j : Nat}
    (hmask : ∀ k < 8, mask.toNat.testBit k = decide (k = j)) (hj : j < 8) :
    decide (byte &&& mask ≠ 0) = byte.toNat.testBit j := by
  rw [Bool.eq_iff_iff, decide_eq_true_eq, and_ne_zero_iff]
  constructor
  · rintro ⟨k, hk, hbit, hbyte⟩
    rw [hmask k hk, decide_eq_true_eq] at hbit
    rwa [← hbit]
  · intro hbyte
    exact ⟨j, hj, by rw [hmask j hj, decide_eq_true rfl], hbyte⟩

/-- The signals that the lowest bits of a byte stand for. -/
def ofBits (byte : UInt8) : Signals where
  increment := byte.toNat.testBit 0
  invertLeft := byte.toNat.testBit 1
  invertRight := byte.toNat.testBit 2

/-- A byte without such bits gives its three signals. -/
theorem ofByte?_of_signals {byte : UInt8} (h : ∀ k, 3 ≤ k → byte.toNat.testBit k = false) :
    ofByte? byte = .ok (ofBits byte) := by
  have hmask : ∀ k < 8, (0xF8 : UInt8).toNat.testBit k = true → 3 ≤ k := by decide
  have hnone : byte &&& 0xF8 = 0 := by
    refine Decidable.not_not.mp fun hne => ?_
    obtain ⟨k, hlt, hk, hbit⟩ := and_ne_zero_iff.mp hne
    rw [h k (hmask k hlt hk)] at hbit
    exact absurd hbit (by decide)
  unfold ofByte?
  rw [if_pos hnone, decide_and_ne_zero (j := 0) (by decide) (by decide),
    decide_and_ne_zero (j := 1) (by decide) (by decide),
    decide_and_ne_zero (j := 2) (by decide) (by decide)]
  rfl

end Signals

namespace Datapath

variable {w : Nat}

/-- Where two registers meet: what they show, or-ed together in two's complement. -/
def meeting (x y : Register w) : Int :=
  (BitVec.ofInt 64 x.read.toInt ||| BitVec.ofInt 64 y.read.toInt).toInt

/-- What the arithmetic unit makes of the values on its two sides, given its control byte. -/
def formula (byte : UInt8) (left right : Int) : Int :=
  let i := if byte.toNat.testBit 0 then 1 else 0
  let l := if byte.toNat.testBit 1 then -truncate 16 left else truncate 16 left
  let r := if byte.toNat.testBit 2 then -truncate 16 right else truncate 16 right
  truncate 16 (truncate 16 (i + l) + r)

/-- The sum of the two buses is the formula over the registers that drive them. -/
theorem toInt_sum (d : Datapath w) (byte : UInt8) :
    (d.sum (.ofBits byte)).toInt
      = formula byte (meeting d.registers.acc d.registers.ip)
          (meeting d.registers.dr d.registers.ar) := by
  have hleft : d.registers.busValue .a = meeting d.registers.acc d.registers.ip := rfl
  have hright : d.registers.busValue .b = meeting d.registers.dr d.registers.ar :=
    congrArg BitVec.toInt (BitVec.or_comm _ _)
  rw [sum, Signals.toInt_combine, hleft, hright]
  rfl

theorem run_operate_of_stray [Logger] {byte : UInt8} (h : ∃ k, 3 ≤ k ∧ byte.toNat.testBit k = true)
    (d : Datapath w) : (Operation.operate byte).perform.run d = ⟨.error .unknownSignal, d, []⟩ := by
  rw [Operation.perform, Activity.run_bind, Activity.run_lift, Signals.ofByte?_of_stray h,
    Reaction.andThen_error]

theorem run_operate_of_signals [Logger] {byte : UInt8}
    (h : ∀ k, 3 ≤ k → byte.toNat.testBit k = false) (d : Datapath w) :
    (Operation.operate byte).perform.run d
      = ⟨.ok .done, ⟨d.registers.latch (d.sum (.ofBits byte)).toInt, d.sum (.ofBits byte)⟩,
          (d.cycleEvents (.ofBits byte)).map (Entry.of (some .buses))⟩ := by
  rw [Operation.perform, Activity.run_bind, Activity.run_lift, Signals.ofByte?_of_signals h,
    Reaction.andThen_ok, Reaction.after_nil, Activity.run_bind, run_operate, Reaction.andThen_ok,
    Activity.run_pure, Reaction.after_mk, List.append_nil]

/-- The arithmetic unit works by its formula. A control byte with a bit beside the three signals is
refused, with registers, gates and the last result as they were. Any other is obeyed without a
fault: the result is the formula over what the registers showed before any of them changed, and the
registers whose write gate is open store it, truncated to their own width. Nothing else changes. -/
theorem operate_by_formula [Logger] (width : Width) (d : Datapath width.bits) (byte : UInt8) :
    ((∃ k, 3 ≤ k ∧ byte.toNat.testBit k = true) →
        (Operation.operate byte).perform.run d = ⟨.error .unknownSignal, d, []⟩
          ∧ Fault.unknownSignal.kind = .machine)
      ∧ ((∀ k, 3 ≤ k → byte.toNat.testBit k = false) →
        ∃ d' t, (Operation.operate byte).perform.run d = ⟨.ok .done, d', t⟩
          ∧ d'.result.toInt = formula byte (meeting d.registers.acc d.registers.ip)
              (meeting d.registers.dr d.registers.ar)
          ∧ ∀ r, d'.registers.get r =
              if (d.registers.get r).writeOpen then
                { d.registers.get r with word := .ofInt width.bits d'.result.toInt }
              else d.registers.get r) := by
  constructor
  · intro hstray
    exact ⟨run_operate_of_stray hstray d, rfl⟩
  · intro hsignals
    have hget := d.registers.get_latch (d.sum (.ofBits byte)).toInt
    exact ⟨_, _, run_operate_of_signals hsignals d, toInt_sum d byte, hget⟩

/-- Both registers of the left bus drive it, and one of them takes the result as well. -/
def contended : Datapath 20 where
  registers := {
    acc := ⟨.ofInt 20 70000, true, true⟩
    ar := ⟨.ofInt 20 7, false, true⟩
    dr := ⟨.ofInt 20 (-9), true, false⟩
    ip := ⟨.ofInt 20 5, true, false⟩ }

/-- Both operands are inverted. With one bit more the byte is refused. -/
theorem operate_by_formula_contended :
    letI := Logger.silent
    (Operation.operate 14).perform.run contended = ⟨.error .unknownSignal, contended, []⟩
      ∧ ∃ d' t, (Operation.operate 6).perform.run contended = ⟨.ok .done, d', t⟩
        ∧ d'.result.toInt = -4460
        ∧ d'.registers.acc = ⟨.ofInt 20 (-4460), true, true⟩
        ∧ d'.registers.ip = contended.registers.ip := by
  have hstray : ∃ k, 3 ≤ k ∧ (14 : UInt8).toNat.testBit k = true := ⟨3, by decide, by decide⟩
  have hsignals : ∀ k, 3 ≤ k → (6 : UInt8).toNat.testBit k = false := by
    intro k hk
    have hlow : ∀ k < 8, 3 ≤ k → (6 : UInt8).toNat.testBit k = false := by decide
    rw [Bool.eq_false_iff]
    intro hbit
    rw [hlow k (Signals.lt_of_testBit hbit) hk] at hbit
    exact absurd hbit (by decide)
  have hwide := @operate_by_formula .silent ⟨20, by decide, by decide⟩ contended
  obtain ⟨d', t, hperform, hresult, hregisters⟩ := (hwide 6).2 hsignals
  have hvalue : d'.result.toInt = -4460 := hresult
  have hacc := hregisters .acc
  rw [hvalue] at hacc
  exact ⟨((hwide 14).1 hstray).1, d', t, hperform, hvalue, hacc, hregisters .ip⟩

end Datapath

end TwoBus
