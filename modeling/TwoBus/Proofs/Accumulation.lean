import TwoBus.Proofs.Steps

/-!
# Arithmetic on the accumulator

A straight line of instructions that count up, invert, add an immediate or subtract one, however
long it is, leaves in the accumulator the residue of the exact result modulo `2 ^ 16`, in a word of
16 bits. Sums and immediates are truncated on the way, each on its own and with its sign kept apart,
but what each of these loses is a multiple of `2 ^ 16`. If nothing on the way is too large for a
word, nothing is lost.

* `Calculation.dvd_exact_sub_apply`, `Calculation.apply_eq_exact`: one instruction.
* `Core.Faces.step`, `Machine.runs_of_faces`: a step, and the whole line.
* `Machine.accumulates`: the residue of the exact result.
-/

namespace TwoBus

/-- A calculation with the accumulator alone, or with the accumulator and an immediate. -/
inductive Calculation
  | increment
  | invert
  | add (k : Int)
  | subtract (k : Int)
  deriving DecidableEq, Repr

namespace Calculation

def opcode : Calculation → Opcode
  | increment => .increment
  | invert => .invert
  | add _ => .add
  | subtract _ => .subtract

def immediate? : Calculation → Option Int
  | increment | invert => none
  | add k | subtract k => some k

/-- The result among the integers. -/
def exact : Calculation → Int → Int
  | increment, v => v + 1
  | invert, v => -v
  | add k, v => v + k
  | subtract k, v => v - k

/-- The result in the accumulator. -/
def apply : Calculation → Word 16 → Word 16
  | increment, v => .ofInt 16 (v.toInt + 1)
  | invert, v => -v
  | add k, v => .ofInt 16 (v.toInt + (Word.ofInt 16 k).toInt)
  | subtract k, v => .ofInt 16 (v.toInt - (Word.ofInt 16 k).toInt)

/-- The result of a line of calculations among the integers. -/
def exactly (xs : List Calculation) (v : Int) : Int := xs.foldl (fun v x => x.exact v) v

/-- The result of a line of calculations in the accumulator. -/
def applied (xs : List Calculation) (v : Word 16) : Word 16 :=
  xs.foldl (fun v x => x.apply v) v

/-! ## Residues -/

theorem dvd_sub_truncate (v : Int) : 65536 ∣ v - truncate 16 v := twoPow_dvd_sub_truncate 16 v

/-- A word that has the residue of an integer has it after the calculation too. -/
theorem dvd_exact_sub_apply (x : Calculation) {e : Int} {v : Word 16} (h : 65536 ∣ e - v.toInt) :
    65536 ∣ x.exact e - (x.apply v).toInt := by
  cases x with
  | increment =>
    have hsum := dvd_sub_truncate (v.toInt + 1)
    show 65536 ∣ e + 1 - truncate 16 (v.toInt + 1)
    omega
  | invert =>
    show 65536 ∣ -e - -v.toInt
    omega
  | add k =>
    -- the immediate is truncated first, and then the sum
    have himmediate := dvd_sub_truncate k
    have hsum := dvd_sub_truncate (v.toInt + truncate 16 k)
    show 65536 ∣ e + k - truncate 16 (v.toInt + truncate 16 k)
    omega
  | subtract k =>
    have himmediate := dvd_sub_truncate k
    have hsum := dvd_sub_truncate (v.toInt - truncate 16 k)
    show 65536 ∣ e - k - truncate 16 (v.toInt - truncate 16 k)
    omega

theorem dvd_exactly_sub_applied (xs : List Calculation) {e : Int} {v : Word 16}
    (h : 65536 ∣ e - v.toInt) : 65536 ∣ exactly xs e - (applied xs v).toInt := by
  induction xs generalizing e v with
  | nil => exact h
  | cons x xs ih => exact ih (x.dvd_exact_sub_apply h)

theorem truncate_of_natAbs_le {v : Int} (h : v.natAbs ≤ 65535) : truncate 16 v = v :=
  truncate_of_natAbs_lt (Nat.lt_succ_of_le h)

/-- The immediate, if there is one, is as small as a word. -/
def IsSmall (x : Calculation) : Prop := ∀ k, x.immediate? = some k → k.natAbs ≤ 65535

/-- With a small immediate, a result that fits into a word is the exact one. -/
theorem apply_eq_exact {x : Calculation} {v : Word 16} (hsmall : x.IsSmall)
    (hfits : (x.exact v.toInt).natAbs ≤ 65535) : (x.apply v).toInt = x.exact v.toInt := by
  cases x with
  | increment => exact truncate_of_natAbs_le hfits
  | invert => rfl
  | add k =>
    show truncate 16 (v.toInt + truncate 16 k) = v.toInt + k
    rw [truncate_of_natAbs_le (hsmall k rfl)]
    exact truncate_of_natAbs_le hfits
  | subtract k =>
    show truncate 16 (v.toInt - truncate 16 k) = v.toInt - k
    rw [truncate_of_natAbs_le (hsmall k rfl)]
    exact truncate_of_natAbs_le hfits

/-- If all results on the way fit into a word, the last one is exact. -/
theorem applied_eq_exactly {xs : List Calculation} {v : Word 16}
    (hsmall : ∀ x ∈ xs, x.IsSmall)
    (hfits : ∀ n ≤ xs.length, (exactly (xs.take n) v.toInt).natAbs ≤ 65535) :
    (applied xs v).toInt = exactly xs v.toInt := by
  induction xs generalizing v with
  | nil => rfl
  | cons x xs ih =>
    have hfirst : (x.apply v).toInt = x.exact v.toInt :=
      apply_eq_exact (hsmall x List.mem_cons_self) (hfits 1 (Nat.succ_le_succ (Nat.zero_le _)))
    show (applied xs (x.apply v)).toInt = exactly xs (x.exact v.toInt)
    rw [← hfirst]
    apply ih
    · intro y hy
      exact hsmall y (List.mem_cons_of_mem x hy)
    · intro n hn
      rw [hfirst]
      exact hfits (n + 1) (Nat.succ_le_succ hn)

end Calculation

/-! ## Instructions that calculate -/

/-- An instruction names a calculation. Where there is an immediate, it is a constant. -/
structure Instruction.Calculates (inst : Instruction) (x : Calculation) : Prop where
  operation : inst.opcode? = some x.opcode
  operand : ∀ k, x.immediate? = some k → inst.mode? = some .constant ∧ inst.data = some k

namespace Core

variable {c : Core} {inst : Instruction} {x : Calculation}

/-- A calculation has no cause to fault. -/
theorem stepFault?_of_calculates (hpos : 0 ≤ c.ip.toInt) (hcell : c.cell = some inst)
    (h : inst.Calculates x) : c.stepFault? = none := by
  cases x with
  | increment | invert => exact stepFault?_of_not_consults hpos hcell h.operation rfl
  | add k | subtract k =>
    obtain ⟨hmode, hdata⟩ := h.operand k rfl
    exact stepFault?_of_constant hpos hcell h.operation hmode hdata rfl

/-- A calculation changes the accumulator and goes on to the next cell. -/
theorem carriedOut_of_calculates (h : inst.Calculates x) :
    (c.carriedOut inst x.opcode).acc = x.apply c.acc
      ∧ (c.carriedOut inst x.opcode).ip = .ofInt 16 (c.ip.toInt + 1)
      ∧ (c.carriedOut inst x.opcode).program = c.program
      ∧ (c.carriedOut inst x.opcode).phase = .idle := by
  cases x with
  | increment | invert => exact ⟨rfl, rfl, rfl, rfl⟩
  | add k | subtract k =>
    obtain ⟨hmode, hdata⟩ := h.operand k rfl
    unfold carriedOut
    rw [withOperand_of_constant hmode hdata]
    exact ⟨rfl, rfl, rfl, rfl⟩

/-- Between two steps a core is about to execute a line of calculations, which lie in one program
cell after another, and around the end of the memory if they reach it. -/
structure Faces (c : Core) (xs : List Calculation) : Prop where
  live : c.phase ≠ .halted
  address : 0 ≤ c.ip.toInt
  cells : ∀ k (hk : k < xs.length), ∃ inst,
    c.program.cells.get ((c.ip.toInt.toNat + k) % 65536) = some inst ∧ inst.Calculates xs[k]

namespace Faces

variable {xs : List Calculation}

theorem cell (h : c.Faces (x :: xs)) : ∃ inst, c.cell = some inst ∧ inst.Calculates x := by
  obtain ⟨inst, hcell, hinst⟩ := h.cells 0 (Nat.succ_pos _)
  exact ⟨inst, c.cellAfter_zero.symm.trans hcell, hinst⟩

/-- One step carries out the first calculation and has the others before it. -/
theorem step [Logger] (h : c.Faces (x :: xs)) :
    ∃ c', c.Steps c' ∧ c'.Faces xs ∧ c'.acc = x.apply c.acc := by
  obtain ⟨inst, hcell, hinst⟩ := h.cell
  have hsound := stepFault?_of_calculates h.address hcell hinst
  obtain ⟨hacc, hip, hprogram, hphase⟩ := carriedOut_of_calculates (c := c.executing inst) hinst
  have hnext : c.StepsOn ((c.executing inst).carriedOut inst x.opcode) :=
    ⟨steps_carriedOut h.live hcell hinst.operation hsound, hprogram, hip, hphase⟩
  refine ⟨_, hnext.steps, ⟨hnext.live, hnext.nonneg h.address, ?_⟩, hacc⟩
  intro k hk
  obtain ⟨inst', hcell', hinst'⟩ := h.cells (k + 1) (Nat.succ_lt_succ hk)
  exact ⟨inst', (hnext.cellAfter h.address k).trans hcell', hinst'⟩

end Faces

end Core

namespace Machine

variable {m : Machine} {xs : List Calculation}

/-- The value that the accumulator stores. -/
def accumulator (m : Machine) : Int := m.processor.registers.acc.word.toInt

/-- As many steps as there are calculations carry all of them out. -/
theorem runs_of_faces [Logger] {c : Core} (hm : m.processor = c.toProcessor) (h : c.Faces xs) :
    ∃ t m', Runs xs.length m t m' ∧ m'.accumulator = (Calculation.applied xs c.acc).toInt := by
  induction xs generalizing m c with
  | nil =>
    refine ⟨[], m, .none, ?_⟩
    unfold accumulator
    rw [hm]
    rfl
  | cons x xs ih =>
    obtain ⟨c₁, hsteps, hfaces, hacc₁⟩ := h.step
    obtain ⟨t₁, hfirst⟩ := runs_of_steps hm h.live hsteps hfaces.live
    obtain ⟨t₂, m₂, hrest, hacc₂⟩ :=
      ih (m := ({ m with processor := c₁.toProcessor } : Machine).count) rfl hfaces
    refine ⟨t₁ ++ t₂, m₂, ?_, ?_⟩
    · rw [List.length_cons, Nat.add_comm]
      exact hfirst.trans hrest
    · rw [hacc₂, hacc₁]
      rfl

/-- A line of calculations of any length is carried out without a fault, one in each step. It ends
with a word of 16 bits in the accumulator that is congruent to the exact result modulo `2 ^ 16`. If
all immediates and all exact results on the way, from the accumulator before the first calculation
to the last result, have a magnitude of at most 65535, it is the exact result. -/
theorem accumulates [Logger] (hquiet : m.processor.registers.IsQuiet)
    (h : m.processor.core.Faces xs) :
    ∃ t m', Runs xs.length m t m'
      ∧ m'.accumulator.natAbs ≤ 65535
      ∧ m'.accumulator % 65536 = Calculation.exactly xs m.accumulator % 65536
      ∧ (∃ j, m'.accumulator = Calculation.exactly xs m.accumulator + 65536 * j)
      ∧ ((∀ x ∈ xs, ∀ k, x.immediate? = some k → k.natAbs ≤ 65535) →
        (∀ n ≤ xs.length,
          (Calculation.exactly (xs.take n) m.accumulator).natAbs ≤ 65535) →
        m'.accumulator = Calculation.exactly xs m.accumulator) := by
  obtain ⟨t, m', hruns, hacc⟩ := runs_of_faces (Core.toProcessor_core hquiet).symm h
  have hlt : m'.accumulator.natAbs < 65536 := Word.natAbs_lt _
  have hresidue : 65536 ∣ Calculation.exactly xs m.accumulator - m'.accumulator := by
    rw [hacc]
    apply Calculation.dvd_exactly_sub_applied
    exact ⟨0, Int.sub_self _⟩
  refine ⟨t, m', hruns, Nat.le_of_lt_succ hlt, ?_, ?_, ?_⟩
  · omega
  · obtain ⟨j, hj⟩ := hresidue
    exact ⟨-j, by omega⟩
  · intro hsmall hfits
    rw [hacc]
    exact Calculation.applied_eq_exactly hsmall hfits

/-- A program that starts in the last but one cell of its memory, with the accumulator at its lower
end. -/
def winding : Machine where
  processor := {
    datapath.registers := {
      acc := { word := .ofInt 16 (-65535) }
      ip := { word := .ofInt 16 65534 } }
    program := ⟨((Bank.ofList 16 none [
        some { operation := "SUB", mode := some "const", data := some 70000 },
        some { operation := "INV" }]).set 65534
        (some { operation := "INC" })).set 65535
        (some { operation := "ADD", mode := some "const", data := some 9223372036854775807 })⟩
    memory := ⟨.uniform 0, {}⟩ }

/-- The first result is still exact. The second immediate is not small, and neither is the third. -/
theorem accumulates_winding :
    letI := Logger.silent
    (∃ t m', Runs 1 winding t m' ∧ m'.accumulator = -65534)
      ∧ ∃ t m', Runs 4 winding t m' ∧ m'.accumulator.natAbs ≤ 65535
        ∧ ∃ j, m'.accumulator = -9223372036854640273 + 65536 * j := by
  let := Logger.silent
  have hquiet : winding.processor.registers.IsQuiet := winding.processor.core.isQuiet_file
  have hline : winding.processor.core.Faces
      [.increment, .add 9223372036854775807, .subtract 70000, .invert] := by
    refine ⟨by decide, by decide, ?_⟩
    intro k hk
    match k, hk with
    | 0, _ => exact ⟨_, rfl, rfl, fun k h => nomatch h⟩
    | 1, _ => exact ⟨_, rfl, rfl, fun k h => ⟨rfl, h⟩⟩
    | 2, _ => exact ⟨_, rfl, rfl, fun k h => ⟨rfl, h⟩⟩
    | 3, _ => exact ⟨_, rfl, rfl, fun k h => nomatch h⟩
  have hfirst : winding.processor.core.Faces [.increment] := by
    refine ⟨hline.live, hline.address, ?_⟩
    intro k hk
    match k, hk with
    | 0, _ => exact hline.cells 0 (by decide)
  constructor
  · obtain ⟨t, m', hruns, -, -, -, hexact⟩ := accumulates hquiet hfirst
    refine ⟨t, m', hruns, hexact ?_ ?_⟩
    · exact List.forall_mem_singleton.mpr fun k h => nomatch h
    · decide
  · obtain ⟨t, m', hruns, hlt, -, hresidue, -⟩ := accumulates hquiet hline
    exact ⟨t, m', hruns, hlt, hresidue⟩

end Machine

end TwoBus
