import TwoBus.Number
import TwoBus.Proofs.BusProtocol

/-!
# Contention

Registers keep their sign apart from their magnitude, and where they meet on a bus they are or-ed
together in two's complement. The two do not go together well: the result of a meeting may be a
value that no driver has put there. But it is never out of their range. Between levels that are not
negative no bit is set that is in neither of them; and a negative level only comes closer to zero by
the bits that are set in it.

* `Level.natAbs_toInt_or_lt`: two levels that meet.
* `Level.meets_meeting`: any number of integers that meet.
* `Buses.contention_never_widens`: what is read back from a bus, and what the arithmetic unit takes
  in.
-/

namespace TwoBus

namespace Level

variable {w : Nat}

/-! ## Two levels -/

/-- The sign bit is set where either has set it. -/
theorem toInt_or_neg_iff {x y : Level} : (x ||| y).toInt < 0 ↔ x.toInt < 0 ∨ y.toInt < 0 := by
  have hmsb := BitVec.msb_or (x := x) (y := y)
  rw [BitVec.msb_eq_toInt, BitVec.msb_eq_toInt, BitVec.msb_eq_toInt] at hmsb
  simpa only [decide_eq_true_eq, Bool.or_eq_true] using Bool.eq_iff_iff.mp hmsb

theorem toInt_eq_zero_iff {x : Level} : x.toInt = 0 ↔ x = 0#64 := by
  rw [← BitVec.toInt_inj]
  rfl

/-- To set bits in a level that is negative brings it closer to zero. -/
theorem toInt_le_toInt_or {x : Level} (hneg : x.toInt < 0) (y : Level) :
    x.toInt ≤ (x ||| y).toInt := by
  have hmeet : (x ||| y).toInt < 0 := toInt_or_neg_iff.mpr (.inl hneg)
  have hle : x.toNat ≤ (x ||| y).toNat := by
    rw [BitVec.toNat_or]
    exact Nat.left_le_or
  have hx := BitVec.toInt_eq_msb_cond x
  have hmeets := BitVec.toInt_eq_msb_cond (x ||| y)
  rw [BitVec.msb_eq_toInt, if_pos (decide_eq_true hneg)] at hx
  rw [BitVec.msb_eq_toInt, if_pos (decide_eq_true hmeet)] at hmeets
  omega

/-- A negative level stays in the range that it is in, whatever it meets. -/
theorem natAbs_toInt_or_lt_of_neg {x : Level} (hneg : x.toInt < 0)
    (hx : x.toInt.natAbs < twoPow w) (y : Level) : (x ||| y).toInt.natAbs < twoPow w := by
  have hle := toInt_le_toInt_or hneg y
  have hmeet : (x ||| y).toInt < 0 := toInt_or_neg_iff.mpr (.inl hneg)
  omega

theorem toNat_eq_natAbs {x : Level} (hpos : ¬x.toInt < 0) : x.toNat = x.toInt.natAbs := by
  have hx := BitVec.toInt_eq_msb_cond x
  rw [BitVec.msb_eq_toInt, if_neg (by simpa using hpos)] at hx
  omega

/-- Two levels that meet stay in the range that they are in. -/
theorem natAbs_toInt_or_lt {x y : Level} (hx : x.toInt.natAbs < twoPow w)
    (hy : y.toInt.natAbs < twoPow w) : (x ||| y).toInt.natAbs < twoPow w := by
  by_cases hnegx : x.toInt < 0
  · exact natAbs_toInt_or_lt_of_neg hnegx hx y
  by_cases hnegy : y.toInt < 0
  · rw [BitVec.or_comm]
    exact natAbs_toInt_or_lt_of_neg hnegy hy x
  · -- below the sign, the bits of the two are those of their magnitudes
    have hmeet : ¬(x ||| y).toInt < 0 := by
      rw [toInt_or_neg_iff]
      exact not_or.mpr ⟨hnegx, hnegy⟩
    rw [← toNat_eq_natAbs hnegx] at hx
    rw [← toNat_eq_natAbs hnegy] at hy
    rw [← toNat_eq_natAbs hmeet, BitVec.toNat_or]
    exact Nat.or_lt_two_pow hx hy

/-! ## Any number of integers -/

/-- Where integers meet: or-ed together in two's complement, in the order in which they are
driven. -/
def meeting (vs : List Int) : Level := vs.foldl (fun level v => level ||| .ofInt 64 v) 0#64

/-- A level that drivers of `w` bits can have made. -/
structure Meets (w : Nat) (vs : List Int) (level : Level) : Prop where
  natAbs_lt : level.toInt.natAbs < twoPow w
  neg_iff : level.toInt < 0 ↔ ∃ v ∈ vs, v < 0
  zero_iff : level.toInt = 0 ↔ ∀ v ∈ vs, v = 0

theorem meeting_concat (vs : List Int) (v : Int) :
    meeting (vs ++ [v]) = meeting vs ||| .ofInt 64 v := by
  rw [meeting, List.foldl_append]
  rfl

/-- One more driver. -/
theorem Meets.concat {vs : List Int} {level : Level} (h : Meets w vs level) (hw : w ≤ 62) {v : Int}
    (hv : v.natAbs < twoPow w) : Meets w (vs ++ [v]) (level ||| .ofInt 64 v) := by
  -- sixty-four bits hold the driver as it is
  have hexact : (BitVec.ofInt 64 v).toInt = v := Word.toInt_ofInt_level hw ⟨v, hv⟩
  refine ⟨natAbs_toInt_or_lt h.natAbs_lt (by rwa [hexact]), ?_, ?_⟩
  · rw [toInt_or_neg_iff, h.neg_iff, hexact]
    simp only [List.mem_append, List.mem_singleton, or_and_right, exists_or, exists_eq_left]
  · rw [toInt_eq_zero_iff, BitVec.or_eq_zero_iff, ← toInt_eq_zero_iff, ← toInt_eq_zero_iff,
      h.zero_iff, hexact]
    simp only [List.mem_append, List.mem_singleton, or_imp, forall_and, forall_eq]

/-- However many integers of `w` bits meet, they have made a level that they can make. -/
theorem meets_meeting (hw : w ≤ 62) {vs : List Int} (hvs : ∀ v ∈ vs, v.natAbs < twoPow w) :
    Meets w vs (meeting vs) := by
  induction vs using List.reverseRecOn with
  | nil => exact ⟨twoPow_pos w, by simp [meeting], by simp [meeting]⟩
  | append_singleton vs v ih =>
    have hinit : ∀ u ∈ vs, u.natAbs < twoPow w := fun u hu => hvs u (List.mem_append_left _ hu)
    rw [meeting_concat]
    exact (ih hinit).concat hw (hvs v (List.mem_append_right _ (List.mem_singleton_self v)))

end Level

namespace Buses

/-! ## Read back from a bus -/

/-- Some values are driven onto a bus, one after the other, and the driving is ended. -/
def driving (bus : Bus) (vs : List Int) : List Call := vs.map (.assign bus) ++ [.freeze]

theorem level_after_assign [Logger] (bus : Bus) (vs : List Int) :
    ((after (vs.map (.assign bus))).level bus).getD 0 = Level.meeting vs := by
  induction vs using List.reverseRecOn with
  | nil => cases bus <;> rfl
  | append_singleton vs v ih =>
    have hlive : .freeze ∉ vs.map (Call.assign bus) := by simp
    rw [List.map_append, List.map_singleton, after_concat,
      Call.level_next_assign (live_after hlive), Option.getD_some, ih, Level.meeting_concat]

/-- What is read back is where the drivers meet. -/
theorem reply_sample_driving [Logger] (bus : Bus) (vs : List Int) :
    reply (driving bus vs) (.sample bus) = .ok (.carried (Level.meeting vs).toInt) := by
  have hfrozen : (after (driving bus vs)).frozen = true :=
    (frozen_after _).mpr (List.mem_append_right _ (List.mem_singleton_self _))
  have hlevel : (after (driving bus vs)).level bus = (after (vs.map (.assign bus))).level bus := by
    have hfreeze : ∀ v, Call.freeze ≠ .assign bus v := nofun
    rw [driving, after_concat, Call.level_next_of_ne hfreeze]
  rw [reply_eq, Call.answer, hfrozen, if_pos rfl, value, hlevel, level_after_assign]

/-! ## Taken in by the arithmetic unit -/

/-- Registers of a supported width that meet on a bus stay within that width, whichever of them
drive it. -/
theorem natAbs_busValue_lt {w : Nat} (hw : w ≤ 62) (file : RegisterFile w) (bus : Bus) :
    (file.busValue bus).natAbs < twoPow w := by
  have hshown : ∀ r, (file.shownLevel r).toInt.natAbs < twoPow w := by
    intro r
    rw [RegisterFile.shownLevel, Word.toInt_ofInt_level hw]
    exact Word.natAbs_lt _
  cases bus with
  | a => exact Level.natAbs_toInt_or_lt (hshown .acc) (hshown .ip)
  | b => exact Level.natAbs_toInt_or_lt (hshown .ar) (hshown .dr)

/-- No more than a word of 16 bits is driven by registers that are no wider. -/
theorem toInt_ofInt_busValue {w : Nat} (hw : w ≤ 16) (file : RegisterFile w) (bus : Bus) :
    (Word.ofInt 16 (file.busValue bus)).toInt = file.busValue bus := by
  have hlt := natAbs_busValue_lt (Nat.le_trans hw (by decide)) file bus
  have hle : twoPow w ≤ twoPow 16 := Nat.pow_le_pow_right (by decide) hw
  exact truncate_of_natAbs_lt (Nat.lt_of_lt_of_le hlt hle)

/-- Contention never widens a value. If values of a supported width are driven onto a bus, what is
read back is where they meet, or-ed together in two's complement. It is of that width too; it is
negative if one of them is, and zero if all of them are, and not otherwise. So in one cycle of the
buses, with whichever gates open, the registers stay within their width; and if that is no more than
the 16 bits of the arithmetic unit, it takes both buses in as they are. -/
theorem contention_never_widens [Logger] :
    (∀ (width : Width) (bus : Bus) (vs : List Int),
        (∀ v ∈ vs, v.natAbs ≤ twoPow width.bits - 1) →
        ∃ v, reply (driving bus vs) (.sample bus) = .ok (.carried v)
          ∧ v = (Level.meeting vs).toInt
          ∧ v.natAbs ≤ twoPow width.bits - 1
          ∧ (v < 0 ↔ ∃ u ∈ vs, u < 0)
          ∧ (v = 0 ↔ ∀ u ∈ vs, u = 0))
      ∧ ∀ (width : Width) (file : RegisterFile width.bits),
        ∃ left right, (file.sampleBuses.run {}).outcome = .ok (left, right)
          ∧ left.natAbs ≤ twoPow width.bits - 1 ∧ right.natAbs ≤ twoPow width.bits - 1
          ∧ (width.bits ≤ 16 →
              (Word.ofInt 16 left).toInt = left ∧ (Word.ofInt 16 right).toInt = right) := by
  constructor
  · intro width bus vs hvs
    have hpos := twoPow_pos width.bits
    have hmeets : Level.Meets width.bits vs (Level.meeting vs) :=
      Level.meets_meeting width.bits_le fun v hv =>
        Nat.lt_of_le_of_lt (hvs v hv) (Nat.sub_one_lt_of_lt hpos)
    exact ⟨_, reply_sample_driving bus vs, rfl, Nat.le_sub_one_of_lt hmeets.natAbs_lt,
      hmeets.neg_iff, hmeets.zero_iff⟩
  · intro width file
    have hlt := natAbs_busValue_lt width.bits_le file
    obtain ⟨buses, hrun⟩ := file.run_sampleBuses
    refine ⟨_, _, congrArg Reaction.outcome hrun, Nat.le_sub_one_of_lt (hlt .a),
      Nat.le_sub_one_of_lt (hlt .b), fun hnarrow => ?_⟩
    exact ⟨toInt_ofInt_busValue hnarrow file .a, toInt_ofInt_busValue hnarrow file .b⟩

/-- The two ends of the range meet on one bus, and a pair of magnitudes without a bit in common on
the other. -/
def crowded : RegisterFile 16 where
  acc := { word := .ofInt 16 65535, readOpen := true }
  ar := { word := .ofInt 16 0xF0F0, readOpen := true }
  dr := { word := .ofInt 16 0x0F0F, readOpen := true }
  ip := { word := .ofInt 16 (-65535), readOpen := true }

/-- What is read back is neither the greatest nor the least of the drivers, nor one of them. -/
theorem contention_never_widens_crowded :
    letI := Logger.silent
    (∃ v, reply (driving .b [12, -31, 0, -24]) (.sample .b) = .ok (.carried v) ∧ v = -19
        ∧ v.natAbs ≤ twoPow 5 - 1)
      ∧ ∃ left right, (crowded.sampleBuses.run {}).outcome = .ok (left, right)
        ∧ (Word.ofInt 16 left).toInt = left ∧ (Word.ofInt 16 right).toInt = right := by
  obtain ⟨hdriven, hsampled⟩ := @contention_never_widens .silent
  obtain ⟨v, hreply, hv, hfits, -, -⟩ :=
    hdriven ⟨5, by decide, by decide⟩ .b [12, -31, 0, -24] (by decide)
  obtain ⟨left, right, hsample, -, -, hexact⟩ := hsampled .machine crowded
  exact ⟨⟨v, hreply, hv, hfits⟩, left, right, hsample, hexact (Nat.le_refl 16)⟩

end Buses

end TwoBus
