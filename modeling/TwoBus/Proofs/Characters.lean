import TwoBus.Device.Output
import TwoBus.Proofs.Spelling
import TwoBus.Truncation

/-!
# Characters and their bytes

The encoder puts the bits of a code point behind the marks of its bytes. The bytes that come out are
those of the character in every UTF-8 text (`encodePoint_val`), so a device emits what its reader
takes for the same character.

Each character has one spelling that is written for it, the shortest of its code point. Text is
well-formed if it is made of such spellings alone: none is longer than it needs to be, and none is
that of a surrogate or of a value past the last character. That is the text that characters are
encoded as (`isWellFormed_iff_encoded`).

* `decode_encode`: what is encoded is read again.
* `bytes_determine_text`: so the bytes that an output device emits tell which values it was given.
-/

namespace TwoBus.Text

/-! ## The encoder -/

/-- A mark is added to a payload that has none of its bits. -/
theorem marked_eq_ofNat {mark payload : UInt32} (i : Nat) (hmark : twoPow i ∣ mark.toNat)
    (hpayload : payload.toNat < twoPow i) :
    marked mark payload = .ofNat (payload.toNat + mark.toNat) := by
  obtain ⟨k, hk⟩ := hmark
  have hor : twoPow i * k + payload.toNat = twoPow i * k ||| payload.toNat :=
    Nat.two_pow_add_eq_or_of_lt hpayload k
  refine UInt8.toNat_inj.mp ?_
  rw [marked, UInt32.toNat_toUInt8, UInt32.toNat_or, hk, ← hor, UInt8.toNat_ofNat', Nat.add_comm]

/-- The byte that carries six bits on. -/
theorem marked_low (v : UInt32) : marked 0x80 (v &&& 0x3F) = .ofNat (v.toNat % 64 + 0x80) := by
  have hlow : (v &&& 0x3F).toNat = v.toNat % 64 := by
    rw [UInt32.toNat_and]
    exact Nat.and_two_pow_sub_one_eq_mod _ 6
  have hlt : (v &&& 0x3F).toNat < 64 := hlow ▸ Nat.mod_lt _ (by decide)
  rw [marked_eq_ofNat 6 (by decide) hlt, hlow]
  rfl

theorem toNat_shiftRight_of_lt (v : UInt32) {k : UInt32} (hk : k.toNat < 32) :
    (v >>> k).toNat = v.toNat / twoPow k.toNat := by
  rw [UInt32.toNat_shiftRight, Nat.mod_eq_of_lt hk, Nat.shiftRight_eq_div_pow]
  rfl

/-- The bytes of a character are the ones that the library gives it. -/
theorem encodePoint_val (c : Char) : encodePoint c.val = String.utf8EncodeChar c := by
  have hlt : c.val.toNat < 0x110000 := by
    have hvalid : c.val.toNat.isValidChar := c.valid
    unfold Nat.isValidChar at hvalid
    omega
  unfold encodePoint String.utf8EncodeChar
  generalize c.val = v at *
  have h₁ : v < 0x80 ↔ v.toNat ≤ 0x7F := UInt32.lt_iff_toNat_lt.trans Nat.lt_succ_iff
  have h₂ : v < 0x800 ↔ v.toNat ≤ 0x7FF := UInt32.lt_iff_toNat_lt.trans Nat.lt_succ_iff
  have h₃ : v < 0x10000 ↔ v.toNat ≤ 0xFFFF := UInt32.lt_iff_toNat_lt.trans Nat.lt_succ_iff
  have hsix : (v >>> 6).toNat = v.toNat / 64 := toNat_shiftRight_of_lt v (by decide)
  have htwelve : (v >>> 12).toNat = v.toNat / 4096 := toNat_shiftRight_of_lt v (by decide)
  have height : (v >>> 18).toNat = v.toNat / 262144 := toNat_shiftRight_of_lt v (by decide)
  simp only [h₁, h₂, h₃, marked_low, hsix, htwelve]
  split
  · rfl
  split
  · have hlead : (v >>> 6).toNat < 32 := by omega
    have hmod : v.toNat / 64 % 32 = v.toNat / 64 := Nat.mod_eq_of_lt (hsix ▸ hlead)
    rw [marked_eq_ofNat 5 (by decide) hlead, hsix, hmod]
    rfl
  split
  · have hlead : (v >>> 12).toNat < 16 := by omega
    have hmod : v.toNat / 4096 % 16 = v.toNat / 4096 := Nat.mod_eq_of_lt (htwelve ▸ hlead)
    rw [marked_eq_ofNat 4 (by decide) hlead, htwelve, hmod]
    rfl
  · have hlead : (v >>> 18).toNat < 8 := by omega
    have hmod : v.toNat / 262144 % 8 = v.toNat / 262144 := Nat.mod_eq_of_lt (height ▸ hlead)
    rw [marked_eq_ofNat 3 (by decide) hlead, height, hmod]
    rfl

/-- A code point is a word of 32 bits, so it loses nothing on the way to the encoder. -/
theorem ofInt_toNat (c : Char) : UInt32.ofInt c.toNat = c.val := by
  have hlt : c.val.toNat < 2 ^ 32 := c.val.toNat_lt
  have hmod : ((c.toNat : Int) % 2 ^ 32).toNat = c.val.toNat := by
    show ((c.val.toNat : Int) % 2 ^ 32).toNat = c.val.toNat
    omega
  rw [UInt32.ofInt, hmod, UInt32.ofNat_toNat]

/-! ## The character of a value -/

/-- The character that a value stands for. -/
def character? (v : Int) : Option Char :=
  if 0 ≤ v then
    if h : v.toNat.isValidChar then some (Char.ofNatAux v.toNat h) else none
  else none

/-- A value stands for a character if it is its code point. -/
theorem character?_eq_some_iff {v : Int} {c : Char} : character? v = some c ↔ v = c.toNat := by
  unfold character?
  constructor
  · intro h
    by_cases hneg : 0 ≤ v
    · rw [if_pos hneg] at h
      by_cases hvalid : v.toNat.isValidChar
      · rw [dif_pos hvalid] at h
        obtain rfl := Option.some.inj h
        show v = v.toNat
        omega
      · rw [dif_neg hvalid] at h
        exact absurd h (by simp)
    · rw [if_neg hneg] at h
      exact absurd h (by simp)
  · rintro rfl
    have hvalid : (c.toNat : Int).toNat.isValidChar := c.valid
    rw [if_pos (Int.natCast_nonneg _), dif_pos hvalid]
    exact congrArg some (Char.toNat_inj.mp rfl)

theorem character?_eq_none_iff {v : Int} : character? v = none ↔ ¬IsCharacter v := by
  unfold character? IsCharacter
  by_cases hneg : 0 ≤ v
  · rw [if_pos hneg]
    by_cases hvalid : v.toNat.isValidChar
    · rw [dif_pos hvalid]
      unfold Nat.isValidChar at hvalid
      exact iff_of_false (Option.some_ne_none _) fun h => h (by omega)
    · rw [dif_neg hvalid]
      unfold Nat.isValidChar at hvalid
      exact iff_of_true rfl fun h => hvalid (by omega)
  · rw [if_neg hneg]
    exact iff_of_true rfl fun h => hneg h.1

/-- The values that pass for characters are the code points. -/
theorem isCharacter_iff {v : Int} : IsCharacter v ↔ ∃ c : Char, v = c.toNat := by
  cases hc : character? v with
  | none =>
    refine iff_of_false (character?_eq_none_iff.mp hc) ?_
    rintro ⟨c, hv⟩
    rw [character?_eq_some_iff.mpr hv] at hc
    exact absurd hc (by simp)
  | some c =>
    refine iff_of_true (Decidable.not_not.mp fun hnot => ?_) ⟨c, character?_eq_some_iff.mp hc⟩
    rw [character?_eq_none_iff.mpr hnot] at hc
    exact absurd hc (by simp)

/-! ## The spelling of a character -/

/-- The fewest continuation bytes that a code point can be spelled with. -/
def tailNeeded (code : Nat) : Nat :=
  if code < 0x80 then 0 else if code < 0x800 then 1 else if code < 0x10000 then 2 else 3

theorem tailNeeded_cases (code : Nat) :
    code < 0x80 ∧ tailNeeded code = 0
      ∨ 0x80 ≤ code ∧ code < 0x800 ∧ tailNeeded code = 1
      ∨ 0x800 ≤ code ∧ code < 0x10000 ∧ tailNeeded code = 2
      ∨ 0x10000 ≤ code ∧ tailNeeded code = 3 := by
  unfold tailNeeded
  repeat' split
  all_goals omega

/-- The needed continuation bytes leave over no more than a lead byte carries. -/
theorem div_tailNeeded_lt {code : Nat} (h : code < 0x200000) :
    code / place (tailNeeded code) < leadCount (tailNeeded code) := by
  rcases tailNeeded_cases code with ⟨hlt, hn⟩ | ⟨-, hlt, hn⟩ | ⟨-, hlt, hn⟩ | ⟨-, hn⟩ <;>
    rw [hn] <;> simp only [leadCount, place_zero, place_one, place_two, place_three] <;> omega

namespace Spelling

/-- How large a code point can be that is spelled with so many continuation bytes. -/
theorem code_lt (s : Spelling) :
    s.tailLength = 0 ∧ s.code < 0x80 ∨ s.tailLength = 1 ∧ s.code < 0x800
      ∨ s.tailLength = 2 ∧ s.code < 0x10000 ∨ s.tailLength = 3 ∧ s.code < 0x200000 := by
  have hdiv := s.div_lt
  match hn : s.tailLength, s.tailLength_le with
  | 0, _ | 1, _ | 2, _ | 3, _ =>
    rw [hn] at hdiv
    simp only [leadCount, place_zero, place_one, place_two, place_three] at hdiv
    omega

theorem tailNeeded_le (s : Spelling) : tailNeeded s.code ≤ s.tailLength := by
  have hlt := s.code_lt
  have hcases := tailNeeded_cases s.code
  omega

/-- The spelling of a code point with the fewest continuation bytes. -/
def shortest (code : Nat) (h : code < 0x200000) : Spelling :=
  ⟨code, tailNeeded code, by have hcases := tailNeeded_cases code; omega, div_tailNeeded_lt h⟩

/-- No other spelling of the same code point has fewer bytes. -/
def IsShortest (s : Spelling) : Prop :=
  ∀ s' : Spelling, s'.code = s.code → s.bytes.length ≤ s'.bytes.length

theorem isShortest_iff (s : Spelling) : s.IsShortest ↔ s.tailLength = tailNeeded s.code := by
  constructor
  · intro h
    have hlt := s.code_lt
    have hle := h (shortest s.code (by omega)) rfl
    have hge := s.tailNeeded_le
    rw [length_bytes, length_bytes] at hle
    exact Nat.le_antisymm (Nat.le_of_succ_le_succ hle) hge
  · intro h s' hcode
    have hge := s'.tailNeeded_le
    rw [length_bytes, length_bytes, h, ← hcode]
    exact Nat.succ_le_succ hge

/-- The spelling that is written for a character. -/
def ofChar (c : Char) : Spelling :=
  shortest c.toNat (by
    have hvalid : c.toNat.isValidChar := c.valid
    unfold Nat.isValidChar at hvalid
    omega)

theorem isShortest_ofChar (c : Char) : (ofChar c).IsShortest := (isShortest_iff _).mpr rfl

/-- What is written for a character is its spelling. -/
theorem bytes_ofChar (c : Char) : (ofChar c).bytes = String.utf8EncodeChar c := by
  have hvalid : c.val.toNat.isValidChar := c.valid
  unfold Nat.isValidChar at hvalid
  show .ofNat (leadMark (tailNeeded c.val.toNat) + c.val.toNat / place (tailNeeded c.val.toNat))
    :: tail (tailNeeded c.val.toNat) c.val.toNat = _
  unfold String.utf8EncodeChar
  generalize c.val.toNat = v at *
  rcases tailNeeded_cases v with ⟨hlt, hn⟩ | ⟨hge, hlt, hn⟩ | ⟨hge, hlt, hn⟩ | ⟨hge, hn⟩
  · simp [hn, leadMark, tail, Nat.le_of_lt_succ hlt]
  · have hdiv : v / 64 % 32 = v / 64 := by omega
    have h₁ : ¬v ≤ 127 := by omega
    have h₂ : v ≤ 2047 := by omega
    simp [hn, leadMark, tail, continuation, h₁, h₂, hdiv, Nat.add_comm]
  · have hdiv : v / 4096 % 16 = v / 4096 := by omega
    have h₁ : ¬v ≤ 127 := by omega
    have h₂ : ¬v ≤ 2047 := by omega
    have h₃ : v ≤ 65535 := by omega
    simp [hn, leadMark, tail, continuation, h₁, h₂, h₃, hdiv, Nat.add_comm]
  · have hdiv : v / 262144 % 8 = v / 262144 := by omega
    have h₁ : ¬v ≤ 127 := by omega
    have h₂ : ¬v ≤ 2047 := by omega
    have h₃ : ¬v ≤ 65535 := by omega
    simp [hn, leadMark, tail, continuation, h₁, h₂, h₃, hdiv, Nat.add_comm]

end Spelling

/-! ## Encoded text -/

/-- Characters as bytes, each encoded on its own. -/
def encode (cs : List Char) : List UInt8 := cs.flatMap String.utf8EncodeChar

/-- Encoded characters are made of their spellings. -/
theorem encode_eq_spelled (cs : List Char) :
    encode cs = (cs.map Spelling.ofChar).flatMap Spelling.bytes := by
  rw [encode, List.flatMap_map]
  simp only [Spelling.bytes_ofChar]

theorem code_comp_ofChar : Spelling.code ∘ Spelling.ofChar = Char.toNat := rfl

/-- What is encoded is read again. -/
theorem decode_encode (cs : List Char) : decode (encode cs) = .ok (cs.map Char.toNat) := by
  refine decode_eq_ok_iff.mpr ⟨cs.map Spelling.ofChar, encode_eq_spelled cs, ?_⟩
  rw [List.map_map, code_comp_ofChar]

theorem encode_inj {cs cs' : List Char} (h : encode cs = encode cs') : cs = cs' := by
  have hread := decode_encode cs
  rw [h, decode_encode, Except.ok.injEq] at hread
  exact (List.map_inj_right fun _ _ heq => Char.toNat_inj.mp heq).mp hread.symm

/-- Where a character ends is seen from its own bytes. -/
theorem utf8EncodeChar_append_inj {c c' : Char} {rest rest' : List UInt8}
    (h : String.utf8EncodeChar c ++ rest = String.utf8EncodeChar c' ++ rest') :
    c = c' ∧ rest = rest' := by
  rw [← Spelling.bytes_ofChar, ← Spelling.bytes_ofChar] at h
  obtain ⟨hspelling, hrest⟩ := Spelling.bytes_append_inj h
  exact ⟨Char.toNat_inj.mp (congrArg Spelling.code hspelling), hrest⟩

/-- Text without a spelling that is longer than it needs to be, and without one of a surrogate or of
a value past the last character. -/
def IsWellFormed (bytes : List UInt8) : Prop :=
  ∃ ss : List Spelling, bytes = ss.flatMap Spelling.bytes
    ∧ ∀ s ∈ ss, s.IsShortest ∧ s.code.isValidChar

/-- Bytes are made of spellings in one way, so that way tells whether they are well-formed. -/
theorem isWellFormed_spelled_iff (ss : List Spelling) :
    IsWellFormed (ss.flatMap Spelling.bytes) ↔ ∀ s ∈ ss, s.IsShortest ∧ s.code.isValidChar := by
  constructor
  · rintro ⟨ss', hbytes, hall⟩
    rwa [Spelling.flatMap_bytes_inj hbytes]
  · intro hall
    exact ⟨ss, rfl, hall⟩

/-- The shortest spelling of a character is the one that is written for it. -/
theorem Spelling.exists_eq_ofChar {s : Spelling} (hshortest : s.IsShortest)
    (hvalid : s.code.isValidChar) : ∃ c, s = ofChar c :=
  ⟨Char.ofNatAux s.code hvalid, Spelling.ext rfl ((isShortest_iff s).mp hshortest)⟩

/-- The well-formed texts are the encoded ones. -/
theorem isWellFormed_iff_encoded {bytes : List UInt8} :
    IsWellFormed bytes ↔ ∃ cs, bytes = encode cs := by
  constructor
  · rintro ⟨ss, rfl, hall⟩
    induction ss with
    | nil => exact ⟨[], rfl⟩
    | cons s ss ih =>
      obtain ⟨⟨hshortest, hvalid⟩, hrest⟩ := List.forall_mem_cons.mp hall
      obtain ⟨c, rfl⟩ := Spelling.exists_eq_ofChar hshortest hvalid
      obtain ⟨cs, hcs⟩ := ih hrest
      refine ⟨c :: cs, ?_⟩
      rw [List.flatMap_cons, hcs, Spelling.bytes_ofChar]
      rfl
  · rintro ⟨cs, rfl⟩
    rw [encode_eq_spelled, isWellFormed_spelled_iff]
    intro s hs
    obtain ⟨c, -, rfl⟩ := List.mem_map.mp hs
    exact ⟨Spelling.isShortest_ofChar c, c.valid⟩

end TwoBus.Text

namespace TwoBus

/-! ## Emitted text -/

namespace OutputDevice

/-- A device asks for the character of a value, and emits the bytes of that character. -/
theorem put_eq (d : OutputDevice) (v : Int) :
    d.put v = match Text.character? v with
      | none => .error (.notCharacter v)
      | some c => if d.sinkGood then .ok (d.take (String.utf8EncodeChar c))
          else .error .sinkFailed := by
  unfold put
  cases hc : Text.character? v with
  | none => rw [if_neg (Text.character?_eq_none_iff.mp hc)]
  | some c =>
    obtain rfl := Text.character?_eq_some_iff.mp hc
    rw [if_pos (Text.isCharacter_iff.mpr ⟨c, rfl⟩), Text.ofInt_toNat, Text.encodePoint_val]

/-- A value is emitted if it is a character and the sink is good. -/
theorem put_eq_ok_iff {d d' : OutputDevice} {v : Int} :
    d.put v = .ok d' ↔ ∃ c, Text.character? v = some c ∧ d.sinkGood = true
      ∧ d' = d.take (String.utf8EncodeChar c) := by
  rw [put_eq]
  cases Text.character? v with
  | none => simp
  | some c => cases d.sinkGood <;> simp [eq_comm]

theorem take_take (d : OutputDevice) (bytes bytes' : List UInt8) :
    (d.take bytes).take bytes' = d.take (bytes ++ bytes') := by
  simp [take, List.reverseAux_eq]

theorem receivedSince_take (d : OutputDevice) (bytes : List UInt8) :
    (d.take bytes).receivedSince d = bytes := by
  simp [receivedSince, take, List.reverseAux_eq]

/-- The values that characters are written as. -/
def codePoints (cs : List Char) : List Int := cs.map fun c => (c.toNat : Int)

/-- The device accepts values if it accepts each of them in turn. -/
def Accepts [Logger] (d : OutputDevice) (vs : List Int) : Prop :=
  ((vs.forM write).run d).outcome = .ok ⟨⟩

/-- What the sink takes while values are written in turn. -/
def emission [Logger] (d : OutputDevice) (vs : List Int) : List UInt8 :=
  ((vs.forM write).run d).state.receivedSince d

theorem run_write_of_put [Logger] {d d' : OutputDevice} {v : Int} (h : d.put v = .ok d') :
    (write v).run d = ⟨.ok ⟨⟩, d', []⟩ := by
  simp [write, h]

theorem run_write_of_not_put [Logger] {d : OutputDevice} {v : Int} {fault : Fault}
    (h : d.put v = .error fault) : (write v).run d = ⟨.error fault, d, []⟩ := by
  simp [write, h]

/-- What is accepted are the code points of characters, and what is emitted is their text. -/
theorem run_writes_of_accepts [Logger] {d : OutputDevice} {vs : List Int} (h : d.Accepts vs) :
    ∃ cs : List Char, vs = codePoints cs
      ∧ ((vs.forM write).run d).state = d.take (Text.encode cs) := by
  induction vs generalizing d with
  | nil => exact ⟨[], rfl, rfl⟩
  | cons v vs ih =>
    unfold Accepts at h
    rw [Activity.run_forM_cons] at h ⊢
    cases hput : d.put v with
    | error fault =>
      rw [run_write_of_not_put hput] at h
      exact absurd h (by simp)
    | ok d' =>
      obtain ⟨c, hc, -, rfl⟩ := put_eq_ok_iff.mp hput
      rw [run_write_of_put hput, Reaction.andThen_ok] at h ⊢
      obtain ⟨cs, rfl, hstate⟩ := ih h
      refine ⟨c :: cs, ?_, ?_⟩
      · rw [Text.character?_eq_some_iff.mp hc]
        rfl
      · rw [Reaction.state_after, hstate, take_take]
        rfl

/-- A good sink takes every text. -/
theorem run_writes_characters [Logger] {d : OutputDevice} (hgood : d.sinkGood = true)
    (cs : List Char) :
    ((codePoints cs).forM write).run d = ⟨.ok ⟨⟩, d.take (Text.encode cs), []⟩ := by
  induction cs generalizing d with
  | nil => rfl
  | cons c cs ih =>
    have hput : d.put c.toNat = .ok (d.take (String.utf8EncodeChar c)) :=
      put_eq_ok_iff.mpr ⟨c, Text.character?_eq_some_iff.mpr rfl, hgood, rfl⟩
    rw [codePoints, List.map_cons, Activity.run_forM_cons, run_write_of_put hput,
      Reaction.andThen_ok, ← codePoints, ih (by rw [sinkGood_take, hgood]), Reaction.after_mk,
      take_take]
    rfl

theorem emission_of_accepts [Logger] {d : OutputDevice} {vs : List Int} (h : d.Accepts vs) :
    ∃ cs : List Char, vs = codePoints cs
      ∧ d.emission vs = Text.encode cs := by
  obtain ⟨cs, hvs, hstate⟩ := run_writes_of_accepts h
  exact ⟨cs, hvs, by rw [emission, hstate, receivedSince_take]⟩

end OutputDevice

/-- What is encoded is read again, character by character: where one ends is seen from its own
bytes, and no two characters have the same. A device with a good sink emits any text that it is
given as it is encoded, and the bytes that a device emits tell which values it was given. -/
theorem Text.bytes_determine_text [Logger] :
    (∀ cs : List Char, decode (encode cs) = .ok (cs.map Char.toNat))
      ∧ (∀ (c c' : Char) (rest rest' : List UInt8),
          String.utf8EncodeChar c ++ rest = String.utf8EncodeChar c' ++ rest' →
          c = c' ∧ rest = rest')
      ∧ (∀ (d : OutputDevice) (cs : List Char), d.sinkGood = true →
          d.Accepts (OutputDevice.codePoints cs)
            ∧ d.emission (OutputDevice.codePoints cs) = encode cs)
      ∧ ∀ (d d' : OutputDevice) (vs vs' : List Int), d.Accepts vs → d'.Accepts vs' →
          decode (d.emission vs) = .ok (vs.map Int.toNat)
            ∧ (d.emission vs = d'.emission vs' → vs = vs') := by
  refine ⟨decode_encode, fun _ _ _ _ => utf8EncodeChar_append_inj, ?_, ?_⟩
  · intro d cs hgood
    have hrun := OutputDevice.run_writes_characters hgood cs
    refine ⟨congrArg Reaction.outcome hrun, ?_⟩
    rw [OutputDevice.emission, hrun, OutputDevice.receivedSince_take]
  · intro d d' vs vs' haccepts haccepts'
    obtain ⟨cs, rfl, hemission⟩ := OutputDevice.emission_of_accepts haccepts
    obtain ⟨cs', rfl, hemission'⟩ := OutputDevice.emission_of_accepts haccepts'
    rw [hemission, hemission']
    refine ⟨?_, fun h => by rw [encode_inj h]⟩
    rw [decode_encode, OutputDevice.codePoints, List.map_map]
    rfl

/-- The letter `A` and the euro sign, written to a device that has taken a byte before. -/
theorem Text.bytes_determine_text_euro :
    letI := Logger.silent
    (⟨true, [0x3F]⟩ : OutputDevice).emission [0x41, 0x20AC] = [0x41, 0xE2, 0x82, 0xAC]
      ∧ decode ((⟨true, [0x3F]⟩ : OutputDevice).emission [0x41, 0x20AC]) = .ok [0x41, 0x20AC] := by
  obtain ⟨-, -, hemits, hread⟩ := @bytes_determine_text .silent
  obtain ⟨haccepts, hemission⟩ :=
    hemits ⟨true, [0x3F]⟩ [Char.ofNat 0x41, Char.ofNat 0x20AC] rfl
  exact ⟨hemission, (hread _ _ _ _ haccepts haccepts).1⟩

end TwoBus
