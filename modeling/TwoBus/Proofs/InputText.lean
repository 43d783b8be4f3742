import TwoBus.Device.Input
import TwoBus.Proofs.Characters

/-!
# The text of the input device

The device is made over every text that is made of spellings, and over no other. A text need not be
well-formed for that: a spelling may be longer than it needs to be, or be that of a surrogate or of
a value past the last character. And a word holds the code points below `2 ^ 16` only, so that of a
character past them is handed out truncated, and may be zero while characters remain.

* `InputDevice.acceptance`: which texts the device is made over, and which of these are ill-formed.
* `InputDevice.readings`: what is handed out of a text of characters, read by read.
-/

namespace TwoBus.InputDevice

/-! ## Accepted text -/

/-- The device can be made over a source of such bytes. -/
def IsAccepted (bytes : List UInt8) : Prop := ∃ d, ofSource? (some bytes) = .ok d

theorem ofSource?_of_decode {bytes : List UInt8} {codes : List Nat}
    (h : Text.decode bytes = .ok codes) :
    ofSource? (some bytes) = .ok ⟨codes.map fun c : Nat => .ofInt 16 c⟩ := by
  rw [ofSource?, h]

theorem ofSource?_of_malformed {bytes : List UInt8} {offset : Nat}
    (h : Text.decode bytes = .error offset) :
    ofSource? (some bytes) = .error (.malformedText offset) := by
  rw [ofSource?, h]

theorem isAccepted_iff_spelled {bytes : List UInt8} :
    IsAccepted bytes ↔ ∃ ss : List Text.Spelling, bytes = ss.flatMap Text.Spelling.bytes := by
  constructor
  · rintro ⟨d, hd⟩
    cases hdecode : Text.decode bytes with
    | error offset =>
      rw [ofSource?_of_malformed hdecode] at hd
      exact absurd hd (by simp)
    | ok codes =>
      obtain ⟨ss, hbytes, -⟩ := Text.decode_eq_ok_iff.mp hdecode
      exact ⟨ss, hbytes⟩
  · rintro ⟨ss, hbytes⟩
    exact ⟨_, ofSource?_of_decode (Text.decode_eq_ok_iff.mpr ⟨ss, hbytes, rfl⟩)⟩

/-- A text is refused with the offset of a byte, or accepted. -/
theorem malformed_iff_not_isAccepted {bytes : List UInt8} :
    (∃ offset, ofSource? (some bytes) = .error (.malformedText offset)) ↔ ¬IsAccepted bytes := by
  constructor
  · rintro ⟨offset, hmalformed⟩ ⟨d, hd⟩
    rw [hmalformed] at hd
    exact absurd hd (by simp)
  · intro hrefused
    cases hdecode : Text.decode bytes with
    | error offset => exact ⟨offset, ofSource?_of_malformed hdecode⟩
    | ok codes => exact absurd ⟨_, ofSource?_of_decode hdecode⟩ hrefused

theorem isAccepted_of_isWellFormed {bytes : List UInt8} (h : Text.IsWellFormed bytes) :
    IsAccepted bytes := by
  obtain ⟨ss, hbytes, -⟩ := h
  exact isAccepted_iff_spelled.mpr ⟨ss, hbytes⟩

/-- One spelling that is too long, or that spells no character, makes a text ill-formed and does not
keep it from being accepted. -/
theorem accepted_illFormed_of_mem {ss : List Text.Spelling} {s : Text.Spelling} (hs : s ∈ ss)
    (hbad : ¬s.IsShortest ∨ ¬s.code.isValidChar) :
    IsAccepted (ss.flatMap Text.Spelling.bytes)
      ∧ ¬Text.IsWellFormed (ss.flatMap Text.Spelling.bytes) := by
  refine ⟨isAccepted_iff_spelled.mpr ⟨ss, rfl⟩, ?_⟩
  intro hwell
  obtain ⟨hshortest, hvalid⟩ := (Text.isWellFormed_spelled_iff ss).mp hwell s hs
  rcases hbad with hbad | hbad
  · exact hbad hshortest
  · exact hbad hvalid

/-- The device is made over the texts that are made of spellings, and any other is refused as
malformed. Every well-formed text is among them. An accepted text is ill-formed if one of its
spellings is longer than it needs to be or spells no character. -/
theorem acceptance (bytes : List UInt8) :
    (IsAccepted bytes ↔ ∃ ss : List Text.Spelling, bytes = ss.flatMap Text.Spelling.bytes)
      ∧ ((∃ offset, ofSource? (some bytes) = .error (.malformedText offset)) ↔ ¬IsAccepted bytes)
      ∧ (Text.IsWellFormed bytes → IsAccepted bytes)
      ∧ (IsAccepted bytes ∧ ¬Text.IsWellFormed bytes ↔
          ∃ ss : List Text.Spelling, bytes = ss.flatMap Text.Spelling.bytes
            ∧ ∃ s ∈ ss, ¬s.IsShortest ∨ ¬s.code.isValidChar) := by
  refine ⟨isAccepted_iff_spelled, malformed_iff_not_isAccepted, isAccepted_of_isWellFormed, ?_⟩
  constructor
  · rintro ⟨haccepted, hill⟩
    obtain ⟨ss, rfl⟩ := isAccepted_iff_spelled.mp haccepted
    rw [Text.isWellFormed_spelled_iff] at hill
    refine ⟨ss, rfl, ?_⟩
    simpa only [Classical.not_forall, Classical.not_and_iff_not_or_not, exists_prop] using hill
  · rintro ⟨ss, rfl, s, hs, hbad⟩
    exact accepted_illFormed_of_mem hs hbad

/-- The euro sign is well-formed. -/
theorem acceptance_euro :
    Text.IsWellFormed [0xE2, 0x82, 0xAC] ∧ IsAccepted [0xE2, 0x82, 0xAC] := by
  have hwell : Text.IsWellFormed [0xE2, 0x82, 0xAC] :=
    Text.isWellFormed_iff_encoded.mpr ⟨[Char.ofNat 0x20AC], rfl⟩
  exact ⟨hwell, (acceptance _).2.2.1 hwell⟩

/-- A zero in two bytes, a surrogate, and a value past the last character are accepted. -/
theorem acceptance_illFormed :
    (IsAccepted [0xC0, 0x80] ∧ ¬Text.IsWellFormed [0xC0, 0x80])
      ∧ (IsAccepted [0xED, 0xA0, 0x80] ∧ ¬Text.IsWellFormed [0xED, 0xA0, 0x80])
      ∧ (IsAccepted [0xF4, 0x90, 0x80, 0x80]
          ∧ ¬Text.IsWellFormed [0xF4, 0x90, 0x80, 0x80]) := by
  have hbad : ∀ s : Text.Spelling, ¬s.IsShortest ∨ ¬s.code.isValidChar →
      IsAccepted s.bytes ∧ ¬Text.IsWellFormed s.bytes := by
    intro s hs
    simpa using accepted_illFormed_of_mem (List.mem_singleton_self s) hs
  refine ⟨?_, ?_, ?_⟩
  · exact hbad ⟨0, 1, by decide, by decide⟩ (.inl (by rw [Text.Spelling.isShortest_iff]; decide))
  · exact hbad ⟨0xD800, 2, by decide, by decide⟩ (.inr (by decide))
  · exact hbad ⟨0x110000, 3, by decide, by decide⟩ (.inr (by decide))

/-! ## Reading on -/

/-- What a number of reads hand out. -/
def reads : Nat → Activity InputDevice (List (Word 16))
  | 0 => return []
  | n + 1 => do
    let v ← read
    return v :: (← reads n)

/-- The characters that are left are handed out in order, and zeros after them. -/
theorem run_reads [Logger] (n : Nat) (d : InputDevice) :
    (reads n).run d
      = ⟨.ok (d.pending.take n ++ List.replicate (n - d.remaining) 0), ⟨d.pending.drop n⟩, []⟩ := by
  induction n generalizing d with
  | zero => simp [reads]
  | succ n ih =>
    obtain ⟨pending⟩ := d
    cases pending with
    | nil => simp [reads, ih, next, advance, remaining, List.replicate_succ]
    | cons v rest => simp [reads, ih, next, advance, remaining]

/-! ## The characters of a text -/

/-- The word that is handed out for a character. -/
def word (c : Char) : Word 16 := .ofInt 16 c.toNat

/-- A word keeps what a code point leaves when it is divided by `2 ^ 16`. -/
theorem toInt_word (c : Char) : (word c).toInt = (c.toNat % 65536 : Nat) := rfl

theorem ofSource?_encode (cs : List Char) :
    ofSource? (some (Text.encode cs)) = .ok ⟨cs.map word⟩ := by
  rw [ofSource?_of_decode (Text.decode_encode cs), List.map_map]
  rfl

/-- What is handed out is the code point if a word holds it. -/
theorem toInt_word_eq_iff (c : Char) : (word c).toInt = c.toNat ↔ c.toNat < 65536 := by
  rw [toInt_word]
  omega

theorem word_eq_zero_iff (c : Char) : word c = 0 ↔ 65536 ∣ c.toNat := by
  rw [Nat.dvd_iff_mod_eq_zero]
  constructor
  · intro hzero
    have hint := congrArg Word.toInt hzero
    rw [toInt_word, Word.toInt_zero] at hint
    omega
  · intro hmod
    refine Word.ext ?_
    rw [toInt_word, hmod]
    rfl

/-- What is handed out of a text are its code points if a word holds each of them. -/
theorem map_word_eq_codePoints_iff (cs : List Char) :
    (cs.map word).map Word.toInt = OutputDevice.codePoints cs ↔ ∀ c ∈ cs, c.toNat < 65536 := by
  rw [OutputDevice.codePoints, List.map_map]
  refine List.map_inj_left.trans ?_
  simp only [Function.comp_apply, toInt_word_eq_iff]

/-- The device over a text of characters holds as many. Its reads hand out, in order, what a
division by `2 ^ 16` leaves of each code point, and zeros after the last. So a zero is handed out
before that where the division leaves nothing, and the code points themselves are handed out if a
word holds each of them. -/
theorem readings [Logger] (cs : List Char) :
    ∃ d, ofSource? (some (Text.encode cs)) = .ok d ∧ d.remaining = cs.length
      ∧ (∀ n, ∃ words d', (reads n).run d = ⟨.ok words, d', []⟩
          ∧ words.map Word.toInt = ((cs.take n).map fun c => ((c.toNat % 65536 : Nat) : Int))
              ++ List.replicate (n - cs.length) 0
          ∧ d'.remaining = cs.length - n)
      ∧ (∀ i : Fin cs.length, ((reads i).run d).state.next = 0 ↔ 65536 ∣ (cs.get i).toNat)
      ∧ ((∃ words, ((reads cs.length).run d).outcome = .ok words
            ∧ words.map Word.toInt = OutputDevice.codePoints cs) ↔ ∀ c ∈ cs, c.toNat < 65536) := by
  have hlength : (⟨cs.map word⟩ : InputDevice).remaining = cs.length := List.length_map ..
  refine ⟨⟨cs.map word⟩, ofSource?_encode cs, hlength, ?_, ?_, ?_⟩
  · intro n
    refine ⟨_, _, run_reads n _, ?_, ?_⟩
    · rw [hlength, List.map_append, List.map_replicate, ← List.map_take, List.map_map]
      rfl
    · rw [remaining, List.length_drop, List.length_map]
  · intro i
    have hnext : ((reads i).run ⟨cs.map word⟩).state.next = word (cs.get i) := by
      rw [run_reads, next, List.headD_eq_head?_getD, List.head?_drop, List.getElem?_map,
        List.getElem?_eq_getElem i.isLt]
      rfl
    rw [hnext, word_eq_zero_iff]
  · -- as many reads as there are characters hand out the whole text and no zero
    have hwhole : ((reads cs.length).run ⟨cs.map word⟩).outcome = .ok (cs.map word) := by
      rw [run_reads, hlength, Nat.sub_self, List.replicate_zero, List.append_nil,
        List.take_of_length_le (Nat.le_of_eq hlength)]
    rw [← map_word_eq_codePoints_iff, hwhole]
    constructor
    · rintro ⟨words, hwords, hexact⟩
      rwa [Except.ok.inj hwords]
    · intro hexact
      exact ⟨_, rfl, hexact⟩

/-- The first character past those that a word holds is handed out as zero, as if none were left. -/
theorem readings_wide :
    ∃ d, ofSource? (some (Text.encode [Char.ofNat 0x10000])) = .ok d ∧ d.remaining = 1
      ∧ d.next = 0 ∧ d.next.toInt ≠ (Char.ofNat 0x10000).toNat :=
  ⟨_, ofSource?_encode _, rfl, rfl, by decide⟩

end TwoBus.InputDevice
