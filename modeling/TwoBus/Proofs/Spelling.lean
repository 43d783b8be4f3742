import TwoBus.Text.Utf8

/-!
# Spellings of code points

A code point is spelled by a lead byte and up to three continuation bytes. A continuation byte
carries one digit to base 64, and the lead byte announces how many there are and carries what is
left. Nothing asks for the fewest: a code point may be spelled longer than it needs to be.

* `exists_spelled_prefix`: the decoder gets through a text up to where it begins with no spelling.
* `decode_eq_ok_iff`: the decoder accepts what is made of spellings, and reads off their code
  points.
* `Spelling.bytes_append_inj`: where a spelling ends is seen from its own bytes, so bytes are made
  of spellings in one way only.
-/

namespace TwoBus.Text

/-! ## Lead bytes and continuation bytes -/

/-- The lowest of the lead bytes that announce a number of continuation bytes. -/
def leadMark : Nat → Nat
  | 0 => 0x00
  | 1 => 0xC0
  | 2 => 0xE0
  | _ => 0xF0

/-- How many lead bytes announce a number of continuation bytes. -/
def leadCount : Nat → Nat
  | 0 => 0x80
  | 1 => 0x20
  | 2 => 0x10
  | _ => 0x08

/-- The continuation byte that carries a digit to base 64. -/
def continuation (digit : Nat) : UInt8 := .ofNat (0x80 + digit)

/-- What a digit to base 64 is worth that has so many digits after it. -/
def place (n : Nat) : Nat := Nat.pow 64 n

/-- The last digits of a code point to base 64, as continuation bytes. -/
def tail : Nat → Nat → List UInt8
  | 0, _ => []
  | n + 1, code => continuation (code / place n % 64) :: tail n code

@[simp] theorem place_zero : place 0 = 1 := rfl

@[simp] theorem place_one : place 1 = 64 := rfl

@[simp] theorem place_two : place 2 = 4096 := rfl

@[simp] theorem place_three : place 3 = 262144 := rfl

theorem place_succ (n : Nat) : place (n + 1) = place n * 64 := rfl

theorem mod_place_succ (code n : Nat) :
    code % place (n + 1) = code % place n + place n * (code / place n % 64) := Nat.mod_pow_succ

theorem lead?_ofNat {n payload : Nat} (hn : n ≤ 3) (hpayload : payload < leadCount n) :
    lead? (.ofNat (leadMark n + payload)) = some (payload, n) := by
  have hall : ∀ n ≤ 3, ∀ payload < leadCount n,
      lead? (.ofNat (leadMark n + payload)) = some (payload, n) := by decide +kernel
  exact hall n hn payload hpayload

/-- A lead byte is the mark for its number of continuation bytes, and a payload on top of it. -/
theorem eq_ofNat_of_lead? {b : UInt8} {n payload : Nat} (h : lead? b = some (payload, n)) :
    n ≤ 3 ∧ payload < leadCount n ∧ b = .ofNat (leadMark n + payload) := by
  have hall : ∀ k < 256, (lead? (.ofNat k)).all (fun (payload, n) =>
      n ≤ 3 ∧ payload < leadCount n ∧ UInt8.ofNat k = .ofNat (leadMark n + payload)) = true := by
    decide +kernel
  have hb := hall b.toNat b.toNat_lt
  rw [UInt8.ofNat_toNat, h] at hb
  simpa using hb

theorem continuation_digit {digit : Nat} (h : digit < 64) :
    isContinuation (continuation digit) = true ∧ (continuation digit &&& 0x3F).toNat = digit := by
  have hall : ∀ digit < 64, isContinuation (continuation digit) = true
      ∧ (continuation digit &&& 0x3F).toNat = digit := by decide +kernel
  exact hall digit h

theorem eq_continuation {b : UInt8} (h : isContinuation b = true) :
    (b &&& 0x3F).toNat < 64 ∧ b = continuation (b &&& 0x3F).toNat := by
  have hall : ∀ k < 256, isContinuation (.ofNat k) = true → (UInt8.ofNat k &&& 0x3F).toNat < 64
      ∧ UInt8.ofNat k = continuation (UInt8.ofNat k &&& 0x3F).toNat := by decide +kernel
  have hb := hall b.toNat b.toNat_lt
  rw [UInt8.ofNat_toNat] at hb
  exact hb h

@[simp] theorem length_tail (n code : Nat) : (tail n code).length = n := by
  induction n with
  | zero => rfl
  | succ n ih => rw [tail, List.length_cons, ih]

/-- What is read of the digits of a code point. -/
theorem continued_tail (offset payload n code : Nat) :
    continued offset payload (tail n code) = .ok (payload * place n + code % place n) := by
  induction n generalizing offset payload with
  | zero => simp [tail, continued, Nat.mod_one]
  | succ n ih =>
    obtain ⟨hmark, hdigit⟩ := continuation_digit (Nat.mod_lt (code / place n) (by decide : 0 < 64))
    rw [tail, continued, if_pos hmark, hdigit, ih, mod_place_succ, place_succ, Nat.add_mul,
      Nat.mul_assoc, Nat.mul_comm 64, Nat.mul_comm (place n) (_ % _), Nat.add_assoc,
      Nat.add_comm (_ % _ * _)]

/-- Bytes that continue a payload are the digits of the code point that they make of it. -/
theorem eq_tail_of_continued {offset payload code : Nat} {bs : List UInt8}
    (h : continued offset payload bs = .ok code) :
    bs = tail bs.length code ∧ code / place bs.length = payload := by
  induction bs generalizing offset payload with
  | nil =>
    obtain rfl : payload = code := Except.ok.inj h
    exact ⟨rfl, Nat.div_one payload⟩
  | cons b bs ih =>
    by_cases hb : isContinuation b = true
    · rw [continued, if_pos hb] at h
      obtain ⟨htail, hcode⟩ := ih h
      obtain ⟨hlt, hdigit⟩ := eq_continuation hb
      -- the byte is the digit above the rest, and above that is the payload
      have hmod : code / place bs.length % 64 = (b &&& 0x3F).toNat := by omega
      refine ⟨?_, ?_⟩
      · rw [List.length_cons, tail, hmod, ← htail, ← hdigit]
      · rw [List.length_cons, place_succ, ← Nat.div_div_eq_div_mul, hcode]
        omega
    · rw [continued, if_neg hb] at h
      exact absurd h (by simp)

/-- Bytes continue a payload, or one of them does not; either way it does not matter where in a text
they are. -/
theorem continued_cases (payload : Nat) (bs : List UInt8) :
    (∃ code, ∀ offset, continued offset payload bs = .ok code)
      ∨ ∃ k < bs.length, ∀ offset, continued offset payload bs = .error (offset + k) := by
  induction bs generalizing payload with
  | nil => exact .inl ⟨payload, fun offset => rfl⟩
  | cons b bs ih =>
    by_cases hb : isContinuation b = true
    · have hstep : ∀ offset, continued offset payload (b :: bs)
          = continued (offset + 1) (payload * 64 + (b &&& 0x3F).toNat) bs := by
        intro offset
        rw [continued, if_pos hb]
      rcases ih (payload * 64 + (b &&& 0x3F).toNat) with ⟨code, hcode⟩ | ⟨k, hk, hcode⟩
      · exact .inl ⟨code, fun offset => by rw [hstep, hcode]⟩
      · refine .inr ⟨k + 1, Nat.succ_lt_succ hk, fun offset => ?_⟩
        rw [hstep, hcode, Nat.add_assoc, Nat.add_comm 1]
    · exact .inr ⟨0, Nat.succ_pos _, fun offset => by rw [continued, if_neg hb, Nat.add_zero]⟩

/-! ## One step of the decoder -/

theorem decodeFrom_of_no_lead {b : UInt8} (h : lead? b = none) (offset : Nat) (rest : List UInt8) :
    decodeFrom offset (b :: rest) = .error offset := by
  simp [decodeFrom, h]

/-- A text that ends inside a spelling. -/
theorem decodeFrom_of_short {b : UInt8} {n payload : Nat} {rest : List UInt8}
    (h : lead? b = some (payload, n)) (hshort : rest.length < n) (offset : Nat) :
    decodeFrom offset (b :: rest) = .error offset := by
  obtain ⟨hn, -, -⟩ := eq_ofNat_of_lead? h
  unfold decodeFrom
  rw [h]
  match n, rest, hn, hshort with
  | 1, [], _, _ | 2, [], _, _ | 2, [_], _, _ | 3, [], _, _ | 3, [_], _, _ | 3, [_, _], _, _ => rfl

/-- The continuation bytes are read, and then what comes after them. -/
theorem decodeFrom_append {b : UInt8} {n payload : Nat} {bs : List UInt8}
    (h : lead? b = some (payload, n)) (hlength : bs.length = n) (offset : Nat)
    (rest : List UInt8) :
    decodeFrom offset (b :: (bs ++ rest))
      = (continued (offset + 1) payload bs).bind fun code =>
          (decodeFrom (offset + (n + 1)) rest).map (code :: ·) := by
  obtain ⟨hn, -, -⟩ := eq_ofNat_of_lead? h
  conv => lhs; unfold decodeFrom
  rw [h]
  match n, bs, hn, hlength with
  | 0, [], _, _ => rfl
  | 1, [_], _, _ => rfl
  | 2, [_, _], _, _ => rfl
  | 3, [_, _, _], _, _ => rfl

/-! ## Spellings -/

/-- A code point, and with how many continuation bytes it is spelled. -/
structure Spelling where
  code : Nat
  tailLength : Nat
  tailLength_le : tailLength ≤ 3
  /-- What the continuation bytes leave over is carried by the lead byte. -/
  div_lt : code / place tailLength < leadCount tailLength
  deriving DecidableEq, Repr

namespace Spelling

def lead (s : Spelling) : UInt8 :=
  .ofNat (leadMark s.tailLength + s.code / place s.tailLength)

/-- The bytes of a spelling. -/
def bytes (s : Spelling) : List UInt8 := s.lead :: tail s.tailLength s.code

theorem lead?_lead (s : Spelling) :
    lead? s.lead = some (s.code / place s.tailLength, s.tailLength) :=
  lead?_ofNat s.tailLength_le s.div_lt

@[simp] theorem length_bytes (s : Spelling) : s.bytes.length = s.tailLength + 1 := by
  simp [bytes]

@[ext] theorem ext {s s' : Spelling} (hcode : s.code = s'.code)
    (hlength : s.tailLength = s'.tailLength) : s = s' := by
  cases s
  cases s'
  cases hcode
  cases hlength
  rfl

end Spelling

/-- A spelling is read as its code point, and then what comes after it is read. -/
theorem decodeFrom_bytes_append (offset : Nat) (s : Spelling) (rest : List UInt8) :
    decodeFrom offset (s.bytes ++ rest)
      = (decodeFrom (offset + s.bytes.length) rest).map (s.code :: ·) := by
  have hcode : s.code / place s.tailLength * place s.tailLength + s.code % place s.tailLength
      = s.code := Nat.div_add_mod' s.code _
  rw [Spelling.length_bytes, Spelling.bytes, List.cons_append,
    decodeFrom_append s.lead?_lead (length_tail _ _), continued_tail, hcode]
  rfl

/-- Some spellings are read as their code points, and then what comes after them is read. -/
theorem decodeFrom_spelled_append (offset : Nat) (ss : List Spelling) (rest : List UInt8) :
    decodeFrom offset (ss.flatMap Spelling.bytes ++ rest)
      = (decodeFrom (offset + (ss.flatMap Spelling.bytes).length) rest).map
          (ss.map Spelling.code ++ ·) := by
  induction ss generalizing offset with
  | nil =>
    rw [List.flatMap_nil, List.nil_append, List.length_nil, Nat.add_zero]
    cases decodeFrom offset rest <;> rfl
  | cons s ss ih =>
    rw [List.flatMap_cons, List.append_assoc, decodeFrom_bytes_append, ih, List.length_append,
      Nat.add_assoc]
    cases decodeFrom _ rest <;> rfl

/-! ## Where the decoder stops -/

/-- What the decoder does not get past: wherever in a text these bytes are, it stops at one of the
first four. -/
structure Stops (bytes : List UInt8) (k : Nat) : Prop where
  decodeFrom_eq : ∀ offset, decodeFrom offset bytes = .error (offset + k)
  lt_length : k < bytes.length
  le_three : k ≤ 3

/-- What begins with no spelling stops the decoder. -/
theorem spelling_or_stops (b : UInt8) (bs : List UInt8) :
    (∃ (s : Spelling) (rest : List UInt8), b :: bs = s.bytes ++ rest)
      ∨ ∃ k, Stops (b :: bs) k := by
  cases hlead : lead? b with
  | none =>
    exact .inr ⟨0, fun offset => decodeFrom_of_no_lead hlead offset bs, Nat.succ_pos _,
      Nat.zero_le 3⟩
  | some found =>
    obtain ⟨payload, n⟩ := found
    obtain ⟨hn, hpayload, hb⟩ := eq_ofNat_of_lead? hlead
    by_cases hshort : bs.length < n
    · exact .inr ⟨0, fun offset => decodeFrom_of_short hlead hshort offset, Nat.succ_pos _,
        Nat.zero_le 3⟩
    have hlength : (bs.take n).length = n := List.length_take_of_le (Nat.not_lt.mp hshort)
    rcases continued_cases payload (bs.take n) with ⟨code, hcode⟩ | ⟨k, hk, hcode⟩
    · obtain ⟨htail, hdiv⟩ := eq_tail_of_continued (hcode 0)
      rw [hlength] at htail hdiv
      rw [← hdiv] at hpayload hb
      refine .inl ⟨⟨code, n, hn, hpayload⟩, bs.drop n, ?_⟩
      rw [Spelling.bytes, Spelling.lead, List.cons_append, ← htail, List.take_append_drop, ← hb]
    · -- the byte at fault is one of those that should continue the payload
      have hstop : ∀ offset, decodeFrom offset (b :: bs) = .error (offset + (k + 1)) := by
        intro offset
        rw [← List.take_append_drop n bs, decodeFrom_append hlead hlength, hcode, Nat.add_assoc,
          Nat.add_comm 1]
        rfl
      rw [hlength] at hk
      refine .inr ⟨k + 1, hstop, ?_, ?_⟩
      · rw [List.length_cons]
        omega
      · omega

/-- A text is made of spellings up to where the decoder stops, or up to its end. -/
theorem exists_spelled_prefix (bytes : List UInt8) :
    ∃ (ss : List Spelling) (rest : List UInt8), bytes = ss.flatMap Spelling.bytes ++ rest
      ∧ (rest = [] ∨ ∃ k, Stops rest k) := by
  -- by induction on how much is left to read, which each spelling makes less
  induction hlength : bytes.length using Nat.strongRecOn generalizing bytes with
  | _ length ih =>
    cases bytes with
    | nil => exact ⟨[], [], rfl, .inl rfl⟩
    | cons b bs =>
      rcases spelling_or_stops b bs with ⟨s, rest, hbytes⟩ | hstops
      · have hless : rest.length < length := by
          rw [← hlength, hbytes, List.length_append, s.length_bytes]
          omega
        obtain ⟨ss, rest', rfl, hrest'⟩ := ih rest.length hless rest rfl
        exact ⟨s :: ss, rest', by rw [hbytes, List.flatMap_cons, List.append_assoc], hrest'⟩
      · exact ⟨[], b :: bs, rfl, .inr hstops⟩

theorem decodeFrom_spelled (offset : Nat) (ss : List Spelling) :
    decodeFrom offset (ss.flatMap Spelling.bytes) = .ok (ss.map Spelling.code) := by
  have hread := decodeFrom_spelled_append offset ss []
  rw [List.append_nil] at hread
  rw [hread]
  exact congrArg Except.ok (List.append_nil _)

/-- After some spellings, the decoder stops where it is stopped. -/
theorem decodeFrom_spelled_stops (offset : Nat) (ss : List Spelling) {rest : List UInt8} {k : Nat}
    (h : Stops rest k) :
    decodeFrom offset (ss.flatMap Spelling.bytes ++ rest)
      = .error (offset + (ss.flatMap Spelling.bytes).length + k) := by
  rw [decodeFrom_spelled_append, h.decodeFrom_eq]
  rfl

/-- The decoder accepts the bytes that are made of spellings, and answers with what they spell. -/
theorem decode_eq_ok_iff {bytes : List UInt8} {codes : List Nat} :
    decode bytes = .ok codes
      ↔ ∃ ss : List Spelling, bytes = ss.flatMap Spelling.bytes ∧ codes = ss.map Spelling.code := by
  constructor
  · intro h
    obtain ⟨ss, rest, rfl, rfl | ⟨k, hstops⟩⟩ := exists_spelled_prefix bytes
    · rw [List.append_nil] at h ⊢
      exact ⟨ss, rfl, (Except.ok.inj (h.symm.trans (decodeFrom_spelled 0 ss)))⟩
    · rw [decode, decodeFrom_spelled_stops 0 ss hstops] at h
      cases h
  · rintro ⟨ss, rfl, rfl⟩
    exact decodeFrom_spelled 0 ss

namespace Spelling

/-- Where a spelling ends is seen from its own bytes. -/
theorem bytes_append_inj {s s' : Spelling} {rest rest' : List UInt8}
    (h : s.bytes ++ rest = s'.bytes ++ rest') : s = s' ∧ rest = rest' := by
  obtain ⟨hlead, hrest⟩ := List.cons.inj h
  -- the lead bytes agree on the number of continuation bytes and on what is left over by them
  have hhead := s.lead?_lead
  rw [hlead, s'.lead?_lead, Option.some.injEq, Prod.mk.injEq] at hhead
  obtain ⟨hdiv, hlength⟩ := hhead
  obtain ⟨htail, rfl⟩ := List.append_inj hrest (by rw [length_tail, length_tail, hlength])
  have hcode := continued_tail 0 (s.code / place s.tailLength) s.tailLength s.code
  rw [htail, ← hdiv, ← hlength, continued_tail, Nat.div_add_mod', hdiv, hlength,
    Nat.div_add_mod'] at hcode
  exact ⟨Spelling.ext (Except.ok.inj hcode).symm hlength.symm, rfl⟩

/-- Bytes are made of spellings in one way only. -/
theorem flatMap_bytes_inj {ss ss' : List Spelling}
    (h : ss.flatMap bytes = ss'.flatMap bytes) : ss = ss' := by
  induction ss generalizing ss' with
  | nil =>
    cases ss' with
    | nil => rfl
    | cons s' ss' => exact absurd h (by simp [bytes])
  | cons s ss ih =>
    cases ss' with
    | nil => exact absurd h (by simp [bytes])
    | cons s' ss' =>
      obtain ⟨rfl, hrest⟩ := bytes_append_inj h
      rw [ih hrest]

end Spelling

end TwoBus.Text
